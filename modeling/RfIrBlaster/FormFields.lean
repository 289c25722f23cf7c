/-
Form bodies between the pages and the device: `postForm` of `data.js` writes them,
`formField` of `web_auth.cpp` and `onboarding.cpp`, one text in both, reads them.
-/
import RfIrBlaster.BrowserText
import RfIrBlaster.Onboarding

namespace RfIrBlaster.Form

open Browser Onboarding

/-- The characters `encodeURIComponent` leaves as they are. -/
def isUnescaped (c : Char) : Bool :=
  decide (97 ≤ c.toNat ∧ c.toNat ≤ 122) || decide (65 ≤ c.toNat ∧ c.toNat ≤ 90) ||
    decide (48 ≤ c.toNat ∧ c.toNat ≤ 57) || [45, 95, 46, 33, 126, 42, 39, 40, 41].contains c.toNat

def upperHex (d : Nat) : UInt8 :=
  UInt8.ofNat (if d < 10 then 48 + d else 55 + d)

def percentByte (b : UInt8) : Bytes :=
  [37, upperHex (b.toNat / 16), upperHex (b.toNat % 16)]

def encodeURIComponent (text : List Char) : Bytes :=
  text.flatMap fun c =>
    if isUnescaped c then [UInt8.ofNat c.toNat] else (Json.utf8 c.toNat).flatMap percentByte

/-- The body `postForm` sends for its keys in order, each with its field. -/
def formBody (fields : List (List Char × List Char)) : Bytes :=
  List.intercalate [38]
    (fields.map fun field => encodeURIComponent field.1 ++ 61 :: encodeURIComponent field.2)

/-- The loop of `formField`; `rest` is the body from `i` on, and the positions count from
there.  The search for `=` does not stop at the end of the field. -/
def formFieldLoop (rest key : Bytes) : Option Bytes :=
  if rest.isEmpty then none
  else
    let amp := rest.idxOf? 38
    let fieldEnd := amp.getD rest.length
    let eq := (rest.idxOf? 61).filter fun eq => eq ≤ fieldEnd
    let k := rest.take (eq.getD fieldEnd)
    if urlDecode k = key then
      match eq with
      | none => some (urlDecode [])
      | some eq => some (urlDecode ((rest.drop (eq + 1)).take (fieldEnd - eq - 1)))
    else
      match amp with
      | none => none
      | some amp => formFieldLoop (rest.drop (amp + 1)) key
termination_by rest.length
decreasing_by
  rename_i hrest _ _
  rw [List.isEmpty_iff] at hrest
  have hpos := List.length_pos_of_ne_nil hrest
  rw [List.length_drop]
  omega

def formField (body key : Bytes) : Option Bytes :=
  formFieldLoop body key

section Decode

theorem urlDecode_plain {c : UInt8} (hplus : c ≠ 43) (hpercent : c ≠ 37) (rest : Bytes) :
    urlDecode (c :: rest) = c :: urlDecode rest := by
  cases rest with
  | nil => simp [urlDecode, hplus]
  | cons h rest =>
      cases rest with
      | nil => simp [urlDecode, hplus]
      | cons l rest => rw [urlDecode, if_neg hplus, if_neg hpercent]

theorem hexValue_upperHex : ∀ d < 16, Json.hexValue (upperHex d) = some d := by
  decide

/-- An escape is read as its byte, also at the very end. -/
theorem urlDecode_percentByte (b : UInt8) (rest : Bytes) :
    urlDecode (percentByte b ++ rest) = b :: urlDecode rest := by
  have hb := b.toNat_lt
  have hhigh := hexValue_upperHex (b.toNat / 16) (by omega)
  have hlow := hexValue_upperHex (b.toNat % 16) (by omega)
  have hsum : b.toNat / 16 * 16 + b.toNat % 16 = b.toNat := by omega
  change urlDecode (37 :: upperHex (b.toNat / 16) :: upperHex (b.toNat % 16) :: rest) = _
  rw [urlDecode, if_neg (by decide), if_pos rfl, hhigh, hlow]
  simp only [hsum, UInt8.ofNat_toNat]

theorem urlDecode_percentBytes (bs rest : Bytes) :
    urlDecode (bs.flatMap percentByte ++ rest) = bs ++ urlDecode rest := by
  induction bs with
  | nil => rfl
  | cons b bs ih =>
      rw [List.flatMap_cons, List.append_assoc, urlDecode_percentByte, ih, List.cons_append]

/-- What stands for itself is ASCII and none of the characters a form gives a meaning. -/
theorem isUnescaped_range {c : Char} (h : isUnescaped c = true) :
    c.toNat < 128 ∧ c.toNat ≠ 37 ∧ c.toNat ≠ 38 ∧ c.toNat ≠ 43 ∧ c.toNat ≠ 61 := by
  simp only [isUnescaped, Bool.or_eq_true, decide_eq_true_eq, List.contains_eq_mem,
    List.mem_cons, List.not_mem_nil, or_false] at h
  omega

theorem ofNat_ne {n : Nat} {b : UInt8} (hn : n < 128) (h : n ≠ b.toNat) : UInt8.ofNat n ≠ b := by
  rintro rfl
  exact h (toNat_byte (by omega)).symm

/-- The device reads an encoded text as its UTF-8 bytes. -/
theorem urlDecode_encodeURIComponent (text : List Char) :
    urlDecode (encodeURIComponent text) = encodeText text := by
  induction text with
  | nil => rfl
  | cons c text ih =>
      rw [encodeText_cons, ← ih, encodeURIComponent, List.flatMap_cons]
      split_ifs with hplain
      · obtain ⟨hascii, hpercent, -, hplus, -⟩ := isUnescaped_range hplain
        rw [List.singleton_append, urlDecode_plain (ofNat_ne hascii hplus)
          (ofNat_ne hascii hpercent), Json.utf8, if_pos hascii]
        rfl
      · exact urlDecode_percentBytes _ _

theorem upperHex_range : ∀ d < 16, upperHex d ≠ 38 ∧ upperHex d ≠ 61 := by
  decide

/-- No encoded text holds a separator. -/
theorem notMem_encodeURIComponent (text : List Char) :
    38 ∉ encodeURIComponent text ∧ 61 ∉ encodeURIComponent text := by
  have hbyte : ∀ b ∈ encodeURIComponent text, b ≠ 38 ∧ b ≠ 61 := by
    intro b hb
    obtain ⟨c, -, hc⟩ := List.mem_flatMap.mp hb
    split_ifs at hc with hplain
    · obtain ⟨hascii, -, hamp, -, heq⟩ := isUnescaped_range hplain
      rw [List.mem_singleton] at hc
      rw [hc]
      exact ⟨ofNat_ne hascii hamp, ofNat_ne hascii heq⟩
    · obtain ⟨u, -, hu⟩ := List.mem_flatMap.mp hc
      have hlt := u.toNat_lt
      simp only [percentByte, List.mem_cons, List.not_mem_nil, or_false] at hu
      rcases hu with rfl | rfl | rfl
      · decide
      · exact upperHex_range _ (by omega)
      · exact upperHex_range _ (by omega)
  exact ⟨fun h => (hbyte 38 h).1 rfl, fun h => (hbyte 61 h).2 rfl⟩

end Decode

section Utf8

/-- The bytes of a character end where its first byte says, so a text is read from its bytes
in one way. -/
theorem utf8_append_inj {m n : Nat} (hm : m < 0x110000) (hn : n < 0x110000) {s t : Bytes}
    (h : Json.utf8 m ++ s = Json.utf8 n ++ t) : m = n ∧ s = t := by
  unfold Json.utf8 at h
  split_ifs at h <;>
    simp only [List.cons_append, List.nil_append, List.cons.injEq, ← UInt8.toNat_inj,
      UInt8.toNat_ofNat'] at h <;>
    first
    | exfalso
      omega
    | exact ⟨by omega, by tauto⟩

theorem utf8_ne_nil (n : Nat) : Json.utf8 n ≠ [] := by
  unfold Json.utf8
  split_ifs <;> exact List.cons_ne_nil _ _

theorem encodeText_inj {text text' : List Char} (h : encodeText text = encodeText text') :
    text = text' := by
  induction text generalizing text' with
  | nil =>
      cases text' with
      | nil => rfl
      | cons c' text' =>
          rw [encodeText_cons] at h
          exact absurd (List.append_eq_nil_iff.mp h.symm).1 (utf8_ne_nil _)
  | cons c text ih =>
      cases text' with
      | nil =>
          rw [encodeText_cons] at h
          exact absurd (List.append_eq_nil_iff.mp h).1 (utf8_ne_nil _)
      | cons c' text' =>
          rw [encodeText_cons, encodeText_cons] at h
          have hc := toNat_range c
          have hc' := toNat_range c'
          obtain ⟨hchar, hrest⟩ := utf8_append_inj (by omega) (by omega) h
          rw [Char.toNat_inj.mp hchar, ih hrest]

end Utf8

section Scan

theorem idxOf?_append_cons {c : UInt8} {front : Bytes} (h : c ∉ front) (back : Bytes) :
    (front ++ c :: back).idxOf? c = some front.length := by
  induction front with
  | nil => simp [List.idxOf?_cons]
  | cons b front ih =>
      rw [List.mem_cons, not_or] at h
      rw [List.cons_append, List.idxOf?_cons, ih h.2]
      simp [Ne.symm h.1]

/-- What the field ends at: the end of the body, or an ampersand and more fields. -/
def nextField (key : Bytes) : Bytes → Option Bytes
  | [] => none
  | _ :: rest => formFieldLoop rest key

section Turn

variable {seg tail : Bytes} (key : Bytes) (hseg : 38 ∉ seg)
  (htail : tail = [] ∨ ∃ rest, tail = 38 :: rest)

include hseg htail

/-- The field ends after its segment. -/
theorem fieldEnd_eq :
    ((seg ++ tail).idxOf? 38).getD (seg ++ tail).length = seg.length := by
  rcases htail with rfl | ⟨rest, rfl⟩
  · rw [List.append_nil, List.idxOf?_eq_none_iff.mpr hseg]
    rfl
  · rw [idxOf?_append_cons hseg]
    rfl

theorem nextField_eq :
    (match (seg ++ tail).idxOf? 38 with
      | none => none
      | some amp => formFieldLoop ((seg ++ tail).drop (amp + 1)) key) = nextField key tail := by
  rcases htail with rfl | ⟨rest, rfl⟩
  · rw [List.append_nil, List.idxOf?_eq_none_iff.mpr hseg]
    rfl
  · rw [idxOf?_append_cons hseg]
    simp only [List.drop_length_add_append]
    rfl

/-- One turn of the loop over a segment without `=`: one further on is not taken for it. -/
theorem formFieldLoop_bare (hne : seg ++ tail ≠ []) (hbare : 61 ∉ seg) :
    formFieldLoop (seg ++ tail) key =
      if urlDecode seg = key then some (urlDecode []) else nextField key tail := by
  have hnonempty : (seg ++ tail).isEmpty = false := by
    rw [List.isEmpty_eq_false_iff]
    exact hne
  have hfar : ((seg ++ tail).idxOf? 61).filter (fun eq => decide (eq ≤ seg.length)) = none := by
    cases heq : (seg ++ tail).idxOf? 61 with
    | none => rfl
    | some eq =>
        obtain ⟨hlt, hfound, -⟩ := List.idxOf?_eq_some_iff.mp heq
        rw [Option.filter_some, if_neg]
        intro hle
        have hle : eq ≤ seg.length := of_decide_eq_true hle
        rcases Nat.lt_or_eq_of_le hle with hin | hat
        · rw [List.getElem_append_left hin] at hfound
          exact hbare (hfound ▸ List.getElem_mem hin)
        · rcases htail with rfl | ⟨rest, rfl⟩
          · simp [hat] at hlt
          · simp [hat] at hfound
  have hname : (seg ++ tail).take seg.length = seg := List.take_left
  rw [formFieldLoop, hnonempty, if_neg Bool.false_ne_true]
  simp only [fieldEnd_eq hseg htail, hfar, Option.getD_none, hname,
    nextField_eq key hseg htail]

end Turn

/-- One turn of the loop over a field `k=v`. -/
theorem formFieldLoop_field {k v tail : Bytes} (key : Bytes) (hk : 61 ∉ k)
    (hfield : 38 ∉ k ++ 61 :: v) (htail : tail = [] ∨ ∃ rest, tail = 38 :: rest) :
    formFieldLoop ((k ++ 61 :: v) ++ tail) key =
      if urlDecode k = key then some (urlDecode v) else nextField key tail := by
  have hsplit : (k ++ 61 :: v) ++ tail = k ++ 61 :: (v ++ tail) := by simp
  have hnonempty : ((k ++ 61 :: v) ++ tail).isEmpty = false := by simp
  have heq : ((k ++ 61 :: v) ++ tail).idxOf? 61 = some k.length := by
    rw [hsplit]
    exact idxOf?_append_cons hk _
  have hlength : (k ++ 61 :: v).length = k.length + 1 + v.length := by
    rw [List.length_append, List.length_cons]
    omega
  have hle : k.length ≤ k.length + 1 + v.length := by omega
  have hvalue : (((k ++ 61 :: v) ++ tail).drop (k.length + 1)).take
      (k.length + 1 + v.length - k.length - 1) = v := by
    have hlen : k.length + 1 + v.length - k.length - 1 = v.length := by omega
    rw [hlen, hsplit, List.drop_length_add_append]
    exact List.take_left
  have hname : ((k ++ 61 :: v) ++ tail).take k.length = k := by
    rw [hsplit]
    exact List.take_left
  rw [formFieldLoop, hnonempty, if_neg Bool.false_ne_true]
  simp only [heq, fieldEnd_eq hfield htail, hlength, Option.filter_some, hle, decide_true, if_true,
    Option.getD_some, hname, hvalue, nextField_eq key hfield htail]

end Scan

section Body

theorem formFieldLoop_nil (key : Bytes) : formFieldLoop [] key = none := by
  rw [formFieldLoop]
  rfl

/-- The scanner finds the first field of that key. -/
theorem formField_formBody (fields : List (List Char × List Char)) (key : Bytes) :
    formField (formBody fields) key =
      (fields.find? fun field => encodeText field.1 = key).map fun field =>
        encodeText field.2 := by
  have hturn : ∀ (field : List Char × List Char) (tail : Bytes),
      (tail = [] ∨ ∃ rest, tail = 38 :: rest) →
      formFieldLoop ((encodeURIComponent field.1 ++ 61 :: encodeURIComponent field.2) ++ tail) key =
        if encodeText field.1 = key then some (encodeText field.2) else nextField key tail := by
    intro field tail htail
    have hfield : 38 ∉ encodeURIComponent field.1 ++ 61 :: encodeURIComponent field.2 := by
      rw [List.mem_append, List.mem_cons, not_or, not_or]
      exact ⟨(notMem_encodeURIComponent field.1).1, by decide,
        (notMem_encodeURIComponent field.2).1⟩
    rw [formFieldLoop_field key (notMem_encodeURIComponent field.1).2 hfield htail,
      urlDecode_encodeURIComponent, urlDecode_encodeURIComponent]
  unfold formField
  induction fields with
  | nil => exact formFieldLoop_nil key
  | cons field fields ih =>
      have hbody : ∃ tail, (tail = [] ∨ ∃ rest, tail = 38 :: rest) ∧
          formBody (field :: fields) =
            (encodeURIComponent field.1 ++ 61 :: encodeURIComponent field.2) ++ tail ∧
          nextField key tail = formFieldLoop (formBody fields) key := by
        cases fields with
        | nil => exact ⟨[], Or.inl rfl, by simp [formBody, List.intercalate],
            (formFieldLoop_nil key).symm⟩
        | cons other fields => exact ⟨38 :: formBody (other :: fields), Or.inr ⟨_, rfl⟩,
            by simp [formBody, List.intercalate], rfl⟩
      obtain ⟨tail, htail, hbody, hnext⟩ := hbody
      rw [hbody, hturn field tail htail, hnext, ih, List.find?_cons]
      by_cases hkey : encodeText field.1 = key
      · simp [hkey]
      · simp [hkey]

end Body

section Segments

theorem segments_cons {seg : Bytes} (hseg : 38 ∉ seg) (rest : Bytes) :
    segments (seg ++ 38 :: rest) = seg :: segments rest := by
  induction seg with
  | nil => rfl
  | cons c seg ih =>
      rw [List.mem_cons, not_or] at hseg
      rw [List.cons_append, segments, if_neg (Ne.symm hseg.1), ih hseg.2]

theorem segments_single {seg : Bytes} (hseg : 38 ∉ seg) (hne : seg ≠ []) :
    segments seg = [seg] := by
  induction seg with
  | nil => exact absurd rfl hne
  | cons c seg ih =>
      rw [List.mem_cons, not_or] at hseg
      rw [segments, if_neg (Ne.symm hseg.1)]
      cases seg with
      | nil => rfl
      | cons d seg => rw [ih hseg.2 (List.cons_ne_nil d seg)]

/-- One turn of the loop over any segment, by its stretches around the first `=`. -/
theorem formFieldLoop_segment {seg tail : Bytes} (key : Bytes) (hseg : 38 ∉ seg)
    (htail : tail = [] ∨ ∃ rest, tail = 38 :: rest) (hne : seg ++ tail ≠ []) :
    formFieldLoop (seg ++ tail) key =
      if urlDecode (seg.takeWhile (· ≠ 61)) = key then
        some (urlDecode ((seg.dropWhile (· ≠ 61)).drop 1))
      else nextField key tail := by
  by_cases heq : 61 ∈ seg
  · obtain ⟨k, v, rfl, hk⟩ := List.eq_append_cons_of_mem heq
    have hall : ∀ c ∈ k, decide (c ≠ 61) = true := by
      intro c hc
      exact decide_eq_true fun h => hk (h ▸ hc)
    rw [formFieldLoop_field key hk hseg htail, List.takeWhile_append_of_pos hall,
      List.dropWhile_append_of_pos hall]
    simp
  · have hall : ∀ c ∈ seg, decide (c ≠ 61) = true := by
      intro c hc
      exact decide_eq_true fun h => heq (h ▸ hc)
    rw [formFieldLoop_bare key hseg htail hne heq, List.takeWhile_eq_self_iff.mpr hall,
      List.dropWhile_eq_nil_iff.mpr hall]
    rfl

/-- The scanner of positions is the reading by segments, whose empty answer the portal's
handlers take for a field that is not there. -/
theorem onboarding_formField (body key : Bytes) :
    Onboarding.formField body key = (formField body key).getD [] := by
  unfold formField
  induction hlength : body.length using Nat.strong_induction_on generalizing body with
  | h n ih =>
      by_cases hempty : body = []
      · subst hempty
        rw [formFieldLoop_nil]
        rfl
      · by_cases hamp : 38 ∈ body
        · obtain ⟨seg, rest, rfl, hseg⟩ := List.eq_append_cons_of_mem hamp
          have hrest := ih rest.length (by simp [← hlength]; omega) rest rfl
          rw [formFieldLoop_segment key hseg (Or.inr ⟨rest, rfl⟩) hempty]
          unfold Onboarding.formField at hrest ⊢
          rw [segments_cons hseg, List.find?_cons]
          by_cases hkey : urlDecode (seg.takeWhile (· ≠ 61)) = key
          · rw [if_pos hkey, decide_eq_true hkey]
            rfl
          · rw [if_neg hkey, decide_eq_false hkey]
            exact hrest
        · have hturn := formFieldLoop_segment key hamp (Or.inl rfl) (by simpa using hempty)
          rw [List.append_nil] at hturn
          rw [hturn]
          unfold Onboarding.formField
          rw [segments_single hamp hempty, List.find?_cons]
          by_cases hkey : urlDecode (body.takeWhile (· ≠ 61)) = key
          · rw [if_pos hkey, decide_eq_true hkey]
            rfl
          · rw [if_neg hkey, decide_eq_false hkey]
            rfl

end Segments

/-- Each field of a posted form is read back as the bytes of its text, and no other key is
found. -/
theorem formField_exact (fields : List (List Char × List Char))
    (hkeys : (fields.map Prod.fst).Nodup) :
    (∀ field ∈ fields,
      formField (formBody fields) (encodeText field.1) = some (encodeText field.2)) ∧
    ∀ key : Bytes, (∀ field ∈ fields, encodeText field.1 ≠ key) →
      formField (formBody fields) key = none := by
  constructor
  · intro field hfield
    rw [formField_formBody]
    cases hfound : fields.find? fun other => encodeText other.1 = encodeText field.1 with
    | none =>
        have hnone := List.find?_eq_none.mp hfound field hfield
        exact absurd (decide_eq_true rfl) hnone
    | some other =>
        have hsame : other.1 = field.1 := by
          have hbytes := List.find?_some hfound
          exact encodeText_inj (of_decide_eq_true hbytes)
        have hother : other ∈ fields := List.mem_of_find?_eq_some hfound
        rw [List.inj_on_of_nodup_map hkeys hother hfield hsame, Option.map_some]
  · intro key hkey
    rw [formField_formBody, List.find?_eq_none.mpr]
    · rfl
    · intro field hfield
      simp [hkey field hfield]

/-- A password of separators beside a nonce. -/
theorem formField_exact_separators :
    formField (formBody [("password".toList, "&=+% é".toList), ("nonce".toList, [])])
        (encodeText "password".toList) = some (encodeText "&=+% é".toList) :=
  (formField_exact [("password".toList, "&=+% é".toList), ("nonce".toList, [])] (by decide)).1
    ("password".toList, "&=+% é".toList) List.mem_cons_self

end RfIrBlaster.Form
