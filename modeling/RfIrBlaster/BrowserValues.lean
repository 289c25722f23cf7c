/-
What the pages' scripts do with a parsed document: decoding of a response, property
reads, truth values, numbers and texts.  A script's string is its UTF-8 bytes; numbers are
exact; an object lists its members as they were written.
-/
import Mathlib.Algebra.Order.Ring.Rat
import Mathlib.Algebra.Field.Rat
import Mathlib.Data.List.Induction
import RfIrBlaster.ConfigModel
import RfIrBlaster.JsonText
import RfIrBlaster.KeyedList

namespace RfIrBlaster.Browser

/-- U+FFFD. -/
def replacement : Bytes := [0xEF, 0xBF, 0xBD]

/-- How many bytes follow a lead byte, and the bounds of the first of them. -/
def leadByte (b : UInt8) : Option (Nat × UInt8 × UInt8) :=
  if b < 0x80 then some (0, 0, 0)
  else if 0xC2 ≤ b ∧ b ≤ 0xDF then some (1, 0x80, 0xBF)
  else if b = 0xE0 then some (2, 0xA0, 0xBF)
  else if b = 0xED then some (2, 0x80, 0x9F)
  else if 0xE1 ≤ b ∧ b ≤ 0xEF then some (2, 0x80, 0xBF)
  else if b = 0xF0 then some (3, 0x90, 0xBF)
  else if b = 0xF4 then some (3, 0x80, 0x8F)
  else if 0xF1 ≤ b ∧ b ≤ 0xF3 then some (3, 0x80, 0xBF)
  else none

/-- The UTF-8 decoder, `pending` the bytes of a character that still needs `needed` more,
the next of them from `lo` to `hi`. -/
def decodeFrom : Bytes → Bytes → Nat → UInt8 → UInt8 → Bytes
  | [], _, needed, _, _ => if needed = 0 then [] else replacement
  | b :: bs, pending, needed, lo, hi =>
      if needed ≠ 0 ∧ lo ≤ b ∧ b ≤ hi then
        if needed = 1 then pending ++ b :: decodeFrom bs [] 0 0 0
        else decodeFrom bs (pending ++ [b]) (needed - 1) 0x80 0xBF
      else
        (if needed = 0 then [] else replacement) ++
          match leadByte b with
          | none => replacement ++ decodeFrom bs [] 0 0 0
          | some (0, _, _) => b :: decodeFrom bs [] 0 0 0
          | some (more, lo', hi') => decodeFrom bs [b] more lo' hi'

/-- Reading bytes as a text; what is not UTF-8 is replaced. -/
def decodeUtf8 (s : Bytes) : Bytes :=
  decodeFrom s [] 0 0 0

def isAscii (s : Bytes) : Bool :=
  s.all (· < 0x80)

mutual
/-- A document with its strings and keys mapped; of keys that fall together the last
member is kept. -/
def mapStrings (f : Bytes → Bytes) : Json → Json
  | .str s => .str (f s)
  | .arr xs => .arr (mapElements f xs)
  | .obj ms => .obj (mapMembers f ms [])
  | .null => .null
  | .bool b => .bool b
  | .int n => .int n
  | .float text => .float text

def mapElements (f : Bytes → Bytes) : List Json → List Json
  | [] => []
  | x :: xs => mapStrings f x :: mapElements f xs

def mapMembers (f : Bytes → Bytes) :
    List (Bytes × Json) → List (Bytes × Json) → List (Bytes × Json)
  | [], acc => acc
  | (k, v) :: ms, acc => mapMembers f ms (Json.setMember (f k) (mapStrings f v) acc)
end

/-- The UTF-16 units of a text: one a character, two from U+10000 on. -/
def utf16Length (s : Bytes) : Nat :=
  (s.map fun b => if 0x80 ≤ b ∧ b < 0xC0 then 0 else if 0xF0 ≤ b then 2 else 1).sum

/-- The value of a literal with a fraction or an exponent. -/
def decimalValue (text : Bytes) : ℚ :=
  let body := if text.head? = some 45 then text.tail else text
  let whole := body.takeWhile Json.isDigit
  let rest := body.dropWhile Json.isDigit
  let fraction := if rest.head? = some 46 then rest.tail.takeWhile Json.isDigit else []
  let rest := if rest.head? = some 46 then rest.tail.dropWhile Json.isDigit else rest
  let digits := rest.tail.filter Json.isDigit
  let exponent : Int := if 45 ∈ rest then -(Json.digitsValue digits) else Json.digitsValue digits
  let size := (Json.digitsValue (whole ++ fraction) : ℚ) * 10 ^ (exponent - fraction.length)
  if text.head? = some 45 then -size else size

/-- `none` unless `typeof v` is `number`. -/
def numberValue : Json → Option ℚ
  | .int n => some n
  | .float text => some (decimalValue text)
  | _ => none

def isInteger (q : ℚ) : Bool :=
  q.den = 1

/-- Reading a property, `none` for `undefined`. -/
def prop (v : Json) (key : String) : Option Json :=
  match v with
  | .obj ms => Json.lookup (ascii key) ms
  | .arr xs => if key = "length" then some (.int xs.length) else none
  | .str s => if key = "length" then some (.int (utf16Length s)) else none
  | _ => none

def truthy : Json → Bool
  | .null => false
  | .bool b => b
  | .int n => n ≠ 0
  | .float text => decimalValue text ≠ 0
  | .str s => !s.isEmpty
  | .arr _ | .obj _ => true

/-- `v || fallback`, `undefined` included. -/
def orElse (v : Option Json) (fallback : Json) : Json :=
  match v with
  | some v => if truthy v then v else fallback
  | none => fallback

/-- `typeof v` is `object`, and `v` is not null. -/
def isObject : Json → Bool
  | .arr _ | .obj _ => true
  | _ => false

mutual
/-- `String(v)`. -/
def toText : Json → Bytes
  | .null => ascii "null"
  | .bool true => ascii "true"
  | .bool false => ascii "false"
  | .int n => Json.intText n
  | .float text => text
  | .str s => s
  | .arr xs => joinText xs
  | .obj _ => ascii "[object Object]"

/-- The elements of an array joined with commas. -/
def joinText : List Json → Bytes
  | [] => []
  | [x] => elementText x
  | x :: y :: rest => elementText x ++ ascii "," ++ joinText (y :: rest)

def elementText : Json → Bytes
  | .null => []
  | x => toText x
end

/-- `'' + v`. -/
def concatText (v : Option Json) : Bytes :=
  match v with
  | some v => toText v
  | none => ascii "undefined"

def escapeByte (b : UInt8) : Bytes :=
  if b = 38 then ascii "&amp;"
  else if b = 60 then ascii "&lt;"
  else if b = 62 then ascii "&gt;"
  else if b = 34 then ascii "&quot;"
  else if b = 39 then ascii "&#39;"
  else [b]

/-- `UI.escapeHtml`. -/
def escapeHtml (v : Option Json) : Bytes :=
  match v with
  | none | some .null => []
  | some v => (toText v).flatMap escapeByte

/-- `Object.keys(v)` with the values; a string's characters are left out, which have no
property but `length`. -/
def entries : Json → List (Bytes × Json)
  | .obj ms => ms
  | .arr xs => xs.zipIdx.map fun (x, i) => (Json.natText i, x)
  | _ => []

theorem leadByte_ascii {b : UInt8} (h : b < 0x80) : leadByte b = some (0, 0, 0) :=
  if_pos h

theorem leadByte_zero {b lo hi : UInt8} (h : leadByte b = some (0, lo, hi)) : b < 0x80 := by
  unfold leadByte at h
  split_ifs at h with hascii <;> first | exact hascii | simp at h

theorem isAscii_iff {s : Bytes} : isAscii s = true ↔ ∀ c ∈ s, c < 0x80 := by
  simp [isAscii]

/-- ASCII is read as it is. -/
theorem decodeUtf8_ascii {s : Bytes} (h : ∀ c ∈ s, c < 0x80) : decodeUtf8 s = s := by
  unfold decodeUtf8
  induction s with
  | nil => rfl
  | cons b bs ih =>
      rw [List.forall_mem_cons] at h
      simp [decodeFrom, leadByte_ascii h.1, ih h.2]

/-- Whatever else is read leaves something that is not ASCII. -/
theorem decodeFrom_not_ascii {s pending : Bytes} {needed : Nat} {lo hi : UInt8}
    (hpending : needed ≠ 0 → ∃ c ∈ pending, ¬c < 0x80)
    (h : needed ≠ 0 ∨ ∃ c ∈ s, ¬c < 0x80) :
    ∃ c ∈ decodeFrom s pending needed lo hi, ¬c < 0x80 := by
  have hreplacement : ∀ tail : Bytes, ∃ c ∈ replacement ++ tail, ¬c < 0x80 :=
    fun tail => ⟨0xEF, by simp [replacement], by decide⟩
  induction s generalizing pending needed lo hi with
  | nil =>
      rcases h with hneeded | ⟨c, hc, -⟩
      · rw [decodeFrom, if_neg hneeded]
        simpa using hreplacement []
      · cases hc
  | cons b bs ih =>
      rw [decodeFrom]
      by_cases hnext : needed ≠ 0 ∧ lo ≤ b ∧ b ≤ hi
      · obtain ⟨c, hc, hhigh⟩ := hpending hnext.1
        rw [if_pos hnext]
        by_cases hlast : needed = 1
        · rw [if_pos hlast]
          exact ⟨c, List.mem_append_left _ hc, hhigh⟩
        · rw [if_neg hlast]
          exact ih (fun _ => ⟨c, List.mem_append_left _ hc, hhigh⟩) (Or.inl (by omega))
      · rw [if_neg hnext]
        by_cases hneeded : needed = 0
        · rw [if_pos hneeded, List.nil_append]
          have hrest : ∃ c ∈ b :: bs, ¬c < 0x80 := h.resolve_left (not_not.mpr hneeded)
          cases hlead : leadByte b with
          | none => exact hreplacement _
          | some lead =>
              obtain ⟨more, lo', hi'⟩ := lead
              cases more with
              | zero =>
                  obtain ⟨c, hc, hhigh⟩ := hrest
                  rcases List.mem_cons.mp hc with rfl | hc
                  · exact absurd (leadByte_zero hlead) hhigh
                  · obtain ⟨c', hc', hhigh'⟩ :=
                      ih (fun hne => absurd rfl hne) (Or.inr ⟨c, hc, hhigh⟩)
                    exact ⟨c', List.mem_cons_of_mem _ hc', hhigh'⟩
              | succ more =>
                  have hb : ¬b < 0x80 := by
                    intro hascii
                    rw [leadByte_ascii hascii] at hlead
                    cases hlead
                  exact ih (fun _ => ⟨b, List.mem_singleton_self b, hb⟩) (Or.inl (by omega))
        · rw [if_neg hneeded]
          exact hreplacement _

theorem decodeUtf8_eq_iff {s t : Bytes} (ht : ∀ c ∈ t, c < 0x80) : decodeUtf8 s = t ↔ s = t := by
  constructor
  · intro heq
    by_cases hs : ∀ c ∈ s, c < 0x80
    · rw [← heq, decodeUtf8_ascii hs]
    · obtain ⟨c, hc, hhigh⟩ : ∃ c ∈ s, ¬c < 0x80 := by simpa using hs
      obtain ⟨c', hc', hhigh'⟩ : ∃ c ∈ decodeFrom s [] 0 0 0, ¬c < 0x80 :=
        decodeFrom_not_ascii (fun hne => absurd rfl hne) (Or.inr ⟨c, hc, hhigh⟩)
      exact absurd (ht c' (heq ▸ hc')) hhigh'
  · rintro rfl
    exact decodeUtf8_ascii ht

theorem mapElements_eq (f : Bytes → Bytes) (xs : List Json) :
    mapElements f xs = xs.map (mapStrings f) := by
  induction xs with
  | nil => rfl
  | cons x xs ih => rw [mapElements, ih, List.map_cons]

theorem mapMembers_eq (f : Bytes → Bytes) (ms acc : List (Bytes × Json)) :
    mapMembers f ms acc =
      ms.foldl (fun acc m => Json.setMember (f m.1) (mapStrings f m.2) acc) acc := by
  induction ms generalizing acc with
  | nil => rfl
  | cons m ms ih => rw [mapMembers, ih, List.foldl_cons]

theorem mapMembers_plain {f : Bytes → Bytes} {ms acc : List (Bytes × Json)}
    (hms : ∀ m ∈ ms, (mapStrings f m.2).Plain) (hkeys : (acc.map Prod.fst).Nodup)
    (hacc : ∀ m ∈ acc, m.2.Plain) :
    ((mapMembers f ms acc).map Prod.fst).Nodup ∧ ∀ m ∈ mapMembers f ms acc, m.2.Plain := by
  induction ms generalizing acc with
  | nil => exact ⟨hkeys, hacc⟩
  | cons m ms ih =>
      obtain ⟨k, v⟩ := m
      rw [List.forall_mem_cons] at hms
      apply ih hms.2 (Json.setMember_keys_nodup hkeys)
      intro m hm
      rcases Json.mem_setMember hm with rfl | hold
      · exact hms.1
      · exact hacc m hold

theorem mapStrings_plain {f : Bytes → Bytes} {doc : Json} (h : doc.Plain) :
    (mapStrings f doc).Plain := by
  induction doc using Json.induction with
  | hnull => exact .null
  | hbool b => exact .bool b
  | hint n => exact h
  | hfloat t => cases h
  | hstr s => exact .str _
  | harr xs ih =>
      cases h with
      | arr hxs =>
          rw [mapStrings, mapElements_eq]
          apply Json.Plain.arr
          intro x hx
          obtain ⟨y, hy, rfl⟩ := List.mem_map.mp hx
          exact ih y hy (hxs y hy)
  | hobj ms ih =>
      cases h with
      | obj hkeys hms =>
          obtain ⟨hnodup, hplain⟩ :=
            @mapMembers_plain f ms [] (fun m hm => ih m hm (hms m hm)) List.nodup_nil (by simp)
          exact .obj hnodup hplain

/-- Keys the map leaves alone keep their members in order. -/
theorem mapMembers_of_fixed {f : Bytes → Bytes} {ms : List (Bytes × Json)}
    (hfixed : ∀ k ∈ ms.map Prod.fst, f k = k)
    (hkeys : (ms.map Prod.fst).Nodup) :
    mapMembers f ms [] = ms.map fun m => (m.1, mapStrings f m.2) := by
  induction ms using List.reverseRecOn with
  | nil => rfl
  | append_singleton pre m ih =>
      rw [List.map_append, List.nodup_append] at hkeys
      rw [List.map_append, List.forall_mem_append] at hfixed
      have hpre := ih hfixed.1 hkeys.1
      have hkey : f m.1 = m.1 := hfixed.2 m.1 (by simp)
      have hfresh : m.1 ∉ (pre.map fun m => (m.1, mapStrings f m.2)).map Prod.fst := by
        rw [List.map_map]
        exact fun hmem => hkeys.2.2 m.1 hmem m.1 (by simp) rfl
      rw [mapMembers_eq] at hpre ⊢
      rw [List.foldl_append, hpre, List.foldl_cons, List.foldl_nil, hkey,
        Json.setMember_of_not_mem hfresh, List.map_append]
      rfl

/-- An object all of whose strings the map leaves alone. -/
theorem mapStrings_obj_of_fixed {f : Bytes → Bytes} {ms : List (Bytes × Json)}
    (hkeys : (ms.map Prod.fst).Nodup)
    (hfixed : ∀ m ∈ ms, f m.1 = m.1 ∧ mapStrings f m.2 = m.2) :
    mapStrings f (.obj ms) = .obj ms := by
  have hnames : ∀ k ∈ ms.map Prod.fst, f k = k := by
    intro k hk
    obtain ⟨m, hm, rfl⟩ := List.mem_map.mp hk
    exact (hfixed m hm).1
  rw [mapStrings, mapMembers_of_fixed hnames hkeys]
  congr 1
  conv_rhs => rw [← List.map_id ms]
  exact List.map_congr_left fun m hm => Prod.ext rfl (hfixed m hm).2

/-- `JSON.parse` reads back what `JSON.stringify` writes. -/
theorem parse_serialize_length {doc : Json} (h : doc.Plain) :
    Json.parse (Json.serialize doc).length (Json.serialize doc) = some doc :=
  Json.parse_serialize h (Json.depth_le_length doc)

/-- Entries set one after the other under keys that may coincide. -/
theorem foldl_setMember {α κ : Type} [DecidableEq κ] (toBytes : κ → Bytes)
    (hinj : ∀ k k', toBytes k = toBytes k' → k = k') (key : α → κ) (value : α → Json)
    (entries held : List α) :
    entries.foldl (fun acc a => Json.setMember (toBytes (key a)) (value a) acc)
        (held.map fun a => (toBytes (key a), value a)) =
      (entries.foldl (fun held a => KeyedList.put key a held) held).map
        fun a => (toBytes (key a), value a) := by
  induction entries generalizing held with
  | nil => rfl
  | cons a rest ih =>
      have hput : Json.setMember (toBytes (key a)) (value a)
            (held.map fun b => (toBytes (key b), value b)) =
          (KeyedList.put key a held).map fun b => (toBytes (key b), value b) := by
        clear ih
        induction held with
        | nil => rfl
        | cons b held ih =>
            rw [List.map_cons, Json.setMember, KeyedList.put]
            by_cases hkey : key b = key a
            · rw [if_pos (congrArg toBytes hkey), if_pos hkey, hkey]
              rfl
            · rw [if_neg (mt (hinj _ _) hkey), if_neg hkey, ih]
              rfl
      rw [List.foldl_cons, List.foldl_cons, hput]
      exact ih _

end RfIrBlaster.Browser
