/-
The texts a user types into a page: characters, with their UTF-8 bytes and UTF-16 units,
and what trimming leaves.
-/
import RfIrBlaster.BrowserValues
import RfIrBlaster.ConfigJson

namespace RfIrBlaster.Browser

/-- The bytes of a text. -/
def encodeText (text : List Char) : Bytes :=
  text.flatMap fun c => Json.utf8 c.toNat

/-- The UTF-16 units of a text, which `maxlength` counts. -/
def textUnits (text : List Char) : Nat :=
  (text.map fun c => if c.toNat < 0x10000 then 1 else 2).sum

/-- White space and line terminators. -/
def isTrimmed (c : Char) : Bool :=
  [0x9, 0xA, 0xB, 0xC, 0xD, 0x20, 0xA0, 0x1680, 0x2028, 0x2029, 0x202F, 0x205F, 0x3000,
    0xFEFF].contains c.toNat || decide (0x2000 ≤ c.toNat ∧ c.toNat ≤ 0x200A)

/-- `text.trim()`. -/
def trim (text : List Char) : List Char :=
  ((text.dropWhile isTrimmed).reverse.dropWhile isTrimmed).reverse

/-- Bytes that are the UTF-8 of some text. -/
def IsUtf8 (s : Bytes) : Prop :=
  ∃ text, s = encodeText text

theorem encodeText_cons (c : Char) (text : List Char) :
    encodeText (c :: text) = Json.utf8 c.toNat ++ encodeText text :=
  List.flatMap_cons

theorem toNat_range (c : Char) : c.toNat < 0xD800 ∨ 0xDFFF < c.toNat ∧ c.toNat < 0x110000 :=
  c.valid

theorem toNat_byte {n : Nat} (h : n < 256) : (UInt8.ofNat n).toNat = n :=
  UInt8.toNat_ofNat_of_lt' h

section Lead

variable {b : UInt8}

theorem leadByte_two (hlow : 0xC2 ≤ b.toNat) (hhigh : b.toNat ≤ 0xDF) :
    leadByte b = some (1, 0x80, 0xBF) := by
  simp only [leadByte, UInt8.lt_iff_toNat_lt, UInt8.le_iff_toNat_le, UInt8.reduceToNat]
  rw [if_neg (by omega), if_pos ⟨hlow, hhigh⟩]

theorem leadByte_three (hlow : 0xE0 ≤ b.toNat) (hhigh : b.toNat ≤ 0xEF) :
    ∃ lo hi, leadByte b = some (2, lo, hi) ∧ (b.toNat ≠ 0xE0 → lo = 0x80) ∧ lo ≤ 0xA0 ∧
      (b.toNat ≠ 0xED → hi = 0xBF) ∧ 0x9F ≤ hi := by
  simp only [leadByte, UInt8.lt_iff_toNat_lt, UInt8.le_iff_toNat_le, ← UInt8.toNat_inj,
    UInt8.reduceToNat]
  rw [if_neg (by omega), if_neg (by omega)]
  by_cases hfirst : b.toNat = 0xE0
  · rw [if_pos hfirst]
    exact ⟨0xA0, 0xBF, rfl, fun h => absurd hfirst h, by decide, fun _ => rfl, by decide⟩
  by_cases hsurrogate : b.toNat = 0xED
  · rw [if_neg hfirst, if_pos hsurrogate]
    exact ⟨0x80, 0x9F, rfl, fun _ => rfl, by decide, fun h => absurd hsurrogate h, by decide⟩
  · rw [if_neg hfirst, if_neg hsurrogate, if_pos ⟨by omega, hhigh⟩]
    exact ⟨0x80, 0xBF, rfl, fun _ => rfl, by decide, fun _ => rfl, by decide⟩

theorem leadByte_four (hlow : 0xF0 ≤ b.toNat) (hhigh : b.toNat ≤ 0xF4) :
    ∃ lo hi, leadByte b = some (3, lo, hi) ∧ (b.toNat ≠ 0xF0 → lo = 0x80) ∧ lo ≤ 0x90 ∧
      (b.toNat ≠ 0xF4 → hi = 0xBF) ∧ 0x8F ≤ hi := by
  simp only [leadByte, UInt8.lt_iff_toNat_lt, UInt8.le_iff_toNat_le, ← UInt8.toNat_inj,
    UInt8.reduceToNat]
  rw [if_neg (by omega), if_neg (by omega), if_neg (by omega), if_neg (by omega),
    if_neg (by omega)]
  by_cases hfirst : b.toNat = 0xF0
  · rw [if_pos hfirst]
    exact ⟨0x90, 0xBF, rfl, fun h => absurd hfirst h, by decide, fun _ => rfl, by decide⟩
  by_cases hlast : b.toNat = 0xF4
  · rw [if_neg hfirst, if_pos hlast]
    exact ⟨0x80, 0x8F, rfl, fun _ => rfl, by decide, fun h => absurd hlast h, by decide⟩
  · rw [if_neg hfirst, if_neg hlast, if_pos ⟨by omega, by omega⟩]
    exact ⟨0x80, 0xBF, rfl, fun _ => rfl, by decide, fun _ => rfl, by decide⟩

end Lead

/-- A lead byte of a longer character waits for the others. -/
theorem decodeFrom_lead {b lo hi : UInt8} {more : Nat} (bs : Bytes)
    (h : leadByte b = some (more + 1, lo, hi)) :
    decodeFrom (b :: bs) [] 0 0 0 = decodeFrom bs [b] (more + 1) lo hi := by
  rw [decodeFrom, if_neg (fun hne => hne.1 rfl), h]
  rfl

theorem decodeFrom_last {b lo hi : UInt8} (bs pending : Bytes) (hlo : lo ≤ b) (hhi : b ≤ hi) :
    decodeFrom (b :: bs) pending 1 lo hi = pending ++ b :: decodeFrom bs [] 0 0 0 := by
  rw [decodeFrom, if_pos ⟨Nat.one_ne_zero, hlo, hhi⟩, if_pos rfl]

theorem decodeFrom_next {b lo hi : UInt8} {needed : Nat} (bs pending : Bytes) (hlo : lo ≤ b)
    (hhi : b ≤ hi) :
    decodeFrom (b :: bs) pending (needed + 2) lo hi =
      decodeFrom bs (pending ++ [b]) (needed + 1) 0x80 0xBF := by
  rw [decodeFrom, if_pos ⟨Nat.succ_ne_zero _, hlo, hhi⟩, if_neg (by omega)]
  rfl

/-- A continuation byte. -/
theorem tail_range (n : Nat) :
    (0x80 : UInt8) ≤ UInt8.ofNat (0x80 + n % 64) ∧ UInt8.ofNat (0x80 + n % 64) ≤ 0xBF := by
  have hn : (UInt8.ofNat (0x80 + n % 64)).toNat = 0x80 + n % 64 := toNat_byte (by omega)
  rw [UInt8.le_iff_toNat_le, UInt8.le_iff_toNat_le, hn]
  simp only [UInt8.reduceToNat]
  omega

/-- The second byte of a character is within its lead byte's bounds: at or above `low`
where that is required, at or below `high`. -/
theorem second_range {lo hi low high : UInt8} {n : Nat} {isLow isHigh : Prop}
    (hlo : ¬isLow → lo = 0x80) (hlo' : lo ≤ low) (hhi : ¬isHigh → hi = 0xBF) (hhi' : high ≤ hi)
    (hlow : isLow → low.toNat ≤ 0x80 + n % 64) (hhigh : isHigh → 0x80 + n % 64 ≤ high.toNat) :
    lo ≤ UInt8.ofNat (0x80 + n % 64) ∧ UInt8.ofNat (0x80 + n % 64) ≤ hi := by
  have hn : (UInt8.ofNat (0x80 + n % 64)).toNat = 0x80 + n % 64 := toNat_byte (by omega)
  constructor
  · by_cases h : isLow
    · apply UInt8.le_trans hlo'
      rw [UInt8.le_iff_toNat_le, hn]
      exact hlow h
    · rw [hlo h]
      exact (tail_range n).1
  · by_cases h : isHigh
    · apply UInt8.le_trans _ hhi'
      rw [UInt8.le_iff_toNat_le, hn]
      exact hhigh h
    · rw [hhi h]
      exact (tail_range n).2

/-- The decoder passes a character on. -/
theorem decodeFrom_char (c : Char) (rest : Bytes) :
    decodeFrom (Json.utf8 c.toNat ++ rest) [] 0 0 0 =
      Json.utf8 c.toNat ++ decodeFrom rest [] 0 0 0 := by
  have hrange := toNat_range c
  unfold Json.utf8
  split_ifs with hone htwo hthree
  · have hlead : (UInt8.ofNat c.toNat).toNat = c.toNat := toNat_byte (by omega)
    have hascii : UInt8.ofNat c.toNat < 0x80 := by
      rw [UInt8.lt_iff_toNat_lt, hlead]
      exact hone
    simp [decodeFrom, leadByte_ascii hascii]
  · have hlead : (UInt8.ofNat (0xC0 + c.toNat / 64)).toNat = 0xC0 + c.toNat / 64 :=
      toNat_byte (by omega)
    obtain ⟨hlo, hhi⟩ := tail_range c.toNat
    simp only [List.cons_append, List.nil_append]
    rw [decodeFrom_lead _ (leadByte_two (by omega) (by omega)), decodeFrom_last _ _ hlo hhi]
    rfl
  · have hlead : (UInt8.ofNat (0xE0 + c.toNat / 4096)).toNat = 0xE0 + c.toNat / 4096 :=
      toNat_byte (by omega)
    obtain ⟨lo, hi, hbyte, hlow, hlow', hhigh, hhigh'⟩ :=
      @leadByte_three (UInt8.ofNat (0xE0 + c.toNat / 4096)) (by omega) (by omega)
    rw [hlead] at hlow hhigh
    obtain ⟨hlo, hhi⟩ := @second_range lo hi 0xA0 0x9F (c.toNat / 64) _ _ hlow hlow' hhigh hhigh'
      (by simp only [UInt8.reduceToNat]; omega) (by simp only [UInt8.reduceToNat]; omega)
    obtain ⟨hlast, hlast'⟩ := tail_range c.toNat
    simp only [List.cons_append, List.nil_append]
    rw [decodeFrom_lead _ hbyte, decodeFrom_next _ _ hlo hhi, decodeFrom_last _ _ hlast hlast']
    rfl
  · have hlead : (UInt8.ofNat (0xF0 + c.toNat / 262144)).toNat = 0xF0 + c.toNat / 262144 :=
      toNat_byte (by omega)
    obtain ⟨lo, hi, hbyte, hlow, hlow', hhigh, hhigh'⟩ :=
      @leadByte_four (UInt8.ofNat (0xF0 + c.toNat / 262144)) (by omega) (by omega)
    rw [hlead] at hlow hhigh
    obtain ⟨hlo, hhi⟩ := @second_range lo hi 0x90 0x8F (c.toNat / 4096) _ _ hlow hlow' hhigh
      hhigh' (by simp only [UInt8.reduceToNat]; omega) (by simp only [UInt8.reduceToNat]; omega)
    obtain ⟨hnext, hnext'⟩ := tail_range (c.toNat / 64)
    obtain ⟨hlast, hlast'⟩ := tail_range c.toNat
    simp only [List.cons_append, List.nil_append]
    rw [decodeFrom_lead _ hbyte, decodeFrom_next _ _ hlo hhi, decodeFrom_next _ _ hnext hnext',
      decodeFrom_last _ _ hlast hlast']
    rfl

theorem decodeUtf8_encodeText (text : List Char) :
    decodeUtf8 (encodeText text) = encodeText text := by
  unfold decodeUtf8
  induction text with
  | nil => rfl
  | cons c text ih => rw [encodeText_cons, decodeFrom_char, ih]

theorem isUtf8_ascii {s : Bytes} (h : isAscii s = true) : IsUtf8 s := by
  rw [isAscii_iff] at h
  induction s with
  | nil => exact ⟨[], rfl⟩
  | cons b bs ih =>
      rw [List.forall_mem_cons] at h
      obtain ⟨text, htext⟩ := ih h.2
      have hlt : b.toNat < 0x80 := UInt8.lt_iff_toNat_lt.mp h.1
      have hvalid : b.toNat.isValidChar := Or.inl (by omega)
      have hchar : (Char.ofNat b.toNat).toNat = b.toNat := by
        rw [Char.ofNat, dif_pos hvalid]
        rfl
      refine ⟨Char.ofNat b.toNat :: text, ?_⟩
      rw [encodeText_cons, hchar, ← htext, Json.utf8, if_pos hlt, UInt8.ofNat_toNat]
      rfl

theorem IsUtf8.decode {s : Bytes} (h : IsUtf8 s) : decodeUtf8 s = s := by
  obtain ⟨text, rfl⟩ := h
  exact decodeUtf8_encodeText text

/-- Only U+0000 has a NUL in its bytes. -/
theorem zero_notMem_utf8 {n : Nat} (hn : n ≠ 0) (hlt : n < 0x110000) : 0 ∉ Json.utf8 n := by
  have hbyte : ∀ m, m ≠ 0 → m < 256 → (0 : UInt8) ≠ UInt8.ofNat m := by
    intro m hm hlt heq
    have := congrArg UInt8.toNat heq
    rw [toNat_byte hlt] at this
    exact hm this.symm
  unfold Json.utf8
  split_ifs <;> simp only [List.mem_cons, List.not_mem_nil, or_false, not_or]
  · exact hbyte _ hn (by omega)
  · exact ⟨hbyte _ (by omega) (by omega), hbyte _ (by omega) (by omega)⟩
  · exact ⟨hbyte _ (by omega) (by omega), hbyte _ (by omega) (by omega),
      hbyte _ (by omega) (by omega)⟩
  · exact ⟨hbyte _ (by omega) (by omega), hbyte _ (by omega) (by omega),
      hbyte _ (by omega) (by omega), hbyte _ (by omega) (by omega)⟩

/-- A C string holds the characters before the first U+0000. -/
theorem cStr_encodeText (text : List Char) :
    cStr (encodeText text) = encodeText (text.takeWhile fun c => c.toNat ≠ 0) := by
  induction text with
  | nil => rfl
  | cons c text ih =>
      rw [encodeText_cons]
      by_cases hzero : c.toNat = 0
      · rw [hzero, List.takeWhile_cons_of_neg (by simpa using hzero)]
        rfl
      · have hrange := toNat_range c
        have hchar : ∀ b ∈ Json.utf8 c.toNat, decide (b ≠ 0) = true := by
          intro b hb
          have hne : b ≠ 0 := by
            rintro rfl
            exact zero_notMem_utf8 hzero (by omega) hb
          simpa using hne
        rw [List.takeWhile_cons_of_pos (by simpa using hzero), encodeText_cons, ← ih]
        exact List.takeWhile_append_of_pos hchar

theorem IsUtf8.cStr {s : Bytes} (h : IsUtf8 s) : IsUtf8 (cStr s) := by
  obtain ⟨text, rfl⟩ := h
  exact ⟨_, cStr_encodeText text⟩

end RfIrBlaster.Browser
