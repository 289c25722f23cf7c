/-
The numbers of a token: which digit strings `parseUint64` reads exactly.  Its overflow test
compares the wrapped product with the value before, and misses every product that wraps to
at least that value.
-/
import RfIrBlaster.SessionToken

namespace RfIrBlaster.Runtime

/-- The text of a 64-bit number. -/
structure NumberText (s : Bytes) : Prop where
  length : 1 ≤ s.length ∧ s.length ≤ 20
  digits : ∀ c ∈ s, Json.isDigit c = true
  value : Json.digitsValue s < 2 ^ 64

/-- `parseUint64` takes `s` exactly when it is a number's text, and for that number. -/
def ReadExactly (s : Bytes) : Prop :=
  ∀ n : UInt64, parseUint64 s = some n ↔ NumberText s ∧ Json.digitsValue s = n.toNat

/-- The numbers past 64 bits whose wrapped product passes the test, lowest and highest. -/
def wrapRanges : List (Nat × Nat) :=
  [(20496382304121724017, 36893488147419103231), (40992764608243448035, 55340232221128654847),
    (61489146912365172053, 73786976294838206463), (81985529216486896071, 92233720368547758079)]

/-- Up to 20 digits of such a number. -/
structure WrapsUnseen (s : Bytes) : Prop where
  length : s.length ≤ 20
  digits : ∀ c ∈ s, Json.isDigit c = true
  value : ∃ range ∈ wrapRanges,
    range.1 ≤ Json.digitsValue s ∧ Json.digitsValue s ≤ range.2

/-- The test passes in these ranges and below 64 bits, and nowhere else. -/
theorem test_passes_iff {n : Nat} (hn : n < 10 ^ 20) :
    n / 10 ≤ n % 2 ^ 64 ↔
      n < 2 ^ 64 ∨ ∃ range ∈ wrapRanges, range.1 ≤ n ∧ n ≤ range.2 := by
  simp only [wrapRanges, List.mem_cons, List.not_mem_nil, or_false, exists_eq_or_imp,
    exists_eq_left]
  omega

theorem digitsFold_lt (ds : Bytes) (hdigits : ∀ c ∈ ds, Json.isDigit c = true) (n : Nat) :
    ds.foldl (fun n c => n * 10 + (c.toNat - 48)) n < (n + 1) * 10 ^ ds.length := by
  induction ds generalizing n with
  | nil => simp
  | cons c cs ih =>
      have hc := (Json.isDigit_iff c).mp (hdigits c List.mem_cons_self)
      calc (c :: cs).foldl (fun n c => n * 10 + (c.toNat - 48)) n
          < (n * 10 + (c.toNat - 48) + 1) * 10 ^ cs.length :=
            ih (fun c' hc' => hdigits c' (List.mem_cons_of_mem c hc')) _
        _ ≤ ((n + 1) * 10) * 10 ^ cs.length := Nat.mul_le_mul_right _ (by omega)
        _ = (n + 1) * 10 ^ (c :: cs).length := by
            rw [List.length_cons, Nat.pow_succ, Nat.mul_assoc, Nat.mul_comm 10]

theorem digitsValue_lt {ds : Bytes} (hdigits : ∀ c ∈ ds, Json.isDigit c = true) :
    Json.digitsValue ds < 10 ^ ds.length := by
  have hfold := digitsFold_lt ds hdigits 0
  rwa [Nat.zero_add, Nat.one_mul] at hfold

theorem parseUint64Loop_append (front back : Bytes) (v : UInt64) :
    parseUint64Loop (front ++ back) v =
      (parseUint64Loop front v).bind (parseUint64Loop back) := by
  induction front generalizing v with
  | nil => rfl
  | cons c cs ih =>
      rw [List.cons_append, parseUint64Loop, parseUint64Loop]
      split_ifs
      · rfl
      · simp only
        split_ifs
        · rfl
        · exact ih _

/-- The loop takes digits alone. -/
theorem digits_of_parseUint64Loop {s : Bytes} {v n : UInt64}
    (h : parseUint64Loop s v = some n) : ∀ c ∈ s, Json.isDigit c = true := by
  induction s generalizing v with
  | nil => simp
  | cons c cs ih =>
      rw [parseUint64Loop] at h
      simp only at h
      split_ifs at h with hrange
      rw [not_or, UInt8.not_lt, UInt8.not_lt] at hrange
      refine List.forall_mem_cons.mpr ⟨(Json.isDigit_iff c).mpr ?_, ih h⟩
      exact ⟨UInt8.le_iff_toNat_le.mp hrange.1, UInt8.le_iff_toNat_le.mp hrange.2⟩

/-- What the parser makes of up to 20 digits: the overflow test sees the last product. -/
theorem parseUint64_digits {s : Bytes} (hlength : 1 ≤ s.length ∧ s.length ≤ 20)
    (hdigits : ∀ c ∈ s, Json.isDigit c = true) :
    parseUint64 s =
      if Json.digitsValue s % 2 ^ 64 < Json.digitsValue s / 10 then none
      else some (UInt64.ofNat (Json.digitsValue s)) := by
  obtain ⟨front, c, rfl⟩ := List.eq_nil_or_concat' s |>.resolve_left
    (List.ne_nil_of_length_pos hlength.1)
  rw [List.forall_mem_append, List.forall_mem_singleton] at hdigits
  rw [List.length_append, List.length_singleton] at hlength
  obtain ⟨hfront, hlast⟩ := hdigits
  have hc := (Json.isDigit_iff c).mp hlast
  have hsmall : Json.digitsValue front < 10 ^ 19 :=
    Nat.lt_of_lt_of_le (digitsValue_lt hfront) (Nat.pow_le_pow_right (by decide) (by omega))
  have hvalue : Json.digitsValue (front ++ [c]) =
      Json.digitsValue front * 10 + (c.toNat - 48) := by
    simp [Json.digitsValue]
  -- nineteen digits never overflow
  have hread : parseUint64Loop front 0 = some (UInt64.ofNat (Json.digitsValue front)) := by
    apply parseUint64Loop_digits hfront
    rw [UInt64.toNat_ofNat', Nat.mod_eq_of_lt (by omega)]
    rfl
  have hheld : (UInt64.ofNat (Json.digitsValue front)).toNat = Json.digitsValue front := by
    rw [UInt64.toNat_ofNat', Nat.mod_eq_of_lt (by omega)]
  have hstep : UInt64.ofNat (Json.digitsValue front) * 10 + (c - 48).toUInt64 =
      UInt64.ofNat (Json.digitsValue (front ++ [c])) := by
    apply UInt64.toNat_inj.mp
    rw [UInt64.toNat_add, UInt64.toNat_mul, hheld, toNat_digit hc.1, UInt64.toNat_ofNat', hvalue]
    exact Nat.mod_add_mod _ _ _
  have hrange : ¬(c < 48 ∨ 57 < c) := by
    simp only [UInt8.lt_iff_toNat_lt, UInt8.reduceToNat]
    omega
  have htest : UInt64.ofNat (Json.digitsValue (front ++ [c])) <
      UInt64.ofNat (Json.digitsValue front) ↔
      Json.digitsValue (front ++ [c]) % 2 ^ 64 < Json.digitsValue (front ++ [c]) / 10 := by
    rw [UInt64.lt_iff_toNat_lt, hheld, UInt64.toNat_ofNat', hvalue]
    omega
  rw [parseUint64, if_neg (by simp; omega), parseUint64Loop_append, hread, Option.bind_some,
    parseUint64Loop, if_neg hrange]
  simp only [hstep, htest, parseUint64Loop]

/-- A string read although it denotes a number past 64 bits is read as a smaller one. -/
theorem parseUint64_of_wrapsUnseen {s : Bytes} (h : WrapsUnseen s) :
    parseUint64 s = some (UInt64.ofNat (Json.digitsValue s)) ∧ 2 ^ 64 ≤ Json.digitsValue s := by
  have hbound : Json.digitsValue s < 10 ^ 20 :=
    Nat.lt_of_lt_of_le (digitsValue_lt h.digits) (Nat.pow_le_pow_right (by decide) h.length)
  have hpasses := (test_passes_iff hbound).mpr (Or.inr h.value)
  have hbig : 2 ^ 64 ≤ Json.digitsValue s := by
    obtain ⟨range, hrange, hlow, -⟩ := h.value
    have hlowest : ∀ range ∈ wrapRanges, 2 ^ 64 ≤ range.1 := by decide
    exact Nat.le_trans (hlowest range hrange) hlow
  have hone : 1 ≤ s.length := by
    rw [Nat.one_le_iff_ne_zero, ne_eq, List.length_eq_zero_iff]
    rintro rfl
    exact absurd hbig (by decide)
  rw [parseUint64_digits ⟨hone, h.length⟩ h.digits, if_neg (Nat.not_lt.mpr hpasses)]
  exact ⟨rfl, hbig⟩

/-- Which texts are read exactly: all but those whose product wraps unseen.  A printed number
is read back. -/
theorem parseUint64_exact_iff (s : Bytes) (v : UInt64) :
    (ReadExactly s ↔ ¬WrapsUnseen s) ∧ parseUint64 (decimal v) = some v := by
  refine ⟨⟨?_, ?_⟩, parseUint64_decimal v⟩
  · intro hexact hwraps
    obtain ⟨hread, hbig⟩ := parseUint64_of_wrapsUnseen hwraps
    have hvalue := ((hexact _).mp hread).1.value
    omega
  · intro hseen n
    constructor
    · intro hread
      have hlength : 1 ≤ s.length ∧ s.length ≤ 20 := by
        unfold parseUint64 at hread
        split_ifs at hread with hbad
        rw [not_or, List.isEmpty_iff, ← List.length_eq_zero_iff] at hbad
        omega
      have hdigits : ∀ c ∈ s, Json.isDigit c = true := by
        unfold parseUint64 at hread
        split_ifs at hread
        exact digits_of_parseUint64Loop hread
      have hbound : Json.digitsValue s < 10 ^ 20 :=
        Nat.lt_of_lt_of_le (digitsValue_lt hdigits)
          (Nat.pow_le_pow_right (by decide) hlength.2)
      rw [parseUint64_digits hlength hdigits] at hread
      split_ifs at hread with htest
      have hfits : Json.digitsValue s < 2 ^ 64 := by
        rcases (test_passes_iff hbound).mp (Nat.not_lt.mp htest) with hfits | hrange
        · exact hfits
        · exact absurd ⟨hlength.2, hdigits, hrange⟩ hseen
      refine ⟨⟨hlength, hdigits, hfits⟩, ?_⟩
      rw [← Option.some.inj hread, UInt64.toNat_ofNat', Nat.mod_eq_of_lt hfits]
    · rintro ⟨htext, hvalue⟩
      have hlength := htext.length
      rw [parseUint64, if_neg (by rw [List.isEmpty_iff, ← List.length_eq_zero_iff]; omega)]
      exact parseUint64Loop_digits htext.digits hvalue

/-- Thirty million million million, read as about a third of that. -/
theorem parseUint64_reads_smaller :
    parseUint64 (ascii "30000000000000000000") = some 11553255926290448384 ∧
      ¬ReadExactly (ascii "30000000000000000000") := by
  have hread : parseUint64 (ascii "30000000000000000000") = some 11553255926290448384 := by
    decide +kernel
  refine ⟨hread, fun hexact => ?_⟩
  have hvalue := ((hexact _).mp hread).1.value
  revert hvalue
  decide +kernel

end RfIrBlaster.Runtime
