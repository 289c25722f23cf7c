/-
Burst comparison of `signal_match.cpp`: the tolerance test on durations and the
shape tests built on it.
-/
import RfIrBlaster.ConfigModel

namespace RfIrBlaster

/-- The three receivers, armed in parallel. -/
inductive Source where
  | rf315
  | rf433
  | ir
deriving DecidableEq, Repr

def kMinBurstPulses : Nat := 16
/-- One entry is kept free for the trailing gap. -/
def kMaxBurstPulses : Nat := maxPulses - 1
def kMatchTolerancePercent : Nat := 25
def kMatchToleranceUs : Nat := 100
def kIrCarrierMinHz : UInt16 := 20000
def kIrCarrierMaxHz : UInt16 := 60000

/-- Within 25 percent of the larger value or 100 us, whichever is wider.  The
products stay far below `2^32`, so no wrap is modelled. -/
def durationsMatch (a b : UInt16) : Bool :=
  let diff := if a.toNat > b.toNat then a.toNat - b.toNat else b.toNat - a.toNat
  let ref := max a.toNat b.toNat
  decide (diff * 100 ≤ ref * kMatchTolerancePercent) ||
    decide (diff ≤ kMatchToleranceUs)

def wellFormed (src : Source) (pulses : List UInt16) (carrierHz : UInt16) : Bool :=
  if pulses.length < kMinBurstPulses ∨ kMaxBurstPulses < pulses.length then false
  else if pulses.any (· == 0) then false
  else if src = .ir ∧ (carrierHz < kIrCarrierMinHz ∨ kIrCarrierMaxHz < carrierHz) then
    false
  else true

/-- Entry by entry, for lists of one length. -/
def durationsAllMatch : List UInt16 → List UInt16 → Bool
  | x :: xs, y :: ys => durationsMatch x y && durationsAllMatch xs ys
  | _, _ => true

def burstsMatch (a b : List UInt16) : Bool :=
  if a.length ≠ b.length then false else durationsAllMatch a b

def minPulse : List UInt16 → UInt16
  | [] => 0
  | x :: xs => xs.foldl min x

/-- Same length and matching shortest pulse. -/
def structurallyAlike (a b : List UInt16) : Bool :=
  if a.length ≠ b.length ∨ a.length = 0 then false
  else durationsMatch (minPulse a) (minPulse b)

theorem uint16_toNat_max (a b : UInt16) : (max a b).toNat = max a.toNat b.toNat := by
  change (if a ≤ b then b else a).toNat = _
  by_cases hle : a ≤ b
  · rw [if_pos hle, Nat.max_eq_right (UInt16.le_iff_toNat_le.mp hle)]
  · have hlt := UInt16.lt_iff_toNat_lt.mp (UInt16.not_le.mp hle)
    rw [if_neg hle, Nat.max_eq_left (Nat.le_of_lt hlt)]

@[simp]
theorem durationsMatch_self (a : UInt16) : durationsMatch a a = true := by
  simp [durationsMatch]

theorem durationsMatch_comm (a b : UInt16) :
    durationsMatch a b = durationsMatch b a := by
  have hdiff : (if a.toNat > b.toNat then a.toNat - b.toNat else b.toNat - a.toNat) =
      if b.toNat > a.toNat then b.toNat - a.toNat else a.toNat - b.toNat := by
    split_ifs <;> omega
  simp only [durationsMatch, hdiff, Nat.max_comm b.toNat a.toNat]

@[simp]
theorem durationsAllMatch_self (a : List UInt16) : durationsAllMatch a a = true := by
  induction a with
  | nil => rfl
  | cons x xs ih => simp [durationsAllMatch, ih]

theorem durationsAllMatch_comm (a b : List UInt16) :
    durationsAllMatch a b = durationsAllMatch b a := by
  induction a generalizing b with
  | nil => cases b <;> rfl
  | cons x xs ih =>
      cases b with
      | nil => rfl
      | cons y ys => simp [durationsAllMatch, durationsMatch_comm x y, ih ys]

/-- A burst matches itself, so the first member of a cluster matches the
cluster's reference. -/
@[simp]
theorem burstsMatch_self (a : List UInt16) : burstsMatch a a = true := by
  simp [burstsMatch]

theorem burstsMatch_comm (a b : List UInt16) : burstsMatch a b = burstsMatch b a := by
  simp only [burstsMatch, durationsAllMatch_comm a b, ne_comm (a := a.length)]

theorem burstsMatch_length {a b : List UInt16} (h : burstsMatch a b = true) :
    a.length = b.length := by
  unfold burstsMatch at h
  split_ifs at h with hlen
  exact not_not.mp hlen

theorem wellFormed_iff (src : Source) (pulses : List UInt16) (carrierHz : UInt16) :
    wellFormed src pulses carrierHz = true ↔
      kMinBurstPulses ≤ pulses.length ∧ pulses.length ≤ kMaxBurstPulses ∧
      (∀ p ∈ pulses, p ≠ 0) ∧
      (src = .ir → kIrCarrierMinHz ≤ carrierHz ∧ carrierHz ≤ kIrCarrierMaxHz) := by
  unfold wellFormed
  split_ifs with hlen hzero hcarrier
  · simp only [false_iff]
    omega
  · simp only [false_iff]
    simp only [List.any_eq_true, beq_iff_eq] at hzero
    obtain ⟨p, hp, rfl⟩ := hzero
    exact fun h => h.2.2.1 0 hp rfl
  · simp only [false_iff]
    intro h
    obtain ⟨hlow, hhigh⟩ := h.2.2.2 hcarrier.1
    rcases hcarrier.2 with h | h
    · exact absurd hlow (UInt16.not_le.mpr h)
    · exact absurd hhigh (UInt16.not_le.mpr h)
  · simp only [true_iff]
    refine ⟨by omega, by omega, ?_, ?_⟩
    · intro p hp hp0
      exact hzero (List.any_eq_true.mpr ⟨p, hp, by simp [hp0]⟩)
    · intro hir
      simp only [hir, true_and, not_or, UInt16.not_lt] at hcarrier
      exact hcarrier

end RfIrBlaster
