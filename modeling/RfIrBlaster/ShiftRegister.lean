/-
Checksum registers that move down one bit at a time and fold a polynomial in when a bit falls
out: a step is linear and, with the polynomial's top bit set, loses nothing, so bytes that fit
the register are all told apart by what they leave in it.
-/
import Mathlib.Algebra.Ring.Nat
import Mathlib.Logic.Function.Iterate
import Mathlib.Tactic.SplitIfs

namespace ShiftRegister

variable {w : Nat} (poly : BitVec w)

def step (x : BitVec w) : BitVec w :=
  if x.getLsbD 0 then (x >>> 1) ^^^ poly else x >>> 1

def steps (n : Nat) (x : BitVec w) : BitVec w :=
  (step poly)^[n] x

/-- A byte is folded into the low end, then moved out of it. -/
def absorb (x : BitVec w) (bytes : List (BitVec 8)) : BitVec w :=
  bytes.foldl (fun x b => steps poly 8 (x ^^^ b.setWidth w)) x

/-- Bytes side by side, the first lowest. -/
def pack : List (BitVec 8) → BitVec w
  | [] => 0#w
  | b :: bs => b.setWidth w ^^^ (pack bs <<< 8)

theorem step_xor (x y : BitVec w) : step poly (x ^^^ y) = step poly x ^^^ step poly y := by
  unfold step
  rw [BitVec.getLsbD_xor, BitVec.ushiftRight_xor_distrib]
  cases x.getLsbD 0 <;> cases y.getLsbD 0
  · simp
  · simp [BitVec.xor_assoc]
  · simp only [Bool.xor_false, if_true, Bool.false_eq_true, if_false]
    rw [BitVec.xor_assoc, BitVec.xor_comm (y >>> 1), ← BitVec.xor_assoc]
  · simp only [Bool.xor_self, Bool.false_eq_true, if_false, if_true]
    rw [BitVec.xor_assoc, ← BitVec.xor_assoc poly, BitVec.xor_comm poly, BitVec.xor_assoc,
      BitVec.xor_self, BitVec.xor_zero]

theorem steps_xor (n : Nat) (x y : BitVec w) :
    steps poly n (x ^^^ y) = steps poly n x ^^^ steps poly n y := by
  induction n generalizing x y with
  | zero => rfl
  | succ n ih =>
      unfold steps at ih ⊢
      rw [Function.iterate_succ_apply, Function.iterate_succ_apply, Function.iterate_succ_apply,
        step_xor, ih]

variable {poly}

/-- A step that leaves nothing had nothing: the bit that falls out sets the top bit. -/
theorem eq_zero_of_step (hpoly : poly.msb = true) {x : BitVec w} (h : step poly x = 0#w) :
    x = 0#w := by
  unfold step at h
  split_ifs at h with hlow
  · have hmsb : ((x >>> 1) ^^^ poly).msb = true := by
      rw [BitVec.msb_xor, BitVec.msb_ushiftRight, hpoly]
      simp
    rw [h] at hmsb
    simp at hmsb
  · apply BitVec.eq_of_getLsbD_eq
    intro i hi
    rw [BitVec.getLsbD_zero]
    cases i with
    | zero => simpa using hlow
    | succ i =>
        have hbit := congrArg (fun z : BitVec w => z.getLsbD i) h
        simpa [BitVec.getLsbD_ushiftRight, Nat.add_comm] using hbit

theorem step_injective (hpoly : poly.msb = true) : Function.Injective (step poly) := by
  intro x y h
  have hdiff : step poly (x ^^^ y) = 0#w := by
    rw [step_xor, h, BitVec.xor_self]
  exact BitVec.xor_eq_zero_iff.mp (eq_zero_of_step hpoly hdiff)

theorem steps_injective (hpoly : poly.msb = true) (n : Nat) :
    Function.Injective (steps poly n) :=
  (step_injective hpoly).iterate n

/-- Bits that are still above the low end only move down. -/
theorem steps_shifted {n : Nat} {y : BitVec w} (h : y.toNat * 2 ^ n < 2 ^ w) :
    steps poly n (y <<< n) = y := by
  induction n with
  | zero => simp [steps]
  | succ n ih =>
      have hdouble : y.toNat * 2 ^ n * 2 < 2 ^ w := by
        rw [Nat.mul_assoc, ← Nat.pow_succ]
        exact h
      have hfits : y.toNat * 2 ^ n < 2 ^ w := by omega
      have hvalue : (y <<< n).toNat = y.toNat * 2 ^ n := by
        rw [BitVec.toNat_shiftLeft, Nat.shiftLeft_eq, Nat.mod_eq_of_lt hfits]
      have hstep : step poly (y <<< (n + 1)) = y <<< n := by
        have hlow : (y <<< (n + 1)).getLsbD 0 = false := by
          rw [BitVec.getLsbD_shiftLeft]
          simp
        unfold step
        rw [hlow, if_neg Bool.false_ne_true]
        apply BitVec.eq_of_toNat_eq
        rw [BitVec.toNat_ushiftRight, BitVec.toNat_shiftLeft, Nat.shiftLeft_eq, Nat.mod_eq_of_lt h,
          hvalue, Nat.shiftRight_eq_div_pow, Nat.pow_succ, ← Nat.mul_assoc]
        simp
      unfold steps at ih ⊢
      rw [Function.iterate_succ_apply, hstep]
      exact ih hfits

theorem byte_lt (b : BitVec 8) : (b.setWidth w).toNat < 2 ^ 8 := by
  rw [BitVec.toNat_setWidth]
  exact Nat.lt_of_le_of_lt (Nat.mod_le _ _) b.isLt

theorem pack_lt {bytes : List (BitVec 8)} (h : 8 * bytes.length ≤ w) :
    (pack bytes : BitVec w).toNat < 2 ^ (8 * bytes.length) := by
  induction bytes with
  | nil => simp [pack]
  | cons b bs ih =>
      rw [List.length_cons] at h ⊢
      have hbs := ih (by omega)
      have hpow : 2 ^ (8 * (bs.length + 1)) = 2 ^ (8 * bs.length) * 2 ^ 8 := by
        rw [← Nat.pow_add]
        rfl
      rw [pack, BitVec.toNat_xor]
      apply Nat.xor_lt_two_pow
      · exact Nat.lt_of_lt_of_le (byte_lt b) (Nat.pow_le_pow_right (by decide) (by omega))
      · rw [BitVec.toNat_shiftLeft, Nat.shiftLeft_eq]
        apply Nat.lt_of_le_of_lt (Nat.mod_le _ _)
        rw [hpow]
        exact Nat.mul_lt_mul_of_pos_right hbs (by decide)

/-- Bytes that fit the register can be folded in all at once. -/
theorem absorb_eq {bytes : List (BitVec 8)} (h : 8 * bytes.length ≤ w) (x : BitVec w) :
    absorb poly x bytes = steps poly (8 * bytes.length) (x ^^^ pack bytes) := by
  induction bytes generalizing x with
  | nil => simp [absorb, pack, steps]
  | cons b bs ih =>
      rw [List.length_cons] at h ⊢
      have hbs := @pack_lt w bs (by omega)
      have hfits : (pack bs : BitVec w).toNat * 2 ^ 8 < 2 ^ w := by
        calc (pack bs : BitVec w).toNat * 2 ^ 8 < 2 ^ (8 * bs.length) * 2 ^ 8 :=
              Nat.mul_lt_mul_of_pos_right hbs (by decide)
          _ = 2 ^ (8 * bs.length + 8) := (Nat.pow_add 2 _ _).symm
          _ ≤ 2 ^ w := Nat.pow_le_pow_right (by decide) (by omega)
      have hfirst : steps poly 8 (x ^^^ pack (b :: bs)) =
          steps poly 8 (x ^^^ b.setWidth w) ^^^ pack bs := by
        rw [pack, ← BitVec.xor_assoc, steps_xor, steps_shifted hfits]
      have hcount : 8 * (bs.length + 1) = 8 * bs.length + 8 := by omega
      have hsplit : steps poly (8 * bs.length + 8) (x ^^^ pack (b :: bs)) =
          steps poly (8 * bs.length) (steps poly 8 (x ^^^ pack (b :: bs))) :=
        Function.iterate_add_apply _ _ _ _
      rw [hcount, hsplit, hfirst, ← ih (by omega)]
      rfl

theorem pack_inj {bytes bytes' : List (BitVec 8)} (hlength : bytes.length = bytes'.length)
    (h : 8 * bytes.length ≤ w) (heq : (pack bytes : BitVec w) = pack bytes') :
    bytes = bytes' := by
  induction bytes generalizing bytes' with
  | nil => exact (List.length_eq_zero_iff.mp hlength.symm).symm
  | cons b bs ih =>
      cases bytes' with
      | nil => cases hlength
      | cons b' bs' =>
          rw [List.length_cons] at h
          have hlength' : bs.length = bs'.length := Nat.succ.inj hlength
          have hbit : ∀ i, (pack (b :: bs) : BitVec w).getLsbD i = (pack (b' :: bs')).getLsbD i :=
            fun i => by rw [heq]
          simp only [pack, BitVec.getLsbD_xor, BitVec.getLsbD_setWidth,
            BitVec.getLsbD_shiftLeft] at hbit
          have hfirst : b = b' := by
            apply BitVec.eq_of_getLsbD_eq
            intro i hi
            have hat := hbit i
            simpa [hi, show i < w by omega] using hat
          have hrest : (pack bs : BitVec w) = pack bs' := by
            apply BitVec.eq_of_getLsbD_eq
            intro i hi
            by_cases hin : i + 8 < w
            · have hat := hbit (i + 8)
              simpa [hin, show ¬i + 8 < 8 by omega] using hat
            · have hbound := @pack_lt w bs (by omega)
              have hbound' := @pack_lt w bs' (by omega)
              rw [BitVec.getLsbD, BitVec.getLsbD, Nat.testBit_lt_two_pow, Nat.testBit_lt_two_pow]
              · exact Nat.lt_of_lt_of_le hbound' (Nat.pow_le_pow_right (by decide) (by omega))
              · exact Nat.lt_of_lt_of_le hbound (Nat.pow_le_pow_right (by decide) (by omega))
          rw [hfirst, ih hlength' (by omega) hrest]

/-- What is absorbed later does not hide what was absorbed before. -/
theorem absorb_injective (hpoly : poly.msb = true) (bytes : List (BitVec 8)) :
    Function.Injective fun x => absorb poly x bytes := by
  induction bytes with
  | nil => exact fun x y h => h
  | cons b bs ih =>
      intro x y h
      have hnext : steps poly 8 (x ^^^ b.setWidth w) = steps poly 8 (y ^^^ b.setWidth w) := ih h
      exact (BitVec.xor_left_inj _).mp (steps_injective hpoly 8 hnext)

/-- The burst rule: of two byte strings of one length that agree outside a stretch the
register has room for, only equal ones leave the same in it. -/
theorem absorb_burst (hpoly : poly.msb = true) {burst burst' : List (BitVec 8)}
    (hlength : burst.length = burst'.length) (hroom : 8 * burst.length ≤ w) (x : BitVec w)
    (front back : List (BitVec 8))
    (h : absorb poly x (front ++ (burst ++ back)) = absorb poly x (front ++ (burst' ++ back))) :
    burst = burst' := by
  unfold absorb at h
  rw [List.foldl_append, List.foldl_append, List.foldl_append, List.foldl_append] at h
  have hburst := absorb_injective hpoly back h
  generalize front.foldl (fun x b => steps poly 8 (x ^^^ b.setWidth w)) x = y at hburst
  have hfolded : absorb poly y burst = absorb poly y burst' := hburst
  have hroom' : 8 * burst'.length ≤ w := hlength ▸ hroom
  rw [absorb_eq hroom, absorb_eq hroom', ← hlength] at hfolded
  exact pack_inj hlength hroom ((BitVec.xor_right_inj _).mp (steps_injective hpoly _ hfolded))

end ShiftRegister
