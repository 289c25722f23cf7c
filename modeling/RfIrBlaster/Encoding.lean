/-
base64url without padding, the constant-time compare, and the MAC behind the
tokens of the configuration web.
-/
import RfIrBlaster.ConfigModel
import Mathlib.Data.List.Basic
import Mathlib.Tactic.SplitIfs

namespace RfIrBlaster.Runtime

/-- What the tokens need of the device's crypto: a keyed digest of 32 bytes. -/
structure Crypto where
  hmacSha256 : Bytes → Bytes → Bytes
  mac_length : ∀ key data, (hmacSha256 key data).length = 32

/-- The differences of two buffers of one length, or-ed together. -/
def diffBits (a b : Bytes) : UInt8 :=
  (a.zip b).foldl (fun diff p => diff ||| (p.1 ^^^ p.2)) 0

def constantTimeEqual (a b : Bytes) : Bool :=
  if a.length ≠ b.length then false else diffBits a b = 0

def kEnc : Bytes :=
  ascii "ABCDEFGHIJKLMNOPQRSTUVWXYZabcdefghijklmnopqrstuvwxyz0123456789-_"

/-- The character of the six bits of `n` above the lowest `shift`. -/
def encSextet (n shift : Nat) : UInt8 :=
  kEnc.getD ((n >>> shift) &&& 0x3F) 0

def base64urlEncode : Bytes → Bytes
  | a :: b :: c :: rest =>
      let n := (a.toNat <<< 16) ||| (b.toNat <<< 8) ||| c.toNat
      encSextet n 18 :: encSextet n 12 :: encSextet n 6 :: encSextet n 0 ::
        base64urlEncode rest
  | [a, b] =>
      let n := (a.toNat <<< 16) ||| (b.toNat <<< 8)
      [encSextet n 18, encSextet n 12, encSextet n 6]
  | [a] =>
      let n := a.toNat <<< 16
      [encSextet n 18, encSextet n 12]
  | [] => []

/-- The six bits of a character of the alphabet. -/
def dec (c : UInt8) : Option Nat :=
  if 65 ≤ c ∧ c ≤ 90 then some (c.toNat - 65)
  else if 97 ≤ c ∧ c ≤ 122 then some (c.toNat - 97 + 26)
  else if 48 ≤ c ∧ c ≤ 57 then some (c.toNat - 48 + 52)
  else if c = 45 then some 62
  else if c = 95 then some 63
  else none

/-- The loop of `base64urlDecode`, four characters a step; the length check in
front of it is the case of one character left. -/
def base64urlDecode : Bytes → Option Bytes
  | a :: b :: c :: d :: rest => do
      let a ← dec a
      let b ← dec b
      let c ← dec c
      let d ← dec d
      let v := (a <<< 18) ||| (b <<< 12) ||| (c <<< 6) ||| d
      let out ← base64urlDecode rest
      some (UInt8.ofNat (v >>> 16) :: UInt8.ofNat (v >>> 8) :: UInt8.ofNat v :: out)
  | [a, b, c] => do
      let a ← dec a
      let b ← dec b
      let c ← dec c
      let v := (a <<< 12) ||| (b <<< 6) ||| c
      some [UInt8.ofNat (v >>> 10), UInt8.ofNat (v >>> 2)]
  | [a, b] => do
      let a ← dec a
      let b ← dec b
      some [UInt8.ofNat ((a <<< 2) ||| (b >>> 4))]
  | [_] => none
  | [] => some []

theorem diffBits_foldl_eq_zero {pairs : List (UInt8 × UInt8)} {diff : UInt8} :
    pairs.foldl (fun diff p => diff ||| (p.1 ^^^ p.2)) diff = 0 ↔
      diff = 0 ∧ ∀ p ∈ pairs, p.1 = p.2 := by
  induction pairs generalizing diff with
  | nil => simp
  | cons p rest ih =>
      rw [List.foldl_cons, ih, UInt8.or_eq_zero_iff, UInt8.xor_eq_zero_iff,
        List.forall_mem_cons, and_assoc]

theorem zip_eq_iff {a b : Bytes} (hlen : a.length = b.length) :
    (∀ p ∈ a.zip b, p.1 = p.2) ↔ a = b := by
  induction a generalizing b with
  | nil => simp [List.length_eq_zero_iff.mp hlen.symm]
  | cons x xs ih =>
      cases b with
      | nil => cases hlen
      | cons y ys =>
          rw [List.zip_cons_cons, List.forall_mem_cons, ih (Nat.succ.inj hlen), List.cons.injEq]

/-- The compare has no early exit, and decides equality. -/
theorem constantTimeEqual_iff {a b : Bytes} : constantTimeEqual a b = true ↔ a = b := by
  unfold constantTimeEqual
  split_ifs with hlen
  · constructor
    · intro h
      cases h
    · intro h
      exact absurd (congrArg List.length h) hlen
  · rw [decide_eq_true_iff, diffBits, diffBits_foldl_eq_zero, zip_eq_iff (not_not.mp hlen)]
    simp

theorem or_eq_add {high low k : Nat} (hhigh : high % 2 ^ k = 0) (hlow : low < 2 ^ k) :
    high ||| low = high + low := by
  have hshift : high = (high / 2 ^ k) <<< k := by
    rw [Nat.shiftLeft_eq, Nat.div_mul_cancel (Nat.dvd_of_mod_eq_zero hhigh)]
  rw [hshift]
  exact (Nat.shiftLeft_add_eq_or_of_lt hlow _).symm

theorem pack_two {a b : Nat} (hb : b < 256) :
    (a <<< 16) ||| (b <<< 8) = a * 65536 + b * 256 := by
  rw [Nat.shiftLeft_eq, Nat.shiftLeft_eq]
  exact or_eq_add (k := 16) (by omega) (by omega)

theorem pack_three {a b c : Nat} (hb : b < 256) (hc : c < 256) :
    (a <<< 16) ||| (b <<< 8) ||| c = a * 65536 + b * 256 + c := by
  rw [pack_two hb]
  exact or_eq_add (k := 8) (by omega) hc

/-- Sextets put together above each other. -/
theorem pack_sextets {high s k : Nat} (hs : s < 2 ^ 6) (hhigh : high % 2 ^ (k + 6) = 0) :
    high ||| s <<< k = high + s * 2 ^ k := by
  rw [Nat.shiftLeft_eq]
  refine or_eq_add hhigh ?_
  rw [Nat.pow_add, Nat.mul_comm (2 ^ k)]
  exact Nat.mul_lt_mul_of_pos_right hs (Nat.two_pow_pos k)

theorem dec_kEnc : ∀ i < 64, dec (kEnc.getD i 0) = some i := by
  decide +kernel

/-- Six bits come back from their character. -/
theorem dec_encSextet (n shift : Nat) : dec (encSextet n shift) = some (n / 2 ^ shift % 64) := by
  have hmask : (n >>> shift) &&& 0x3F = n / 2 ^ shift % 64 := by
    rw [Nat.shiftRight_eq_div_pow]
    exact Nat.and_two_pow_sub_one_eq_mod _ 6
  rw [encSextet, hmask]
  exact dec_kEnc _ (Nat.mod_lt _ (by decide))

theorem byte_eq_of_mod {n : Nat} {b : UInt8} (h : n % 256 = b.toNat) : UInt8.ofNat n = b := by
  apply UInt8.toNat_inj.mp
  rw [UInt8.toNat_ofNat']
  exact h

theorem four_sextets (n : Nat) (h : n < 2 ^ 24) :
    ((n / 2 ^ 18 % 64) <<< 18) ||| ((n / 2 ^ 12 % 64) <<< 12) |||
      ((n / 2 ^ 6 % 64) <<< 6) ||| (n / 2 ^ 0 % 64) = n := by
  rw [Nat.shiftLeft_eq, pack_sextets (k := 12) (by omega) (by omega),
    pack_sextets (k := 6) (by omega) (by omega)]
  rw [or_eq_add (k := 6) (by omega) (by omega)]
  omega

theorem three_sextets (n : Nat) (h : n < 2 ^ 24) (hlow : n % 2 ^ 8 = 0) :
    ((n / 2 ^ 18 % 64) <<< 12) ||| ((n / 2 ^ 12 % 64) <<< 6) ||| (n / 2 ^ 6 % 64) =
      n / 2 ^ 6 := by
  rw [Nat.shiftLeft_eq, pack_sextets (k := 6) (by omega) (by omega)]
  rw [or_eq_add (k := 6) (by omega) (by omega)]
  omega

/-- Decoding takes back what was encoded. -/
theorem base64urlDecode_encode (data : Bytes) :
    base64urlDecode (base64urlEncode data) = some data := by
  induction data using base64urlEncode.induct with
  | case1 a b c rest ih =>
      have ha := a.toNat_lt
      have hb := b.toNat_lt
      have hc := c.toNat_lt
      simp only [base64urlEncode, pack_three hb hc, base64urlDecode, dec_encSextet, ih,
        Option.bind_eq_bind, Option.bind_some]
      rw [four_sextets _ (by omega)]
      simp only [Nat.shiftRight_eq_div_pow]
      rw [byte_eq_of_mod (b := a) (by omega), byte_eq_of_mod (b := b) (by omega),
        byte_eq_of_mod (b := c) (by omega)]
  | case2 a b =>
      have ha := a.toNat_lt
      have hb := b.toNat_lt
      simp only [base64urlEncode, pack_two hb, base64urlDecode, dec_encSextet,
        Option.bind_eq_bind, Option.bind_some]
      rw [three_sextets _ (by omega) (by omega)]
      simp only [Nat.shiftRight_eq_div_pow]
      rw [byte_eq_of_mod (b := a) (by omega), byte_eq_of_mod (b := b) (by omega)]
  | case3 a =>
      have ha := a.toNat_lt
      simp only [base64urlEncode, base64urlDecode, dec_encSextet, Option.bind_eq_bind,
        Option.bind_some]
      simp only [Nat.shiftLeft_eq, Nat.shiftRight_eq_div_pow]
      rw [or_eq_add (k := 2) (by omega) (by omega), byte_eq_of_mod (b := a) (by omega)]
  | case4 => rfl

/-- `A-Z a-z 0-9 - _`. -/
def IsBase64url (c : UInt8) : Prop :=
  (65 ≤ c ∧ c ≤ 90) ∨ (97 ≤ c ∧ c ≤ 122) ∨ (48 ≤ c ∧ c ≤ 57) ∨ c = 45 ∨ c = 95

instance (c : UInt8) : Decidable (IsBase64url c) :=
  inferInstanceAs (Decidable (_ ∨ _))

theorem dec_isSome_iff (c : UInt8) : (dec c).isSome = true ↔ IsBase64url c := by
  unfold dec IsBase64url
  split_ifs with hupper hlower hdigit hdash hunderscore <;> simp_all

theorem encSextet_byte (n shift : Nat) : IsBase64url (encSextet n shift) := by
  rw [← dec_isSome_iff, dec_encSextet]
  rfl

theorem base64urlEncode_bytes (data : Bytes) :
    ∀ c ∈ base64urlEncode data, IsBase64url c := by
  induction data using base64urlEncode.induct with
  | case1 a b c rest ih => simpa [base64urlEncode, encSextet_byte] using ih
  | case2 a b => simp [base64urlEncode, encSextet_byte]
  | case3 a => simp [base64urlEncode, encSextet_byte]
  | case4 => simp [base64urlEncode]

end RfIrBlaster.Runtime
