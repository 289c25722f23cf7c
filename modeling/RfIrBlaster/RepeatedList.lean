/-
A list repeated in a row, cut after some number of elements and expanded element by
element: the expansion is a whole number of copies only where the cut falls between two.
-/
import Mathlib.Data.List.Basic

universe u v

namespace RepeatedList

variable {α : Type u} {β : Type v}

/-- `n` copies of `xs` in a row. -/
def copies : Nat → List α → List α
  | 0, _ => []
  | n + 1, xs => xs ++ copies n xs

@[simp]
theorem copies_zero (xs : List α) : copies 0 xs = [] :=
  rfl

@[simp]
theorem copies_one (xs : List α) : copies 1 xs = xs :=
  List.append_nil xs

theorem copies_succ (n : Nat) (xs : List α) :
    copies (n + 1) xs = xs ++ copies n xs :=
  rfl

@[simp]
theorem length_copies (n : Nat) (xs : List α) :
    (copies n xs).length = n * xs.length := by
  induction n with
  | zero => simp
  | succ n ih =>
      rw [copies_succ, List.length_append, ih, Nat.succ_mul]
      exact Nat.add_comm _ _

theorem copies_add (m n : Nat) (xs : List α) :
    copies (m + n) xs = copies m xs ++ copies n xs := by
  induction m with
  | zero => simp
  | succ m ih =>
      rw [Nat.succ_add, copies_succ, copies_succ, ih, List.append_assoc]

theorem mem_of_mem_copies {n : Nat} {xs : List α} {x : α} (h : x ∈ copies n xs) :
    x ∈ xs := by
  induction n with
  | zero => cases h
  | succ n ih =>
      rcases List.mem_append.mp h with hhead | htail
      · exact hhead
      · exact ih htail

theorem flatMap_copies (f : α → List β) (n : Nat) (xs : List α) :
    (copies n xs).flatMap f = copies n (xs.flatMap f) := by
  induction n with
  | zero => rfl
  | succ n ih =>
      rw [copies_succ, List.flatMap_append, ih]
      rfl

/-- A cut inside copy `q` keeps the copies before it and a part of that one. -/
theorem take_copies {n q r : Nat} (hq : q < n) {xs : List α} (hr : r ≤ xs.length) :
    (copies n xs).take (q * xs.length + r) = copies q xs ++ xs.take r := by
  obtain ⟨rest, hn⟩ : ∃ rest, n = q + (rest + 1) := ⟨n - q - 1, by omega⟩
  have hlen : (copies q xs).length = q * xs.length := length_copies q xs
  rw [hn, copies_add, copies_succ, ← hlen, List.take_length_add_append,
    List.take_append_of_le_length hr]

theorem length_flatMap_pos {f : α → List β} {xs : List α} (hne : xs ≠ [])
    (hf : ∀ x ∈ xs, f x ≠ []) : 0 < (xs.flatMap f).length := by
  cases xs with
  | nil => exact absurd rfl hne
  | cons x rest =>
      have hx : 0 < (f x).length := List.length_pos_iff.mpr (hf x List.mem_cons_self)
      rw [List.flatMap_cons, List.length_append]
      omega

/-- A proper nonempty part of one copy expands to a proper nonempty part. -/
theorem length_flatMap_take {f : α → List β} {xs : List α} (hf : ∀ x ∈ xs, f x ≠ [])
    {r : Nat} (hpos : 0 < r) (hr : r < xs.length) :
    0 < ((xs.take r).flatMap f).length ∧
      ((xs.take r).flatMap f).length < (xs.flatMap f).length := by
  have htake : 0 < ((xs.take r).flatMap f).length := by
    apply length_flatMap_pos
    · intro hnil
      have hlen := congrArg List.length hnil
      rw [List.length_take, List.length_nil] at hlen
      omega
    · exact fun x hx => hf x (List.mem_of_mem_take hx)
  have hdrop : 0 < ((xs.drop r).flatMap f).length := by
    apply length_flatMap_pos
    · intro hnil
      have hlen := congrArg List.length hnil
      rw [List.length_drop, List.length_nil] at hlen
      omega
    · exact fun x hx => hf x (List.mem_of_mem_drop hx)
  have hsplit : (xs.flatMap f).length =
      ((xs.take r).flatMap f).length + ((xs.drop r).flatMap f).length := by
    rw [← List.length_append, ← List.flatMap_append, List.take_append_drop]
  exact ⟨htake, by omega⟩

/-- Where every element expands to something, what is left of the copies after a cut
expands to whole copies exactly when nothing was cut or the cut falls on a border. -/
theorem flatMap_take_copies_iff {f : α → List β} {xs : List α}
    (hf : ∀ x ∈ xs, f x ≠ []) (n m : Nat) :
    (∃ k, ((copies n xs).take m).flatMap f = copies k (xs.flatMap f)) ↔
      n * xs.length ≤ m ∨ xs.length ∣ m := by
  by_cases hall : n * xs.length ≤ m
  · have htake : (copies n xs).take m = copies n xs :=
      List.take_of_length_le (by rw [length_copies]; exact hall)
    rw [htake]
    exact iff_of_true ⟨n, flatMap_copies f n xs⟩ (Or.inl hall)
  · -- The cut falls in copy `q`, after `r` of its elements.
    obtain ⟨q, r, hm⟩ : ∃ q r, q = m / xs.length ∧ r = m % xs.length := ⟨_, _, rfl, rfl⟩
    have hlen : 0 < xs.length := by
      rcases Nat.eq_zero_or_pos xs.length with hzero | hpos
      · rw [hzero] at hall
        omega
      · exact hpos
    have hr : r < xs.length := hm.2 ▸ Nat.mod_lt m hlen
    have hcut : m = q * xs.length + r := by
      rw [hm.1, hm.2, Nat.mul_comm]
      exact (Nat.div_add_mod m xs.length).symm
    have hq : q < n := by
      rw [hm.1]
      exact Nat.div_lt_of_lt_mul (by rw [Nat.mul_comm]; omega)
    rw [hcut, take_copies hq (Nat.le_of_lt hr), List.flatMap_append, flatMap_copies]
    constructor
    · rintro ⟨k, hk⟩
      right
      have hlens := congrArg List.length hk
      rw [List.length_append, length_copies, length_copies] at hlens
      have hdvd : (xs.flatMap f).length ∣ ((xs.take r).flatMap f).length := by
        rw [← Nat.dvd_add_right (Nat.dvd_mul_left _ q), hlens]
        exact Nat.dvd_mul_left _ k
      rcases Nat.eq_zero_or_pos r with hzero | hpos
      · rw [hzero]
        exact Nat.dvd_mul_left _ q
      · obtain ⟨hsome, hpart⟩ := length_flatMap_take hf hpos hr
        exact absurd (Nat.le_of_dvd hsome hdvd) (by omega)
    · rintro (hfits | hborder)
      · exact absurd hfits (by rw [← hcut]; exact hall)
      · have hzero : r = 0 :=
          Nat.eq_zero_of_dvd_of_lt
            ((Nat.dvd_add_right (Nat.dvd_mul_left _ q)).mp hborder) hr
        exact ⟨q, by rw [hzero]; simp⟩

end RepeatedList
