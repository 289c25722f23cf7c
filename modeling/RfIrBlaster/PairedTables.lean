/-
Two tables kept in step row by row, and the column totals of equally long
rows with their rounded means.
-/
import Mathlib.Data.List.Forall2
import Mathlib.Algebra.Order.BigOperators.Group.List
import Mathlib.Data.List.GetD
import Mathlib.Tactic.Ring

universe u v

namespace PairedTables

variable {α : Type u} {β : Type v} {R S : α → β → Prop}

theorem forall₂_concat {l : List α} {m : List β} (h : List.Forall₂ R l m)
    {a : α} {b : β} (hab : R a b) : List.Forall₂ R (l ++ [a]) (m ++ [b]) :=
  List.rel_append h (.cons hab .nil)

/-- Rows at one position are related. -/
theorem forall₂_getElem? {l : List α} {m : List β} (h : List.Forall₂ R l m)
    {i : Nat} {a : α} (ha : l[i]? = some a) : ∃ b, m[i]? = some b ∧ R a b := by
  induction h generalizing i with
  | nil => simp at ha
  | @cons x y xs ys hxy hrest ih =>
      cases i with
      | zero =>
          simp only [List.getElem?_cons_zero, Option.some.injEq] at ha ⊢
          exact ⟨y, rfl, ha ▸ hxy⟩
      | succ i =>
          simp only [List.getElem?_cons_succ] at ha ⊢
          exact ih ha

/-- Updating one row on both sides keeps the tables in step, when the update
does so for the rows at that position. -/
theorem forall₂_modify {l : List α} {m : List β} (h : List.Forall₂ R l m)
    (i : Nat) {f : α → α} {g : β → β} (hmono : ∀ a b, R a b → S a b)
    (hrow : ∀ a b, l[i]? = some a → R a b → S (f a) (g b)) :
    List.Forall₂ S (l.modify i f) (m.modify i g) := by
  induction h generalizing i with
  | nil => simp
  | @cons x y xs ys hxy hrest ih =>
      cases i with
      | zero =>
          simp only [List.modify_zero_cons]
          exact .cons (hrow x y rfl hxy) (hrest.imp hmono)
      | succ i =>
          simp only [List.modify_succ_cons]
          exact .cons (hmono x y hxy) (ih i (fun a b ha => hrow a b (by simpa using ha)))

/-- Updating one row of the first table alone. -/
theorem forall₂_modify_left {l : List α} {m : List β} (h : List.Forall₂ R l m) (i : Nat)
    {f : α → α} (hrow : ∀ a b, l[i]? = some a → R a b → R (f a) b) :
    List.Forall₂ R (l.modify i f) m := by
  have hboth := @forall₂_modify _ _ R R l m h i f id (fun _ _ hab => hab) hrow
  rwa [List.modify_id] at hboth

theorem forall₂_set {l : List α} {m : List β} (h : List.Forall₂ R l m)
    (i : Nat) {a : α} {b : β} (hab : R a b) :
    List.Forall₂ R (l.set i a) (m.set i b) := by
  induction h generalizing i with
  | nil => simp
  | @cons x y xs ys hxy hrest ih =>
      cases i with
      | zero => exact .cons hab hrest
      | succ i => exact .cons hxy (ih i)

theorem modify_length_concat (l : List α) (a : α) (f : α → α) :
    (l ++ [a]).modify l.length f = l ++ [f a] := by
  induction l with
  | nil => rfl
  | cons x xs ih => simp [ih]

theorem modify_set (l : List α) (i : Nat) (a : α) (f : α → α) :
    (l.set i a).modify i f = l.set i (f a) := by
  induction l generalizing i with
  | nil => simp
  | cons x xs ih => cases i <;> simp [ih]

/-- The total of each of the first `n` columns. -/
def columnSums (n : Nat) (rows : List (List Nat)) : List Nat :=
  (List.range n).map fun i => (rows.map fun row => row.getD i 0).sum

@[simp]
theorem columnSums_length (n : Nat) (rows : List (List Nat)) :
    (columnSums n rows).length = n := by
  simp [columnSums]

theorem columnSums_getElem {n : Nat} {rows : List (List Nat)} {i : Nat}
    (h : i < (columnSums n rows).length) :
    (columnSums n rows)[i] = (rows.map fun row => row.getD i 0).sum := by
  simp [columnSums]

@[simp]
theorem columnSums_nil (n : Nat) : columnSums n [] = List.replicate n 0 := by
  simp [columnSums]

/-- One more row adds to every column. -/
theorem columnSums_concat {n : Nat} (rows : List (List Nat)) {row : List Nat}
    (hrow : row.length = n) :
    columnSums n (rows ++ [row]) = List.zipWith (· + ·) (columnSums n rows) row := by
  apply List.ext_getElem
  · simp [hrow]
  · intro i hleft hright
    simp only [columnSums_length] at hleft
    have hi : i < row.length := by omega
    rw [columnSums_getElem, List.getElem_zipWith, columnSums_getElem]
    simp [List.getElem?_eq_getElem hi]

theorem columnSums_le {n bound : Nat} {rows : List (List Nat)}
    (hrows : ∀ row ∈ rows, ∀ x ∈ row, x ≤ bound) :
    ∀ s ∈ columnSums n rows, s ≤ rows.length * bound := by
  intro s hs
  simp only [columnSums, List.mem_map] at hs
  obtain ⟨i, _, rfl⟩ := hs
  have hcol : ∀ x ∈ rows.map (fun row => row.getD i 0), x ≤ bound := by
    intro x hx
    obtain ⟨row, hrow, rfl⟩ := List.mem_map.mp hx
    by_cases hi : i < row.length
    · rw [List.getD_eq_getElem _ _ hi]
      exact hrows row hrow _ (List.getElem_mem hi)
    · rw [List.getD_eq_default _ _ (by omega)]
      exact Nat.zero_le bound
  simpa using List.sum_le_card_nsmul _ bound hcol

/-- A rounded mean lies between any lower and any upper bound of its terms. -/
theorem mean_between {xs : List Nat} {low high : Nat} (hne : xs ≠ [])
    (hlow : ∀ x ∈ xs, low ≤ x) (hhigh : ∀ x ∈ xs, x ≤ high) :
    low ≤ (xs.sum + xs.length / 2) / xs.length ∧
      (xs.sum + xs.length / 2) / xs.length ≤ high := by
  have hpos : 0 < xs.length := List.length_pos_iff.mpr hne
  have hge : xs.length * low ≤ xs.sum := by
    simpa using List.card_nsmul_le_sum xs low hlow
  have hle : xs.sum ≤ xs.length * high := by
    simpa using List.sum_le_card_nsmul xs high hhigh
  constructor
  · rw [Nat.le_div_iff_mul_le hpos, Nat.mul_comm]
    omega
  · have hlt : xs.sum + xs.length / 2 < (high + 1) * xs.length := by
      have : (high + 1) * xs.length = xs.length * high + xs.length := by ring
      omega
    exact Nat.lt_succ_iff.mp ((Nat.div_lt_iff_lt_mul hpos).mpr hlt)

/-- Some term is at most the rounded mean, and some term at least it. -/
theorem mean_attained {xs : List Nat} (hne : xs ≠ []) :
    (∃ x ∈ xs, x ≤ (xs.sum + xs.length / 2) / xs.length) ∧
      ∃ x ∈ xs, (xs.sum + xs.length / 2) / xs.length ≤ x := by
  constructor
  · by_contra hnone
    push Not at hnone
    have hlow := (mean_between hne (fun x hx => Nat.succ_le_of_lt (hnone x hx))
      (fun x hx => List.single_le_sum (fun _ _ => Nat.zero_le _) x hx)).1
    exact absurd hlow (Nat.not_succ_le_self _)
  · by_contra hnone
    push Not at hnone
    cases hmean : (xs.sum + xs.length / 2) / xs.length with
    | zero =>
        obtain ⟨x, hx⟩ := List.exists_mem_of_ne_nil xs hne
        have := hnone x hx
        omega
    | succ n =>
        have hhigh := (mean_between hne (fun x _ => Nat.zero_le x)
          (fun x hx => Nat.le_of_lt_succ (hmean ▸ hnone x hx))).2
        omega

end PairedTables
