/-
The distinct elements of a list in the order they are met, collected one by one up to a cap.
-/
import Mathlib.Data.List.Basic

universe u

namespace FirstSeen

variable {α : Type u} [BEq α] [LawfulBEq α]

/-- Collect what is new behind `seen`, until there are `cap` elements. -/
def collect (cap : Nat) : List α → List α → List α
  | [], seen => seen
  | x :: xs, seen =>
      if seen.length < cap then
        if x ∈ seen then collect cap xs seen else collect cap xs (seen ++ [x])
      else seen

/-- With no room left nothing is collected. -/
theorem collect_full {cap : Nat} (xs : List α) {seen : List α} (h : ¬seen.length < cap) :
    collect cap xs seen = seen := by
  cases xs with
  | nil => rfl
  | cons x xs => rw [collect, if_neg h]

/-- A cap met while the list is read cuts its distinct elements there. -/
theorem collect_eq {cap : Nat} (xs : List α) {seen : List α} (hseen : seen.length ≤ cap) :
    collect cap xs seen = (seen ++ (xs.filter (· ∉ seen)).eraseDups).take cap := by
  induction xs generalizing seen with
  | nil => simp [collect, List.take_of_length_le hseen]
  | cons x xs ih =>
      by_cases hroom : seen.length < cap
      · rw [collect, if_pos hroom]
        by_cases hold : x ∈ seen
        · rw [if_pos hold, ih hseen, List.filter_cons_of_neg (by simp [hold])]
        · have hnext : (seen ++ [x]).length ≤ cap := by
            rw [List.length_append, List.length_singleton]
            exact hroom
          have hfresh : (xs.filter (· ∉ seen)).filter (fun b => !b == x) =
              xs.filter (· ∉ seen ++ [x]) := by
            rw [List.filter_filter]
            refine List.filter_congr fun b _ => ?_
            by_cases hb : b = x <;> simp [hb]
          rw [if_neg hold, ih hnext, List.filter_cons_of_pos (by simp [hold]), List.eraseDups_cons,
            hfresh, List.append_assoc, List.singleton_append]
      · have hfull : seen.length = cap := by omega
        rw [collect_full _ hroom, List.take_append_of_le_length (by omega),
          List.take_of_length_le hseen]

/-- From nothing: the distinct elements, as many as there is room for. -/
theorem collect_nil (cap : Nat) (xs : List α) : collect cap xs [] = xs.eraseDups.take cap := by
  rw [collect_eq xs (Nat.zero_le cap)]
  simp

end FirstSeen
