/-
Lists whose elements change sides at every place: which side they end on, and what is left
when an end on the second side is dropped.
-/
import Mathlib.Data.List.Chain

universe u

namespace AlternatingList

variable {α : Type u} (side : α → Bool)

def Alternating (xs : List α) : Prop :=
  xs.IsChain fun a b => side a ≠ side b

instance (xs : List α) : Decidable (Alternating side xs) :=
  inferInstanceAs (Decidable (List.IsChain (fun a b => side a ≠ side b) xs))

/-- Drop the last element unless it is on the first side. -/
def trimEnd (xs : List α) : List α :=
  if xs.getLast?.any fun a => !side a then xs.dropLast else xs

/-- Nonempty, starting and ending on the first side, with the sides in turn. -/
structure Framed (xs : List α) : Prop where
  odd : xs.length % 2 = 1
  alternates : Alternating side xs
  starts : xs.head?.any side = true
  ends : xs.getLast?.any side = true

variable {side} {a b : α} {xs rest : List α}

theorem Alternating.take (h : Alternating side xs) (n : Nat) : Alternating side (xs.take n) :=
  List.IsChain.take h n

theorem Alternating.dropLast (h : Alternating side xs) : Alternating side xs.dropLast := by
  rw [List.dropLast_eq_take]
  exact h.take _

/-- The last element is on the side of the first exactly in a list of odd length. -/
theorem Alternating.side_getLast (h : Alternating side (a :: rest))
    (hb : b ∈ (a :: rest).getLast?) : (side b = side a ↔ (a :: rest).length % 2 = 1) := by
  induction rest generalizing a with
  | nil =>
      rw [List.getLast?_singleton, Option.mem_some_iff] at hb
      simp [hb]
  | cons c rest ih =>
      obtain ⟨hne, htail⟩ := List.isChain_cons_cons.mp h
      rw [List.getLast?_cons_cons] at hb
      have hrest := ih htail hb
      rw [List.length_cons] at hrest ⊢
      have hswap : ∀ x y z : Bool, x ≠ y → (z = x ↔ ¬z = y) := by decide
      rw [hswap (side a) (side c) (side b) hne, hrest, List.length_cons]
      omega

/-- Starting on the first side, the list is framed once its end is trimmed. -/
theorem Alternating.framed_trimEnd (h : Alternating side (a :: rest)) (ha : side a = true) :
    Framed side (trimEnd side (a :: rest)) := by
  obtain ⟨b, hb⟩ : ∃ b, (a :: rest).getLast? = some b :=
    ⟨_, List.getLast?_eq_some_getLast (List.cons_ne_nil a rest)⟩
  have hparity := h.side_getLast hb
  rw [ha] at hparity
  unfold trimEnd
  cases hside : side b with
  | true =>
      have hkeep : ¬(((a :: rest).getLast?.any fun a => !side a) = true) := by simp [hb, hside]
      rw [if_neg hkeep]
      exact ⟨hparity.mp hside, h, by simp [ha], by simp [hb, hside]⟩
  | false =>
      have hdrop : ((a :: rest).getLast?.any fun a => !side a) = true := by simp [hb, hside]
      rw [if_pos hdrop]
      rw [hside] at hparity
      have heven : (a :: rest).length % 2 = 0 := by
        have hnot : ¬(a :: rest).length % 2 = 1 := fun hodd => by simpa using hparity.mpr hodd
        omega
      cases rest with
      | nil => simp at heven
      | cons c rest =>
          have hkept := h.dropLast
          rw [List.dropLast_cons_cons] at hkept ⊢
          have hodd : (a :: (c :: rest).dropLast).length % 2 = 1 := by
            simp only [List.length_cons, List.length_dropLast] at heven ⊢
            omega
          obtain ⟨d, hd⟩ : ∃ d, (a :: (c :: rest).dropLast).getLast? = some d :=
            ⟨_, List.getLast?_eq_some_getLast (List.cons_ne_nil a _)⟩
          have hend : side d = true := ((hkept.side_getLast hd).mpr hodd).trans ha
          exact ⟨hodd, hkept, by simp [ha], by simp [hd, hend]⟩

/-- Starting on the second side, the trimmed list has an even length. -/
theorem Alternating.even_trimEnd (h : Alternating side (a :: rest)) (ha : side a = false) :
    (trimEnd side (a :: rest)).length % 2 = 0 := by
  obtain ⟨b, hb⟩ : ∃ b, (a :: rest).getLast? = some b :=
    ⟨_, List.getLast?_eq_some_getLast (List.cons_ne_nil a rest)⟩
  have hparity := h.side_getLast hb
  rw [ha] at hparity
  unfold trimEnd
  cases hside : side b with
  | true =>
      have hkeep : ¬(((a :: rest).getLast?.any fun a => !side a) = true) := by simp [hb, hside]
      rw [if_neg hkeep]
      rw [hside] at hparity
      have hnot : ¬(a :: rest).length % 2 = 1 := fun hodd => by simpa using hparity.mpr hodd
      omega
  | false =>
      have hdrop : ((a :: rest).getLast?.any fun a => !side a) = true := by simp [hb, hside]
      have hodd := hparity.mp hside
      rw [if_pos hdrop, List.length_dropLast]
      omega

end AlternatingList
