/-
Regular expressions over single characters: classes, bounded repetition and lists
with a separator, each with the words it matches.
-/
import Mathlib.Computability.RegularExpressions

universe u

namespace RegularExpression

variable {α : Type u}

/-- A character class. -/
def anyOf : List α → RegularExpression α
  | [] => 0
  | a :: rest => char a + anyOf rest

/-- The repetition `{0,n}`. -/
def upTo (r : RegularExpression α) (n : Nat) : RegularExpression α :=
  (1 + r) ^ n

/-- One or more `r` with a separator between any two. -/
def separated (r : RegularExpression α) (sep : α) : RegularExpression α :=
  r * star (char sep * r)

theorem mem_char {a : α} {word : List α} : word ∈ (char a).matches' ↔ word = [a] :=
  Iff.rfl

theorem mem_anyOf {chars : List α} {word : List α} :
    word ∈ (anyOf chars).matches' ↔ ∃ c ∈ chars, word = [c] := by
  induction chars with
  | nil =>
      rw [anyOf, matches'_zero]
      simp
  | cons a rest ih =>
      rw [anyOf, matches'_add, Language.mem_add, mem_char, ih]
      simp

/-- A class repeated up to `n` times matches every word of its characters that is no
longer than that. -/
theorem mem_upTo_anyOf {chars : List α} {n : Nat} {word : List α} :
    word ∈ (upTo (anyOf chars) n).matches' ↔ word.length ≤ n ∧ ∀ c ∈ word, c ∈ chars := by
  rw [upTo, matches'_pow, matches'_add, matches'_epsilon]
  induction n generalizing word with
  | zero =>
      rw [pow_zero, Language.mem_one, Nat.le_zero, List.length_eq_zero_iff]
      constructor
      · rintro rfl
        simp
      · exact fun h => h.1
  | succ n ih =>
      rw [pow_succ', Language.mem_mul]
      constructor
      · rintro ⟨head, hhead, tail, htail, rfl⟩
        obtain ⟨hlen, htailchars⟩ := ih.mp htail
        rcases (Language.mem_add _ _ _).mp hhead with hnil | hone
        · rw [Language.mem_one] at hnil
          rw [hnil, List.nil_append]
          exact ⟨Nat.le_succ_of_le hlen, htailchars⟩
        · obtain ⟨c, hc, rfl⟩ := mem_anyOf.mp hone
          exact ⟨Nat.succ_le_succ hlen, List.forall_mem_cons.mpr ⟨hc, htailchars⟩⟩
      · rintro ⟨hlen, hchars⟩
        cases word with
        | nil =>
            refine ⟨[], (Language.mem_add _ _ _).mpr (Or.inl rfl), [], ?_, rfl⟩
            exact ih.mpr ⟨Nat.zero_le n, by simp⟩
        | cons c word =>
            rw [List.forall_mem_cons] at hchars
            refine ⟨[c], (Language.mem_add _ _ _).mpr (Or.inr ?_), word, ?_, rfl⟩
            · exact mem_anyOf.mpr ⟨c, hchars.1, rfl⟩
            · exact ih.mpr ⟨Nat.le_of_succ_le_succ hlen, hchars.2⟩

/-- The words of a separated list, piece by piece. -/
theorem mem_separated {r : RegularExpression α} {sep : α} {word : List α} :
    word ∈ (separated r sep).matches' ↔
      ∃ (first : List α) (rest : List (List α)), first ∈ r.matches' ∧
        (∀ piece ∈ rest, piece ∈ r.matches') ∧
        word = first ++ rest.flatMap fun piece => sep :: piece := by
  rw [separated, matches'_mul, matches'_star, Language.mem_mul]
  constructor
  · rintro ⟨first, hfirst, tail, htail, rfl⟩
    obtain ⟨chunks, rfl, hchunks⟩ := Language.mem_kstar.mp htail
    have hpieces : ∀ chunk ∈ chunks, ∃ piece ∈ r.matches', chunk = sep :: piece := by
      intro chunk hchunk
      have hmem := hchunks chunk hchunk
      rw [matches'_mul, Language.mem_mul] at hmem
      obtain ⟨mark, hmark, piece, hpiece, rfl⟩ := hmem
      rw [mem_char.mp hmark]
      exact ⟨piece, hpiece, rfl⟩
    refine ⟨first, chunks.map List.tail, hfirst, ?_, ?_⟩
    · intro piece hpiece
      obtain ⟨chunk, hchunk, rfl⟩ := List.mem_map.mp hpiece
      obtain ⟨piece, hmem, rfl⟩ := hpieces chunk hchunk
      exact hmem
    · congr 1
      rw [List.flatMap_def, List.map_map]
      congr 1
      conv_lhs => rw [← List.map_id chunks]
      apply List.map_congr_left
      intro chunk hchunk
      obtain ⟨piece, -, rfl⟩ := hpieces chunk hchunk
      rfl
  · rintro ⟨first, rest, hfirst, hrest, rfl⟩
    refine ⟨first, hfirst, _, ?_, rfl⟩
    refine Language.mem_kstar.mpr ⟨rest.map fun piece => sep :: piece, List.flatMap_def, ?_⟩
    intro chunk hchunk
    obtain ⟨piece, hpiece, rfl⟩ := List.mem_map.mp hchunk
    rw [matches'_mul, Language.mem_mul]
    exact ⟨[sep], mem_char.mpr rfl, piece, hrest piece hpiece, rfl⟩

end RegularExpression
