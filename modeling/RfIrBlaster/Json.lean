/-
JSON documents over byte strings: member lookup and replacement, container depth,
and the documents whose object keys are pairwise distinct.
-/
import Mathlib.Algebra.Ring.Nat
import Mathlib.Data.List.Nodup

/-- A parsed document.  A number that is not an integer keeps its text. -/
inductive Json where
  | null
  | bool (b : Bool)
  | int (n : Int)
  | float (text : List UInt8)
  | str (s : List UInt8)
  | arr (xs : List Json)
  | obj (members : List (List UInt8 × Json))

namespace Json

/-- Structural induction, with the hypothesis for every element or member. -/
theorem induction {P : Json → Prop} (hnull : P .null) (hbool : ∀ b, P (.bool b))
    (hint : ∀ n, P (.int n)) (hfloat : ∀ t, P (.float t)) (hstr : ∀ s, P (.str s))
    (harr : ∀ xs, (∀ x ∈ xs, P x) → P (.arr xs))
    (hobj : ∀ ms, (∀ m ∈ ms, P m.2) → P (.obj ms)) (doc : Json) : P doc := by
  apply Json.rec (motive_1 := P) (motive_2 := fun xs => ∀ x ∈ xs, P x)
    (motive_3 := fun ms => ∀ m ∈ ms, P m.2) (motive_4 := fun m => P m.2)
  · exact hnull
  · exact hbool
  · exact hint
  · exact hfloat
  · exact hstr
  · exact harr
  · exact hobj
  · simp
  · intro x xs hx hxs y hy
    rcases List.mem_cons.mp hy with rfl | hy
    · exact hx
    · exact hxs y hy
  · simp
  · intro m ms hm hms y hy
    rcases List.mem_cons.mp hy with rfl | hy
    · exact hm
    · exact hms y hy
  · exact fun _ _ h => h

mutual
/-- How many containers deep a document goes. -/
def depth : Json → Nat
  | .arr xs => 1 + depthElements xs
  | .obj ms => 1 + depthMembers ms
  | _ => 0

def depthElements : List Json → Nat
  | [] => 0
  | x :: xs => max x.depth (depthElements xs)

def depthMembers : List (List UInt8 × Json) → Nat
  | [] => 0
  | (_, v) :: ms => max v.depth (depthMembers ms)
end

theorem depthElements_le_iff (xs : List Json) (n : Nat) :
    depthElements xs ≤ n ↔ ∀ x ∈ xs, x.depth ≤ n := by
  induction xs with
  | nil => simp [depthElements]
  | cons x xs ih => rw [depthElements, Nat.max_le, ih, List.forall_mem_cons]

theorem depthMembers_le_iff (ms : List (List UInt8 × Json)) (n : Nat) :
    depthMembers ms ≤ n ↔ ∀ m ∈ ms, m.2.depth ≤ n := by
  induction ms with
  | nil => simp [depthMembers]
  | cons m ms ih =>
      obtain ⟨key, v⟩ := m
      rw [depthMembers, Nat.max_le, ih, List.forall_mem_cons]

/-- The value of a member, `none` when the key is absent. -/
def lookup (key : List UInt8) : List (List UInt8 × Json) → Option Json
  | [] => none
  | (k, v) :: ms => if k = key then some v else lookup key ms

/-- Replace the member in place, or append it. -/
def setMember (key : List UInt8) (value : Json) :
    List (List UInt8 × Json) → List (List UInt8 × Json)
  | [] => [(key, value)]
  | (k, v) :: ms => if k = key then (k, value) :: ms else (k, v) :: setMember key value ms

def members : Json → List (List UInt8 × Json)
  | .obj ms => ms
  | _ => []

def elements : Json → List Json
  | .arr xs => xs
  | _ => []

/-- The member of an object; `null` when it is absent or this is no object. -/
def get (doc : Json) (key : List UInt8) : Json :=
  (lookup key doc.members).getD .null

theorem setMember_of_not_mem {key : List UInt8} {value : Json}
    {ms : List (List UInt8 × Json)} (h : key ∉ ms.map Prod.fst) :
    setMember key value ms = ms ++ [(key, value)] := by
  induction ms with
  | nil => rfl
  | cons m ms ih =>
      obtain ⟨k, v⟩ := m
      simp only [List.map_cons, List.mem_cons, not_or] at h
      rw [setMember, if_neg (Ne.symm h.1), ih h.2]
      rfl

/-- Setting a member changes no key but its own. -/
theorem setMember_keys (key : List UInt8) (value : Json) (ms : List (List UInt8 × Json)) :
    (setMember key value ms).map Prod.fst =
      if key ∈ ms.map Prod.fst then ms.map Prod.fst else ms.map Prod.fst ++ [key] := by
  induction ms with
  | nil => rfl
  | cons m ms ih =>
      obtain ⟨k, v⟩ := m
      by_cases hk : k = key
      · simp [setMember, hk]
      · rw [setMember, if_neg hk, List.map_cons, ih]
        by_cases hmem : key ∈ ms.map Prod.fst
        · simp only [hmem, if_true, List.map_cons, List.mem_cons, or_true]
        · simp only [hmem, if_false, List.map_cons, List.mem_cons, or_false, Ne.symm hk,
            List.cons_append]

theorem setMember_keys_nodup {key : List UInt8} {value : Json}
    {ms : List (List UInt8 × Json)} (h : (ms.map Prod.fst).Nodup) :
    ((setMember key value ms).map Prod.fst).Nodup := by
  rw [setMember_keys]
  by_cases hmem : key ∈ ms.map Prod.fst
  · rw [if_pos hmem]
    exact h
  · rw [if_neg hmem]
    exact List.nodup_append.mpr ⟨h, List.nodup_singleton key, by grind⟩

theorem mem_setMember {key : List UInt8} {value : Json} {ms : List (List UInt8 × Json)}
    {m : List UInt8 × Json} (h : m ∈ setMember key value ms) : m = (key, value) ∨ m ∈ ms := by
  induction ms with
  | nil => exact .inl (List.mem_singleton.mp h)
  | cons m' ms ih =>
      obtain ⟨k, v⟩ := m'
      rw [setMember] at h
      by_cases hk : k = key
      · rw [if_pos hk] at h
        rcases List.mem_cons.mp h with heq | h
        · exact .inl (hk ▸ heq)
        · exact .inr (List.mem_cons_of_mem _ h)
      · rw [if_neg hk] at h
        rcases List.mem_cons.mp h with heq | h
        · exact .inr (heq ▸ List.mem_cons_self)
        · rcases ih h with hnew | hold
          · exact .inl hnew
          · exact .inr (List.mem_cons_of_mem _ hold)

theorem mem_of_lookup {key : List UInt8} {value : Json} {ms : List (List UInt8 × Json)}
    (h : lookup key ms = some value) : (key, value) ∈ ms := by
  induction ms with
  | nil => cases h
  | cons m ms ih =>
      obtain ⟨k, v⟩ := m
      rw [lookup] at h
      by_cases hk : k = key
      · rw [if_pos hk] at h
        rw [hk, Option.some.inj h]
        exact List.mem_cons_self
      · rw [if_neg hk] at h
        exact List.mem_cons_of_mem _ (ih h)

theorem lookup_setMember (key key' : List UInt8) (value : Json)
    (ms : List (List UInt8 × Json)) :
    lookup key' (setMember key value ms) =
      if key' = key then some value else lookup key' ms := by
  induction ms with
  | nil => simp [setMember, lookup, eq_comm]
  | cons m ms ih =>
      obtain ⟨k, v⟩ := m
      by_cases hk : k = key
      · subst hk
        by_cases hkey : key' = k
        · simp [setMember, lookup, hkey]
        · simp [setMember, lookup, hkey, Ne.symm hkey]
      · rw [setMember, if_neg hk, lookup, ih]
        by_cases hkey : key' = key
        · subst hkey
          simp [hk]
        · simp [lookup, hkey]

/-- Object keys are pairwise distinct throughout. -/
inductive Distinct : Json → Prop where
  | null : Distinct .null
  | bool (b : Bool) : Distinct (.bool b)
  | int (n : Int) : Distinct (.int n)
  | float (text : List UInt8) : Distinct (.float text)
  | str (s : List UInt8) : Distinct (.str s)
  | arr {xs : List Json} (h : ∀ x ∈ xs, Distinct x) : Distinct (.arr xs)
  | obj {ms : List (List UInt8 × Json)} (hkeys : (ms.map Prod.fst).Nodup)
      (h : ∀ m ∈ ms, Distinct m.2) : Distinct (.obj ms)

/-- A document of 32-bit unsigned integers, without other numbers. -/
inductive Plain : Json → Prop where
  | null : Plain .null
  | bool (b : Bool) : Plain (.bool b)
  | int {n : Nat} (h : n < 2 ^ 32) : Plain (.int n)
  | str (s : List UInt8) : Plain (.str s)
  | arr {xs : List Json} (h : ∀ x ∈ xs, Plain x) : Plain (.arr xs)
  | obj {ms : List (List UInt8 × Json)} (hkeys : (ms.map Prod.fst).Nodup)
      (h : ∀ m ∈ ms, Plain m.2) : Plain (.obj ms)

end Json
