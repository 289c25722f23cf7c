/-
Tables of slots, each free or held under a key: lookups, and what changing a
held slot or filling a free one does to them.
-/
import Mathlib.Data.List.Nodup
import Mathlib.Data.List.Perm.Basic

universe u v

namespace SlotTable

variable {α : Type u} {κ : Type v} [DecidableEq κ] (held : α → Option κ)

/-- The first slot held under a key. -/
def slotOf (k : κ) (table : List α) : Option Nat :=
  table.findIdx? fun a => held a = some k

def freeSlot (table : List α) : Option Nat :=
  table.findIdx? fun a => (held a).isNone

/-- What the first slot held under a key contains. -/
def lookup (k : κ) (table : List α) : Option α :=
  table.find? fun a => held a = some k

def heldKeys (table : List α) : List κ :=
  table.filterMap held

variable {held}

/-- An index found by a search splits the list at the element found. -/
theorem split_of_findIdx? {p : α → Bool} {table : List α} {i : Nat}
    (h : table.findIdx? p = some i) :
    ∃ front a back, table = front ++ a :: back ∧ front.length = i ∧ p a = true ∧
      ∀ b ∈ front, p b = false := by
  induction table generalizing i with
  | nil => simp at h
  | cons c rest ih =>
      rw [List.findIdx?_cons] at h
      cases hp : p c with
      | true =>
          rw [hp, if_pos rfl] at h
          exact ⟨[], c, rest, rfl, Option.some.inj h, hp, by simp⟩
      | false =>
          rw [hp, if_neg Bool.false_ne_true] at h
          obtain ⟨j, hj, rfl⟩ := Option.map_eq_some_iff.mp h
          obtain ⟨front, a, back, rfl, hlen, ha, hfront⟩ := ih hj
          exact ⟨c :: front, a, back, rfl, by simp [hlen], ha,
            List.forall_mem_cons.mpr ⟨hp, hfront⟩⟩

theorem modify_split (front back : List α) (a : α) (f : α → α) :
    (front ++ a :: back).modify front.length f = front ++ f a :: back := by
  induction front with
  | nil => rfl
  | cons b rest ih => simp [ih]

theorem lookup_append (k : κ) (xs ys : List α) :
    lookup held k (xs ++ ys) = (lookup held k xs).or (lookup held k ys) :=
  List.find?_append

theorem lookup_cons (k : κ) (a : α) (table : List α) :
    lookup held k (a :: table) = if held a = some k then some a else lookup held k table := by
  by_cases hkey : held a = some k
  · simp [lookup, hkey]
  · simp [lookup, hkey]

theorem lookup_eq_none_iff {k : κ} {table : List α} :
    lookup held k table = none ↔ k ∉ heldKeys held table := by
  simp [lookup, heldKeys]

theorem slotOf_eq_none_iff {k : κ} {table : List α} :
    slotOf held k table = none ↔ lookup held k table = none := by
  simp [slotOf, lookup]

theorem lookup_eq_none_of_front {k : κ} {front : List α}
    (h : ∀ b ∈ front, decide (held b = some k) = false) : lookup held k front = none :=
  List.find?_eq_none.mpr fun b hb => by simpa using h b hb

/-- Exchanging one slot changes the lookups of the two keys concerned only. -/
theorem lookup_exchange {k : κ} {a a' : α} (ha : held a ≠ some k) (ha' : held a' ≠ some k)
    (front back : List α) :
    lookup held k (front ++ a' :: back) = lookup held k (front ++ a :: back) := by
  rw [lookup_append, lookup_append, lookup_cons, lookup_cons, if_neg ha, if_neg ha']

/-- Changing the slot of `k`, which stays held under it. -/
theorem lookup_modify_slotOf {k : κ} {table : List α} {i : Nat} {f : α → α}
    (h : slotOf held k table = some i)
    (hf : ∀ a, held a = some k → held (f a) = some k) (k' : κ) :
    lookup held k' (table.modify i f) =
      if k' = k then (lookup held k table).map f else lookup held k' table := by
  obtain ⟨front, a, back, rfl, rfl, ha, hfront⟩ := split_of_findIdx? h
  have hheld : held a = some k := by simpa using ha
  rw [modify_split]
  by_cases hkey : k' = k
  · have hnone := lookup_eq_none_of_front hfront
    rw [if_pos hkey, hkey, lookup_append, lookup_append, hnone, lookup_cons, lookup_cons,
      if_pos hheld, if_pos (hf a hheld)]
    rfl
  · have hother : some k ≠ some k' := fun heq => hkey (Option.some.inj heq).symm
    rw [if_neg hkey]
    exact lookup_exchange (hheld ▸ hother) (hf a hheld ▸ hother) front back

/-- Filling a free slot under a key that held none. -/
theorem lookup_fill_free {k : κ} {table : List α} {i : Nat} {a' : α}
    (h : freeSlot held table = some i) (hnew : lookup held k table = none)
    (ha' : held a' = some k) (k' : κ) :
    lookup held k' (table.modify i fun _ => a') =
      if k' = k then some a' else lookup held k' table := by
  obtain ⟨front, a, back, rfl, rfl, ha, -⟩ := split_of_findIdx? h
  have hfree : held a = none := by simpa using ha
  rw [modify_split]
  by_cases hkey : k' = k
  · rw [lookup_append, Option.or_eq_none_iff] at hnew
    rw [if_pos hkey, hkey, lookup_append, hnew.1, lookup_cons, if_pos ha']
    rfl
  · have hother : some k ≠ some k' := fun heq => hkey (Option.some.inj heq).symm
    rw [if_neg hkey]
    exact lookup_exchange (by simp [hfree]) (ha' ▸ hother) front back

/-- Replacing a slot other than the one found does not change what is found. -/
theorem lookup_replace {k : κ} {table : List α} {i : Nat} {a b c : α}
    (ha : lookup held k table = some a) (hb : table[i]? = some b) (hne : b ≠ a)
    (hc : held c ≠ some k) : lookup held k (table.modify i fun _ => c) = some a := by
  induction table generalizing i with
  | nil => cases ha
  | cons d rest ih =>
      rw [lookup_cons] at ha
      cases i with
      | zero =>
          obtain rfl : d = b := Option.some.inj hb
          have hd : held d ≠ some k := by
            intro hheld
            rw [if_pos hheld] at ha
            exact hne (Option.some.inj ha)
          rw [if_neg hd] at ha
          rw [List.modify_zero_cons, lookup_cons, if_neg hc]
          exact ha
      | succ i =>
          rw [List.modify_succ_cons, lookup_cons]
          by_cases hheld : held d = some k
          · rw [if_pos hheld] at ha ⊢
            exact ha
          · rw [if_neg hheld] at ha ⊢
            exact ih ha (by simpa using hb)

theorem heldKeys_modify_slotOf {k : κ} {table : List α} {i : Nat} {f : α → α}
    (h : slotOf held k table = some i)
    (hf : ∀ a, held a = some k → held (f a) = some k) :
    heldKeys held (table.modify i f) = heldKeys held table := by
  obtain ⟨front, a, back, rfl, rfl, ha, -⟩ := split_of_findIdx? h
  have hheld : held a = some k := by simpa using ha
  rw [modify_split]
  simp [heldKeys, hheld, hf a hheld]

omit [DecidableEq κ] in
theorem heldKeys_fill_free {k : κ} {table : List α} {i : Nat} {a' : α}
    (h : freeSlot held table = some i) (ha' : held a' = some k) :
    (heldKeys held (table.modify i fun _ => a')).Perm (k :: heldKeys held table) := by
  obtain ⟨front, a, back, rfl, rfl, ha, -⟩ := split_of_findIdx? h
  have hfree : held a = none := by simpa using ha
  rw [modify_split]
  simp only [heldKeys, List.filterMap_append, List.filterMap_cons, hfree, ha']
  exact List.perm_middle

omit [DecidableEq κ] in
/-- Fewer keys than slots leave a slot free. -/
theorem exists_freeSlot {table : List α}
    (h : (heldKeys held table).length < table.length) :
    ∃ i, freeSlot held table = some i := by
  by_contra hnone
  have hall : ∀ a ∈ table, (held a).isSome := by
    have hsearch : freeSlot held table = none := by
      cases hfree : freeSlot held table with
      | none => rfl
      | some i => exact absurd ⟨i, hfree⟩ hnone
    intro a ha
    have hheld := List.findIdx?_eq_none_iff.mp hsearch a ha
    simpa [Option.isSome_iff_ne_none] using hheld
  have hlen : (heldKeys held table).length = table.length :=
    List.filterMap_length_eq_length.mpr hall
  omega

end SlotTable
