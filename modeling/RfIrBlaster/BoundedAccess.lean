/-
Programs that stop at an index out of bounds: the accesses and the loops of indexed
code with `none` for the stop, and the plain list operations they compute while every
index is in bounds.
-/
import Mathlib.Data.List.GetD
import Mathlib.Data.List.Range

universe u v

namespace BoundedAccess

variable {α : Type u} {β : Type v}

/-- Change the item at `i`. -/
def update (items : List α) (i : Nat) (f : α → Option α) : Option (List α) :=
  items[i]?.bind fun x => (f x).map fun y => items.set i y

theorem update_eq {items : List α} {i : Nat} {x : α} {f : α → Option α} {g : α → α}
    (hx : items[i]? = some x) (hf : f x = some (g x)) :
    update items i f = some (items.modify i g) := by
  unfold update
  rw [hx, Option.bind_some, hf, Option.map_some, Option.some.injEq]
  apply List.ext_getElem?
  intro j
  rw [List.getElem?_set, List.getElem?_modify]
  by_cases hij : i = j
  · subst hij
    obtain ⟨hi, rfl⟩ := List.getElem?_eq_some_iff.mp hx
    simp [hi]
  · simp [hij]

/-- An array of `room` places that holds `items`: fill the next place. -/
def push (room : Nat) (items : List α) (x : α) : Option (List α) :=
  if items.length < room then some (items ++ [x]) else none

theorem push_eq {room : Nat} {items : List α} (h : items.length < room) (x : α) :
    push room items x = some (items ++ [x]) :=
  if_pos h

/-- The index of the first item with `p` among the `left` items from `i` on. -/
def findFrom (items : List α) (p : α → Bool) : Nat → Nat → Option (Option Nat)
  | 0, _ => some none
  | left + 1, i =>
      items[i]?.bind fun x =>
        if p x then some (some i) else findFrom items p left (i + 1)

theorem getElem?_of_drop {items rest : List α} {i : Nat} {x : α}
    (hrest : items.drop i = x :: rest) :
    items[i]? = some x ∧ items.drop (i + 1) = rest := by
  constructor
  · rw [← Nat.add_zero i, ← List.getElem?_drop, hrest]
    rfl
  · rw [← List.drop_drop, hrest]
    rfl

theorem findFrom_drop (items : List α) (p : α → Bool) {rest : List α} {i : Nat}
    (hrest : items.drop i = rest) :
    findFrom items p rest.length i = some ((rest.findIdx? p).map (· + i)) := by
  induction rest generalizing i with
  | nil => rfl
  | cons x rest ih =>
      obtain ⟨hx, htail⟩ := getElem?_of_drop hrest
      rw [List.length_cons, findFrom, hx, Option.bind_some, List.findIdx?_cons]
      by_cases hp : p x = true
      · simp [hp]
      · simp only [hp, Bool.false_eq_true, if_false, ih htail, Option.map_map]
        congr 2
        funext j
        simp only [Function.comp_apply]
        omega

/-- The search over all items. -/
theorem findFrom_eq (items : List α) (p : α → Bool) :
    findFrom items p items.length 0 = some (items.findIdx? p) := by
  simpa using findFrom_drop items p (List.drop_zero (l := items))

/-- Read the `left` items from `i` on through `f`. -/
def readFrom (items : List α) (f : α → Option β) : Nat → Nat → Option (List β)
  | 0, _ => some []
  | left + 1, i =>
      items[i]?.bind fun x => (f x).bind fun y => (readFrom items f left (i + 1)).map (y :: ·)

theorem readFrom_drop {items : List α} {f : α → Option β} {g : α → β}
    (hf : ∀ x, f x = some (g x)) {rest : List α} {i : Nat} (hrest : items.drop i = rest) :
    readFrom items f rest.length i = some (rest.map g) := by
  induction rest generalizing i with
  | nil => rfl
  | cons x rest ih =>
      obtain ⟨hx, htail⟩ := getElem?_of_drop hrest
      rw [List.length_cons, readFrom, hx, Option.bind_some, hf, Option.bind_some, ih htail]
      rfl

/-- Reading as many items as there are. -/
theorem readFrom_eq {items : List α} {f : α → Option β} {g : α → β}
    (hf : ∀ x, f x = some (g x)) {n : Nat} (hn : items.length = n) :
    readFrom items f n 0 = some (items.map g) := by
  rw [← hn]
  exact readFrom_drop hf List.drop_zero

/-- Combine `items` with `xs` place by place. -/
def zipInto (f : α → β → α) : List α → List β → Option (List α)
  | items, [] => some items
  | [], _ :: _ => none
  | x :: items, y :: ys => (zipInto f items ys).map (f x y :: ·)

theorem zipInto_eq (f : α → β → α) {items : List α} {ys : List β}
    (h : items.length = ys.length) : zipInto f items ys = some (List.zipWith f items ys) := by
  induction items generalizing ys with
  | nil =>
      cases ys with
      | nil => rfl
      | cons y ys => cases h
  | cons x items ih =>
      cases ys with
      | nil => cases h
      | cons y ys =>
          rw [zipInto, ih (Nat.succ.inj h)]
          rfl

/-- How many of the items at `ids` have `p`. -/
def countAt (items : List α) (p : α → Bool) : List Nat → Option Nat
  | [] => some 0
  | i :: ids =>
      items[i]?.bind fun x => (countAt items p ids).map fun n => if p x then n + 1 else n

theorem countAt_eq {items : List α} (p : α → Bool) (d : α) {ids : List Nat}
    (h : ∀ i ∈ ids, i < items.length) :
    countAt items p ids = some (ids.countP fun i => p (items.getD i d)) := by
  induction ids with
  | nil => rfl
  | cons i ids ih =>
      have hi := h i List.mem_cons_self
      rw [countAt, List.getElem?_eq_getElem hi, Option.bind_some,
        ih fun j hj => h j (List.mem_cons_of_mem i hj), List.countP_cons,
        List.getD_eq_getElem _ _ hi, Option.map_some]
      by_cases hp : p items[i] = true
      · simp [hp]
      · simp [hp]

/-- Whether some item at `ids` has `p`, in order and up to the first that has. -/
def anyAt (items : List α) (p : α → Option Bool) : List Nat → Option Bool
  | [] => some false
  | i :: ids =>
      items[i]?.bind fun x => (p x).bind fun found =>
        if found then some true else anyAt items p ids

theorem anyAt_eq {items : List α} {p : α → Option Bool} {q : α → Bool} (d : α)
    {ids : List Nat} (h : ∀ i ∈ ids, i < items.length) (hp : ∀ x, p x = some (q x)) :
    anyAt items p ids = some (ids.any fun i => q (items.getD i d)) := by
  induction ids with
  | nil => rfl
  | cons i ids ih =>
      have hi := h i List.mem_cons_self
      rw [anyAt, List.getElem?_eq_getElem hi, Option.bind_some, hp, Option.bind_some,
        ih fun j hj => h j (List.mem_cons_of_mem i hj), List.any_cons,
        List.getD_eq_getElem _ _ hi]
      by_cases hq : q items[i] = true
      · simp [hq]
      · simp [hq]

end BoundedAccess
