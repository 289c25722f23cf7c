/-
Lists of entries that carry a key: the entries under one key, and what appending,
erasing and modifying by key do to them.
-/
import Mathlib.Data.List.Basic

universe u v

namespace KeyedList

variable {α : Type u} {κ : Type v} [DecidableEq κ] (key : α → κ)

/-- The entries under a key, in order. -/
def withKey (k : κ) (entries : List α) : List α :=
  entries.filter fun a => key a = k

/-- What a map filled with the entries in order holds under a key. -/
def last? (k : κ) (entries : List α) : Option α :=
  (withKey key k entries).getLast?

def eraseKey (k : κ) (entries : List α) : List α :=
  entries.filter fun a => key a ≠ k

def modifyKey (k : κ) (f : α → α) (entries : List α) : List α :=
  entries.map fun a => if key a = k then f a else a

/-- Put an entry in the place of every one with its key. -/
def replaceKey (a : α) (entries : List α) : List α :=
  modifyKey key (key a) (fun _ => a) entries

/-- Put an entry in the place of the first with its key, or at the end. -/
def put (a : α) : List α → List α
  | [] => [a]
  | b :: rest => if key b = key a then a :: rest else b :: put a rest

/-- The entries of a map filled with these in order, each where its key was met first. -/
def latest (entries : List α) : List α :=
  entries.foldl (fun held a => put key a held) []

theorem mem_put {a b : α} {entries : List α} (h : b ∈ put key a entries) :
    b = a ∨ b ∈ entries := by
  induction entries with
  | nil => exact Or.inl (List.mem_singleton.mp h)
  | cons c rest ih =>
      rw [put] at h
      by_cases hkey : key c = key a
      · rw [if_pos hkey] at h
        rcases List.mem_cons.mp h with rfl | hrest
        · exact Or.inl rfl
        · exact Or.inr (List.mem_cons_of_mem _ hrest)
      · rw [if_neg hkey] at h
        rcases List.mem_cons.mp h with rfl | hput
        · exact Or.inr List.mem_cons_self
        · exact (ih hput).imp_right (List.mem_cons_of_mem _)

theorem mem_latest {b : α} {entries : List α} (h : b ∈ latest key entries) : b ∈ entries := by
  have hfold : ∀ held : List α, b ∈ entries.foldl (fun held a => put key a held) held →
      b ∈ held ∨ b ∈ entries := by
    clear h
    induction entries with
    | nil => exact fun held hb => Or.inl hb
    | cons a rest ih =>
        intro held hb
        rcases ih _ hb with hput | hrest
        · rcases mem_put key hput with rfl | hheld
          · exact Or.inr List.mem_cons_self
          · exact Or.inl hheld
        · exact Or.inr (List.mem_cons_of_mem _ hrest)
  rcases hfold [] h with hnil | hmem
  · cases hnil
  · exact hmem

/-- Modify the first entry that satisfies `p`, if there is one. -/
def modifyFirst (p : α → Bool) (f : α → α) : List α → Option (List α)
  | [] => none
  | a :: rest =>
      if p a then some (f a :: rest) else (modifyFirst p f rest).map fun rest => a :: rest

theorem modifyFirst_eq_none_iff {p : α → Bool} {f : α → α} {entries : List α} :
    modifyFirst p f entries = none ↔ ∀ a ∈ entries, p a = false := by
  induction entries with
  | nil => simp [modifyFirst]
  | cons a rest ih =>
      rw [modifyFirst]
      cases hp : p a with
      | true => simp [hp]
      | false => simp [hp, ih]

/-- The entry modified is the first that satisfies `p`; the others stay. -/
theorem modifyFirst_eq_some {p : α → Bool} {f : α → α} {entries entries' : List α}
    (h : modifyFirst p f entries = some entries') :
    ∃ front a back, entries = front ++ a :: back ∧ p a = true ∧
      (∀ b ∈ front, p b = false) ∧ entries' = front ++ f a :: back := by
  induction entries generalizing entries' with
  | nil => simp [modifyFirst] at h
  | cons a rest ih =>
      rw [modifyFirst] at h
      cases hp : p a with
      | true =>
          rw [hp, if_pos rfl] at h
          exact ⟨[], a, rest, rfl, hp, by simp, (Option.some.inj h).symm⟩
      | false =>
          rw [hp, if_neg Bool.false_ne_true] at h
          obtain ⟨rest', hrest, rfl⟩ := Option.map_eq_some_iff.mp h
          obtain ⟨front, b, back, rfl, hb, hfront, rfl⟩ := ih hrest
          refine ⟨a :: front, b, back, rfl, hb, ?_, rfl⟩
          intro c hc
          rcases List.mem_cons.mp hc with rfl | hc
          · exact hp
          · exact hfront c hc

variable {key}

@[simp]
theorem withKey_nil (k : κ) : withKey key k [] = [] :=
  rfl

@[simp]
theorem withKey_append (k : κ) (xs ys : List α) :
    withKey key k (xs ++ ys) = withKey key k xs ++ withKey key k ys :=
  List.filter_append xs ys

theorem withKey_cons (k : κ) (a : α) (entries : List α) :
    withKey key k (a :: entries) =
      if key a = k then a :: withKey key k entries else withKey key k entries := by
  by_cases hkey : key a = k
  · simp [withKey, hkey]
  · simp [withKey, hkey]

theorem mem_withKey {k : κ} {a : α} {entries : List α} :
    a ∈ withKey key k entries ↔ a ∈ entries ∧ key a = k := by
  simp [withKey]

theorem withKey_filter (k : κ) (p : α → Bool) (entries : List α) :
    withKey key k (entries.filter p) = (withKey key k entries).filter p := by
  simp [withKey, List.filter_filter, Bool.and_comm]

theorem withKey_eq_nil_iff {k : κ} {entries : List α} :
    withKey key k entries = [] ↔ k ∉ entries.map key := by
  simp [withKey, List.filter_eq_nil_iff]

/-- A map that keeps the keys maps what is found under them. -/
theorem last?_map {β : Type u} {key' : β → κ} {f : α → β} (hf : ∀ a, key' (f a) = key a) (k : κ)
    (entries : List α) : last? key' k (entries.map f) = (last? key k entries).map f := by
  unfold last? withKey
  rw [List.filter_map, List.getLast?_map]
  simp [Function.comp_def, hf]

theorem withKey_eraseKey (k k' : κ) (entries : List α) :
    withKey key k (eraseKey key k' entries) =
      if k = k' then [] else withKey key k entries := by
  unfold eraseKey
  rw [withKey_filter]
  by_cases hkey : k = k'
  · rw [if_pos hkey, List.filter_eq_nil_iff]
    intro a ha
    simp [(mem_withKey.mp ha).2, hkey]
  · rw [if_neg hkey, List.filter_eq_self]
    intro a ha
    simp [(mem_withKey.mp ha).2, hkey]

theorem withKey_modifyKey {f : α → α} (hf : ∀ a, key (f a) = key a) (k k' : κ)
    (entries : List α) :
    withKey key k (modifyKey key k' f entries) =
      if k = k' then (withKey key k entries).map f else withKey key k entries := by
  induction entries with
  | nil => simp [modifyKey]
  | cons a rest ih =>
      have hcons : modifyKey key k' f (a :: rest) =
          (if key a = k' then f a else a) :: modifyKey key k' f rest := rfl
      rw [hcons, withKey_cons, ih, withKey_cons]
      by_cases hmodified : key a = k'
      · by_cases hkey : key a = k
        · have hsame : k = k' := hkey.symm.trans hmodified
          simp [hmodified, hf, hsame]
        · have hother : ¬ k = k' := fun heq => hkey (hmodified.trans heq.symm)
          simp [hmodified, hf, hother, Ne.symm hother]
      · by_cases hkey : key a = k
        · have hother : ¬ k = k' := fun heq => hmodified (hkey.trans heq)
          simp [hkey, hother]
        · simp [hmodified, hkey]

/-- With distinct keys there is at most one entry under a key. -/
theorem withKey_of_nodup {entries : List α} (h : (entries.map key).Nodup) (k : κ) :
    withKey key k entries = [] ∨
      ∃ a ∈ entries, key a = k ∧ withKey key k entries = [a] := by
  induction entries with
  | nil => exact Or.inl rfl
  | cons a rest ih =>
      rw [List.map_cons, List.nodup_cons] at h
      rw [withKey_cons]
      by_cases hkey : key a = k
      · right
        refine ⟨a, List.mem_cons_self, hkey, ?_⟩
        have hnone : withKey key k rest = [] := withKey_eq_nil_iff.mpr (hkey ▸ h.1)
        rw [if_pos hkey, hnone]
      · rw [if_neg hkey]
        rcases ih h.2 with hnone | ⟨b, hb, hkeyB, hone⟩
        · exact Or.inl hnone
        · exact Or.inr ⟨b, List.mem_cons_of_mem a hb, hkeyB, hone⟩

/-- Keys are distinct when each has at most one entry. -/
theorem nodup_of_withKey {entries : List α} (h : ∀ k, (withKey key k entries).length ≤ 1) :
    (entries.map key).Nodup := by
  induction entries with
  | nil => exact List.nodup_nil
  | cons a rest ih =>
      rw [List.map_cons, List.nodup_cons]
      have hfirst := h (key a)
      rw [withKey_cons, if_pos rfl, List.length_cons] at hfirst
      refine ⟨withKey_eq_nil_iff.mp (List.length_eq_zero_iff.mp (by omega)), ih fun k => ?_⟩
      have hk := h k
      rw [withKey_cons] at hk
      split_ifs at hk with hkey
      · exact Nat.le_trans (Nat.le_succ _) hk
      · exact hk

theorem eq_nil_of_withKey {entries : List α} (h : ∀ k, withKey key k entries = []) :
    entries = [] := by
  cases entries with
  | nil => rfl
  | cons a rest =>
      have hfirst := h (key a)
      rw [withKey_cons, if_pos rfl] at hfirst
      cases hfirst

/-- The one entry under a key, when keys are distinct. -/
theorem withKey_of_mem {entries : List α} (h : (entries.map key).Nodup) {a : α}
    (ha : a ∈ entries) : withKey key (key a) entries = [a] := by
  have hmem : a ∈ withKey key (key a) entries := mem_withKey.mpr ⟨ha, rfl⟩
  rcases withKey_of_nodup h (key a) with hnone | ⟨b, -, -, hone⟩
  · rw [hnone] at hmem
    cases hmem
  · rw [hone] at hmem ⊢
    rw [List.mem_singleton.mp hmem]

theorem withKey_foldl_eraseKey (keys : List κ) (k : κ) (entries : List α) :
    withKey key k (keys.foldl (fun held k' => eraseKey key k' held) entries) =
      if k ∈ keys then [] else withKey key k entries := by
  induction keys generalizing entries with
  | nil => simp
  | cons k' rest ih =>
      rw [List.foldl_cons, ih, withKey_eraseKey]
      by_cases hfirst : k = k'
      · simp [hfirst]
      · simp [hfirst]

theorem withKey_replaceKey (k : κ) (a : α) (entries : List α) :
    withKey key k (replaceKey key a entries) =
      if k = key a then (withKey key k entries).map fun _ => a else withKey key k entries := by
  induction entries with
  | nil => simp [replaceKey, modifyKey]
  | cons b rest ih =>
      have hcons : replaceKey key a (b :: rest) =
          (if key b = key a then a else b) :: replaceKey key a rest := rfl
      rw [hcons, withKey_cons, ih, withKey_cons]
      by_cases hkey : k = key a
      · subst hkey
        by_cases hb : key b = key a
        · simp [hb]
        · simp [hb]
      · by_cases hb : key b = key a
        · have hother : ¬key b = k := fun heq => hkey (heq.symm.trans hb)
          simp [hkey, hb, Ne.symm hkey]
        · simp [hkey, hb]

/-- Replacements under distinct keys replace what is under each of these keys. -/
theorem withKey_foldl_replaceKey {updates : List α} (h : (updates.map key).Nodup) (k : κ)
    (entries : List α) :
    withKey key k (updates.foldl (fun held a => replaceKey key a held) entries) =
      match withKey key k updates with
      | [] => withKey key k entries
      | a :: _ => (withKey key k entries).map fun _ => a := by
  induction updates generalizing entries with
  | nil => rfl
  | cons a rest ih =>
      rw [List.map_cons, List.nodup_cons] at h
      rw [List.foldl_cons, ih h.2, withKey_replaceKey, withKey_cons]
      by_cases hkey : k = key a
      · subst hkey
        have hnone : withKey key (key a) rest = [] := withKey_eq_nil_iff.mpr h.1
        rw [hnone, if_pos rfl, if_pos rfl]
      · rw [if_neg hkey, if_neg (Ne.symm hkey)]

end KeyedList
