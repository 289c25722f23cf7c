/-
`diffPlans` as an edit script: removing, adding and replacing what it lists turns the old
plan into the new one, and it lists nothing else.
-/
import RfIrBlaster.AccessoryPlan

namespace RfIrBlaster

open KeyedList

/-- Remove, then add, then replace by AID. -/
def PlanDiff.edit (diff : PlanDiff) (plan : List PlannedAccessory) : List PlannedAccessory :=
  let removed := diff.toRemove.foldl (fun held aid => eraseKey PlannedAccessory.aid aid held) plan
  let added := removed ++ diff.toAdd
  diff.toUpdate.foldl (fun held acc => replaceKey PlannedAccessory.aid acc held) added

/-- What a difference of two plans has to be.  A plan is a map from AIDs to services, names
and commands: what `last?` finds. -/
structure EditScript (oldPlan newPlan : List PlannedAccessory) (diff : PlanDiff) : Prop where
  result : ∀ aid, last? PlannedAccessory.aid aid (diff.edit oldPlan) =
    last? PlannedAccessory.aid aid newPlan
  resultDistinct : ((diff.edit oldPlan).map PlannedAccessory.aid).Nodup
  removesOld : ∀ aid ∈ diff.toRemove, aid ∈ oldPlan.map PlannedAccessory.aid
  removesOnce : diff.toRemove.Nodup
  changesOnce : ((diff.toAdd ++ diff.toUpdate).map PlannedAccessory.aid).Nodup
  typeChanged : ∀ o ∈ oldPlan, ∀ n ∈ newPlan, o.aid = n.aid → o.type ≠ n.type →
    n.aid ∈ diff.toRemove ∧ n ∈ diff.toAdd
  unchanged : ∀ a ∈ oldPlan, a ∈ newPlan → a.aid ∉ diff.toRemove ∧
    a.aid ∉ diff.toAdd.map PlannedAccessory.aid ∧ a.aid ∉ diff.toUpdate.map PlannedAccessory.aid
  empty : (diff.toAdd = [] ∧ diff.toRemove = [] ∧ diff.toUpdate = []) ↔
    ∀ aid, last? PlannedAccessory.aid aid oldPlan = last? PlannedAccessory.aid aid newPlan

section Diff

variable {oldPlan newPlan : List PlannedAccessory}

/-- No AID is listed twice among the additions and updates. -/
theorem diffPlans_changesOnce (hold : (oldPlan.map PlannedAccessory.aid).Nodup)
    (hnew : (newPlan.map PlannedAccessory.aid).Nodup) :
    (((diffPlans oldPlan newPlan).toAdd ++ (diffPlans oldPlan newPlan).toUpdate).map
      PlannedAccessory.aid).Nodup := by
  apply nodup_of_withKey
  intro x
  rw [withKey_append, List.length_append]
  rcases diffPlans_cases hold hnew x with
    ⟨-, ha, hu, -⟩ | ⟨n, -, -, ha, hu, -⟩ | ⟨o, n, -, -, -, ha, hu, -⟩ |
    ⟨o, n, -, -, -, ha, -, ⟨-, hu⟩ | ⟨-, hu⟩⟩
  · simp [ha, hu]
  · simp [ha, hu]
  · simp [ha, hu]
  · simp [ha, hu]
  · simp [ha, hu]

/-- AIDs of replaced accessories are in the new plan, those of gone ones are not. -/
theorem diffPlans_removesOnce (hold : (oldPlan.map PlannedAccessory.aid).Nodup)
    (hnew : (newPlan.map PlannedAccessory.aid).Nodup) :
    (diffPlans oldPlan newPlan).toRemove.Nodup := by
  rw [(diffPlans_eq oldPlan newPlan).2.2, List.map_append, List.nodup_append]
  refine ⟨hnew.sublist (List.filter_sublist.map _), hold.sublist (List.filter_sublist.map _), ?_⟩
  rintro x hreplaced y hgone rfl
  obtain ⟨n, hn, rfl⟩ := List.mem_map.mp hreplaced
  obtain ⟨o, ho, heq⟩ := List.mem_map.mp hgone
  have hnone := (List.mem_filter.mp ho).2
  rw [Option.isNone_iff_eq_none, last?, List.getLast?_eq_none_iff, withKey_eq_nil_iff, heq] at hnone
  exact hnone (List.mem_map_of_mem (List.mem_filter.mp hn).1)

theorem withKey_edit (diff : PlanDiff) (plan : List PlannedAccessory) (x : UInt16)
    (hupdates : (diff.toUpdate.map PlannedAccessory.aid).Nodup) :
    withKey PlannedAccessory.aid x (diff.edit plan) =
      let kept := (if x ∈ diff.toRemove then [] else withKey PlannedAccessory.aid x plan) ++
        withKey PlannedAccessory.aid x diff.toAdd
      match withKey PlannedAccessory.aid x diff.toUpdate with
      | [] => kept
      | acc :: _ => kept.map fun _ => acc := by
  unfold PlanDiff.edit
  simp only
  rw [withKey_foldl_replaceKey hupdates, withKey_append, withKey_foldl_eraseKey]
  cases withKey PlannedAccessory.aid x diff.toUpdate <;> rfl

/-- Under every AID the edited plan holds what the new one does. -/
theorem withKey_edit_diffPlans (hold : (oldPlan.map PlannedAccessory.aid).Nodup)
    (hnew : (newPlan.map PlannedAccessory.aid).Nodup) (x : UInt16) :
    withKey PlannedAccessory.aid x ((diffPlans oldPlan newPlan).edit oldPlan) =
      withKey PlannedAccessory.aid x newPlan := by
  have honce := diffPlans_changesOnce hold hnew
  rw [List.map_append] at honce
  rw [withKey_edit _ _ _ (List.nodup_append.mp honce).2.1]
  rcases diffPlans_cases hold hnew x with
    ⟨hn, ha, hu, hr⟩ | ⟨n, ho, hn, ha, hu, hr⟩ | ⟨o, n, ho, hn, -, ha, hu, hr⟩ |
    ⟨o, n, ho, hn, -, ha, hr, ⟨-, hu⟩ | ⟨hsame, hu⟩⟩
  · -- Gone, or never there.
    by_cases hnone : withKey PlannedAccessory.aid x oldPlan = []
    · simp [hn, ha, hu, hnone]
    · simp [hn, ha, hu, hr.mpr hnone]
  · simp [hn, ha, hu, hr, ho]
  · simp [hn, ha, hu, hr]
  · simp [hn, ha, hu, hr, ho]
  · simp [hn, ha, hu, hr, ho, hsame]

theorem diffPlans_result (hold : (oldPlan.map PlannedAccessory.aid).Nodup)
    (hnew : (newPlan.map PlannedAccessory.aid).Nodup) (aid : UInt16) :
    last? PlannedAccessory.aid aid ((diffPlans oldPlan newPlan).edit oldPlan) =
      last? PlannedAccessory.aid aid newPlan :=
  congrArg List.getLast? (withKey_edit_diffPlans hold hnew aid)

theorem diffPlans_resultDistinct (hold : (oldPlan.map PlannedAccessory.aid).Nodup)
    (hnew : (newPlan.map PlannedAccessory.aid).Nodup) :
    (((diffPlans oldPlan newPlan).edit oldPlan).map PlannedAccessory.aid).Nodup := by
  apply nodup_of_withKey
  intro x
  rw [withKey_edit_diffPlans hold hnew]
  rcases withKey_of_nodup hnew x with hnone | ⟨n, -, -, hone⟩
  · simp [hnone]
  · simp [hone]

theorem diffPlans_removesOld (hold : (oldPlan.map PlannedAccessory.aid).Nodup)
    (hnew : (newPlan.map PlannedAccessory.aid).Nodup) :
    ∀ aid ∈ (diffPlans oldPlan newPlan).toRemove, aid ∈ oldPlan.map PlannedAccessory.aid := by
  intro x hx
  by_contra hnone
  rw [← withKey_eq_nil_iff] at hnone
  rcases diffPlans_cases hold hnew x with
    ⟨-, -, -, hr⟩ | ⟨n, -, -, -, -, hr⟩ | ⟨o, n, ho, -⟩ | ⟨o, n, -, -, -, -, hr, -⟩
  · exact hr.mp hx hnone
  · exact hr hx
  · rw [ho] at hnone
    cases hnone
  · exact hr hx

/-- What a diff says of an AID that both plans have. -/
theorem diffPlans_common (hold : (oldPlan.map PlannedAccessory.aid).Nodup)
    (hnew : (newPlan.map PlannedAccessory.aid).Nodup) {o n : PlannedAccessory}
    (ho : o ∈ oldPlan) (hn : n ∈ newPlan) (haid : o.aid = n.aid) :
    let add := withKey PlannedAccessory.aid n.aid (diffPlans oldPlan newPlan).toAdd
    let update := withKey PlannedAccessory.aid n.aid (diffPlans oldPlan newPlan).toUpdate
    let remove := n.aid ∈ (diffPlans oldPlan newPlan).toRemove
    (o.type ≠ n.type ∧ add = [n] ∧ update = [] ∧ remove) ∨
      (o.type = n.type ∧ add = [] ∧ ¬remove ∧ (o ≠ n ∧ update = [n] ∨ o = n ∧ update = [])) := by
  have hoAt := withKey_of_mem hold ho
  have hnAt := withKey_of_mem hnew hn
  rw [haid] at hoAt
  rcases diffPlans_cases hold hnew n.aid with
    ⟨hnone, -⟩ | ⟨n', hnone, -⟩ | ⟨o', n', ho', hn', hcase⟩ | ⟨o', n', ho', hn', hcase⟩
  · rw [hnAt] at hnone
    cases hnone
  · rw [hoAt] at hnone
    cases hnone
  · obtain rfl : o = o' := (List.cons.inj (hoAt.symm.trans ho')).1
    obtain rfl : n = n' := (List.cons.inj (hnAt.symm.trans hn')).1
    exact Or.inl hcase
  · obtain rfl : o = o' := (List.cons.inj (hoAt.symm.trans ho')).1
    obtain rfl : n = n' := (List.cons.inj (hnAt.symm.trans hn')).1
    exact Or.inr hcase

theorem diffPlans_empty (hold : (oldPlan.map PlannedAccessory.aid).Nodup)
    (hnew : (newPlan.map PlannedAccessory.aid).Nodup) :
    ((diffPlans oldPlan newPlan).toAdd = [] ∧ (diffPlans oldPlan newPlan).toRemove = [] ∧
        (diffPlans oldPlan newPlan).toUpdate = []) ↔
      ∀ aid, last? PlannedAccessory.aid aid oldPlan = last? PlannedAccessory.aid aid newPlan := by
  constructor
  · rintro ⟨ha, hr, hu⟩ aid
    rw [← diffPlans_result hold hnew aid]
    unfold PlanDiff.edit
    simp [ha, hr, hu]
  · intro hagree
    have hnone : ∀ x, withKey PlannedAccessory.aid x (diffPlans oldPlan newPlan).toAdd = [] ∧
        x ∉ (diffPlans oldPlan newPlan).toRemove ∧
        withKey PlannedAccessory.aid x (diffPlans oldPlan newPlan).toUpdate = [] := by
      intro x
      have hx := hagree x
      unfold last? at hx
      rcases diffPlans_cases hold hnew x with
        ⟨hn, ha, hu, hr⟩ | ⟨n, ho, hn, -⟩ | ⟨o, n, ho, hn, htype, -⟩ |
        ⟨o, n, ho, hn, -, ha, hr, ⟨hne, -⟩ | ⟨-, hu⟩⟩
      · rw [hn, List.getLast?_nil, List.getLast?_eq_none_iff] at hx
        exact ⟨ha, fun hmem => hr.mp hmem hx, hu⟩
      · simp [ho, hn] at hx
      · rw [ho, hn] at hx
        exact absurd (congrArg PlannedAccessory.type (Option.some.inj hx)) htype
      · rw [ho, hn] at hx
        exact absurd (Option.some.inj hx) hne
      · exact ⟨ha, hr, hu⟩
    exact ⟨eq_nil_of_withKey fun x => (hnone x).1,
      List.eq_nil_iff_forall_not_mem.mpr fun x => (hnone x).2.1,
      eq_nil_of_withKey fun x => (hnone x).2.2⟩

theorem diffPlans_editScript (hold : (oldPlan.map PlannedAccessory.aid).Nodup)
    (hnew : (newPlan.map PlannedAccessory.aid).Nodup) :
    EditScript oldPlan newPlan (diffPlans oldPlan newPlan) where
  result := diffPlans_result hold hnew
  resultDistinct := diffPlans_resultDistinct hold hnew
  removesOld := diffPlans_removesOld hold hnew
  removesOnce := diffPlans_removesOnce hold hnew
  changesOnce := diffPlans_changesOnce hold hnew
  typeChanged := by
    intro o ho n hn haid htype
    rcases diffPlans_common hold hnew ho hn haid with ⟨-, ha, -, hr⟩ | ⟨hsame, -⟩
    · exact ⟨hr, (mem_withKey.mp (ha ▸ List.mem_singleton_self n)).1⟩
    · exact absurd hsame htype
  unchanged := by
    intro a ho hn
    rw [← withKey_eq_nil_iff, ← withKey_eq_nil_iff]
    rcases diffPlans_common hold hnew ho hn rfl with
      ⟨htype, -⟩ | ⟨-, ha, hr, ⟨hne, -⟩ | ⟨-, hu⟩⟩
    · exact absurd rfl htype
    · exact absurd rfl hne
    · exact ⟨hr, ha, hu⟩
  empty := diffPlans_empty hold hnew

end Diff

/-- A planned command with its pointer into the configuration it was planned from. -/
structure BorrowedCommand (κ : Type) where
  name : Bytes
  code : κ
  learned : Bool
deriving DecidableEq, Repr

structure BorrowedAccessory (κ : Type) where
  aid : UInt16
  type : ServiceType
  name : Bytes
  commands : List (BorrowedCommand κ)
deriving DecidableEq, Repr

structure BorrowedDiff (κ : Type) where
  toAdd : List (BorrowedAccessory κ) := []
  toRemove : List UInt16 := []
  toUpdate : List (BorrowedAccessory κ) := []
deriving DecidableEq, Repr

section Borrowed

variable {κ : Type}

def borrowedCommandsEqual (a b : List (BorrowedCommand κ)) : Bool :=
  a.length == b.length &&
    (a.zip b).all fun pair => pair.1.name == pair.2.name && pair.1.learned == pair.2.learned

/-- The first loop of `diffPlans`, over accessories with their pointers. -/
def borrowedDiffStep (oldPlan : List (BorrowedAccessory κ)) (diff : BorrowedDiff κ)
    (n : BorrowedAccessory κ) : BorrowedDiff κ :=
  match last? BorrowedAccessory.aid n.aid oldPlan with
  | none => { diff with toAdd := diff.toAdd ++ [n] }
  | some o =>
      if o.type ≠ n.type then
        { diff with toRemove := diff.toRemove ++ [o.aid], toAdd := diff.toAdd ++ [n] }
      else if o.name ≠ n.name ∨ !borrowedCommandsEqual o.commands n.commands then
        { diff with toUpdate := diff.toUpdate ++ [n] }
      else diff

def diffBorrowedPlans (oldPlan newPlan : List (BorrowedAccessory κ)) : BorrowedDiff κ :=
  let diff := newPlan.foldl (borrowedDiffStep oldPlan) {}
  let gone := oldPlan.filter fun o => (last? BorrowedAccessory.aid o.aid newPlan).isNone
  { diff with toRemove := diff.toRemove ++ gone.map BorrowedAccessory.aid }

/-- What a plan says, its pointers left out. -/
def BorrowedAccessory.plain (acc : BorrowedAccessory κ) : PlannedAccessory :=
  { aid := acc.aid
    type := acc.type
    name := acc.name
    commands := acc.commands.map fun command =>
      { name := command.name, learned := command.learned } }

def BorrowedDiff.plain (diff : BorrowedDiff κ) : PlanDiff :=
  { toAdd := diff.toAdd.map BorrowedAccessory.plain
    toRemove := diff.toRemove
    toUpdate := diff.toUpdate.map BorrowedAccessory.plain }

theorem borrowedCommandsEqual_plain (a b : BorrowedAccessory κ) :
    borrowedCommandsEqual a.commands b.commands =
      commandsEqual a.plain.commands b.plain.commands := by
  unfold borrowedCommandsEqual commandsEqual BorrowedAccessory.plain
  simp [List.zip_map, List.all_map, Function.comp_def]

theorem borrowedDiffStep_plain (oldPlan : List (BorrowedAccessory κ)) (diff : BorrowedDiff κ)
    (n : BorrowedAccessory κ) :
    (borrowedDiffStep oldPlan diff n).plain =
      diff.plain.push n.plain (changeOf (oldPlan.map BorrowedAccessory.plain) n.plain) := by
  have hfound : last? PlannedAccessory.aid n.plain.aid (oldPlan.map BorrowedAccessory.plain) =
      (last? BorrowedAccessory.aid n.aid oldPlan).map BorrowedAccessory.plain :=
    last?_map (fun _ => rfl) n.aid oldPlan
  unfold borrowedDiffStep changeOf
  rw [hfound]
  cases ho : last? BorrowedAccessory.aid n.aid oldPlan with
  | none => simp [PlanDiff.push, BorrowedDiff.plain]
  | some o =>
      have haid : o.aid = n.aid := (mem_withKey.mp (List.mem_of_getLast? ho)).2
      have htype : o.plain.type = o.type ∧ n.plain.type = n.type := ⟨rfl, rfl⟩
      have hname : o.plain.name = o.name ∧ n.plain.name = n.name := ⟨rfl, rfl⟩
      simp only [Option.map_some, htype.1, htype.2, hname.1, hname.2,
        ← borrowedCommandsEqual_plain]
      split_ifs
      · simp [PlanDiff.push, BorrowedDiff.plain, haid, BorrowedAccessory.plain]
      · simp [PlanDiff.push, BorrowedDiff.plain]
      · simp [PlanDiff.push]

/-- The pointers make no difference to what is removed, added and updated. -/
theorem diffBorrowedPlans_plain (oldPlan newPlan : List (BorrowedAccessory κ)) :
    (diffBorrowedPlans oldPlan newPlan).plain =
      diffPlans (oldPlan.map BorrowedAccessory.plain) (newPlan.map BorrowedAccessory.plain) := by
  have hloop : (newPlan.foldl (borrowedDiffStep oldPlan) {}).plain =
      diffLoop (oldPlan.map BorrowedAccessory.plain) (newPlan.map BorrowedAccessory.plain) := by
    induction newPlan using List.reverseRecOn with
    | nil => rfl
    | append_singleton pre n ih =>
        rw [List.foldl_append, List.foldl_cons, List.foldl_nil, borrowedDiffStep_plain, ih]
        simp [diffLoop]
  have hgone : (oldPlan.filter fun o =>
        (last? BorrowedAccessory.aid o.aid newPlan).isNone).map BorrowedAccessory.aid =
      ((oldPlan.map BorrowedAccessory.plain).filter fun o =>
        (last? PlannedAccessory.aid o.aid (newPlan.map BorrowedAccessory.plain)).isNone).map
          PlannedAccessory.aid := by
    have hfound : ∀ o : BorrowedAccessory κ, last? PlannedAccessory.aid o.plain.aid
        (newPlan.map BorrowedAccessory.plain) =
          (last? BorrowedAccessory.aid o.aid newPlan).map BorrowedAccessory.plain :=
      fun o => last?_map (fun _ => rfl) o.aid newPlan
    rw [List.filter_map, List.map_map]
    simp only [Function.comp_def, hfound, Option.isNone_map]
    rfl
  unfold diffBorrowedPlans diffPlans
  simp only [BorrowedDiff.plain, hgone, ← hloop]

end Borrowed

/-- The difference of two plans of distinct AIDs, wherever their commands point, is an edit
script from what the old one says to what the new one says. -/
theorem diffPlans_correct {κ : Type} (oldPlan newPlan : List (BorrowedAccessory κ))
    (hold : (oldPlan.map BorrowedAccessory.aid).Nodup)
    (hnew : (newPlan.map BorrowedAccessory.aid).Nodup) :
    EditScript (oldPlan.map BorrowedAccessory.plain) (newPlan.map BorrowedAccessory.plain)
      (diffBorrowedPlans oldPlan newPlan).plain := by
  have haids : ∀ plan : List (BorrowedAccessory κ),
      (plan.map BorrowedAccessory.plain).map PlannedAccessory.aid =
        plan.map BorrowedAccessory.aid := by
    intro plan
    rw [List.map_map]
    rfl
  rw [diffBorrowedPlans_plain]
  apply diffPlans_editScript
  · rw [haids]
    exact hold
  · rw [haids]
    exact hnew

/-- A switch that became a fan. -/
theorem diffPlans_correct_switch :
    let switch : BorrowedAccessory Nat := ⟨2, .switch, ascii "Lamp", [⟨ascii "on", 0, true⟩]⟩
    let fan : BorrowedAccessory Nat := ⟨2, .fan, ascii "Lamp", [⟨ascii "on", 7, true⟩]⟩
    (2 : UInt16) ∈ (diffBorrowedPlans [switch] [fan]).plain.toRemove ∧
      fan.plain ∈ (diffBorrowedPlans [switch] [fan]).plain.toAdd := by
  intro switch fan
  have hscript := diffPlans_correct [switch] [fan] (by decide) (by decide)
  exact hscript.typeChanged switch.plain (by decide) fan.plain (by decide) rfl (by decide)

end RfIrBlaster
