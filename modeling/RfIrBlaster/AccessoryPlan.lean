/-
`accessory_plan.cpp`: which accessories a configuration asks for, and the
difference of two such plans.
-/
import Mathlib.Data.List.Induction
import RfIrBlaster.ConfigValidate
import RfIrBlaster.KeyedList

namespace RfIrBlaster

open KeyedList

inductive ServiceType where
  | switch
  | windowCovering
  | outlet
  | lightBulb
  | fan
  | television
  | unknown
deriving DecidableEq, Repr

def serviceTypeFromString (service : Bytes) : ServiceType :=
  if service = ascii "Switch" then .switch
  else if service = ascii "WindowCovering" then .windowCovering
  else if service = ascii "Outlet" then .outlet
  else if service = ascii "LightBulb" then .lightBulb
  else if service = ascii "Fan" then .fan
  else if service = ascii "Television" then .television
  else .unknown

/-- Without the pointer to the code, which nothing compares or follows. -/
structure PlannedCommand where
  name : Bytes
  learned : Bool
deriving DecidableEq, Repr

structure PlannedAccessory where
  aid : UInt16
  type : ServiceType
  name : Bytes
  commands : List PlannedCommand
deriving DecidableEq, Repr

structure SkippedDevice where
  id : UInt16
  service : Bytes
deriving DecidableEq, Repr

structure PlanResult where
  accessories : List PlannedAccessory := []
  skipped : List SkippedDevice := []
deriving DecidableEq, Repr

def plannedAccessory (device : VirtualDevice) : PlannedAccessory :=
  { aid := device.id
    type := serviceTypeFromString device.service
    name := device.name
    commands := device.commands.map fun slot =>
      { name := slot.name, learned := slot.code.isLearned } }

def PlanResult.push (result : PlanResult) (device : VirtualDevice) : PlanResult :=
  if serviceTypeFromString device.service = .unknown then
    { result with
      skipped := result.skipped ++ [{ id := device.id, service := device.service }] }
  else { result with accessories := result.accessories ++ [plannedAccessory device] }

def planAccessories (cfg : Config) : PlanResult :=
  cfg.devices.foldl PlanResult.push {}

def commandsEqual (a b : List PlannedCommand) : Bool :=
  a.length == b.length &&
    (a.zip b).all fun pair => pair.1.name == pair.2.name && pair.1.learned == pair.2.learned

structure PlanDiff where
  toAdd : List PlannedAccessory := []
  toRemove : List UInt16 := []
  toUpdate : List PlannedAccessory := []
deriving DecidableEq, Repr

/-- What the loop of `diffPlans` makes of one accessory of the new plan. -/
inductive Change where
  | add
  | replace
  | update
  | keep
deriving DecidableEq, Repr

def changeOf (oldPlan : List PlannedAccessory) (n : PlannedAccessory) : Change :=
  match last? PlannedAccessory.aid n.aid oldPlan with
  | none => .add
  | some o =>
      if o.type ≠ n.type then .replace
      else if o.name ≠ n.name ∨ !commandsEqual o.commands n.commands then .update
      else .keep

def PlanDiff.push (diff : PlanDiff) (n : PlannedAccessory) : Change → PlanDiff
  | .add => { diff with toAdd := diff.toAdd ++ [n] }
  | .replace =>
      { diff with toRemove := diff.toRemove ++ [n.aid], toAdd := diff.toAdd ++ [n] }
  | .update => { diff with toUpdate := diff.toUpdate ++ [n] }
  | .keep => diff

/-- The loop over the new plan. -/
def diffLoop (oldPlan newPlan : List PlannedAccessory) : PlanDiff :=
  newPlan.foldl (fun (diff : PlanDiff) n => diff.push n (changeOf oldPlan n)) {}

def diffPlans (oldPlan newPlan : List PlannedAccessory) : PlanDiff :=
  let diff := diffLoop oldPlan newPlan
  let gone := oldPlan.filter fun o => (last? PlannedAccessory.aid o.aid newPlan).isNone
  { diff with toRemove := diff.toRemove ++ gone.map PlannedAccessory.aid }

theorem planAccessories_eq (cfg : Config) :
    (planAccessories cfg).accessories =
      (cfg.devices.filter fun d => serviceTypeFromString d.service ≠ .unknown).map
        plannedAccessory := by
  unfold planAccessories
  induction cfg.devices using List.reverseRecOn with
  | nil => rfl
  | append_singleton pre device ih =>
      rw [List.foldl_append, List.foldl_cons, List.foldl_nil, PlanResult.push,
        List.filter_append, List.map_append]
      by_cases hunknown : serviceTypeFromString device.service = .unknown
      · simp [hunknown, ih]
      · simp [hunknown, ih]

/-- Every planned accessory has a known service and an AID above the bridge's, and no
two share one. -/
theorem planned_of_valid {cfg : Config} (h : validate cfg = .ok) :
    ((planAccessories cfg).accessories.map PlannedAccessory.aid).Nodup ∧
      ∀ acc ∈ (planAccessories cfg).accessories, acc.type ≠ .unknown ∧ acc.aid ≠ 1 := by
  obtain ⟨hnodup, hdevices⟩ := validateDevices_ids_nodup (validate_devices h)
  rw [planAccessories_eq]
  constructor
  · rw [List.map_map]
    exact hnodup.sublist (List.filter_sublist.map VirtualDevice.id)
  · intro acc hacc
    obtain ⟨d, hd, rfl⟩ := List.mem_map.mp hacc
    obtain ⟨hmem, hknown⟩ := List.mem_filter.mp hd
    have htype : (plannedAccessory d).type ≠ .unknown := of_decide_eq_true hknown
    refine ⟨htype, ?_⟩
    have htwo := (hdevices d hmem).2.1
    intro hone
    rw [show d.id = 1 from hone] at htwo
    exact absurd htwo (by decide)

theorem diffLoop_eq (oldPlan newPlan : List PlannedAccessory) :
    (diffLoop oldPlan newPlan).toAdd =
        (newPlan.filter fun n => changeOf oldPlan n = .add ∨ changeOf oldPlan n = .replace) ∧
      (diffLoop oldPlan newPlan).toUpdate =
        (newPlan.filter fun n => changeOf oldPlan n = .update) ∧
      (diffLoop oldPlan newPlan).toRemove =
        (newPlan.filter fun n => changeOf oldPlan n = .replace).map PlannedAccessory.aid := by
  induction newPlan using List.reverseRecOn with
  | nil => exact ⟨rfl, rfl, rfl⟩
  | append_singleton pre n ih =>
      obtain ⟨hadd, hupdate, hremove⟩ := ih
      have hlast : diffLoop oldPlan (pre ++ [n]) =
          (diffLoop oldPlan pre).push n (changeOf oldPlan n) := by
        simp [diffLoop]
      rw [hlast]
      cases hchange : changeOf oldPlan n <;>
        simp [PlanDiff.push, hchange, hadd, hupdate, hremove]

/-- The three lists of a diff, as filters of the two plans. -/
theorem diffPlans_eq (oldPlan newPlan : List PlannedAccessory) :
    (diffPlans oldPlan newPlan).toAdd =
        (newPlan.filter fun n => changeOf oldPlan n = .add ∨ changeOf oldPlan n = .replace) ∧
      (diffPlans oldPlan newPlan).toUpdate =
        (newPlan.filter fun n => changeOf oldPlan n = .update) ∧
      (diffPlans oldPlan newPlan).toRemove =
        ((newPlan.filter fun n => changeOf oldPlan n = .replace) ++
          oldPlan.filter fun o => (last? PlannedAccessory.aid o.aid newPlan).isNone).map
            PlannedAccessory.aid := by
  obtain ⟨hadd, hupdate, hremove⟩ := diffLoop_eq oldPlan newPlan
  refine ⟨hadd, hupdate, ?_⟩
  rw [List.map_append, ← hremove]
  rfl

theorem mem_toRemove {oldPlan newPlan : List PlannedAccessory} {x : UInt16} :
    x ∈ (diffPlans oldPlan newPlan).toRemove ↔
      (∃ n ∈ withKey PlannedAccessory.aid x newPlan, changeOf oldPlan n = .replace) ∨
        (withKey PlannedAccessory.aid x oldPlan ≠ [] ∧
          withKey PlannedAccessory.aid x newPlan = []) := by
  rw [(diffPlans_eq oldPlan newPlan).2.2]
  simp only [List.map_append, List.mem_append, List.mem_map, List.mem_filter, mem_withKey,
    decide_eq_true_eq, last?, Option.isNone_iff_eq_none, List.getLast?_eq_none_iff]
  constructor
  · rintro (⟨n, ⟨hn, hreplace⟩, hkey⟩ | ⟨o, ⟨ho, hgone⟩, rfl⟩)
    · exact Or.inl ⟨n, ⟨hn, hkey⟩, hreplace⟩
    · refine Or.inr ⟨?_, hgone⟩
      exact List.ne_nil_of_mem (mem_withKey.mpr ⟨ho, rfl⟩)
  · rintro (⟨n, ⟨hn, hkey⟩, hreplace⟩ | ⟨hold, hgone⟩)
    · exact Or.inl ⟨n, ⟨hn, hreplace⟩, hkey⟩
    · obtain ⟨o, ho⟩ := List.exists_mem_of_ne_nil _ hold
      obtain ⟨hmem, rfl⟩ := mem_withKey.mp ho
      exact Or.inr ⟨o, ⟨hmem, hgone⟩, rfl⟩

/-- Commands are compared by what the plan says of them, all of it. -/
theorem commandsEqual_iff (a b : List PlannedCommand) : commandsEqual a b = true ↔ a = b := by
  unfold commandsEqual
  induction a generalizing b with
  | nil => cases b <;> simp
  | cons c cs ih =>
      cases b with
      | nil => simp
      | cons d ds =>
          have hcommand : c = d ↔ c.name = d.name ∧ c.learned = d.learned := by
            cases c
            cases d
            simp
          rw [List.cons.injEq, ← ih ds, hcommand]
          simp only [List.length_cons, List.zip_cons_cons, List.all_cons, Bool.and_eq_true,
            beq_iff_eq, Nat.add_right_cancel_iff]
          tauto

/-- What a diff of two plans says of one AID. -/
theorem diffPlans_cases {oldPlan newPlan : List PlannedAccessory}
    (hold : (oldPlan.map PlannedAccessory.aid).Nodup)
    (hnew : (newPlan.map PlannedAccessory.aid).Nodup) (x : UInt16) :
    let add := withKey PlannedAccessory.aid x (diffPlans oldPlan newPlan).toAdd
    let update := withKey PlannedAccessory.aid x (diffPlans oldPlan newPlan).toUpdate
    let remove := x ∈ (diffPlans oldPlan newPlan).toRemove
    let o? := withKey PlannedAccessory.aid x oldPlan
    let n? := withKey PlannedAccessory.aid x newPlan
    (n? = [] ∧ add = [] ∧ update = [] ∧ (remove ↔ o? ≠ [])) ∨
      (∃ n, o? = [] ∧ n? = [n] ∧ add = [n] ∧ update = [] ∧ ¬ remove) ∨
      (∃ o n, o? = [o] ∧ n? = [n] ∧ o.type ≠ n.type ∧ add = [n] ∧ update = [] ∧ remove) ∨
      (∃ o n, o? = [o] ∧ n? = [n] ∧ o.type = n.type ∧ add = [] ∧ ¬ remove ∧
        (o ≠ n ∧ update = [n] ∨ o = n ∧ update = [])) := by
  intro add update remove o? n?
  obtain ⟨hadd, hupdate, -⟩ := diffPlans_eq oldPlan newPlan
  have haddAt : add = n?.filter fun n =>
      changeOf oldPlan n = .add ∨ changeOf oldPlan n = .replace := by
    change withKey _ x (diffPlans oldPlan newPlan).toAdd = _
    rw [hadd, withKey_filter]
  have hupdateAt : update = n?.filter fun n => changeOf oldPlan n = .update := by
    change withKey _ x (diffPlans oldPlan newPlan).toUpdate = _
    rw [hupdate, withKey_filter]
  have hremove : remove ↔ (∃ n ∈ n?, changeOf oldPlan n = .replace) ∨ (o? ≠ [] ∧ n? = []) :=
    mem_toRemove
  rcases withKey_of_nodup hnew x with hgone | ⟨n, -, hkey, hone⟩
  · left
    rw [haddAt, hupdateAt, hremove, show n? = [] from hgone]
    simp
  · right
    rw [haddAt, hupdateAt, hremove, show n? = [n] from hone]
    have hlast : last? PlannedAccessory.aid n.aid oldPlan = o?.getLast? := by
      rw [hkey]
      rfl
    rcases withKey_of_nodup hold x with hfresh | ⟨o, -, hoKey, hone'⟩
    · left
      have hchange : changeOf oldPlan n = .add := by
        rw [changeOf, hlast, show o? = [] from hfresh]
        rfl
      exact ⟨n, hfresh, rfl, by simp [hchange], by simp [hchange], by simp [hchange]⟩
    · right
      have hchange : changeOf oldPlan n =
          if o.type ≠ n.type then .replace
          else if o.name ≠ n.name ∨ !commandsEqual o.commands n.commands then .update
          else .keep := by
        rw [changeOf, hlast, show o? = [o] from hone']
        rfl
      by_cases htype : o.type = n.type
      · right
        rw [if_neg (not_not_intro htype)] at hchange
        by_cases hsame : o.name ≠ n.name ∨ !commandsEqual o.commands n.commands
        · rw [if_pos hsame] at hchange
          have hne : o ≠ n := by
            rintro rfl
            simp [(commandsEqual_iff o.commands o.commands).mpr rfl] at hsame
          exact ⟨o, n, hone', rfl, htype, by simp [hchange], by simp [hchange],
            Or.inl ⟨hne, by simp [hchange]⟩⟩
        · rw [if_neg hsame] at hchange
          rw [not_or, not_not, Bool.not_eq_true', Bool.not_eq_false, commandsEqual_iff] at hsame
          have heq : o = n := by
            cases o
            cases n
            simp only [PlannedAccessory.mk.injEq]
            exact ⟨hoKey.trans hkey.symm, htype, hsame.1, hsame.2⟩
          exact ⟨o, n, hone', rfl, htype, by simp [hchange], by simp [hchange],
            Or.inr ⟨heq, by simp [hchange]⟩⟩
      · left
        rw [if_pos htype] at hchange
        exact ⟨o, n, hone', rfl, htype, by simp [hchange], by simp [hchange], by simp [hchange]⟩

end RfIrBlaster
