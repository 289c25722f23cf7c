/-
`accessory_builder.cpp`: the accessory database built at boot and kept up to date by
live configuration changes.  Constructing an accessory adds it to the database and
`deleteAccessory` removes it.
-/
import RfIrBlaster.AccessoryPlan
import RfIrBlaster.ConfigJson

namespace RfIrBlaster

open KeyedList

/-- An accessory of the database; the bridge has no service of its own. -/
structure Accessory where
  aid : UInt16
  service : Option ServiceType := none
  configuredName : Bytes := []
  remoteKey : Bool := false
  speaker : Bool := false
deriving DecidableEq, Repr

def Accessory.setName (name : Bytes) (a : Accessory) : Accessory :=
  { a with configuredName := cStr name }

@[simp]
theorem Accessory.setName_aid (name : Bytes) (a : Accessory) : (a.setName name).aid = a.aid :=
  rfl

/-- The configuration commands resolve in, the database, and the AIDs whose name
characteristic is at hand. -/
structure Builder where
  config : Config := {}
  accessories : List Accessory := []
  names : List UInt16 := []
deriving DecidableEq, Repr

def bridgeAccessory : Accessory :=
  { aid := 1 }

/-- Among the commands of the first device of that id. -/
def hasCommandPrefix (cfg : Config) (aid : UInt16) (pre : Bytes) : Bool :=
  match cfg.devices.find? fun dev => dev.id == aid with
  | none => false
  | some dev => dev.commands.any fun slot => pre.isPrefixOf slot.name

/-- The constructors of the services; a Television looks its commands up once. -/
def constructAccessory (cfg : Config) (acc : PlannedAccessory) : Accessory :=
  match acc.type with
  | .unknown => { aid := acc.aid }
  | .television =>
      { aid := acc.aid
        service := some .television
        configuredName := cStr acc.name
        remoteKey := hasCommandPrefix cfg acc.aid (ascii "key_")
        speaker := hasCommandPrefix cfg acc.aid (ascii "volume_") }
  | service =>
      { aid := acc.aid, service := some service, configuredName := cStr acc.name }

namespace Builder

def createAccessory (b : Builder) (acc : PlannedAccessory) : Builder :=
  { b with
    accessories := b.accessories ++ [constructAccessory b.config acc]
    names :=
      if acc.type = .unknown ∨ acc.aid ∈ b.names then b.names else b.names ++ [acc.aid] }

def deleteAccessory (b : Builder) (aid : UInt16) : Builder :=
  { b with
    accessories := eraseKey Accessory.aid aid b.accessories
    names := b.names.filter fun other => other ≠ aid }

def renameAccessory (b : Builder) (acc : PlannedAccessory) : Builder :=
  if acc.aid ∈ b.names then
    { b with
      accessories := modifyKey Accessory.aid acc.aid (Accessory.setName acc.name) b.accessories }
  else b

def buildAccessories (cfg : Config) : Builder :=
  (planAccessories cfg).accessories.foldl createAccessory
    { config := cfg, accessories := [bridgeAccessory] }

/-- The three loops of `applyConfigChange`. -/
def applyDiff (b : Builder) (diff : PlanDiff) : Builder :=
  let removed := diff.toRemove.foldl deleteAccessory b
  let added := diff.toAdd.foldl createAccessory removed
  diff.toUpdate.foldl renameAccessory added

def applyConfigChange (b : Builder) (cfg : Config) : Builder :=
  let oldPlan := (planAccessories b.config).accessories
  let newPlan := (planAccessories cfg).accessories
  let diff := diffPlans oldPlan newPlan
  applyDiff { b with config := cfg } diff

end Builder

@[simp]
theorem constructAccessory_aid (cfg : Config) (acc : PlannedAccessory) :
    (constructAccessory cfg acc).aid = acc.aid := by
  unfold constructAccessory
  split <;> rfl

namespace Builder

theorem foldl_delete (aids : List UInt16) (b : Builder) :
    (aids.foldl deleteAccessory b).config = b.config ∧
      (∀ x, withKey Accessory.aid x (aids.foldl deleteAccessory b).accessories =
        if x ∈ aids then [] else withKey Accessory.aid x b.accessories) ∧
      (∀ x, x ∈ (aids.foldl deleteAccessory b).names ↔ x ∈ b.names ∧ x ∉ aids) := by
  induction aids generalizing b with
  | nil => simp
  | cons aid rest ih =>
      obtain ⟨hconfig, haccessories, hnames⟩ := ih (b.deleteAccessory aid)
      rw [List.foldl_cons]
      refine ⟨hconfig, ?_, ?_⟩
      · intro x
        rw [haccessories x]
        change (if x ∈ rest then [] else
          withKey Accessory.aid x (eraseKey Accessory.aid aid b.accessories)) = _
        rw [withKey_eraseKey]
        by_cases hrest : x ∈ rest
        · simp [hrest]
        · by_cases hfirst : x = aid
          · simp [hfirst]
          · simp [hrest, hfirst]
      · intro x
        rw [hnames x]
        simp only [deleteAccessory, List.mem_filter, List.mem_cons, ne_eq, decide_eq_true_eq]
        tauto

theorem foldl_create (accs : List PlannedAccessory) (b : Builder)
    (hknown : ∀ acc ∈ accs, acc.type ≠ .unknown) :
    (accs.foldl createAccessory b).config = b.config ∧
      (∀ x, withKey Accessory.aid x (accs.foldl createAccessory b).accessories =
        withKey Accessory.aid x b.accessories ++
          (withKey PlannedAccessory.aid x accs).map (constructAccessory b.config)) ∧
      (∀ x, x ∈ (accs.foldl createAccessory b).names ↔
        x ∈ b.names ∨ x ∈ accs.map PlannedAccessory.aid) := by
  induction accs generalizing b with
  | nil => simp
  | cons acc rest ih =>
      obtain ⟨hfirst, hrest⟩ := List.forall_mem_cons.mp hknown
      obtain ⟨hconfig, haccessories, hnames⟩ := ih (b.createAccessory acc) hrest
      rw [List.foldl_cons]
      refine ⟨hconfig, ?_, ?_⟩
      · intro x
        rw [haccessories x]
        simp only [createAccessory, withKey_append, withKey_cons, withKey_nil,
          constructAccessory_aid, List.append_assoc]
        by_cases hkey : acc.aid = x
        · simp [hkey]
        · simp [hkey]
      · intro x
        rw [hnames x]
        simp only [createAccessory, hfirst, false_or, List.map_cons, List.mem_cons]
        by_cases hmem : acc.aid ∈ b.names
        · rw [if_pos hmem]
          constructor
          · rintro (hold | hnew)
            · exact Or.inl hold
            · exact Or.inr (Or.inr hnew)
          · rintro (hold | rfl | hnew)
            · exact Or.inl hold
            · exact Or.inl hmem
            · exact Or.inr hnew
        · rw [if_neg hmem]
          simp only [List.mem_append, List.mem_singleton]
          tauto

theorem foldl_rename (accs : List PlannedAccessory) (b : Builder)
    (hnamed : ∀ acc ∈ accs, acc.aid ∈ b.names) :
    (accs.foldl renameAccessory b).config = b.config ∧
      (accs.foldl renameAccessory b).names = b.names ∧
      (∀ x, withKey Accessory.aid x (accs.foldl renameAccessory b).accessories =
        (withKey PlannedAccessory.aid x accs).foldl
          (fun as acc => as.map (Accessory.setName acc.name))
          (withKey Accessory.aid x b.accessories)) := by
  induction accs generalizing b with
  | nil => simp
  | cons acc rest ih =>
      obtain ⟨hfirst, hrest⟩ := List.forall_mem_cons.mp hnamed
      have hrename : b.renameAccessory acc = { b with
          accessories :=
            modifyKey Accessory.aid acc.aid (Accessory.setName acc.name) b.accessories } :=
        if_pos hfirst
      obtain ⟨hconfig, hnames, haccessories⟩ := ih (b.renameAccessory acc) (by
        rw [hrename]
        exact hrest)
      rw [List.foldl_cons]
      refine ⟨?_, ?_, ?_⟩
      · rw [hconfig, hrename]
      · rw [hnames, hrename]
      · intro x
        rw [haccessories x, hrename, withKey_cons]
        change List.foldl _ (withKey Accessory.aid x (modifyKey Accessory.aid acc.aid _ _)) _ = _
        rw [withKey_modifyKey (Accessory.setName_aid acc.name)]
        by_cases hkey : x = acc.aid
        · simp [hkey]
        · simp [hkey, Ne.symm hkey]

theorem applyDiff_spec (b : Builder) (diff : PlanDiff)
    (hknown : ∀ acc ∈ diff.toAdd, acc.type ≠ .unknown)
    (hnamed : ∀ acc ∈ diff.toUpdate, acc.aid ∈ b.names ∧ acc.aid ∉ diff.toRemove) :
    (b.applyDiff diff).config = b.config ∧
      (∀ x, x ∈ (b.applyDiff diff).names ↔
        (x ∈ b.names ∧ x ∉ diff.toRemove) ∨ x ∈ diff.toAdd.map PlannedAccessory.aid) ∧
      (∀ x, withKey Accessory.aid x (b.applyDiff diff).accessories =
        (withKey PlannedAccessory.aid x diff.toUpdate).foldl
          (fun as acc => as.map (Accessory.setName acc.name))
          ((if x ∈ diff.toRemove then [] else withKey Accessory.aid x b.accessories) ++
            (withKey PlannedAccessory.aid x diff.toAdd).map (constructAccessory b.config))) := by
  obtain ⟨hdeleteConfig, hdeleted, hdeletedNames⟩ := foldl_delete diff.toRemove b
  obtain ⟨hcreateConfig, hcreated, hcreatedNames⟩ :=
    foldl_create diff.toAdd (diff.toRemove.foldl deleteAccessory b) hknown
  have hpresent : ∀ acc ∈ diff.toUpdate, acc.aid ∈
      (diff.toAdd.foldl createAccessory (diff.toRemove.foldl deleteAccessory b)).names := by
    intro acc hacc
    rw [hcreatedNames, hdeletedNames]
    exact Or.inl (hnamed acc hacc)
  obtain ⟨hrenameConfig, hrenameNames, hrenamed⟩ := foldl_rename diff.toUpdate _ hpresent
  refine ⟨?_, ?_, ?_⟩
  · exact hrenameConfig.trans (hcreateConfig.trans hdeleteConfig)
  · intro x
    change x ∈ (diff.toUpdate.foldl renameAccessory _).names ↔ _
    rw [hrenameNames, hcreatedNames, hdeletedNames]
  · intro x
    change withKey Accessory.aid x (diff.toUpdate.foldl renameAccessory _).accessories = _
    rw [hrenamed, hcreated, hdeleted, hdeleteConfig]

/-- A Television is planned under the AID. -/
def televisionIn (cfg : Config) (aid : UInt16) : Bool :=
  (withKey PlannedAccessory.aid aid (planAccessories cfg).accessories).any fun acc =>
    acc.type == .television

/-- The database shows `cfg`, each accessory as constructed under `under` of its AID. -/
structure Shows (b : Builder) (cfg : Config) (under : UInt16 → Config) : Prop where
  config : b.config = cfg
  names : ∀ x, x ∈ b.names ↔
    withKey PlannedAccessory.aid x (planAccessories cfg).accessories ≠ []
  accessories : ∀ x, withKey Accessory.aid x b.accessories =
    withKey Accessory.aid x [bridgeAccessory] ++
      (withKey PlannedAccessory.aid x (planAccessories cfg).accessories).map
        (constructAccessory (under x))

/-- Only a Television depends on the configuration it is constructed under. -/
theorem constructAccessory_congr {cfg cfg' : Config} {acc : PlannedAccessory}
    (h : acc.type = .television → cfg = cfg') :
    constructAccessory cfg acc = constructAccessory cfg' acc := by
  by_cases htv : acc.type = .television
  · rw [h htv]
  · unfold constructAccessory
    cases htype : acc.type <;> first | rfl | exact absurd htype htv

/-- Renamed in place or planned under the same name: the accessory as if constructed
for the new plan. -/
theorem constructAccessory_same (cfg : Config) {o n : PlannedAccessory} (haid : o.aid = n.aid)
    (htype : o.type = n.type) (hknown : n.type ≠ .unknown) :
    (constructAccessory cfg o).setName n.name = constructAccessory cfg n ∧
      (o.name = n.name → constructAccessory cfg o = constructAccessory cfg n) := by
  obtain ⟨aid, type, name, commands⟩ := o
  obtain ⟨aid', type', name', commands'⟩ := n
  obtain rfl : aid = aid' := haid
  obtain rfl : type = type' := htype
  cases type with
  | unknown => exact absurd rfl hknown
  | _ =>
      refine ⟨rfl, ?_⟩
      intro hname
      obtain rfl : name = name' := hname
      rfl

theorem buildAccessories_shows {cfg : Config} (hvalid : validate cfg = .ok) :
    (buildAccessories cfg).Shows cfg fun _ => cfg := by
  obtain ⟨hconfig, haccessories, hnames⟩ := foldl_create (planAccessories cfg).accessories
    { config := cfg, accessories := [bridgeAccessory] }
    fun acc hacc => ((planned_of_valid hvalid).2 acc hacc).1
  refine ⟨hconfig, ?_, haccessories⟩
  intro x
  rw [ne_eq, withKey_eq_nil_iff, not_not]
  exact (hnames x).trans (by simp)

theorem withKey_bridge {x : UInt16} (h : x ≠ 1) :
    withKey Accessory.aid x [bridgeAccessory] = [] := by
  have hother : ¬ bridgeAccessory.aid = x := Ne.symm h
  rw [withKey_cons, if_neg hother, withKey_nil]

theorem televisionIn_nil {cfg : Config} {x : UInt16}
    (h : withKey PlannedAccessory.aid x (planAccessories cfg).accessories = []) :
    televisionIn cfg x = false := by
  rw [televisionIn, h]
  rfl

theorem televisionIn_singleton {cfg : Config} {x : UInt16} {acc : PlannedAccessory}
    (h : withKey PlannedAccessory.aid x (planAccessories cfg).accessories = [acc]) :
    televisionIn cfg x = true ↔ acc.type = .television := by
  rw [televisionIn, h]
  simp

/-- What is planned under an AID has a known service and is not the bridge. -/
theorem planned_singleton {cfg : Config} (hvalid : validate cfg = .ok) {x : UInt16}
    {acc : PlannedAccessory}
    (h : withKey PlannedAccessory.aid x (planAccessories cfg).accessories = [acc]) :
    acc.type ≠ .unknown ∧ acc.aid = x ∧ x ≠ 1 := by
  obtain ⟨hmem, rfl⟩ := mem_withKey.mp (h ▸ List.mem_singleton_self acc)
  obtain ⟨hknown, hbridge⟩ := (planned_of_valid hvalid).2 acc hmem
  exact ⟨hknown, rfl, hbridge⟩

/-- What a live change from `cfg` to `cfg'` is asked to do. -/
def liveDiff (cfg cfg' : Config) : PlanDiff :=
  diffPlans (planAccessories cfg).accessories (planAccessories cfg').accessories

section Live

variable {b : Builder} {cfg cfg' : Config} {under : UInt16 → Config}

theorem liveDiff_known (hvalid' : validate cfg' = .ok) :
    ∀ acc ∈ (liveDiff cfg cfg').toAdd, acc.type ≠ .unknown := by
  intro acc hacc
  rw [liveDiff, (diffPlans_eq _ _).1] at hacc
  exact ((planned_of_valid hvalid').2 acc (List.mem_filter.mp hacc).1).1

/-- What is updated is in the database and stays there. -/
theorem Shows.liveDiff_named (h : b.Shows cfg under) (hvalid : validate cfg = .ok)
    (hvalid' : validate cfg' = .ok) :
    ∀ acc ∈ (liveDiff cfg cfg').toUpdate,
      acc.aid ∈ b.names ∧ acc.aid ∉ (liveDiff cfg cfg').toRemove := by
  intro acc hacc
  have hupdate : withKey PlannedAccessory.aid acc.aid (liveDiff cfg cfg').toUpdate ≠ [] :=
    List.ne_nil_of_mem (mem_withKey.mpr ⟨hacc, rfl⟩)
  rw [h.names acc.aid]
  rcases diffPlans_cases (planned_of_valid hvalid).1 (planned_of_valid hvalid').1 acc.aid with
    ⟨-, -, hu, -⟩ | ⟨n, -, -, -, hu, -⟩ | ⟨o, n, -, -, -, -, hu, -⟩ | ⟨o, n, ho, -, -, -, hr, -⟩
  · exact absurd hu hupdate
  · exact absurd hu hupdate
  · exact absurd hu hupdate
  · rw [ho]
    exact ⟨List.cons_ne_nil o [], hr⟩

/-- The name characteristics at hand are those of the new plan. -/
theorem Shows.live_names (h : b.Shows cfg under) (hvalid : validate cfg = .ok)
    (hvalid' : validate cfg' = .ok) (x : UInt16) :
    ((x ∈ b.names ∧ x ∉ (liveDiff cfg cfg').toRemove) ∨
        x ∈ (liveDiff cfg cfg').toAdd.map PlannedAccessory.aid) ↔
      withKey PlannedAccessory.aid x (planAccessories cfg').accessories ≠ [] := by
  have hadded : x ∈ (liveDiff cfg cfg').toAdd.map PlannedAccessory.aid ↔
      withKey PlannedAccessory.aid x (liveDiff cfg cfg').toAdd ≠ [] := by
    rw [ne_eq, withKey_eq_nil_iff, not_not]
  rw [hadded, h.names x, liveDiff]
  rcases diffPlans_cases (planned_of_valid hvalid).1 (planned_of_valid hvalid').1 x with
    ⟨hn, ha, -, hr⟩ | ⟨n, ho, hn, ha, -, hr⟩ | ⟨o, n, ho, hn, -, ha, -, hr⟩ |
    ⟨o, n, ho, hn, -, ha, hr, -⟩
  · simp [hn, ha, hr]
  · simp [hn, ha]
  · simp [hn, ha]
  · simp [hn, ha, ho, hr]

/-- An accessory that keeps its service, renamed or not, is the one the new plan would
construct under the same configuration. -/
theorem construct_kept (hvalid : validate cfg = .ok) (hvalid' : validate cfg' = .ok)
    {x : UInt16} {o n : PlannedAccessory}
    (ho : withKey PlannedAccessory.aid x (planAccessories cfg).accessories = [o])
    (hn : withKey PlannedAccessory.aid x (planAccessories cfg').accessories = [n])
    (htype : o.type = n.type) (under : UInt16 → Config) :
    let built := constructAccessory
      (if televisionIn cfg x ∧ televisionIn cfg' x then under x else cfg') n
    (constructAccessory (under x) o).setName n.name = built ∧
      (o.name = n.name → constructAccessory (under x) o = built) := by
  intro built
  obtain ⟨-, hoAid, -⟩ := planned_singleton hvalid ho
  obtain ⟨hnKnown, hnAid, -⟩ := planned_singleton hvalid' hn
  have hunder : constructAccessory (under x) n = built := by
    apply constructAccessory_congr
    intro htv
    have hboth : televisionIn cfg x = true ∧ televisionIn cfg' x = true :=
      ⟨(televisionIn_singleton ho).mpr (htype.trans htv), (televisionIn_singleton hn).mpr htv⟩
    rw [if_pos hboth]
  rw [← hunder]
  exact constructAccessory_same (under x) (hoAid.trans hnAid.symm) htype hnKnown

/-- The accessories under an AID after the three loops. -/
theorem Shows.live_accessories (h : b.Shows cfg under) (hvalid : validate cfg = .ok)
    (hvalid' : validate cfg' = .ok) (x : UInt16) :
    (withKey PlannedAccessory.aid x (liveDiff cfg cfg').toUpdate).foldl
        (fun as acc => as.map (Accessory.setName acc.name))
        ((if x ∈ (liveDiff cfg cfg').toRemove then []
          else withKey Accessory.aid x b.accessories) ++
          (withKey PlannedAccessory.aid x (liveDiff cfg cfg').toAdd).map
            (constructAccessory cfg')) =
      withKey Accessory.aid x [bridgeAccessory] ++
        (withKey PlannedAccessory.aid x (planAccessories cfg').accessories).map
          (constructAccessory
            (if televisionIn cfg x ∧ televisionIn cfg' x then under x else cfg')) := by
  rw [h.accessories x, liveDiff]
  rcases diffPlans_cases (planned_of_valid hvalid).1 (planned_of_valid hvalid').1 x with
    ⟨hn, ha, hu, hr⟩ | ⟨n, ho, hn, ha, hu, hr⟩ | ⟨o, n, ho, hn, htype, ha, hu, hr⟩ |
    ⟨o, n, ho, hn, htype, ha, hr, hu⟩
  · -- Not planned any more.
    rcases withKey_of_nodup (planned_of_valid hvalid).1 x with hnone | ⟨o, -, -, hone⟩
    · simp [hn, ha, hu, hr, hnone]
    · have hremoved := hr.mpr (by rw [hone]; exact List.cons_ne_nil o [])
      simp [hn, ha, hu, hremoved, withKey_bridge (planned_singleton hvalid hone).2.2]
  · -- New.
    have hfresh : ¬ (televisionIn cfg x = true ∧ televisionIn cfg' x = true) := by
      rw [televisionIn_nil ho]
      exact fun hboth => Bool.false_ne_true hboth.1
    simp [hn, ha, hu, hr, ho, hfresh]
  · -- Of another service now.
    have hother : ¬ (televisionIn cfg x = true ∧ televisionIn cfg' x = true) := by
      rw [televisionIn_singleton ho, televisionIn_singleton hn]
      exact fun hboth => htype (hboth.1.trans hboth.2.symm)
    simp [hn, ha, hu, hr, hother, withKey_bridge (planned_singleton hvalid ho).2.2]
  · -- Kept, and renamed if anything changed.
    obtain ⟨hrename, hkeep⟩ := construct_kept hvalid hvalid' ho hn htype under
    rw [withKey_bridge (planned_singleton hvalid ho).2.2, ho, hn, ha, if_neg hr]
    rcases hu with ⟨-, hu⟩ | ⟨hsame, hu⟩
    · rw [hu]
      simp only [List.nil_append, List.append_nil, List.map_cons, List.map_nil, List.foldl_cons,
        List.foldl_nil, hrename]
    · rw [hu]
      simp only [List.nil_append, List.append_nil, List.map_cons, List.map_nil,
        List.foldl_nil, hkeep (congrArg PlannedAccessory.name hsame)]

/-- A live change shows the new configuration, but a Television that was one before
stays as it was constructed. -/
theorem Shows.apply (h : b.Shows cfg under) (hvalid : validate cfg = .ok)
    (hvalid' : validate cfg' = .ok) :
    (b.applyConfigChange cfg').Shows cfg' fun x =>
      if televisionIn cfg x ∧ televisionIn cfg' x then under x else cfg' := by
  have happly : b.applyConfigChange cfg' =
      applyDiff { b with config := cfg' } (liveDiff cfg cfg') := by
    unfold applyConfigChange
    rw [h.config]
    rfl
  obtain ⟨hconfig, hnames, haccessories⟩ := applyDiff_spec { b with config := cfg' }
    (liveDiff cfg cfg') (liveDiff_known hvalid') (h.liveDiff_named hvalid hvalid')
  rw [happly]
  refine ⟨hconfig, ?_, ?_⟩
  · intro x
    exact (hnames x).trans (h.live_names hvalid hvalid' x)
  · intro x
    exact (haccessories x).trans (h.live_accessories hvalid hvalid' x)

end Live

/-- The current configuration, and what each accessory was last constructed under. -/
def underNext (state : Config × (UInt16 → Config)) (next : Config) :
    Config × (UInt16 → Config) :=
  (next, fun x => if televisionIn state.1 x ∧ televisionIn next x then state.2 x else next)

/-- The configuration under which the accessory of an AID was last constructed: the boot
configuration or a later one, except that a Television that stays one is not built anew. -/
def constructedUnder (cfg : Config) (changes : List Config) : UInt16 → Config :=
  (changes.foldl underNext (cfg, fun _ => cfg)).2

theorem underNext_current (cfg : Config) (under : UInt16 → Config) (changes : List Config) :
    (changes.foldl underNext (cfg, under)).1 = changes.getLastD cfg := by
  induction changes generalizing cfg under with
  | nil => rfl
  | cons next rest ih =>
      rw [List.foldl_cons, List.getLastD_cons]
      exact ih next _

theorem Shows.foldl_apply {b : Builder} {cfg : Config} {under : UInt16 → Config}
    (h : b.Shows cfg under) (hvalid : validate cfg = .ok) {changes : List Config}
    (hchanges : ∀ next ∈ changes, validate next = .ok) :
    (changes.foldl applyConfigChange b).Shows (changes.foldl underNext (cfg, under)).1
      (changes.foldl underNext (cfg, under)).2 := by
  induction changes generalizing b cfg under with
  | nil => exact h
  | cons next rest ih =>
      obtain ⟨hnext, hrest⟩ := List.forall_mem_cons.mp hchanges
      exact ih (h.apply hvalid hnext) hnext hrest

/-- The commands a Television looks up are there in both or in neither. -/
def SameKeys (cfg cfg' : Config) (aid : UInt16) : Prop :=
  hasCommandPrefix cfg aid (ascii "key_") = hasCommandPrefix cfg' aid (ascii "key_") ∧
    hasCommandPrefix cfg aid (ascii "volume_") = hasCommandPrefix cfg' aid (ascii "volume_")

theorem constructAccessory_eq_iff (cfg cfg' : Config) (acc : PlannedAccessory) :
    constructAccessory cfg acc = constructAccessory cfg' acc ↔
      (acc.type = .television → SameKeys cfg cfg' acc.aid) := by
  obtain ⟨aid, type, name, commands⟩ := acc
  cases type with
  | television => simp [constructAccessory, SameKeys]
  | _ => simp [constructAccessory]

/-- After a boot and any live changes the database is the one a fresh boot would build
exactly when every Television was last constructed under a configuration that had key
commands and volume commands where the current one has them. -/
theorem live_apply_iff (cfg : Config) (changes : List Config)
    (hvalid : ∀ c ∈ cfg :: changes, validate c = .ok) :
    let current := changes.getLastD cfg
    (∀ x, withKey Accessory.aid x
        (changes.foldl applyConfigChange (buildAccessories cfg)).accessories =
          withKey Accessory.aid x (buildAccessories current).accessories) ↔
      ∀ x, televisionIn current x = true →
        SameKeys (constructedUnder cfg changes x) current x := by
  intro current
  obtain ⟨hfirst, hchanges⟩ := List.forall_mem_cons.mp hvalid
  have hcurrent : validate current = .ok := hvalid current List.getLastD_mem_cons
  have hlive := (buildAccessories_shows hfirst).foldl_apply hfirst hchanges
  rw [underNext_current] at hlive
  change Shows _ current _ at hlive
  have hfresh := buildAccessories_shows hcurrent
  have hone : ∀ x, (withKey Accessory.aid x
      (changes.foldl applyConfigChange (buildAccessories cfg)).accessories =
        withKey Accessory.aid x (buildAccessories current).accessories) ↔
      (televisionIn current x = true → SameKeys (constructedUnder cfg changes x) current x) := by
    intro x
    rw [hlive.accessories x, hfresh.accessories x, List.append_cancel_left_eq]
    rcases withKey_of_nodup (planned_of_valid hcurrent).1 x with hnone | ⟨acc, -, haid, hacc⟩
    · simp [hnone, televisionIn_nil hnone]
    · rw [hacc, televisionIn_singleton hacc]
      simp only [List.map_cons, List.map_nil, List.cons.injEq, and_true]
      rw [constructAccessory_eq_iff, haid]
      rfl
  exact forall_congr' hone

/-- A Television with one command. -/
def tvConfig (command : String) : Config :=
  { nextDeviceId := 3
    devices := [{
      id := 2
      service := ascii "Television"
      name := ascii "TV"
      commands := [{
        name := ascii command
        code := { kind := .rf, pulses := [350, 1050], freqMHz := 433 } }] }] }

theorem live_apply_iff_tv : withKey Accessory.aid 2
    (applyConfigChange (buildAccessories (tvConfig "on")) (tvConfig "off")).accessories =
      withKey Accessory.aid 2 (buildAccessories (tvConfig "off")).accessories := by
  refine (live_apply_iff (tvConfig "on") [tvConfig "off"] (by decide)).mpr ?_ 2
  intro x htv
  have hx : x = 2 := by
    by_contra hne
    have hnone : withKey PlannedAccessory.aid x (planAccessories (tvConfig "off")).accessories =
        [] := by
      rw [withKey_eq_nil_iff]
      change x ∉ [2]
      simpa using hne
    exact Bool.false_ne_true ((televisionIn_nil hnone).symm.trans htv)
  rw [hx]
  exact ⟨by decide, by decide⟩

/-- A key command learned for a Television that had none: no RemoteKey until a reboot. -/
theorem live_apply_misses_key :
    validate (tvConfig "on") = .ok ∧ validate (tvConfig "key_up") = .ok ∧
      withKey Accessory.aid 2
          (applyConfigChange (buildAccessories (tvConfig "on")) (tvConfig "key_up")).accessories ≠
        withKey Accessory.aid 2 (buildAccessories (tvConfig "key_up")).accessories := by
  decide

end Builder

end RfIrBlaster
