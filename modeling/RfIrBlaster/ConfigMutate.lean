/-
`config_mutate.cpp`: setting a command and adding a device.  Both work on a copy that is
validated and persisted before it replaces the configuration.
-/
import RfIrBlaster.AccessoryPlan
import RfIrBlaster.ConfigCodec
import RfIrBlaster.StateMachine

namespace RfIrBlaster

open KeyedList

inductive MutateError where
  | ok
  | badName
  | badService
  | deviceNotFound
  | deviceLimit
  | failedValidation
  | storeRejected
deriving DecidableEq, Repr

structure AddDeviceResult where
  error : MutateError := .ok
  id : UInt16 := 0
deriving DecidableEq, Repr

/-- The two things a mutator may change: the caller's configuration and the store. -/
structure Holder (σ : Type) where
  cfg : Config
  store : σ
deriving DecidableEq, Repr

def badName (s : Bytes) : Bool :=
  s.isEmpty || decide (maxNameLen < s.length)

/-- Replace the code of the first slot of that name, or append a new slot. -/
def setCommand (commandName : Bytes) (code : StoredCode) (dev : VirtualDevice) :
    VirtualDevice :=
  { dev with
    commands :=
      match modifyFirst (fun slot : CommandSlot => slot.name = commandName)
          (fun slot => { slot with code := code }) dev.commands with
      | some commands => commands
      | none => dev.commands ++ [{ name := commandName, code := code }] }

/-- The device `addDevice` appends. -/
def newDevice (cfg : Config) (deviceName service commandName : Bytes) (code : StoredCode) :
    VirtualDevice :=
  { id := cfg.nextDeviceId
    service := service
    name := deviceName
    commands := [{ name := commandName, code := code }] }

/-- The configuration `addDevice` asks `commit` to take. -/
def withDevice (cfg : Config) (dev : VirtualDevice) : Config :=
  { cfg with nextDeviceId := cfg.nextDeviceId + 1, devices := cfg.devices ++ [dev] }

section Mutators

variable {σ : Type}

def commit (A : ArduinoJson) (S : BlobStore σ) (next : Config) (s : Holder σ) :
    MutateError × Holder σ :=
  if validate next ≠ .ok then (.failedValidation, s)
  else
    let saved := save A S s.store next
    if !saved.1 then (.storeRejected, { s with store := saved.2 })
    else (.ok, { cfg := next, store := saved.2 })

def upsertCommand (A : ArduinoJson) (S : BlobStore σ) (deviceId : UInt16)
    (commandName : Bytes) (code : StoredCode) (s : Holder σ) : MutateError × Holder σ :=
  if badName commandName then (.badName, s)
  else
    match modifyFirst (fun d : VirtualDevice => d.id = deviceId)
        (setCommand commandName code) s.cfg.devices with
    | none => (.deviceNotFound, s)
    | some devices => commit A S { s.cfg with devices := devices } s

def addDevice (A : ArduinoJson) (S : BlobStore σ) (deviceName service commandName : Bytes)
    (code : StoredCode) (s : Holder σ) : AddDeviceResult × Holder σ :=
  if badName deviceName || badName commandName then ({ error := .badName }, s)
  else if serviceTypeFromString service = .unknown then ({ error := .badService }, s)
  else if maxDevices ≤ s.cfg.devices.length then ({ error := .deviceLimit }, s)
  else
    let dev := newDevice s.cfg deviceName service commandName code
    let res := commit A S (withDevice s.cfg dev) s
    if res.1 = .ok then
      ({ error := res.1, id := (res.2.cfg.devices.getLastD {}).id }, res.2)
    else ({ error := res.1 }, res.2)

inductive MutateCall where
  | upsert (deviceId : UInt16) (commandName : Bytes) (code : StoredCode)
  | add (deviceName service commandName : Bytes) (code : StoredCode)
deriving DecidableEq, Repr

/-- The error a call returns, the id where it returns one, and what it leaves. -/
def MutateCall.perform (A : ArduinoJson) (S : BlobStore σ) (s : Holder σ) :
    MutateCall → MutateError × Option UInt16 × Holder σ
  | .upsert deviceId commandName code =>
      let res := upsertCommand A S deviceId commandName code s
      (res.1, none, res.2)
  | .add deviceName service commandName code =>
      let res := addDevice A S deviceName service commandName code s
      (res.1.error, if res.1.error = .ok then some res.1.id else none, res.2)

/-- Mutators called one after the other. -/
def mutating (A : ArduinoJson) (S : BlobStore σ) (start : Holder σ) :
    StateMachine (Holder σ) MutateCall where
  init := start
  step s call := (call.perform A S s).2.2

theorem mutating_once (A : ArduinoJson) (S : BlobStore σ) (start : Holder σ) (call : MutateCall) :
    (mutating A S start).run [call] = (call.perform A S start).2.2 :=
  rfl

/-- Neither the configuration nor the stored blob differs. -/
def Holder.Same (S : BlobStore σ) (s s' : Holder σ) : Prop :=
  s'.cfg = s.cfg ∧ S.get s'.store = S.get s.store

/-- The configuration is `next`, which is valid and what the store holds. -/
structure Holder.Committed (A : ArduinoJson) (S : BlobStore σ) (next : Config)
    (s : Holder σ) : Prop where
  cfg : s.cfg = next
  valid : validate next = .ok
  stored : ∃ blob, encode A next = some blob ∧ S.get s.store = some blob

/-- Only the commands of the first device of that id change: the first slot of that name
takes the code and keeps its repeat settings, or a slot is appended. -/
def Upserted (cfg : Config) (deviceId : UInt16) (commandName : Bytes) (code : StoredCode)
    (next : Config) : Prop :=
  ∃ before dev after commands, cfg.devices = before ++ dev :: after ∧ dev.id = deviceId ∧
    (∀ other ∈ before, other.id ≠ deviceId) ∧
    next = { cfg with devices := before ++ { dev with commands := commands } :: after } ∧
    ((∃ front slot back, dev.commands = front ++ slot :: back ∧ slot.name = commandName ∧
        (∀ other ∈ front, other.name ≠ commandName) ∧
        commands = front ++ { slot with code := code } :: back) ∨
      ((∀ slot ∈ dev.commands, slot.name ≠ commandName) ∧
        commands = dev.commands ++ [{ name := commandName, code := code }]))

/-- One device is appended under the old counter, which grows by one without wrapping. -/
def Added (cfg : Config) (deviceName service commandName : Bytes) (code : StoredCode)
    (id : UInt16) (next : Config) : Prop :=
  id = cfg.nextDeviceId ∧ next.nextDeviceId.toNat = cfg.nextDeviceId.toNat + 1 ∧
    next =
      { cfg with
        nextDeviceId := next.nextDeviceId
        devices := cfg.devices ++ [newDevice cfg deviceName service commandName code] }

variable {A : ArduinoJson} {S : BlobStore σ}

theorem Holder.Same.refl (s : Holder σ) : s.Same S s :=
  ⟨rfl, rfl⟩

/-- A commit takes the working copy whole or leaves both things as they were. -/
theorem commit_cases (hS : S.Lawful) (next : Config) (s : Holder σ) :
    ((commit A S next s).1 = .ok ∧ (commit A S next s).2.Committed A S next) ∨
      ((commit A S next s).1 ≠ .ok ∧ s.Same S (commit A S next s).2) := by
  unfold commit
  by_cases hvalid : validate next = .ok
  · rw [if_neg (not_not_intro hvalid)]
    cases hsaved : (save A S s.store next).1 with
    | false =>
        right
        simp only [hsaved, Bool.not_false, if_true]
        exact ⟨by decide, rfl, save_rejected hS hsaved⟩
    | true =>
        left
        simp only [hsaved, Bool.not_true, Bool.false_eq_true, if_false]
        exact ⟨trivial, rfl, hvalid, save_accepted hS hsaved⟩
  · rw [if_pos hvalid]
    exact Or.inr ⟨by simp, Holder.Same.refl s⟩

theorem setCommand_commands (commandName : Bytes) (code : StoredCode) (dev : VirtualDevice) :
    (∃ front slot back, dev.commands = front ++ slot :: back ∧ slot.name = commandName ∧
        (∀ other ∈ front, other.name ≠ commandName) ∧
        (setCommand commandName code dev).commands = front ++ { slot with code := code } :: back) ∨
      ((∀ slot ∈ dev.commands, slot.name ≠ commandName) ∧
        (setCommand commandName code dev).commands =
          dev.commands ++ [{ name := commandName, code := code }]) := by
  unfold setCommand
  cases hfirst : modifyFirst (fun slot : CommandSlot => decide (slot.name = commandName))
      (fun slot => { slot with code := code }) dev.commands with
  | none =>
      right
      refine ⟨?_, rfl⟩
      intro slot hslot
      exact of_decide_eq_false (modifyFirst_eq_none_iff.mp hfirst slot hslot)
  | some commands =>
      left
      obtain ⟨front, slot, back, hcommands, hname, hfront, rfl⟩ := modifyFirst_eq_some hfirst
      refine ⟨front, slot, back, hcommands, of_decide_eq_true hname, ?_, rfl⟩
      intro other hother
      exact of_decide_eq_false (hfront other hother)

/-- A successful upsert commits the one change it was asked for. -/
theorem upsertCommand_cases (hS : S.Lawful) (deviceId : UInt16) (commandName : Bytes)
    (code : StoredCode) (s : Holder σ) :
    let res := upsertCommand A S deviceId commandName code s
    (∃ next, res.1 = .ok ∧ Upserted s.cfg deviceId commandName code next ∧
        res.2.Committed A S next) ∨
      (res.1 ≠ .ok ∧ s.Same S res.2) := by
  unfold upsertCommand
  by_cases hname : badName commandName = true
  · simp only [hname, if_true]
    exact Or.inr ⟨by simp, Holder.Same.refl s⟩
  · rw [if_neg hname]
    cases hfirst : modifyFirst (fun d : VirtualDevice => decide (d.id = deviceId))
        (setCommand commandName code) s.cfg.devices with
    | none => exact Or.inr ⟨by simp, Holder.Same.refl s⟩
    | some devices =>
        rcases commit_cases (A := A) hS { s.cfg with devices := devices } s with
          ⟨hok, hcommitted⟩ | hfailed
        · left
          obtain ⟨before, dev, after, hdevices, hid, hbefore, rfl⟩ := modifyFirst_eq_some hfirst
          refine ⟨_, hok, ⟨before, dev, after, (setCommand commandName code dev).commands,
            hdevices, of_decide_eq_true hid, ?_, rfl, setCommand_commands commandName code dev⟩,
            hcommitted⟩
          intro other hother
          exact of_decide_eq_false (hbefore other hother)
        · exact Or.inr hfailed

/-- A successful add commits the new device; the counter cannot wrap under it, since the
new id would no longer be below the counter. -/
theorem addDevice_cases (hS : S.Lawful) (deviceName service commandName : Bytes)
    (code : StoredCode) (s : Holder σ) :
    let res := addDevice A S deviceName service commandName code s
    (∃ next, res.1.error = .ok ∧
        Added s.cfg deviceName service commandName code res.1.id next ∧
        res.2.Committed A S next) ∨
      (res.1.error ≠ .ok ∧ s.Same S res.2) := by
  unfold addDevice
  by_cases hnames : (badName deviceName || badName commandName) = true
  · simp only [hnames, if_true]
    exact Or.inr ⟨by simp, Holder.Same.refl s⟩
  rw [if_neg hnames]
  by_cases hservice : serviceTypeFromString service = .unknown
  · simp only [hservice, if_true]
    exact Or.inr ⟨by simp, Holder.Same.refl s⟩
  rw [if_neg hservice]
  by_cases hfull : maxDevices ≤ s.cfg.devices.length
  · simp only [hfull, if_true]
    exact Or.inr ⟨by simp, Holder.Same.refl s⟩
  rw [if_neg hfull]
  intro res
  rcases commit_cases (A := A) hS
    (withDevice s.cfg (newDevice s.cfg deviceName service commandName code)) s with
    ⟨hok, hcommitted⟩ | ⟨herror, hsame⟩
  · left
    simp only [res, hok, if_true]
    refine ⟨_, trivial, ⟨?_, ?_, rfl⟩, hcommitted⟩
    · rw [hcommitted.cfg, withDevice, List.getLastD_concat]
      rfl
    · have hbelow := validate_ids_lt hcommitted.valid
        (newDevice s.cfg deviceName service commandName code) (by simp [withDevice])
      have hlt := UInt16.lt_iff_toNat_lt.mp hbelow
      simp only [withDevice, newDevice, UInt16.toNat_add] at hlt ⊢
      have hone : UInt16.toNat 1 = 1 := rfl
      have hrange := s.cfg.nextDeviceId.toNat_lt
      rw [hone] at hlt ⊢
      omega
  · right
    simp only [res, if_neg herror]
    exact ⟨herror, hsame⟩

/-- What one call did to a valid configuration. -/
structure Performed (A : ArduinoJson) (S : BlobStore σ) (s : Holder σ) (call : MutateCall) :
    Prop where
  failed : (call.perform A S s).1 ≠ .ok →
    (call.perform A S s).2.1 = none ∧ s.Same S (call.perform A S s).2.2
  succeeded : (call.perform A S s).1 = .ok → ∃ next,
    (call.perform A S s).2.2.Committed A S next ∧
      match call with
      | .upsert deviceId commandName code =>
          (call.perform A S s).2.1 = none ∧ Upserted s.cfg deviceId commandName code next
      | .add deviceName service commandName code =>
          ∃ id, (call.perform A S s).2.1 = some id ∧
            Added s.cfg deviceName service commandName code id next

theorem performed (hS : S.Lawful) (s : Holder σ) (call : MutateCall) :
    Performed A S s call := by
  cases call with
  | upsert deviceId commandName code =>
      rcases upsertCommand_cases (A := A) hS deviceId commandName code s with
        ⟨next, hok, hupserted, hcommitted⟩ | ⟨herror, hsame⟩
      · exact ⟨fun hne => absurd hok hne, fun _ => ⟨next, hcommitted, rfl, hupserted⟩⟩
      · exact ⟨fun _ => ⟨rfl, hsame⟩, fun hok => absurd hok herror⟩
  | add deviceName service commandName code =>
      rcases addDevice_cases (A := A) hS deviceName service commandName code s with
        ⟨next, hok, hadded, hcommitted⟩ | ⟨herror, hsame⟩
      · exact ⟨fun hne => absurd hok hne,
          fun _ => ⟨next, hcommitted, _, if_pos hok, hadded⟩⟩
      · exact ⟨fun _ => ⟨if_neg herror, hsame⟩, fun hok => absurd hok herror⟩

theorem Performed.valid {s : Holder σ} {call : MutateCall} (h : Performed A S s call)
    (hvalid : validate s.cfg = .ok) : validate (call.perform A S s).2.2.cfg = .ok := by
  by_cases hok : (call.perform A S s).1 = .ok
  · obtain ⟨next, hcommitted, -⟩ := h.succeeded hok
    rw [hcommitted.cfg]
    exact hcommitted.valid
  · rw [(h.failed hok).2.1]
    exact hvalid

/-- The counter never falls. -/
theorem Performed.counter {s : Holder σ} {call : MutateCall} (h : Performed A S s call) :
    s.cfg.nextDeviceId ≤ (call.perform A S s).2.2.cfg.nextDeviceId := by
  by_cases hok : (call.perform A S s).1 = .ok
  · obtain ⟨next, hcommitted, heffect⟩ := h.succeeded hok
    rw [hcommitted.cfg]
    cases call with
    | upsert deviceId commandName code =>
        obtain ⟨-, before, dev, after, commands, -, -, -, rfl, -⟩ := heffect
        exact UInt16.le_refl _
    | add deviceName service commandName code =>
        obtain ⟨id, -, -, hnext, -⟩ := heffect
        rw [UInt16.le_iff_toNat_le, hnext]
        exact Nat.le_succ _
  · rw [(h.failed hok).2.1]
    exact UInt16.le_refl _

theorem run_valid (hS : S.Lawful) {start : Holder σ} (hvalid : validate start.cfg = .ok)
    (calls : List MutateCall) : validate ((mutating A S start).run calls).cfg = .ok := by
  apply (mutating A S start).run_induction (P := fun _ s => validate s.cfg = .ok) hvalid
  intro pre call ih
  exact (performed hS _ call).valid ih

theorem run_counter (hS : S.Lawful) (start : Holder σ) (pre post : List MutateCall) :
    ((mutating A S start).run pre).cfg.nextDeviceId ≤
      ((mutating A S start).run (pre ++ post)).cfg.nextDeviceId := by
  apply (mutating A S start).run_prefix_rel
    (R := fun s s' => s.cfg.nextDeviceId ≤ s'.cfg.nextDeviceId) (fun s => UInt16.le_refl _)
    (fun a b c => UInt16.le_trans)
  intro mid call rest _
  exact (performed hS _ call).counter

/-- After any calls on a valid configuration it is valid; each further call fails and
changes nothing, or commits exactly its change; and an id it returns is above the id of
every device ever present before. -/
theorem mutators_atomic (A : ArduinoJson) (S : BlobStore σ) (hS : S.Lawful)
    (start : Holder σ) (hvalid : validate start.cfg = .ok) (calls : List MutateCall) :
    let s := (mutating A S start).run calls
    validate s.cfg = .ok ∧ ∀ call : MutateCall, Performed A S s call ∧
      ∀ id, (call.perform A S s).2.1 = some id → ∀ pre post, calls = pre ++ post →
        ∀ d ∈ ((mutating A S start).run pre).cfg.devices, d.id < id := by
  intro s
  refine ⟨run_valid hS hvalid calls, ?_⟩
  intro call
  have hperformed : Performed A S s call := performed hS s call
  refine ⟨hperformed, ?_⟩
  rintro id hid pre post rfl d hd
  have hbelow : d.id < ((mutating A S start).run pre).cfg.nextDeviceId :=
    validate_ids_lt (run_valid hS hvalid pre) d hd
  have hgrown := run_counter (A := A) hS start pre post
  have hreturned : id = s.cfg.nextDeviceId := by
    by_cases hok : (call.perform A S s).1 = .ok
    · obtain ⟨next, -, heffect⟩ := hperformed.succeeded hok
      cases call with
      | upsert deviceId commandName code =>
          rw [heffect.1] at hid
          cases hid
      | add deviceName service commandName code =>
          obtain ⟨id', hid', hadded⟩ := heffect
          obtain rfl : id' = id := Option.some.inj (hid'.symm.trans hid)
          exact hadded.1
    · rw [(hperformed.failed hok).1] at hid
      cases hid
  rw [hreturned]
  exact UInt16.lt_of_lt_of_le hbelow hgrown

end Mutators

/-- One lamp, then the counter at its last value. -/
def lastIdHolder : Holder (Option Bytes) :=
  { cfg := { remoteConfig with nextDeviceId := 65535 }, store := none }

/-- One lamp, not stored yet. -/
def lampHolder : Holder (Option Bytes) :=
  { cfg := remoteConfig, store := none }

def setOff : MutateCall :=
  .upsert 2 (ascii "off") {}

def addFan : MutateCall :=
  .add (ascii "Fan") (ascii "Fan") (ascii "on") {}

/-- At the last id a device is refused; before, a command is set and a device added. -/
theorem mutators_atomic_last_id :
    let S := memoryBlobStore 20480
    let s := (mutating strictJson S lampHolder).run [setOff]
    (validate lastIdHolder.cfg = .ok ∧
      (addFan.perform strictJson S lastIdHolder).1 = .failedValidation ∧
      (addFan.perform strictJson S lastIdHolder).2.2.cfg = lastIdHolder.cfg) ∧
    Upserted remoteConfig 2 (ascii "off") {} s.cfg ∧
      Added s.cfg (ascii "Fan") (ascii "Fan") (ascii "on") {} 3
        (addFan.perform strictJson S s).2.2.cfg ∧
      ∀ d ∈ s.cfg.devices, d.id < 3 := by
  have hlast : validate lastIdHolder.cfg = .ok := by decide
  have hlamp : validate lampHolder.cfg = .ok := by decide +kernel
  have hS := memoryBlobStore_lawful 20480
  have hrefused : (addFan.perform strictJson (memoryBlobStore 20480) lastIdHolder).1 =
      .failedValidation := by decide
  have hset : (setOff.perform strictJson (memoryBlobStore 20480) lampHolder).1 = .ok := by
    decide +kernel
  have hadd : (addFan.perform strictJson (memoryBlobStore 20480)
      ((mutating strictJson (memoryBlobStore 20480) lampHolder).run [setOff])).1 = .ok := by
    decide +kernel
  have hcounter : ((mutating strictJson (memoryBlobStore 20480) lampHolder).run
      [setOff]).cfg.nextDeviceId = 3 := by
    decide +kernel
  have hfan : Performed strictJson (memoryBlobStore 20480) lastIdHolder addFan :=
    ((mutators_atomic strictJson _ hS lastIdHolder hlast []).2 addFan).1
  obtain ⟨-, hsame⟩ := hfan.failed (by rw [hrefused]; decide)
  have hoff : Performed strictJson (memoryBlobStore 20480) lampHolder setOff :=
    ((mutators_atomic strictJson _ hS lampHolder hlamp []).2 setOff).1
  obtain ⟨next, hcommitted, -, hupserted⟩ := hoff.succeeded hset
  rw [← hcommitted.cfg] at hupserted
  have hafter := (mutators_atomic strictJson _ hS lampHolder hlamp [setOff]).2 addFan
  obtain ⟨next', hcommitted', id, hid', hadded⟩ := hafter.1.succeeded hadd
  have hbelow := hafter.2 id hid' [setOff] [] rfl
  rw [← hcommitted'.cfg] at hadded
  have hthree : id = 3 := by rw [← hcounter]; exact hadded.1
  rw [hthree] at hadded hbelow
  rw [← mutating_once] at hupserted
  exact ⟨⟨hlast, hrefused, hsame.1⟩, hupserted, hadded, hbelow⟩

section Room

variable {σ : Type} {A : ArduinoJson} {S : BlobStore σ}

theorem badName_eq_false_iff {name : Bytes} :
    badName name = false ↔ 1 ≤ name.length ∧ name.length ≤ maxNameLen := by
  rw [badName, Bool.or_eq_false_iff, decide_eq_false_iff_not, Nat.not_lt, ← Bool.not_eq_true,
    List.isEmpty_iff, ← List.length_eq_zero_iff, ← Ne, ← Nat.one_le_iff_ne_zero]

/-- A commit is refused by the store at most, once its copy is valid. -/
theorem commit_error_iff (next : Config) (s : Holder σ) :
    ((commit A S next s).1 = .ok ∨ (commit A S next s).1 = .storeRejected) ↔
      validate next = .ok := by
  unfold commit
  by_cases hvalid : validate next = .ok
  · rw [if_neg (not_not_intro hvalid)]
    cases hsaved : (save A S s.store next).1 <;> simp [hsaved, hvalid]
  · rw [if_pos hvalid]
    simp [hvalid]

/-- Past the checks of its arguments, `addDevice` answers what `commit` answers. -/
theorem addDevice_error {s : Holder σ} {deviceName service commandName : Bytes}
    (hdevice : badName deviceName = false) (hcommand : badName commandName = false)
    (hservice : serviceTypeFromString service ≠ .unknown)
    (hroom : s.cfg.devices.length < maxDevices) (code : StoredCode) :
    (addDevice A S deviceName service commandName code s).1.error =
      (commit A S (withDevice s.cfg (newDevice s.cfg deviceName service commandName code))
        s).1 := by
  unfold addDevice
  rw [hdevice, hcommand, if_neg (by decide), if_neg hservice, if_neg (Nat.not_le.mpr hroom)]
  simp only
  split_ifs with hok
  · rfl
  · rfl

/-- Every known service has a name of a service. -/
theorem service_name {service : Bytes} (h : serviceTypeFromString service ≠ .unknown) :
    service ≠ [] ∧ service.length ≤ maxNameLen := by
  unfold serviceTypeFromString at h
  split_ifs at h with h1 h2 h3 h4 h5 h6
  · subst h1; decide
  · subst h2; decide
  · subst h3; decide
  · subst h4; decide
  · subst h5; decide
  · subst h6; decide
  · exact absurd rfl h

/-- The id past the counter is new, so the new device is fit exactly when that id is not one
of the two reserved ones. -/
theorem validate_withDevice {cfg : Config} (hvalid : validate cfg = .ok)
    (hroom : cfg.devices.length < maxDevices) (hnext : cfg.nextDeviceId ≤ 65534)
    {deviceName service commandName : Bytes} {code : StoredCode}
    (hdevice : deviceName.length ≤ maxNameLen) (hcommand : commandName.length ≤ maxNameLen)
    (hservice : serviceTypeFromString service ≠ .unknown) (hcode : validateCode code = .ok) :
    validate (withDevice cfg (newDevice cfg deviceName service commandName code)) = .ok ↔
      2 ≤ cfg.nextDeviceId := by
  obtain ⟨-, hsettings, hdevices⟩ := (validate_eq_ok_iff cfg).mp hvalid
  have hold := (validateDevices_eq_ok_iff _ _ _).mp hdevices
  have hgrown : cfg.nextDeviceId < cfg.nextDeviceId + 1 := by
    rw [UInt16.lt_iff_toNat_lt, UInt16.toNat_add]
    have hbound : cfg.nextDeviceId.toNat ≤ 65534 := UInt16.le_iff_toNat_le.mp hnext
    have hone : (1 : UInt16).toNat = 1 := rfl
    omega
  have hslot : validateSlot { name := commandName, code := code } = .ok :=
    (validateSlot_eq_ok_iff _).mpr ⟨hcommand,
      (by decide : (1 : UInt8) ≤ 1 ∧ (1 : UInt8) ≤ maxRepeatCount),
      (by decide : (0 : UInt16) ≤ maxRepeatDelayMs), hcode⟩
  rw [validate_eq_ok_iff, validateDevices_eq_ok_iff]
  constructor
  · rintro ⟨-, -, -, hall⟩
    exact (hall (newDevice cfg deviceName service commandName code) (by simp [withDevice])).2.1.1
  · intro hreserved
    refine ⟨?_, hsettings, ?_, ?_⟩
    · simp only [withDevice, List.length_append, List.length_singleton]
      exact hroom
    · simp only [withDevice, List.map_append, List.map_cons, List.map_nil]
      rw [← List.concat_eq_append, List.nodup_concat]
      refine ⟨?_, hold.1⟩
      intro hmem
      obtain ⟨d, hd, heq⟩ := List.mem_map.mp hmem
      have hbelow := (hold.2 d hd).2.1.2
      rw [heq] at hbelow
      exact UInt16.lt_irrefl _ hbelow
    · intro d hd
      rcases List.mem_append.mp hd with hmem | hmem
      · obtain ⟨hnew, ⟨hlow, hbelow⟩, hrest⟩ := hold.2 d hmem
        exact ⟨hnew, ⟨hlow, UInt16.lt_trans hbelow hgrown⟩, hrest⟩
      · obtain rfl := List.mem_singleton.mp hmem
        refine ⟨List.not_mem_nil, ⟨hreserved, hgrown⟩, service_name hservice, hdevice, ?_⟩
        intro slot hmem
        obtain rfl := List.mem_singleton.mp hmem
        exact hslot

end Room

/-- A valid configuration with room takes a device exactly when its counter is past the
reserved ids, which `validate` does not ask of a configuration without devices. -/
theorem addDevice_takes_iff {σ : Type} (A : ArduinoJson) (S : BlobStore σ) (s : Holder σ)
    (hvalid : validate s.cfg = .ok) (hroom : s.cfg.devices.length < maxDevices)
    (hnext : s.cfg.nextDeviceId ≤ 65534) (deviceName service commandName : Bytes)
    (hdevice : 1 ≤ deviceName.length ∧ deviceName.length ≤ maxNameLen)
    (hcommand : 1 ≤ commandName.length ∧ commandName.length ≤ maxNameLen)
    (hservice : serviceTypeFromString service ≠ .unknown) (code : StoredCode)
    (hcode : validateCode code = .ok) :
    ((addDevice A S deviceName service commandName code s).1.error = .ok ∨
        (addDevice A S deviceName service commandName code s).1.error = .storeRejected) ↔
      2 ≤ s.cfg.nextDeviceId := by
  have hdevice' : badName deviceName = false := badName_eq_false_iff.mpr hdevice
  have hcommand' : badName commandName = false := badName_eq_false_iff.mpr hcommand
  rw [addDevice_error hdevice' hcommand' hservice hroom,
    ← validate_withDevice hvalid hroom hnext hdevice.2 hcommand.2 hservice hcode]
  exact commit_error_iff _ s

/-- The empty configuration of a new device takes its first one. -/
theorem addDevice_takes_iff_first :
    (addDevice strictJson (memoryBlobStore 20480) (ascii "Fan") (ascii "Fan") (ascii "on") {}
        { cfg := {}, store := none }).1.error = .ok ∨
      (addDevice strictJson (memoryBlobStore 20480) (ascii "Fan") (ascii "Fan") (ascii "on") {}
        { cfg := {}, store := none }).1.error = .storeRejected :=
  (addDevice_takes_iff strictJson (memoryBlobStore 20480) { cfg := {}, store := none }
    (by decide) (by decide) (by decide) (ascii "Fan") (ascii "Fan") (ascii "on") (by decide)
    (by decide) (by decide) {} (by decide)).mpr (by decide)

/-- No devices, and the counter at the bridge's id. -/
def bridgeIdHolder : Holder (Option Bytes) :=
  { cfg := { nextDeviceId := 1 }, store := none }

theorem addDevice_bridge_id :
    validate bridgeIdHolder.cfg = .ok ∧
      (addDevice strictJson (memoryBlobStore 20480) (ascii "Fan") (ascii "Fan") (ascii "on") {}
        bridgeIdHolder).1.error = .failedValidation := by
  decide

/-- Nothing can be added to such a configuration by any further calls. -/
theorem mutators_stuck {σ : Type} (A : ArduinoJson) {S : BlobStore σ} (hS : S.Lawful)
    {start : Holder σ} (hnone : start.cfg.devices = []) (hlow : start.cfg.nextDeviceId < 2)
    (calls : List MutateCall) : ((mutating A S start).run calls).cfg = start.cfg := by
  apply (mutating A S start).run_induction (P := fun _ s => s.cfg = start.cfg) rfl
  intro pre call ih
  have hperformed := performed (A := A) hS ((mutating A S start).run pre) call
  by_cases hok : (call.perform A S ((mutating A S start).run pre)).1 = .ok
  · exfalso
    obtain ⟨next, hcommitted, heffect⟩ := hperformed.succeeded hok
    cases call with
    | upsert deviceId commandName code =>
        obtain ⟨-, before, dev, after, commands, hdevices, -⟩ := heffect
        rw [ih, hnone] at hdevices
        simp at hdevices
    | add deviceName service commandName code =>
        obtain ⟨id, -, -, -, hnext⟩ := heffect
        have hdevices := validate_devices hcommitted.valid
        rw [validateDevices_eq_ok_iff] at hdevices
        have hid := (hdevices.2 (newDevice start.cfg deviceName service commandName code)
          (by rw [hnext, ih]; simp)).2.1.1
        exact absurd hlow (UInt16.not_lt.mpr hid)
  · exact (hperformed.failed hok).2.1.trans ih

end RfIrBlaster
