/-
Device ids over whole histories of configuration writes.  `validate` relates the counter
to the ids of one document only; the edits of `data.js` never lower it, an imported
document may.
-/
import RfIrBlaster.ConfigApi

namespace RfIrBlaster

/-- The writes of `data.js` that merge into the cached configuration. -/
inductive UiEdit where
  | saveSettings (settings : Settings)
  | saveDevice (id : UInt16) (name : Option Bytes) (commands : Option (List CommandSlot))
  | addDevice (service name : Bytes) (commands : List CommandSlot)
  | deleteDevice (id : UInt16)
deriving DecidableEq, Repr

/-- The document an edit posts, as the device reads it back: a script number has no
width, so the counter past 65535 is no `uint16_t` and reads as the default. -/
def UiEdit.apply (cfg : Config) : UiEdit → Config
  | .saveSettings settings => { cfg with settings := settings }
  | .saveDevice id name commands =>
      { cfg with
        devices := cfg.devices.map fun d =>
          if d.id = id then
            { d with name := name.getD d.name, commands := commands.getD d.commands }
          else d }
  | .addDevice service name commands =>
      { cfg with
        nextDeviceId := orUInt16 (.int (cfg.nextDeviceId.toNat + 1)) 2
        devices := cfg.devices ++
          [{ id := cfg.nextDeviceId, service := service, name := name, commands := commands }] }
  | .deleteDevice id => { cfg with devices := cfg.devices.filter fun d => d.id ≠ id }

/-- A valid edited document keeps the counter or raises it. -/
theorem UiEdit.counter {cfg : Config} {edit : UiEdit} (h : validate (edit.apply cfg) = .ok) :
    cfg.nextDeviceId ≤ (edit.apply cfg).nextDeviceId := by
  cases edit with
  | addDevice service name commands =>
      -- The new device carries the old counter, which validation puts below the new one.
      have hbelow := validate_ids_lt h
        { id := cfg.nextDeviceId, service := service, name := name, commands := commands }
        (List.mem_append_right _ (List.mem_singleton.mpr rfl))
      exact UInt16.le_of_lt hbelow
  | _ => exact UInt16.le_refl _

section Histories

variable {σ : Type}

/-- A POST that passes every check and is stored is an edit of the running configuration,
or a document whose counter is not below the running one. -/
def KeepsCounter (A : ArduinoJson) (S : BlobStore σ) (s : ApiState σ) (req : HttpRequest) :
    Prop :=
  ∀ incoming, req.session = true → req.csrf = true → readBody req = some req.body →
    queryRev req.rev = s.rev → fromJson A req.body = some incoming → validate incoming = .ok →
    (save A S s.store incoming).1 = true →
      (∃ edit : UiEdit, incoming = edit.apply s.config) ∨
        s.config.nextDeviceId ≤ incoming.nextDeviceId

variable {A : ArduinoJson} {S : BlobStore σ} {start : ApiState σ}

theorem handlePostConfig_valid {s : ApiState σ} (h : validate s.config = .ok)
    (req : HttpRequest) : validate (handlePostConfig A S req s).2.config = .ok := by
  rcases handlePostConfig_cases A S req s with
    ⟨incoming, -, -, -, -, -, hvalid, -, heq⟩ | ⟨-, hsame | ⟨incoming, -, heq⟩⟩
  · rw [heq]
    exact hvalid
  · rw [hsame]
    exact h
  · rw [heq]
    exact h

/-- The counter survives a POST exactly when the POST keeps it. -/
theorem handlePostConfig_counter (s : ApiState σ) (req : HttpRequest) :
    KeepsCounter A S s req ↔
      s.config.nextDeviceId ≤ (handlePostConfig A S req s).2.config.nextDeviceId := by
  constructor
  · intro hkeeps
    rcases handlePostConfig_cases A S req s with
      ⟨incoming, hsession, hcsrf, hbody, hrev, hparse, hvalid, hsaved, heq⟩ |
        ⟨-, hsame | ⟨incoming, -, heq⟩⟩
    · rw [heq]
      rcases hkeeps incoming hsession hcsrf hbody hrev hparse hvalid hsaved with
        ⟨edit, rfl⟩ | hcounter
      · exact UiEdit.counter hvalid
      · exact hcounter
    · rw [hsame]
      exact UInt16.le_refl _
    · rw [heq]
      exact UInt16.le_refl _
  · intro hcounter incoming hsession hcsrf hbody hrev hparse hvalid hsaved
    have haccepted : (handlePostConfig A S req s).2.config = incoming := by
      unfold handlePostConfig
      simp [hsession, hbody, hcsrf, hrev, hparse, hvalid, hsaved]
    rw [haccepted] at hcounter
    exact Or.inr hcounter

theorem posting_valid (hvalid : validate start.config = .ok) (posts : List HttpRequest) :
    validate ((posting A S start).run posts).config = .ok := by
  apply (posting A S start).run_induction (P := fun _ s => validate s.config = .ok) hvalid
  intro pre req ih
  exact handlePostConfig_valid ih req

/-- The counter never falls exactly in the histories whose writes all keep it; there the
id a new device gets is above the id of every device there ever was, deleted or not. -/
theorem device_ids_never_reused (A : ArduinoJson) (S : BlobStore σ) (start : ApiState σ)
    (hvalid : validate start.config = .ok) (posts : List HttpRequest) :
    let M := posting A S start
    (M.Guarded (KeepsCounter A S) posts ↔ ∀ pre req post, posts = pre ++ req :: post →
        (M.run pre).config.nextDeviceId ≤ (M.run (pre ++ [req])).config.nextDeviceId) ∧
      (M.Guarded (KeepsCounter A S) posts → ∀ pre post, posts = pre ++ post →
        (M.run pre).config.nextDeviceId ≤ (M.run posts).config.nextDeviceId ∧
          ∀ d ∈ (M.run pre).config.devices, d.id < (M.run posts).config.nextDeviceId) := by
  intro M
  have hstep : ∀ pre req, KeepsCounter A S (M.run pre) req ↔
      (M.run pre).config.nextDeviceId ≤ (M.run (pre ++ [req])).config.nextDeviceId := by
    intro pre req
    rw [StateMachine.run_concat]
    exact handlePostConfig_counter (M.run pre) req
  refine ⟨?_, ?_⟩
  · constructor
    · intro hkeeps pre req post heq
      exact (hstep pre req).mp (hkeeps pre req post heq)
    · intro hcounter pre req post heq
      exact (hstep pre req).mpr (hcounter pre req post heq)
  · rintro hkeeps pre post rfl
    have hgrown : (M.run pre).config.nextDeviceId ≤ (M.run (pre ++ post)).config.nextDeviceId := by
      apply M.run_prefix_rel (R := fun s s' => s.config.nextDeviceId ≤ s'.config.nextDeviceId)
        (fun s => UInt16.le_refl _) (fun a b c => UInt16.le_trans)
      intro mid req rest heq
      apply (handlePostConfig_counter (M.run (pre ++ mid)) req).mp
      apply hkeeps (pre ++ mid) req rest
      rw [heq, List.append_assoc]
    refine ⟨hgrown, ?_⟩
    intro d hd
    exact UInt16.lt_of_lt_of_le (validate_ids_lt (posting_valid hvalid pre) d hd) hgrown

end Histories

/-- The lamp deleted again, as the web page posts it. -/
def deletePost : HttpRequest :=
  { rev := some (ascii "2")
    body := (toJson strictJson ((UiEdit.deleteDevice 2).apply remoteConfig)).getD [] }

theorem lampPosts_guarded :
    (posting strictJson (memoryBlobStore 20480) emptyDevice).Guarded
      (KeepsCounter strictJson (memoryBlobStore 20480)) [lampPost, deletePost] := by
  let M := posting strictJson (memoryBlobStore 20480) emptyDevice
  have hlamp : fromJson strictJson lampPost.body =
      some { remoteConfig with schemaVersion := 2 } := by decide +kernel
  have hdelete : fromJson strictJson deletePost.body =
      some ((UiEdit.deleteDevice 2).apply { remoteConfig with schemaVersion := 2 }) := by
    decide +kernel
  have hrun : (M.run [lampPost]).config =
      { remoteConfig with schemaVersion := 2 } := by decide +kernel
  have hstart := StateMachine.Guarded.nil M (KeepsCounter strictJson (memoryBlobStore 20480))
  have hfirst : M.Guarded (KeepsCounter strictJson (memoryBlobStore 20480))
      ([] ++ [lampPost]) := by
    apply hstart.concat
    intro incoming _ _ _ _ hparse _ _
    obtain rfl := Option.some.inj (hlamp.symm.trans hparse)
    exact Or.inr (by decide)
  apply hfirst.concat
  intro incoming _ _ _ _ hparse _ _
  obtain rfl := Option.some.inj (hdelete.symm.trans hparse)
  exact Or.inl ⟨.deleteDevice 2, congrArg (UiEdit.apply · (.deleteDevice 2)) hrun.symm⟩

theorem device_ids_never_reused_lamp :
    ((posting strictJson (memoryBlobStore 20480) emptyDevice).run
        [lampPost, deletePost]).config.devices = [] ∧
      ∀ d ∈ ((posting strictJson (memoryBlobStore 20480) emptyDevice).run
          [lampPost]).config.devices,
        d.id < ((posting strictJson (memoryBlobStore 20480) emptyDevice).run
          [lampPost, deletePost]).config.nextDeviceId :=
  ⟨by decide +kernel,
    ((device_ids_never_reused strictJson (memoryBlobStore 20480) emptyDevice (by decide)
      [lampPost, deletePost]).2 lampPosts_guarded [lampPost] [deletePost] rfl).2⟩

/-- An import of the document exported before the lamp was added. -/
def importPost : HttpRequest :=
  { rev := some (ascii "2"), body := (toJson strictJson {}).getD [] }

/-- The import is accepted and hands the lamp's id out again. -/
theorem import_lowers_counter :
    let M := posting strictJson (memoryBlobStore 20480) emptyDevice
    (handlePostConfig strictJson (memoryBlobStore 20480) importPost
        (M.run [lampPost])).1.accepted = true ∧
      (M.run [lampPost]).config.nextDeviceId = 3 ∧
      (M.run [lampPost]).config.devices.map VirtualDevice.id = [2] ∧
      (M.run [lampPost, importPost]).config.nextDeviceId = 2 := by
  decide +kernel

end RfIrBlaster
