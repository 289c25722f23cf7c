/-
Which edits of the pages the device accepts, one after the other.
-/
import RfIrBlaster.PageDocuments
import RfIrBlaster.PageEdits

namespace RfIrBlaster.Browser

section Commands

variable {A : ArduinoJson}

theorem mem_assign {key : Bytes} {value : Json} {out : List (Bytes × Json)} {m : Bytes × Json}
    (h : m ∈ assign key value out) : m = (key, value) ∨ m ∈ out := by
  unfold assign at h
  split_ifs at h
  · exact Or.inr h
  · exact Json.mem_setMember h

theorem assign_keys_nodup {key : Bytes} {value : Json} {out : List (Bytes × Json)}
    (h : (out.map Prod.fst).Nodup) : ((assign key value out).map Prod.fst).Nodup := by
  unfold assign
  split_ifs
  · exact h
  · exact Json.setMember_keys_nodup h

/-- Members assigned one after the other: no other, and each key once. -/
theorem assignAll_spec (ms : List (Bytes × Json)) :
    (∀ m ∈ assignAll ms, m ∈ ms) ∧ ((assignAll ms).map Prod.fst).Nodup := by
  induction ms using List.reverseRecOn with
  | nil => exact ⟨fun m hm => hm, List.nodup_nil⟩
  | append_singleton pre m ih =>
      have hlast : assignAll (pre ++ [m]) = assign m.1 m.2 (assignAll pre) := by
        simp [assignAll]
      rw [hlast]
      refine ⟨?_, assign_keys_nodup ih.2⟩
      intro m' hm'
      rcases mem_assign hm' with rfl | hpre
      · simp
      · exact List.mem_append_left _ (ih.1 m' hpre)

theorem codeDoc_plain (code : StoredCode) :
    (Json.obj (writeCodeFields code)).Plain ∧ (Json.obj (writeCodeFields code)).depth ≤ 2 := by
  obtain ⟨hplain, hdepth⟩ := slotDoc_plain { code := code }
  unfold slotDoc at hplain hdepth
  cases hplain with
  | obj hkeys hmembers =>
      rw [List.map_append, List.nodup_append] at hkeys
      rw [List.forall_mem_append] at hmembers
      refine ⟨.obj hkeys.1 hmembers.1, ?_⟩
      rw [Json.depth] at hdepth ⊢
      have hwhole := (Json.depthMembers_le_iff (writeCodeFields code ++ _) 1).mp
        (Nat.le_of_add_le_add_left hdepth)
      have hcode := (Json.depthMembers_le_iff (writeCodeFields code) 1).mpr fun m hm =>
        hwhole m (List.mem_append_left _ hm)
      omega

/-- A valid code is still valid when it is read back, without the fields its kind does not
have. -/
theorem validateCode_read_back (hint : ∀ n : UInt16, A.asUInt16 (.int n.toNat) = n)
    {code : StoredCode} (hvalid : validateCode code = .ok) (name : Bytes) :
    validateCode (slotOf A (name, .obj (writeCodeFields code))).code = .ok := by
  rw [validateCode_eq_ok_iff] at hvalid ⊢
  obtain ⟨kind, pulses, freqMHz, carrierHz, rolling, frameRepeat⟩ := code
  have hread : ∀ code : StoredCode, (slotOf A (name, .obj (writeCodeFields code))).code =
      { codeFields (.obj (writeCodeFields code)) with
        pulses := ((Json.obj (writeCodeFields code)).get (ascii "pulses")).elements.map
          A.asUInt16 } := fun _ => rfl
  have hpulses := pulses_read_back hint pulses
  cases kind with
  | none => exact Or.inl rfl
  | rf =>
      have hfields : codeFields (.obj (writeCodeFields
          ⟨.rf, pulses, freqMHz, carrierHz, rolling, frameRepeat⟩)) =
          { kind := .rf, freqMHz := orUInt16 (.int freqMHz.toNat) 0, rolling := rolling
            frameRepeat := orUInt8 (.int frameRepeat.toNat) 1 } := if_pos rfl
      have hlist : ((Json.obj (writeCodeFields
          ⟨.rf, pulses, freqMHz, carrierHz, rolling, frameRepeat⟩)).get
          (ascii "pulses")).elements = pulses.map fun v => Json.int v.toNat := rfl
      rw [hread, hfields, hlist, orUInt16_int, orUInt8_int, hpulses]
      obtain ⟨hne, heven, hfew, hband, -, hrepeat⟩ := hvalid.resolve_left (fun h => by cases h)
      exact Or.inr ⟨hne, heven, hfew, hband, fun h => (by cases h), hrepeat⟩
  | ir =>
      have hother : kindText (.obj (writeCodeFields
          ⟨.ir, pulses, freqMHz, carrierHz, rolling, frameRepeat⟩)) ≠ ascii "rf" := by
        change ascii "ir" ≠ ascii "rf"
        decide
      have hfields : codeFields (.obj (writeCodeFields
          ⟨.ir, pulses, freqMHz, carrierHz, rolling, frameRepeat⟩)) =
          { kind := .ir, carrierHz := orUInt16 (.int carrierHz.toNat) 0 } :=
        (if_neg hother).trans (if_pos rfl)
      have hlist : ((Json.obj (writeCodeFields
          ⟨.ir, pulses, freqMHz, carrierHz, rolling, frameRepeat⟩)).get
          (ascii "pulses")).elements = pulses.map fun v => Json.int v.toNat := rfl
      rw [hread, hfields, hlist, orUInt16_int, hpulses]
      obtain ⟨hne, heven, hfew, -, hcarrier, -⟩ := hvalid.resolve_left (fun h => by cases h)
      have honce : (1 : UInt8) ≤ 1 ∧ (1 : UInt8) ≤ maxFrameRepeat := by decide
      exact Or.inr ⟨hne, heven, hfew, fun h => (by cases h), hcarrier, honce⟩

/-- A captured code under a text is a command the device accepts. -/
theorem soundCommand_code (hint : ∀ n : UInt16, A.asUInt16 (.int n.toNat) = n) {name : Bytes}
    (hname : name.length ≤ maxNameLen ∧ 0 ∉ name ∧ IsUtf8 name) {code : StoredCode}
    (hcode : Captured code) : SoundCommand A (name, .obj (writeCodeFields code)) := by
  obtain ⟨events, hodd, hcaptured, rfl⟩ := hcode
  obtain ⟨-, src, -, -, -, -, t, c, -, -, ev, -, hstorable⟩ :=
    Learn.takeCode_storable hodd hcaptured
  obtain ⟨hplain, hdepth⟩ := codeDoc_plain (LearnMachine.run events).takeCode.1
  have hread := validateCode_read_back hint hstorable.valid name
  have hrepeat : (slotOf A (name, .obj
      (writeCodeFields (LearnMachine.run events).takeCode.1))).repeatCount = 1 ∧
      (slotOf A (name, .obj
        (writeCodeFields (LearnMachine.run events).takeCode.1))).repeatDelayMs = 0 := by
    generalize (LearnMachine.run events).takeCode.1 = code
    obtain ⟨kind, pulses, freqMHz, carrierHz, rolling, frameRepeat⟩ := code
    cases kind <;> exact ⟨rfl, rfl⟩
  refine ⟨hplain, hdepth, hname.2, ?_⟩
  rw [validateSlot_eq_ok_iff, hrepeat.1, hrepeat.2]
  refine ⟨?_, (by decide), (by decide), hread⟩
  exact (congrArg List.length (cStr_eq_self hname.2.1)).trans_le hname.1

/-- The repeat count and delay written over a command's own. -/
theorem withRepeat_slotDoc (repeatCount : UInt8) (delay : UInt16) (slot : CommandSlot) :
    withRepeat repeatCount.toNat delay.toNat (slotDoc slot) =
      slotDoc { slot with repeatCount := repeatCount, repeatDelayMs := delay } := by
  obtain ⟨name, code, count, delayMs⟩ := slot
  obtain ⟨kind, pulses, freqMHz, carrierHz, rolling, frameRepeat⟩ := code
  cases kind <;> rfl

end Commands

section Documents

def PageDevice.patch (patch : Data.Patch) (d : PageDevice) : PageDevice :=
  { d with name := patch.name.getD d.name, commands := patch.commands.getD d.commands }

/-- The devices with an id patched. -/
def PageDoc.patch (id : Nat) (patch : Data.Patch) (p : PageDoc) : PageDoc :=
  { p with devices := p.devices.map fun d => if d.id.toNat = id then d.patch patch else d }

theorem hasId_json (id : Nat) (d : PageDevice) :
    Data.hasId id d.json = decide (d.id.toNat = id) := by
  have hid : (prop d.json "id").bind numberValue = some ((d.id.toNat : ℚ)) :=
    numberValue_natCast d.id.toNat
  unfold Data.hasId
  rw [hid]
  exact decide_eq_decide.mpr (by rw [Option.some_inj, Nat.cast_inj])

theorem patchDevice_json (patch : Data.Patch) (d : PageDevice) :
    Data.patchDevice patch d.json = (d.patch patch).json := by
  obtain ⟨name, commands⟩ := patch
  cases name <;> cases commands <;> rfl

theorem mapDevices_json {f : List Json → List Json} {g : List PageDevice → List PageDevice}
    {p : PageDoc} (h : f (p.devices.map PageDevice.json) = (g p.devices).map PageDevice.json) :
    Data.mapDevices f p.json = { p with devices := g p.devices }.json := by
  have hset : Data.mapDevices f p.json =
      .obj [(ascii "schemaVersion", .int schemaVersionNow.toNat),
        (ascii "settings", settingsDoc p.settings),
        (ascii "nextDeviceId", .int p.nextDeviceId.toNat),
        (ascii "devices", .arr (f (p.devices.map PageDevice.json)))] := rfl
  rw [hset, h]
  rfl

theorem saveDevice_json (id : Nat) (patch : Data.Patch) (p : PageDoc) :
    Data.saveDevice id patch p.json = (p.patch id patch).json := by
  apply mapDevices_json
  rw [List.map_map, List.map_map]
  apply List.map_congr_left
  intro d _
  simp only [Function.comp_apply, hasId_json, decide_eq_true_eq]
  split_ifs
  · exact patchDevice_json patch d
  · rfl

theorem deleteDevice_json (id : Nat) (p : PageDoc) :
    Data.deleteDevice id p.json =
      { p with devices := p.devices.filter fun d => d.id.toNat ≠ id }.json := by
  apply mapDevices_json
  rw [List.filter_map]
  congr 1
  apply List.filter_congr
  intro d _
  simp [hasId_json]

/-- A device under the next id. -/
def PageDoc.add (service name : Bytes) (commands : List (Bytes × Json)) (p : PageDoc) : PageDoc :=
  { p with
    nextDeviceId := p.nextDeviceId + 1
    devices := p.devices ++
      [{ id := p.nextDeviceId, service := service, name := name, commands := commands }] }

theorem addDevice_json (service name : Bytes) (commands : List (Bytes × Json)) {p : PageDoc}
    (hnext : p.nextDeviceId < 65535) :
    Data.addDevice service name commands p.json = (p.add service name commands).json := by
  have hcounter : ((p.nextDeviceId + 1).toNat : Int) = (p.nextDeviceId.toNat : Int) + 1 := by
    have hlt := UInt16.lt_iff_toNat_lt.mp hnext
    rw [UInt16.toNat_add]
    simp at hlt ⊢
    omega
  have hset : setProp "nextDeviceId" (.int (p.nextDeviceId.toNat + 1)) p.json =
      PageDoc.json { p with nextDeviceId := p.nextDeviceId + 1 } := by
    unfold PageDoc.json
    rw [hcounter]
    rfl
  have hadd : Data.addDevice service name commands p.json =
      Data.mapDevices (fun ds => ds ++ [PageDevice.json
        { id := p.nextDeviceId, service := service, name := name, commands := commands }])
        (setProp "nextDeviceId" (.int (p.nextDeviceId.toNat + 1)) p.json) := rfl
  let new : PageDevice :=
    { id := p.nextDeviceId, service := service, name := name, commands := commands }
  rw [hadd, hset]
  exact @mapDevices_json (fun ds => ds ++ [new.json]) (fun ds => ds ++ [new])
    { p with nextDeviceId := p.nextDeviceId + 1 } (by simp)

theorem findDevice_json {p : PageDoc} {id : Nat} {j : Json}
    (h : Data.findDevice p.json id = some j) :
    ∃ d ∈ p.devices, d.id.toNat = id ∧ j = d.json := by
  have hfind : Data.findDevice p.json id = (p.devices.map PageDevice.json).find? (Data.hasId id) :=
    rfl
  rw [hfind] at h
  obtain ⟨d, hd, rfl⟩ := List.mem_map.mp (List.mem_of_find?_eq_some h)
  have hid := List.find?_some h
  rw [hasId_json, decide_eq_true_eq] at hid
  exact ⟨d, hd, hid, rfl⟩

end Documents

section Patches

variable {A : ArduinoJson} {p : PageDoc}

theorem PageDoc.Sound.patch (h : p.Sound A) (id : Nat) {patch : Data.Patch}
    (hname : ∀ name ∈ patch.name, IsUtf8 name)
    (hcommands : ∀ commands ∈ patch.commands, (commands.map Prod.fst).Nodup ∧
      ∀ m ∈ commands, SoundCommand A m) :
    (p.patch id patch).Sound A := by
  refine ⟨h.settings, ?_⟩
  intro v hv
  obtain ⟨d, hd, rfl⟩ := List.mem_map.mp hv
  have hsound := h.devices d hd
  split_ifs
  · obtain ⟨name, commands⟩ := patch
    have hnameText : IsUtf8 (name.getD d.name) := by
      cases name with
      | none => exact hsound.name
      | some name => exact hname name rfl
    cases commands with
    | none => exact ⟨hsound.service, hnameText, hsound.keys, hsound.commands⟩
    | some commands =>
        obtain ⟨hkeys, hmembers⟩ := hcommands commands rfl
        exact ⟨hsound.service, hnameText, hkeys, hmembers⟩
  · exact hsound

/-- A patch touches no id; of what is left to check, it can only change names. -/
theorem PageDoc.Fitting.patch_iff (h : p.Fitting) (id : Nat) (patch : Data.Patch) :
    (p.patch id patch).Fitting ↔ ∀ d ∈ p.devices, d.id.toNat = id → ∀ name ∈ patch.name,
      (cStr name).length ≤ maxNameLen := by
  have hids : (p.patch id patch).devices.map PageDevice.id = p.devices.map PageDevice.id := by
    unfold PageDoc.patch
    rw [List.map_map]
    apply List.map_congr_left
    intro d _
    simp only [Function.comp_apply]
    split_ifs <;> rfl
  constructor
  · rintro hfitting d hd hid name hname
    have hmem : d.patch patch ∈ (p.patch id patch).devices := by
      have hmapped :=
        List.mem_map_of_mem (f := fun d => if d.id.toNat = id then d.patch patch else d) hd
      rwa [if_pos hid] at hmapped
    have hlong := hfitting.names _ hmem
    unfold PageDevice.patch at hlong
    rw [hname] at hlong
    exact hlong
  · intro hnames
    refine ⟨(List.length_map _).trans_le h.count, by rw [hids]; exact h.ids, ?_, ?_⟩
    · intro v hv
      obtain ⟨d, hd, rfl⟩ := List.mem_map.mp hv
      split_ifs <;> exact h.bounds d hd
    · intro v hv
      obtain ⟨d, hd, rfl⟩ := List.mem_map.mp hv
      split_ifs with hid
      · unfold PageDevice.patch
        cases hname : patch.name with
        | none => exact h.names d hd
        | some name => exact hnames d hd hid name hname
      · exact h.names d hd

theorem PageDoc.Sound.filter (h : p.Sound A) (keep : PageDevice → Bool) :
    PageDoc.Sound A { p with devices := p.devices.filter keep } :=
  ⟨h.settings, fun d hd => h.devices d (List.mem_of_mem_filter hd)⟩

theorem PageDoc.Fitting.filter (h : p.Fitting) (keep : PageDevice → Bool) :
    PageDoc.Fitting { p with devices := p.devices.filter keep } where
  count := (List.length_filter_le _ _).trans h.count
  ids := h.ids.sublist (List.filter_sublist.map _)
  bounds d hd := h.bounds d (List.mem_of_mem_filter hd)
  names d hd := h.names d (List.mem_of_mem_filter hd)

theorem PageDoc.Sound.add (h : p.Sound A) {service name : Bytes}
    {commands : List (Bytes × Json)}
    (hservice : (service ≠ [] ∧ service.length ≤ maxNameLen) ∧ 0 ∉ service ∧ IsUtf8 service)
    (hname : IsUtf8 name) (hkeys : (commands.map Prod.fst).Nodup)
    (hcommands : ∀ m ∈ commands, SoundCommand A m) : (p.add service name commands).Sound A := by
  refine ⟨h.settings, ?_⟩
  intro d hd
  rcases List.mem_append.mp hd with hold | hnew
  · exact h.devices d hold
  · rw [List.mem_singleton.mp hnew]
    exact ⟨hservice, hname, hkeys, hcommands⟩

/-- The next id is new; it must not be one of the two reserved ones. -/
theorem PageDoc.Fitting.add_iff (h : p.Fitting) (hfew : p.devices.length < maxDevices)
    (hnext : p.nextDeviceId < 65535) (service name : Bytes) (commands : List (Bytes × Json)) :
    (p.add service name commands).Fitting ↔
      (cStr name).length ≤ maxNameLen ∧ 2 ≤ p.nextDeviceId := by
  have hlater : p.nextDeviceId < p.nextDeviceId + 1 := by
    have hlt := UInt16.lt_iff_toNat_lt.mp hnext
    rw [UInt16.lt_iff_toNat_lt, UInt16.toNat_add]
    simp at hlt ⊢
    omega
  constructor
  · intro hfitting
    have hmem : { id := p.nextDeviceId, service := service, name := name, commands := commands } ∈
        (p.add service name commands).devices := List.mem_append_right _ (List.mem_singleton_self _)
    exact ⟨hfitting.names _ hmem, (hfitting.bounds _ hmem).1⟩
  · rintro ⟨hname, htwo⟩
    have hfresh : p.nextDeviceId ∉ p.devices.map PageDevice.id := by
      intro hmem
      obtain ⟨d, hd, heq⟩ := List.mem_map.mp hmem
      exact UInt16.lt_irrefl _ (heq ▸ (h.bounds d hd).2)
    refine ⟨?_, ?_, ?_, ?_⟩
    · change (p.devices ++ [_]).length ≤ maxDevices
      rw [List.length_append]
      exact hfew
    · change ((p.devices ++ [_]).map PageDevice.id).Nodup
      rw [List.map_append, List.nodup_append]
      refine ⟨h.ids, List.nodup_singleton _, ?_⟩
      intro id hid new hnew heq
      rw [List.map_singleton, List.mem_singleton] at hnew
      rw [heq, hnew] at hid
      exact hfresh hid
    · intro d hd
      rcases List.mem_append.mp hd with hold | hnew
      · exact ⟨(h.bounds d hold).1, UInt16.lt_trans (h.bounds d hold).2 hlater⟩
      · rw [List.mem_singleton.mp hnew]
        exact ⟨htwo, hlater⟩
    · intro d hd
      rcases List.mem_append.mp hd with hold | hnew
      · exact h.names d hold
      · rw [List.mem_singleton.mp hnew]
        exact hname

end Patches

/-- The name fits the device: its bytes before the first NUL. -/
def NameFits (value : List Char) : Prop :=
  (cStr (encodeText (trim value))).length ≤ maxNameLen

/-- The edits the device accepts. -/
def Fits (cached : Json) : Edit → Prop
  | .saveDevice _ value => NameFits value
  | .learnDevice value _ _ _ => NameFits value ∧
      ∀ next : Nat, prop cached "nextDeviceId" = some (.int next) → 2 ≤ next
  | _ => True

section Edits

variable {A : ArduinoJson}

/-- A name every bound of the device allows. -/
def shortName (name : Bytes) : Bool :=
  decide (name.length ≤ maxNameLen) && !name.contains 0 && isAscii name

theorem shortName_spec {name : Bytes} (h : shortName name = true) :
    name.length ≤ maxNameLen ∧ 0 ∉ name ∧ IsUtf8 name := by
  simp only [shortName, Bool.and_eq_true, decide_eq_true_eq, Bool.not_eq_true',
    List.contains_eq_mem, decide_eq_false_iff_not] at h
  exact ⟨h.1.1, h.1.2, isUtf8_ascii h.2⟩

/-- The names and services the pages offer. -/
theorem offered_names (service : Bytes) : ∀ name ∈ commandsForService service,
    name.length ≤ maxNameLen ∧ 0 ∉ name ∧ IsUtf8 name := by
  have hall : (commandsForService service).all shortName = true := by
    unfold commandsForService
    split_ifs <;> decide
  exact fun name hname => shortName_spec (List.all_eq_true.mp hall name hname)

theorem offered_services : ∀ service ∈ learnServices,
    (service ≠ [] ∧ service.length ≤ maxNameLen) ∧ 0 ∉ service ∧ IsUtf8 service := by
  have hall : learnServices.all (fun service => !service.isEmpty && shortName service) = true := by
    decide
  intro service hservice
  have hboth := List.all_eq_true.mp hall service hservice
  rw [Bool.and_eq_true, Bool.not_eq_true', List.isEmpty_eq_false_iff] at hboth
  obtain ⟨hlength, hzero, htext⟩ := shortName_spec hboth.2
  exact ⟨⟨hboth.1, hlength⟩, hzero, htext⟩

theorem checkedName_eq_some {value : List Char} {name : Bytes}
    (h : checkedName value = some name) : name = encodeText (trim value) := by
  unfold checkedName at h
  split_ifs at h
  exact (Option.some.inj h).symm

/-- New commands of a device, each of which the device accepts. -/
theorem patch_commands {p : PageDoc} (hsound : p.Sound A) (hfitting : p.Fitting) (id : Nat)
    {commands : List (Bytes × Json)} (hkeys : (commands.map Prod.fst).Nodup)
    (hmembers : ∀ m ∈ commands, SoundCommand A m) :
    (p.patch id { commands := some commands }).Sound A ∧
      (p.patch id { commands := some commands }).Fitting := by
  constructor
  · apply hsound.patch id
    · intro name hname
      cases hname
    · intro commands' heq
      obtain rfl := Option.some.inj heq
      exact ⟨hkeys, hmembers⟩
  · rw [hfitting.patch_iff]
    intro d _ _ name hname
    cases hname

theorem saveDevice_built {p : PageDoc} (hsound : p.Sound A) (hfitting : p.Fitting) {id : Nat}
    {value : List Char} {doc : Json}
    (hbuild : (Edit.saveDevice id value).build p.json = some doc) :
    ∃ p' : PageDoc, doc = p'.json ∧ p'.Sound A ∧ (p'.Fitting ↔ NameFits value) := by
  obtain ⟨j, hfound, hname⟩ := Option.bind_eq_some_iff.mp hbuild
  obtain ⟨d, hd, hid, -⟩ := findDevice_json hfound
  obtain ⟨name, hchecked, rfl⟩ := Option.map_eq_some_iff.mp hname
  obtain rfl := checkedName_eq_some hchecked
  refine ⟨_, saveDevice_json id _ p, hsound.patch id ?_ ?_, ?_⟩
  · intro name hname
    obtain rfl := Option.some.inj hname
    exact ⟨_, rfl⟩
  · intro commands hcommands
    cases hcommands
  · rw [hfitting.patch_iff]
    constructor
    · exact fun h => h d hd hid _ rfl
    · intro hfits d _ _ name hname
      obtain rfl := Option.some.inj hname
      exact hfits

theorem deleteDevice_built {p : PageDoc} (hsound : p.Sound A) (hfitting : p.Fitting) {id : Nat}
    {doc : Json} (hbuild : (Edit.deleteDevice id).build p.json = some doc) :
    ∃ p' : PageDoc, doc = p'.json ∧ p'.Sound A ∧ p'.Fitting := by
  obtain ⟨j, -, rfl⟩ := Option.map_eq_some_iff.mp hbuild
  exact ⟨_, deleteDevice_json id p, hsound.filter _, hfitting.filter _⟩

theorem deleteCommand_built {p : PageDoc} (hsound : p.Sound A) (hfitting : p.Fitting) {id : Nat}
    {name : Bytes} {doc : Json}
    (hbuild : (Edit.deleteCommand id name).build p.json = some doc) :
    ∃ p' : PageDoc, doc = p'.json ∧ p'.Sound A ∧ p'.Fitting := by
  obtain ⟨j, hfound, hdelete⟩ := Option.bind_eq_some_iff.mp hbuild
  obtain ⟨d, hd, -, rfl⟩ := findDevice_json hfound
  unfold Browser.deleteCommand at hdelete
  split_ifs at hdelete
  obtain rfl := Option.some.inj hdelete
  obtain ⟨hmem, hkeys⟩ := assignAll_spec (d.commands.filter fun m => m.1 ≠ name)
  obtain ⟨hsound', hfitting'⟩ := patch_commands hsound hfitting id hkeys fun m hm =>
    (hsound.devices d hd).commands m (List.mem_of_mem_filter (hmem m hm))
  exact ⟨_, saveDevice_json id _ p, hsound', hfitting'⟩

theorem learnCommand_built (hint : ∀ n : UInt16, A.asUInt16 (.int n.toNat) = n) {p : PageDoc}
    (hsound : p.Sound A) (hfitting : p.Fitting) {id : Nat} {name : Bytes}
    {code : { code : StoredCode // Captured code }} {doc : Json}
    (hbuild : (Edit.learnCommand id name code).build p.json = some doc) :
    ∃ p' : PageDoc, doc = p'.json ∧ p'.Sound A ∧ p'.Fitting := by
  obtain ⟨j, hfound, hlearn⟩ := Option.bind_eq_some_iff.mp hbuild
  obtain ⟨d, hd, -, rfl⟩ := findDevice_json hfound
  have hsoundDevice := hsound.devices d hd
  unfold Browser.learnCommand at hlearn
  simp only at hlearn
  split_ifs at hlearn with hoffered
  obtain rfl := Option.some.inj hlearn
  have hname : name.length ≤ maxNameLen ∧ 0 ∉ name ∧ IsUtf8 name := by
    rw [Bool.and_eq_true] at hoffered
    cases hold : Json.lookup name d.commands with
    | some c => exact (hsoundDevice.commands _ (Json.mem_of_lookup hold)).short
    | none =>
        have hcommands : commandsOf d.json = d.commands := rfl
        rw [hcommands, hold] at hoffered
        exact offered_names _ name (List.contains_iff_mem.mp hoffered.2)
  obtain ⟨hmem, hkeys⟩ := assignAll_spec d.commands
  obtain ⟨hsound', hfitting'⟩ := patch_commands hsound hfitting id
    (@assign_keys_nodup name (.obj (writeCodeFields code.1)) _ hkeys) (by
      intro m hm
      rcases mem_assign hm with rfl | hold
      · exact soundCommand_code hint hname code.2
      · exact hsoundDevice.commands m (hmem m hold))
  exact ⟨_, saveDevice_json id _ p, hsound', hfitting'⟩

theorem learnDevice_built (hint : ∀ n : UInt16, A.asUInt16 (.int n.toNat) = n) {p : PageDoc}
    (hsound : p.Sound A) (hfitting : p.Fitting) (hnext : p.nextDeviceId < 65535)
    {value : List Char} {service name : Bytes} {code : { code : StoredCode // Captured code }}
    {doc : Json} (hbuild : (Edit.learnDevice value service name code).build p.json = some doc) :
    ∃ p' : PageDoc, doc = p'.json ∧ p'.Sound A ∧
      (p'.Fitting ↔ NameFits value ∧ 2 ≤ p.nextDeviceId) := by
  have hlearn : Browser.learnDevice value service name code.1 p.json = some doc := hbuild
  unfold Browser.learnDevice at hlearn
  by_cases hoffered : (!learnServices.contains service) = true ∨
      (!(commandsForService service).contains name) = true
  · rw [if_pos hoffered] at hlearn
    cases hlearn
  rw [if_neg hoffered] at hlearn
  have hcount : deviceCount p.json = p.devices.length := List.length_map _
  simp only [not_or, Bool.not_eq_true', Bool.not_eq_false, List.contains_iff_mem] at hoffered
  obtain ⟨hservice, hcommand⟩ := hoffered
  cases hchecked : checkedName value with
  | none =>
      rw [hchecked] at hlearn
      cases hlearn
  | some deviceName =>
      obtain rfl := checkedName_eq_some hchecked
      simp only [hchecked, hcount] at hlearn
      split_ifs at hlearn with hfull
      obtain rfl := Option.some.inj hlearn
      have hname := offered_names service name hcommand
      refine ⟨_, addDevice_json service _ _ hnext, ?_, ?_⟩
      · apply hsound.add (offered_services service hservice) ⟨_, rfl⟩
        · exact assign_keys_nodup List.nodup_nil
        · intro m hm
          rcases mem_assign hm with rfl | hnil
          · exact soundCommand_code hint hname code.2
          · cases hnil
      · exact hfitting.add_iff (Nat.not_le.mp hfull) hnext _ _ _

/-- The counts and delays the editor takes are numbers of the device's fields. -/
theorem repeat_fields {repeatCount delay : Int}
    (hcount : 1 ≤ repeatCount ∧ repeatCount ≤ repeatMax) (hdelay : 0 ≤ delay ∧ delay ≤ delayMax) :
    ∃ (count : UInt8) (pause : UInt16), repeatCount = count.toNat ∧ delay = pause.toNat ∧
      (1 ≤ count ∧ count ≤ maxRepeatCount) ∧ pause ≤ maxRepeatDelayMs := by
  unfold repeatMax at hcount
  unfold delayMax at hdelay
  obtain ⟨n, rfl⟩ := Int.eq_ofNat_of_zero_le (show 0 ≤ repeatCount by omega)
  obtain ⟨m, rfl⟩ := Int.eq_ofNat_of_zero_le hdelay.1
  have hn : (UInt8.ofNat n).toNat = n := by
    rw [UInt8.toNat_ofNat']
    omega
  have hm : (UInt16.ofNat m).toNat = m := by
    rw [UInt16.toNat_ofNat']
    omega
  refine ⟨UInt8.ofNat n, UInt16.ofNat m, by rw [hn], by rw [hm], ⟨?_, ?_⟩, ?_⟩
  · rw [UInt8.le_iff_toNat_le, hn]
    exact Int.ofNat_le.mp hcount.1
  · rw [UInt8.le_iff_toNat_le, hn]
    exact Int.ofNat_le.mp hcount.2
  · rw [UInt16.le_iff_toNat_le, hm]
    exact Int.ofNat_le.mp hdelay.2

/-- The editor offers the command's own name and those of its service. -/
theorem commandOptions_cases {d : Json} {editing name : Bytes}
    (h : (commandOptions d editing).contains name = true) :
    name = editing ∨ name ∈ commandsForService (serviceOf d) := by
  rw [List.contains_iff_mem] at h
  unfold commandOptions at h
  simp only at h
  split_ifs at h
  · exact Or.inr (List.mem_of_mem_filter h)
  · rcases List.mem_cons.mp h with rfl | hother
    · exact Or.inl rfl
    · exact Or.inr (List.mem_of_mem_filter hother)

/-- A command under a name of the editor, with a count and delay it takes. -/
theorem soundCommand_edited (hint : ∀ n : UInt16, A.asUInt16 (.int n.toNat) = n)
    {slot : CommandSlot} (hcanonical : slot.Canonical) (hvalid : validateSlot slot = .ok)
    {name : Bytes} (hname : name.length ≤ maxNameLen ∧ 0 ∉ name ∧ IsUtf8 name)
    {repeatCount delay : Int} (hcount : 1 ≤ repeatCount ∧ repeatCount ≤ repeatMax)
    (hdelay : 0 ≤ delay ∧ delay ≤ delayMax) :
    SoundCommand A (name, withRepeat repeatCount delay (slotDoc slot)) := by
  obtain ⟨count, pause, rfl, rfl, hcount', hpause⟩ := repeat_fields hcount hdelay
  obtain ⟨-, -, -, hcode⟩ := (validateSlot_eq_ok_iff slot).mp hvalid
  let edited : CommandSlot :=
    { name := name, code := slot.code, repeatCount := count, repeatDelayMs := pause }
  have hdoc : withRepeat count.toNat pause.toNat (slotDoc slot) = slotDoc edited :=
    withRepeat_slotDoc count pause slot
  have hok : validateSlot edited = .ok :=
    (validateSlot_eq_ok_iff edited).mpr ⟨hname.1, hcount', hpause, hcode⟩
  rw [hdoc]
  exact @soundCommand_slotDoc A hint edited ⟨hname.2.1, hcanonical.code⟩ hname.2.2 hok

theorem saveCommand_built (hint : ∀ n : UInt16, A.asUInt16 (.int n.toNat) = n) {cfg : Config}
    (h : Cached cfg) {id : Nat} {oldName newName : Bytes} {repeatCount delay : Int} {doc : Json}
    (hbuild : (Edit.saveCommand id oldName newName repeatCount delay).build (pageDoc cfg).json =
      some doc) :
    ∃ p' : PageDoc, doc = p'.json ∧ p'.Sound A ∧ p'.Fitting := by
  have hsound := h.sound hint
  obtain ⟨j, hfound, hsave⟩ := Option.bind_eq_some_iff.mp hbuild
  obtain ⟨v, hv, -, rfl⟩ := findDevice_json hfound
  obtain ⟨d, hd, rfl⟩ := List.mem_map.mp hv
  have hcommands : commandsOf (pageDevice d).json = commandMembers d.commands := rfl
  unfold Browser.saveCommand at hsave
  simp only [hcommands] at hsave
  split_ifs at hsave with hoffered hempty hused hcount hdelay
  obtain rfl := Option.some.inj hsave
  rw [not_or, Bool.not_eq_true', Bool.not_eq_false] at hoffered
  have hslots : ∀ m ∈ commandMembers d.commands, ∃ slot : CommandSlot, slot.Canonical ∧
      validateSlot slot = .ok ∧ m = (slot.name, slotDoc slot) := by
    have hvalid := h.valid
    rw [validate_eq_ok_iff, validateDevices_eq_ok_iff] at hvalid
    intro m hm
    obtain ⟨slot, hslot, rfl⟩ := (commandMembers_keys d.commands).2 m hm
    obtain ⟨-, -, -, -, hok⟩ := hvalid.2.2.2 d hd
    exact ⟨slot, (h.canonical.devices d hd).slots slot hslot, hok slot hslot, rfl⟩
  have hmembers := (hsound.devices _ hv).commands
  have hname : ∀ m ∈ commandMembers d.commands, m.1 = oldName →
      newName.length ≤ maxNameLen ∧ 0 ∉ newName ∧ IsUtf8 newName := by
    intro m hm hold
    rcases commandOptions_cases hoffered.2 with hsame | hservice
    · rw [hsame, ← hold]
      exact (hmembers m hm).short
    · exact offered_names _ newName hservice
  obtain ⟨hmem, hkeys⟩ := assignAll_spec ((commandMembers d.commands).map fun x : Bytes × Json =>
    if x.1 = oldName then (newName, withRepeat repeatCount delay x.2) else (x.1, x.2))
  obtain ⟨hsound', hfitting'⟩ := patch_commands hsound h.fitting id hkeys (by
    intro m hm
    obtain ⟨x, hx, rfl⟩ := List.mem_map.mp (hmem m hm)
    split_ifs with hold
    · obtain ⟨slot, hcanonical, hok, rfl⟩ := hslots x hx
      exact soundCommand_edited hint hcanonical hok (hname _ hx hold) hcount hdelay
    · exact hmembers x hx)
  exact ⟨_, saveDevice_json id _ _, hsound', hfitting'⟩

theorem counter_configDoc {cfg : Config} {next : Nat}
    (h : prop (configDoc cfg) "nextDeviceId" = some (.int next)) :
    cfg.nextDeviceId.toNat = next := by
  have hcounter : prop (configDoc cfg) "nextDeviceId" = some (.int cfg.nextDeviceId.toNat) := rfl
  rw [hcounter] at h
  injection h with hint
  injection hint with hcast
  exact Int.ofNat_inj.mp hcast

/-- The document of an edit: sound, and fitting exactly when the edit is. -/
theorem edit_built (hint : ∀ n : UInt16, A.asUInt16 (.int n.toNat) = n) {cfg : Config}
    (h : Cached cfg) (hnext : cfg.nextDeviceId < 65535) {e : Edit} {doc : Json}
    (hbuild : e.build (configDoc cfg) = some doc) :
    ∃ p : PageDoc, doc = p.json ∧ p.Sound A ∧ (p.Fitting ↔ Fits (configDoc cfg) e) := by
  have hsound := h.sound hint
  have hfitting := h.fitting
  rw [← h.json] at hbuild
  have halways : (∃ p : PageDoc, doc = p.json ∧ p.Sound A ∧ p.Fitting) →
      ∃ p : PageDoc, doc = p.json ∧ p.Sound A ∧ (p.Fitting ↔ True) := by
    rintro ⟨p, hdoc, hsound', hfitting'⟩
    exact ⟨p, hdoc, hsound', iff_true_intro hfitting'⟩
  cases e with
  | saveDevice id value => exact saveDevice_built hsound hfitting hbuild
  | deleteDevice id => exact halways (deleteDevice_built hsound hfitting hbuild)
  | saveCommand id oldName newName repeatCount delay =>
      exact halways (saveCommand_built hint h hbuild)
  | deleteCommand id name => exact halways (deleteCommand_built hsound hfitting hbuild)
  | learnCommand id name code => exact halways (learnCommand_built hint hsound hfitting hbuild)
  | learnDevice value service name code =>
      obtain ⟨p, hdoc, hsound', hiff⟩ := learnDevice_built hint hsound hfitting hnext hbuild
      refine ⟨p, hdoc, hsound', hiff.trans (and_congr_right fun _ => ?_)⟩
      constructor
      · intro htwo next heq
        exact counter_configDoc heq ▸ UInt16.le_iff_toNat_le.mp htwo
      · exact fun htwo => UInt16.le_iff_toNat_le.mpr (htwo _ rfl)

end Edits

/-- What a page sends: an edit its checks pass, within the byte ceiling, while there are
ids left. -/
structure Sends (cached : Json) (e : Edit) (doc : Json) : Prop where
  built : e.build cached = some doc
  size : (Json.serialize doc).length ≤ maxConfigBytes
  counter : ∀ next : Nat, prop cached "nextDeviceId" = some (.int next) → next < 65535

/-- What the edit posts, if anything, is within the bounds and fits. -/
def Keeps (cached : Json) (e : Edit) : Prop :=
  ∀ doc, e.build cached = some doc → Sends cached e doc ∧ Fits cached e

section Runs

variable {A : ArduinoJson}

theorem Sends.json (hA : Exchanges A) {cfg : Config} (h : Cached cfg) {e : Edit} {doc : Json}
    (hsends : Sends (configDoc cfg) e doc) :
    ∃ p : PageDoc, p.Sound A ∧ (p.Fitting ↔ Fits (configDoc cfg) e) ∧
      fromJson A (Json.serialize doc) = some (p.config A) := by
  have hnext : cfg.nextDeviceId < 65535 := by
    rw [UInt16.lt_iff_toNat_lt]
    exact hsends.counter _ rfl
  obtain ⟨p, rfl, hsound, hiff⟩ := edit_built hA.asUInt16_int h hnext hsends.built
  exact ⟨p, hsound, hiff, fromJson_json hA hsound hsends.size⟩

theorem Sends.accepts_iff (hA : Exchanges A) {cached : Json} (hcached : ValidCache cached)
    {e : Edit} {doc : Json} (hsends : Sends cached e doc) :
    deviceAccepts A doc = true ↔ Fits cached e := by
  obtain ⟨cfg, h, rfl⟩ := hcached
  obtain ⟨p, hsound, hiff, hread⟩ := hsends.json hA h
  unfold deviceAccepts
  rw [hread, ← hiff, ← validate_config_iff hsound]
  simp [isValid]

/-- An accepted edit leaves a page with a valid configuration, and so does every other. -/
theorem afterEdit_valid (hA : Exchanges A) {cached : Json} (hcached : ValidCache cached)
    {e : Edit} (hkeeps : Keeps cached e) : ValidCache (afterEdit A cached e) := by
  unfold afterEdit
  cases hbuild : e.build cached with
  | none => exact hcached
  | some doc =>
      obtain ⟨cfg, h, rfl⟩ := hcached
      obtain ⟨hsends, hfits⟩ := hkeeps doc hbuild
      obtain ⟨p, hsound, hiff, hread⟩ := hsends.json hA h
      have hrunning : Cached (p.config A) := cached_config hsound (hiff.mpr hfits)
      have hvalid : isValid (p.config A) = true := by simp [isValid, hrunning.valid]
      simp only [hread, hvalid, if_true]
      cases hserved : servedConfig A (p.config A) with
      | none => exact ⟨cfg, h, rfl⟩
      | some v => exact ⟨p.config A, hrunning, servedConfig_cached hA hrunning hserved⟩

/-- A sent edit is accepted exactly when it fits; a run of edits that fit keeps the
configuration valid and has each of them accepted. -/
theorem page_edits_accepted (hA : Exchanges A) {cached : Json} (hcached : ValidCache cached) :
    (∀ e doc, Sends cached e doc → (deviceAccepts A doc = true ↔ Fits cached e)) ∧
      ∀ edits, (editing A cached).Guarded Keeps edits →
        ValidCache ((editing A cached).run edits) ∧
          ∀ pre e post doc, edits = pre ++ e :: post →
            e.build ((editing A cached).run pre) = some doc → deviceAccepts A doc = true := by
  have hrun : ∀ edits, (editing A cached).Guarded Keeps edits →
      ValidCache ((editing A cached).run edits) := by
    apply (editing A cached).guarded_run_induction (P := fun _ s => ValidCache s) hcached
    exact fun _ _ hkeeps hvalid => afterEdit_valid hA hvalid hkeeps
  refine ⟨fun e doc hsends => hsends.accepts_iff hA hcached, ?_⟩
  intro edits hguard
  refine ⟨hrun edits hguard, ?_⟩
  rintro pre e post doc rfl hbuild
  obtain ⟨hsends, hfits⟩ := hguard pre e post rfl doc hbuild
  exact (hsends.accepts_iff hA (hrun pre hguard.of_append)).mpr hfits

end Runs

theorem asciiJson_exchanges : Exchanges asciiJson := by
  refine ⟨asciiJson_readable, ?_, ?_⟩
  · intro limit doc hplain hdepth
    have hreads : asciiJson.deserializeJson = Json.parse := rfl
    rw [hreads]
    exact Json.parse_serialize hplain hdepth
  · intro n
    have hreads : asciiJson.asUInt16 = fun v => orUInt16 v 0 := rfl
    simp only [hreads, orUInt16_int]

/-- The remote as the device reads it. -/
def cachedRemote : Config :=
  { remoteConfig with schemaVersion := schemaVersionNow }

theorem cachedRemote_cached : Cached cachedRemote where
  valid := by decide
  version := rfl
  canonical := ⟨remoteConfig_canonical.domain, remoteConfig_canonical.devices⟩
  names := by
    intro d hd
    obtain rfl := List.mem_singleton.mp hd
    decide
  texts := by
    intro d hd
    obtain rfl := List.mem_singleton.mp hd
    refine ⟨isUtf8_ascii (by decide), isUtf8_ascii (by decide), ?_⟩
    intro slot hslot
    obtain rfl := List.mem_singleton.mp hslot
    exact isUtf8_ascii (by decide)

/-- The remote's device under another name. -/
def renamed (value : List Char) : Json :=
  Data.saveDevice 2 { name := some (encodeText (trim value)) } (configDoc cachedRemote)

def kitchenLamp : List Char := " Kitchen lamp ".toList

theorem page_edits_accepted_renamed :
    ValidCache ((editing asciiJson (configDoc cachedRemote)).run [.saveDevice 2 kitchenLamp]) ∧
      deviceAccepts asciiJson (renamed kitchenLamp) = true := by
  have hvalid : ValidCache (configDoc cachedRemote) := ⟨_, cachedRemote_cached, rfl⟩
  have hbuild : (Edit.saveDevice 2 kitchenLamp).build (configDoc cachedRemote) =
      some (renamed kitchenLamp) := rfl
  let rename : Edit := .saveDevice 2 kitchenLamp
  have hsends : Sends (configDoc cachedRemote) rename (renamed kitchenLamp) := {
    built := hbuild
    size := by decide +kernel
    counter := fun next heq => counter_configDoc heq ▸ (by decide) }
  have hfits : Fits (configDoc cachedRemote) rename := by
    change (cStr (encodeText (trim kitchenLamp))).length ≤ maxNameLen
    decide +kernel
  have haccepted := page_edits_accepted asciiJson_exchanges hvalid
  refine ⟨(haccepted.2 _ ?_).1, (haccepted.1 _ _ hsends).mpr hfits⟩
  apply (StateMachine.Guarded.nil _ Keeps).concat
  intro doc hdoc
  obtain rfl := Option.some.inj (hbuild.symm.trans hdoc)
  exact ⟨hsends, hfits⟩

/-- Thirty-two letters of two bytes each. -/
def accents : List Char := List.replicate 32 'é'

/-- The page takes thirty-two accented letters for a name; the device counts their bytes. -/
theorem accented_rename_refused :
    ValidCache (configDoc cachedRemote) ∧ textUnits accents ≤ nameMax ∧
      Sends (configDoc cachedRemote) (.saveDevice 2 accents) (renamed accents) ∧
      deviceAccepts strictJson (renamed accents) = false := by
  refine ⟨⟨_, cachedRemote_cached, rfl⟩, by decide, ?_, by decide +kernel⟩
  exact {
    built := rfl
    size := by decide +kernel
    counter := fun next heq => counter_configDoc heq ▸ (by decide) }

end RfIrBlaster.Browser
