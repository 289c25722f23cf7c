/-
The documents the pages hold and build, and which of them the device accepts.
-/
import RfIrBlaster.BrowserText
import RfIrBlaster.ImportRestore

namespace RfIrBlaster.Browser

/-- A device of a page's document. -/
structure PageDevice where
  id : UInt16
  service : Bytes
  name : Bytes
  commands : List (Bytes × Json)

def PageDevice.json (d : PageDevice) : Json :=
  .obj [(ascii "id", .int d.id.toNat), (ascii "service", .str d.service),
    (ascii "name", .str d.name), (ascii "commands", .obj d.commands)]

/-- A document of the current layout, as the pages hold and build them. -/
structure PageDoc where
  settings : Settings
  nextDeviceId : UInt16
  devices : List PageDevice

def PageDoc.json (p : PageDoc) : Json :=
  .obj [(ascii "schemaVersion", .int schemaVersionNow.toNat),
    (ascii "settings", settingsDoc p.settings),
    (ascii "nextDeviceId", .int p.nextDeviceId.toNat),
    (ascii "devices", .arr (p.devices.map PageDevice.json))]

def pageDevice (d : VirtualDevice) : PageDevice :=
  { id := d.id, service := d.service, name := d.name, commands := commandMembers d.commands }

def pageDoc (cfg : Config) : PageDoc :=
  { settings := cfg.settings
    nextDeviceId := cfg.nextDeviceId
    devices := cfg.devices.map pageDevice }

/-- The library as the pages and the device use it: each reads what the other writes. -/
structure Exchanges (A : ArduinoJson) : Prop where
  readable : Readable A
  stringify : ∀ (limit : Nat) (doc : Json), doc.Plain → doc.depth ≤ limit →
    A.deserializeJson limit (Json.serialize doc) = some doc
  asUInt16_int : ∀ n : UInt16, A.asUInt16 (.int n.toNat) = n

/-- A command the device reads and accepts. -/
structure SoundCommand (A : ArduinoJson) (m : Bytes × Json) : Prop where
  plain : m.2.Plain
  depth : m.2.depth ≤ 2
  name : 0 ∉ m.1 ∧ IsUtf8 m.1
  valid : validateSlot (slotOf A m) = .ok

/-- A device whose name and id alone are left to check. -/
structure PageDevice.Sound (A : ArduinoJson) (d : PageDevice) : Prop where
  service : (d.service ≠ [] ∧ d.service.length ≤ maxNameLen) ∧ 0 ∉ d.service ∧ IsUtf8 d.service
  name : IsUtf8 d.name
  keys : (d.commands.map Prod.fst).Nodup
  commands : ∀ m ∈ d.commands, SoundCommand A m

structure PageDoc.Sound (A : ArduinoJson) (p : PageDoc) : Prop where
  settings : validateSettings p.settings = .ok
  devices : ∀ d ∈ p.devices, d.Sound A

/-- The rest of `validate`: the count, the ids and the names of the devices. -/
structure PageDoc.Fitting (p : PageDoc) : Prop where
  count : p.devices.length ≤ maxDevices
  ids : (p.devices.map PageDevice.id).Nodup
  bounds : ∀ d ∈ p.devices, 2 ≤ d.id ∧ d.id < p.nextDeviceId
  names : ∀ d ∈ p.devices, (cStr d.name).length ≤ maxNameLen

section Device

variable {A : ArduinoJson}

theorem soundCommand_slotDoc (hint : ∀ n : UInt16, A.asUInt16 (.int n.toNat) = n)
    {slot : CommandSlot} (hcanonical : slot.Canonical) (htext : IsUtf8 slot.name)
    (hvalid : validateSlot slot = .ok) : SoundCommand A (slot.name, slotDoc slot) := by
  obtain ⟨hplain, hdepth⟩ := slotDoc_plain slot
  refine ⟨hplain, hdepth, ⟨hcanonical.name, htext⟩, ?_⟩
  rw [slotOf_slotDoc hint hcanonical]
  exact hvalid

theorem SoundCommand.short {m : Bytes × Json} (h : SoundCommand A m) :
    m.1.length ≤ maxNameLen ∧ 0 ∉ m.1 ∧ IsUtf8 m.1 := by
  have hlength := ((validateSlot_eq_ok_iff _).mp h.valid).1
  have hread : (slotOf A m).name = m.1 := cStr_eq_self h.name.1
  rw [hread] at hlength
  exact ⟨hlength, h.name⟩

theorem PageDevice.Sound.plain {d : PageDevice} (h : d.Sound A) :
    d.json.Plain ∧ d.json.depth ≤ 4 := by
  apply deviceMembers_plain
  · exact .obj h.keys fun m hm => (h.commands m hm).plain
  · rw [Json.depth]
    have := (Json.depthMembers_le_iff d.commands 2).mpr fun m hm => (h.commands m hm).depth
    omega

theorem PageDoc.Sound.plain {p : PageDoc} (h : p.Sound A) :
    p.json.Plain ∧ p.json.depth ≤ nestingLimit := by
  apply configMembers_plain
  intro x hx
  obtain ⟨d, hd, rfl⟩ := List.mem_map.mp hx
  exact (h.devices d hd).plain

/-- What the device reads from a page's document. -/
def PageDoc.config (A : ArduinoJson) (p : PageDoc) : Config :=
  { schemaVersion := schemaVersionNow
    settings := p.settings
    nextDeviceId := p.nextDeviceId
    devices := p.devices.map fun d =>
      { id := d.id
        service := cStr d.service
        name := cStr d.name
        commands := d.commands.map (slotOf A) } }

theorem configOf_json {p : PageDoc} (hdomain : 0 ∉ p.settings.canonicalDomain) :
    configOf A p.json = p.config A := by
  have hdevices : (p.devices.map PageDevice.json).map (deviceOf A) = (p.config A).devices := by
    rw [List.map_map]
    apply List.map_congr_left
    intro d _
    change VirtualDevice.mk (orUInt16 (.int d.id.toNat) 0) (cStr d.service) (cStr d.name)
      (d.commands.map (slotOf A)) = _
    rw [orUInt16_int]
  obtain ⟨settings, nextDeviceId, devices⟩ := p
  obtain ⟨https, listenPort, trustedProxy, canonicalDomain, ledEnabled⟩ := settings
  change Config.mk (orUInt16 (.int schemaVersionNow.toNat) schemaVersionNow)
    { https := https, listenPort := orUInt16 (.int listenPort.toNat) 443
      trustedProxy := trustedProxy, canonicalDomain := readStr (.str canonicalDomain) []
      ledEnabled := ledEnabled }
    (orUInt16 (.int nextDeviceId.toNat) 2) ((devices.map PageDevice.json).map (deviceOf A)) = _
  rw [hdevices, orUInt16_int, orUInt16_int, orUInt16_int, readStr_str hdomain]
  rfl

/-- The domain of a valid configuration is ASCII without NUL. -/
theorem validDomain_bytes {s : Settings} (h : validateSettings s = .ok) :
    0 ∉ s.canonicalDomain ∧ ∀ c ∈ s.canonicalDomain, c < 0x80 := by
  rw [validateSettings_eq_ok_iff] at h
  obtain ⟨-, -, -, -, hempty | ⟨-, hhost⟩⟩ := h
  · rw [hempty]
    simp
  · have hbytes := isValidHostOrIp_bytes hhost
    exact ⟨fun hzero => absurd (hbytes 0 hzero) (by decide),
      fun c hc => isHostByte_ascii (hbytes c hc)⟩

/-- The device reads every sound document within the byte ceiling. -/
theorem fromJson_json (hA : Exchanges A) {p : PageDoc} (h : p.Sound A)
    (hsize : (Json.serialize p.json).length ≤ maxConfigBytes) :
    fromJson A (Json.serialize p.json) = some (p.config A) := by
  obtain ⟨hplain, hdepth⟩ := h.plain
  have hversion : orUInt16 (p.json.get (ascii "schemaVersion")) schemaVersionNow =
      schemaVersionNow := orUInt16_int schemaVersionNow _
  have hmigrated : migrateDoc p.json schemaVersionNow = some p.json := rfl
  unfold fromJson
  rw [if_neg (Nat.not_lt.mpr hsize), hA.stringify nestingLimit _ hplain hdepth]
  simp only [hversion, hmigrated, Option.map_some,
    configOf_json (validDomain_bytes h.settings).1]

/-- A sound document is accepted when its devices' ids and names are. -/
theorem validate_config_iff {p : PageDoc} (h : p.Sound A) :
    validate (p.config A) = .ok ↔ p.Fitting := by
  have hids : (p.config A).devices.map VirtualDevice.id = p.devices.map PageDevice.id := by
    unfold PageDoc.config
    rw [List.map_map]
    rfl
  have hcount : (p.config A).devices.length = p.devices.length := List.length_map _
  have hslots : ∀ d ∈ p.devices, ∀ slot ∈ d.commands.map (slotOf A), validateSlot slot = .ok := by
    intro d hd
    rw [List.forall_mem_map]
    exact fun m hm => ((h.devices d hd).commands m hm).valid
  rw [validate_eq_ok_iff, validateDevices_eq_ok_iff, hids, hcount]
  constructor
  · rintro ⟨hfew, -, hnodup, hdevices⟩
    have hdevice : ∀ d ∈ p.devices, _ := fun d hd => hdevices _ (List.mem_map_of_mem hd)
    exact {
      count := hfew
      ids := hnodup
      bounds := fun d hd => (hdevice d hd).2.1
      names := fun d hd => (hdevice d hd).2.2.2.1 }
  · intro hfitting
    refine ⟨hfitting.count, h.settings, hfitting.ids, ?_⟩
    intro v hv
    obtain ⟨d, hd, rfl⟩ := List.mem_map.mp hv
    obtain ⟨hservice, hzero, -⟩ := (h.devices d hd).service
    have hread : cStr d.service = d.service := cStr_eq_self hzero
    refine ⟨List.not_mem_nil, hfitting.bounds d hd, ?_, hfitting.names d hd, hslots d hd⟩
    simp only [hread]
    exact hservice

/-- A configuration a page may hold: valid, as `fromJson` leaves it, and all its strings
texts. -/
structure Cached (cfg : Config) : Prop where
  valid : validate cfg = .ok
  version : cfg.schemaVersion = schemaVersionNow
  canonical : cfg.Canonical
  names : cfg.NamesDistinct
  texts : ∀ d ∈ cfg.devices, IsUtf8 d.service ∧ IsUtf8 d.name ∧ ∀ slot ∈ d.commands,
    IsUtf8 slot.name

/-- The document of such a configuration. -/
def ValidCache (doc : Json) : Prop :=
  ∃ cfg, Cached cfg ∧ doc = configDoc cfg

theorem Cached.json {cfg : Config} (h : Cached cfg) : (pageDoc cfg).json = configDoc cfg := by
  have hdevices : (cfg.devices.map pageDevice).map PageDevice.json = cfg.devices.map deviceDoc := by
    rw [List.map_map]
    rfl
  unfold PageDoc.json pageDoc configDoc
  rw [hdevices, h.version]

theorem Cached.sound (hint : ∀ n : UInt16, A.asUInt16 (.int n.toNat) = n) {cfg : Config}
    (h : Cached cfg) : (pageDoc cfg).Sound A := by
  have hvalid := h.valid
  rw [validate_eq_ok_iff, validateDevices_eq_ok_iff] at hvalid
  obtain ⟨-, hsettings, -, hdevices⟩ := hvalid
  refine ⟨hsettings, ?_⟩
  intro v hv
  obtain ⟨d, hd, rfl⟩ := List.mem_map.mp hv
  obtain ⟨-, -, hservice, -, hslots⟩ := hdevices d hd
  obtain ⟨hserviceText, hname, hcommands⟩ := h.texts d hd
  have hcanonical := h.canonical.devices d hd
  obtain ⟨hkeys, hmembers⟩ := commandMembers_keys d.commands
  refine ⟨⟨hservice, hcanonical.service, hserviceText⟩, hname, hkeys, ?_⟩
  intro m hm
  obtain ⟨slot, hslot, rfl⟩ := hmembers m hm
  exact soundCommand_slotDoc hint (hcanonical.slots slot hslot) (hcommands slot hslot)
    (hslots slot hslot)

theorem Cached.fitting {cfg : Config} (h : Cached cfg) : (pageDoc cfg).Fitting := by
  have hvalid := h.valid
  rw [validate_eq_ok_iff, validateDevices_eq_ok_iff] at hvalid
  obtain ⟨hcount, -, hids, hdevices⟩ := hvalid
  have hmap : (pageDoc cfg).devices.map PageDevice.id = cfg.devices.map VirtualDevice.id := by
    unfold pageDoc
    rw [List.map_map]
    rfl
  refine ⟨(List.length_map _).trans_le hcount, by rw [hmap]; exact hids, ?_, ?_⟩
  · intro v hv
    obtain ⟨d, hd, rfl⟩ := List.mem_map.mp hv
    exact (hdevices d hd).2.1
  · intro v hv
    obtain ⟨d, hd, rfl⟩ := List.mem_map.mp hv
    change (cStr d.name).length ≤ maxNameLen
    rw [cStr_eq_self (h.canonical.devices d hd).name]
    exact (hdevices d hd).2.2.2.1

/-- What the device reads from an accepted document a page may hold in turn. -/
theorem cached_config {p : PageDoc} (h : p.Sound A) (hfitting : p.Fitting) :
    Cached (p.config A) := by
  have hcanonical := configOf_canonical A p.json
  rw [configOf_json (validDomain_bytes h.settings).1] at hcanonical
  refine ⟨(validate_config_iff h).mpr hfitting, rfl, hcanonical, ?_, ?_⟩
  · intro v hv
    obtain ⟨d, hd, rfl⟩ := List.mem_map.mp hv
    have hnames : (d.commands.map (slotOf A)).map CommandSlot.name = d.commands.map Prod.fst := by
      rw [List.map_map]
      exact List.map_congr_left fun m hm => cStr_eq_self ((h.devices d hd).commands m hm).name.1
    change ((d.commands.map (slotOf A)).map CommandSlot.name).Nodup
    rw [hnames]
    exact (h.devices d hd).keys
  · intro v hv
    obtain ⟨d, hd, rfl⟩ := List.mem_map.mp hv
    have hsound := h.devices d hd
    refine ⟨hsound.service.2.2.cStr, hsound.name.cStr, ?_⟩
    intro slot hslot
    obtain ⟨m, hm, rfl⟩ := List.mem_map.mp hslot
    exact (hsound.commands m hm).name.2.cStr

/-- The page holds what the device serves, string for string. -/
theorem decoded_configDoc {cfg : Config} (h : Cached cfg) :
    mapStrings decodeUtf8 (configDoc cfg) = configDoc cfg := by
  have hdevice : ∀ d ∈ cfg.devices, mapStrings decodeUtf8 (deviceDoc d) = deviceDoc d := by
    intro d hd
    obtain ⟨hservice, hname, hcommands⟩ := h.texts d hd
    obtain ⟨hkeys, hmembers⟩ := commandMembers_keys d.commands
    have hslots : mapStrings decodeUtf8 (.obj (commandMembers d.commands)) =
        .obj (commandMembers d.commands) := by
      apply mapStrings_obj_of_fixed hkeys
      intro m hm
      obtain ⟨slot, hslot, rfl⟩ := hmembers m hm
      exact ⟨(hcommands slot hslot).decode, decoded_slotDoc slot⟩
    apply decoded_obj (by simp only [List.map_cons, List.map_nil]; decide)
      (by simp only [List.map_cons, List.map_nil]; decide)
    simp only [List.forall_mem_cons]
    exact ⟨rfl, congrArg Json.str hservice.decode, congrArg Json.str hname.decode, hslots, by simp⟩
  have hdevices : mapStrings decodeUtf8 (.arr (cfg.devices.map deviceDoc)) =
      .arr (cfg.devices.map deviceDoc) := by
    rw [mapStrings, mapElements_eq, List.map_map]
    exact congrArg Json.arr (List.map_congr_left hdevice)
  have hdomain := decodeUtf8_ascii (validDomain_bytes (validate_settings h.valid)).2
  have hsettings : mapStrings decodeUtf8 (settingsDoc cfg.settings) = settingsDoc cfg.settings := by
    apply decoded_obj (by simp only [List.map_cons, List.map_nil]; decide)
      (by simp only [List.map_cons, List.map_nil]; decide)
    simp only [List.forall_mem_cons]
    exact ⟨rfl, rfl, rfl, congrArg Json.str hdomain, rfl, by simp⟩
  apply decoded_obj (by simp only [List.map_cons, List.map_nil]; decide)
    (by simp only [List.map_cons, List.map_nil]; decide)
  simp only [List.forall_mem_cons]
  exact ⟨rfl, hsettings, rfl, hdevices, by simp⟩

theorem servedConfig_cached (hA : Exchanges A) {cfg : Config} (h : Cached cfg) {v : Json}
    (hserved : servedConfig A cfg = some v) : v = configDoc cfg := by
  obtain ⟨text, htext, hparsed⟩ := Option.bind_eq_some_iff.mp hserved
  unfold toJson at htext
  simp only at htext
  split_ifs at htext
  obtain rfl := Option.some.inj htext
  rw [hA.readable _ v (configDoc_plain cfg).1 hparsed, decoded_configDoc h]

end Device

end RfIrBlaster.Browser
