/-
`config_json.cpp`: the configuration as a JSON document and back.  The JSON
library is a parameter; `Lawful` states what is relied on.
-/
import Mathlib.Data.List.Induction
import RfIrBlaster.ConfigModel
import RfIrBlaster.JsonText

namespace RfIrBlaster

/-- The calls made into ArduinoJson.  `asUInt16` is `as<uint16_t>()`, which also
converts values that are no integer. -/
structure ArduinoJson where
  deserializeJson : (limit : Nat) → Bytes → Option Json
  serializeJson : Json → Bytes
  asUInt16 : Json → UInt16

/-- It parses back what it serializes, enforces the nesting limit as container
depth, and keeps one member for a repeated key. -/
structure ArduinoJson.Lawful (A : ArduinoJson) : Prop where
  parse_back : ∀ (limit : Nat) (doc : Json), doc.Plain → doc.depth ≤ limit →
    A.deserializeJson limit (A.serializeJson doc) = some doc
  nesting : ∀ limit text doc, A.deserializeJson limit text = some doc → doc.depth ≤ limit
  distinct : ∀ limit text doc, A.deserializeJson limit text = some doc → doc.Distinct
  asUInt16_int : ∀ n : UInt16, A.asUInt16 (.int n.toNat) = n

/-- The bytes a C string holds: those before the first NUL. -/
def cStr (s : Bytes) : Bytes :=
  s.takeWhile (· ≠ 0)

/-- `v | fallback` for the integer and boolean types. -/
def orUInt16 (v : Json) (fallback : UInt16) : UInt16 :=
  match v with
  | .int n => if 0 ≤ n ∧ n < 65536 then UInt16.ofNat n.toNat else fallback
  | _ => fallback

def orUInt8 (v : Json) (fallback : UInt8) : UInt8 :=
  match v with
  | .int n => if 0 ≤ n ∧ n < 256 then UInt8.ofNat n.toNat else fallback
  | _ => fallback

def orBool (v : Json) (fallback : Bool) : Bool :=
  match v with
  | .bool b => b
  | _ => fallback

/-- `as<const char*>()`, null when the value is no string. -/
def asCStr (v : Json) : Option Bytes :=
  match v with
  | .str s => some (cStr s)
  | _ => none

def readStr (v : Json) (dst : Bytes) : Bytes :=
  (asCStr v).getD dst

def writeCodeFields (code : StoredCode) : List (Bytes × Json) :=
  (match code.kind with
    | .rf =>
        [(ascii "kind", .str (ascii "rf")),
          (ascii "freqMHz", .int code.freqMHz.toNat),
          (ascii "rolling", .bool code.rolling),
          (ascii "frameRepeat", .int code.frameRepeat.toNat)]
    | .ir =>
        [(ascii "kind", .str (ascii "ir")),
          (ascii "carrierHz", .int code.carrierHz.toNat)]
    | .none => [(ascii "kind", .str (ascii "none"))]) ++
  [(ascii "pulses", .arr (code.pulses.map fun v => .int v.toNat))]

def slotDoc (slot : CommandSlot) : Json :=
  .obj (writeCodeFields slot.code ++
    [(ascii "repeatCount", .int slot.repeatCount.toNat),
      (ascii "repeatDelayMs", .int slot.repeatDelayMs.toNat)])

/-- The members of `commands`; a name met again overwrites the earlier one. -/
def commandMembers (slots : List CommandSlot) : List (Bytes × Json) :=
  slots.foldl (fun ms slot => Json.setMember slot.name (slotDoc slot) ms) []

def deviceDoc (d : VirtualDevice) : Json :=
  .obj [(ascii "id", .int d.id.toNat), (ascii "service", .str d.service),
    (ascii "name", .str d.name), (ascii "commands", .obj (commandMembers d.commands))]

def settingsDoc (s : Settings) : Json :=
  .obj [(ascii "https", .bool s.https), (ascii "listenPort", .int s.listenPort.toNat),
    (ascii "trustedProxy", .bool s.trustedProxy),
    (ascii "canonicalDomain", .str s.canonicalDomain), (ascii "ledEnabled", .bool s.ledEnabled)]

def configDoc (cfg : Config) : Json :=
  .obj [(ascii "schemaVersion", .int cfg.schemaVersion.toNat),
    (ascii "settings", settingsDoc cfg.settings),
    (ascii "nextDeviceId", .int cfg.nextDeviceId.toNat),
    (ascii "devices", .arr (cfg.devices.map deviceDoc))]

/-- `none` when the text would exceed the byte ceiling. -/
def toJson (A : ArduinoJson) (cfg : Config) : Option Bytes :=
  let out := A.serializeJson (configDoc cfg)
  if maxConfigBytes < out.length then none else some out

/-- `doc[key] = value` on a whole document: a null document becomes an object, any
other non-object stays as it is. -/
def setRootMember (key : Bytes) (value : Json) : Json → Json
  | .obj ms => .obj (Json.setMember key value ms)
  | .null => .obj [(key, value)]
  | doc => doc

/-- Every version from `fromVersion` up to the current one needs a migration
step; only version 1 has one, and it changes no field. -/
def migrateDoc (doc : Json) (fromVersion : UInt16) : Option Json :=
  if schemaVersionNow < fromVersion then none
  else if (List.range' fromVersion.toNat (schemaVersionNow.toNat - fromVersion.toNat)).all
      (fun v => v == 1) then
    some (setRootMember (ascii "schemaVersion") (.int schemaVersionNow.toNat) doc)
  else none

/-- `jc["kind"] | "none"`. -/
def kindText (jc : Json) : Bytes :=
  (asCStr (jc.get (ascii "kind"))).getD (ascii "none")

/-- The fields read for the kind a command names. -/
def codeFields (jc : Json) : StoredCode :=
  if kindText jc = ascii "rf" then
    { kind := .rf
      freqMHz := orUInt16 (jc.get (ascii "freqMHz")) 0
      rolling := orBool (jc.get (ascii "rolling")) false
      frameRepeat := orUInt8 (jc.get (ascii "frameRepeat")) 1 }
  else if kindText jc = ascii "ir" then
    { kind := .ir, carrierHz := orUInt16 (jc.get (ascii "carrierHz")) 0 }
  else {}

def slotOf (A : ArduinoJson) (kv : Bytes × Json) : CommandSlot :=
  let jc := kv.2
  { name := cStr kv.1
    code := { codeFields jc with
      pulses := (jc.get (ascii "pulses")).elements.map A.asUInt16 }
    repeatCount := orUInt8 (jc.get (ascii "repeatCount")) 1
    repeatDelayMs := orUInt16 (jc.get (ascii "repeatDelayMs")) 0 }

def deviceOf (A : ArduinoJson) (jd : Json) : VirtualDevice :=
  { id := orUInt16 (jd.get (ascii "id")) 0
    service := readStr (jd.get (ascii "service")) []
    name := readStr (jd.get (ascii "name")) []
    commands := (jd.get (ascii "commands")).members.map (slotOf A) }

def settingsOf (s : Json) : Settings :=
  { https := orBool (s.get (ascii "https")) true
    listenPort := orUInt16 (s.get (ascii "listenPort")) 443
    trustedProxy := orBool (s.get (ascii "trustedProxy")) false
    canonicalDomain := readStr (s.get (ascii "canonicalDomain")) []
    ledEnabled := orBool (s.get (ascii "ledEnabled")) true }

/-- The reads of `fromJson`, onto the defaults of a fresh `Config`. -/
def configOf (A : ArduinoJson) (doc : Json) : Config :=
  { schemaVersion := orUInt16 (doc.get (ascii "schemaVersion")) schemaVersionNow
    settings := settingsOf (doc.get (ascii "settings"))
    nextDeviceId := orUInt16 (doc.get (ascii "nextDeviceId")) 2
    devices := (doc.get (ascii "devices")).elements.map (deviceOf A) }

def fromJson (A : ArduinoJson) (data : Bytes) : Option Config :=
  if maxConfigBytes < data.length then none
  else
    match A.deserializeJson nestingLimit data with
    | none => none
    | some doc =>
        let fromVersion := orUInt16 (doc.get (ascii "schemaVersion")) schemaVersionNow
        (migrateDoc doc fromVersion).map (configOf A)

/-- The library of the concrete examples: strict JSON texts, and 0 for what is no
16-bit integer. -/
def strictJson : ArduinoJson where
  deserializeJson := Json.parse
  serializeJson := Json.serialize
  asUInt16 v := orUInt16 v 0

theorem orUInt16_int (n fallback : UInt16) : orUInt16 (.int n.toNat) fallback = n := by
  have hlt : (n.toNat : Int) < 65536 := by
    have := n.toNat_lt
    omega
  have hrange : (0 : Int) ≤ n.toNat ∧ (n.toNat : Int) < 65536 :=
    ⟨Int.natCast_nonneg _, hlt⟩
  have hread : orUInt16 (.int n.toNat) fallback =
      if (0 : Int) ≤ n.toNat ∧ (n.toNat : Int) < 65536 then UInt16.ofNat (n.toNat : Int).toNat
      else fallback := rfl
  rw [hread, if_pos hrange]
  exact UInt16.ofNat_toNat

theorem orUInt8_int (n fallback : UInt8) : orUInt8 (.int n.toNat) fallback = n := by
  have hlt := n.toNat_lt
  have hrange : (0 : Int) ≤ n.toNat ∧ (n.toNat : Int) < 256 := by omega
  have hread : orUInt8 (.int n.toNat) fallback =
      if (0 : Int) ≤ n.toNat ∧ (n.toNat : Int) < 256 then UInt8.ofNat (n.toNat : Int).toNat
      else fallback := rfl
  rw [hread, if_pos hrange]
  exact UInt8.ofNat_toNat

theorem strictJson_lawful : strictJson.Lawful where
  parse_back _ _ hplain hdepth := Json.parse_serialize hplain hdepth
  nesting _ _ _ h := (Json.parse_bounded h).1
  distinct _ _ _ h := (Json.parse_bounded h).2
  asUInt16_int n := by
    simp only [strictJson, orUInt16_int]

theorem cStr_eq_self {s : Bytes} (h : 0 ∉ s) : cStr s = s := by
  unfold cStr
  rw [List.takeWhile_eq_self_iff]
  intro c hc
  simp only [ne_eq, decide_eq_true_eq]
  rintro rfl
  exact h hc

theorem zero_notMem_cStr (s : Bytes) : 0 ∉ cStr s := by
  intro hmem
  have hall := List.all_eq_true.mp (List.all_takeWhile (p := fun c : UInt8 => decide (c ≠ 0))
    (l := s)) 0 hmem
  simp at hall

theorem readStr_str {s : Bytes} (h : 0 ∉ s) (dst : Bytes) : readStr (.str s) dst = s := by
  simp [readStr, asCStr, cStr_eq_self h]

/-- A code with the defaults in the fields its kind does not serialize. -/
structure StoredCode.Canonical (code : StoredCode) : Prop where
  rfFields : code.kind ≠ .rf →
    code.freqMHz = 0 ∧ code.rolling = false ∧ code.frameRepeat = 1
  irFields : code.kind ≠ .ir → code.carrierHz = 0

/-- A slot that is read back as it was: no NUL in its name, a canonical code. -/
structure CommandSlot.Canonical (slot : CommandSlot) : Prop where
  name : 0 ∉ slot.name
  code : slot.code.Canonical

def VirtualDevice.commandNames (d : VirtualDevice) : List Bytes :=
  d.commands.map CommandSlot.name

structure VirtualDevice.Canonical (d : VirtualDevice) : Prop where
  service : 0 ∉ d.service
  name : 0 ∉ d.name
  slots : ∀ slot ∈ d.commands, slot.Canonical

structure Config.Canonical (cfg : Config) : Prop where
  domain : 0 ∉ cfg.settings.canonicalDomain
  devices : ∀ d ∈ cfg.devices, d.Canonical

/-- No device has two commands of one name. -/
def Config.NamesDistinct (cfg : Config) : Prop :=
  ∀ d ∈ cfg.devices, d.commandNames.Nodup

section RoundTrip

variable {A : ArduinoJson}

theorem pulses_read_back (hint : ∀ n : UInt16, A.asUInt16 (.int n.toNat) = n)
    (pulses : List UInt16) : (pulses.map fun v => Json.int v.toNat).map A.asUInt16 = pulses := by
  rw [List.map_map]
  conv_rhs => rw [← List.map_id pulses]
  exact List.map_congr_left fun v _ => hint v

/-- The members every kind of command has are read back as they were written. -/
theorem slotDoc_common (slot : CommandSlot) :
    (slotDoc slot).get (ascii "pulses") = .arr (slot.code.pulses.map fun v => .int v.toNat) ∧
      (slotDoc slot).get (ascii "repeatCount") = .int slot.repeatCount.toNat ∧
      (slotDoc slot).get (ascii "repeatDelayMs") = .int slot.repeatDelayMs.toNat := by
  obtain ⟨name, code, repeatCount, repeatDelayMs⟩ := slot
  obtain ⟨kind, pulses, freqMHz, carrierHz, rolling, frameRepeat⟩ := code
  cases kind <;> exact ⟨rfl, rfl, rfl⟩

/-- The fields of a canonical code are read back for its kind. -/
theorem codeFields_slotDoc {slot : CommandSlot} (h : slot.code.Canonical) :
    { codeFields (slotDoc slot) with pulses := slot.code.pulses } = slot.code := by
  obtain ⟨name, code, repeatCount, repeatDelayMs⟩ := slot
  obtain ⟨kind, pulses, freqMHz, carrierHz, rolling, frameRepeat⟩ := code
  have hrf := h.rfFields
  have hir := h.irFields
  cases kind with
  | none =>
      obtain ⟨rfl, rfl, rfl⟩ := hrf (fun heq => by cases heq)
      obtain rfl : carrierHz = 0 := hir (fun heq => by cases heq)
      rfl
  | rf =>
      obtain rfl : carrierHz = 0 := hir (fun heq => by cases heq)
      have hfields : codeFields (slotDoc ⟨name, ⟨.rf, pulses, freqMHz, 0, rolling, frameRepeat⟩,
          repeatCount, repeatDelayMs⟩) =
          { kind := .rf, freqMHz := orUInt16 (.int freqMHz.toNat) 0, rolling := rolling
            frameRepeat := orUInt8 (.int frameRepeat.toNat) 1 } := if_pos rfl
      rw [hfields, orUInt16_int, orUInt8_int]
  | ir =>
      obtain ⟨rfl, rfl, rfl⟩ := hrf (fun heq => by cases heq)
      have hother : kindText (slotDoc ⟨name, ⟨.ir, pulses, 0, carrierHz, false, 1⟩,
          repeatCount, repeatDelayMs⟩) ≠ ascii "rf" := by
        change ascii "ir" ≠ ascii "rf"
        decide
      have hfields : codeFields (slotDoc ⟨name, ⟨.ir, pulses, 0, carrierHz, false, 1⟩,
          repeatCount, repeatDelayMs⟩) =
          { kind := .ir, carrierHz := orUInt16 (.int carrierHz.toNat) 0 } :=
        (if_neg hother).trans (if_pos rfl)
      rw [hfields, orUInt16_int]

/-- A canonical slot is read back from its document. -/
theorem slotOf_slotDoc (hint : ∀ n : UInt16, A.asUInt16 (.int n.toNat) = n)
    {slot : CommandSlot} (h : slot.Canonical) : slotOf A (slot.name, slotDoc slot) = slot := by
  obtain ⟨hpulses, hcount, hdelay⟩ := slotDoc_common slot
  have hcode := codeFields_slotDoc h.code
  have hread := pulses_read_back hint slot.code.pulses
  simp only [slotOf, hpulses, hcount, hdelay, Json.elements, hread, hcode, orUInt8_int,
    orUInt16_int, cStr_eq_self h.name]

/-- The keys of `commands` are the names written, each once. -/
theorem commandMembers_keys (slots : List CommandSlot) :
    ((commandMembers slots).map Prod.fst).Nodup ∧
      ∀ m ∈ commandMembers slots, ∃ slot ∈ slots, m = (slot.name, slotDoc slot) := by
  induction slots using List.reverseRecOn with
  | nil => exact ⟨List.nodup_nil, by simp [commandMembers]⟩
  | append_singleton pre slot ih =>
      have hfold : commandMembers (pre ++ [slot]) =
          Json.setMember slot.name (slotDoc slot) (commandMembers pre) := by
        simp [commandMembers]
      rw [hfold]
      refine ⟨Json.setMember_keys_nodup ih.1, ?_⟩
      intro m hm
      rcases Json.mem_setMember hm with hnew | hold
      · exact ⟨slot, by simp, hnew⟩
      · obtain ⟨s, hs, heq⟩ := ih.2 m hold
        exact ⟨s, List.mem_append_left _ hs, heq⟩

/-- Names read back from a document never repeat, when they held no NUL. -/
theorem deviceOf_deviceDoc_names (d : VirtualDevice) (h : ∀ slot ∈ d.commands, 0 ∉ slot.name) :
    (deviceOf A (deviceDoc d)).commandNames.Nodup := by
  obtain ⟨hnodup, hmem⟩ := commandMembers_keys d.commands
  have hnames : (deviceOf A (deviceDoc d)).commandNames =
      (commandMembers d.commands).map Prod.fst := by
    change ((commandMembers d.commands).map (slotOf A)).map CommandSlot.name = _
    rw [List.map_map]
    apply List.map_congr_left
    intro m hm
    obtain ⟨slot, hslot, rfl⟩ := hmem m hm
    exact cStr_eq_self (h slot hslot)
  rw [hnames]
  exact hnodup

/-- With distinct names every command has its own member, in order. -/
theorem commandMembers_eq_map {slots : List CommandSlot}
    (h : (slots.map CommandSlot.name).Nodup) :
    commandMembers slots = slots.map fun slot => (slot.name, slotDoc slot) := by
  induction slots using List.reverseRecOn with
  | nil => rfl
  | append_singleton pre slot ih =>
      rw [List.map_append, List.nodup_append] at h
      have hfresh : slot.name ∉ (pre.map fun s => (s.name, slotDoc s)).map Prod.fst := by
        rw [List.map_map]
        exact fun hmem => h.2.2 slot.name hmem slot.name (by simp) rfl
      unfold commandMembers at ih ⊢
      rw [List.foldl_append, ih h.1, List.foldl_cons, List.foldl_nil,
        Json.setMember_of_not_mem hfresh, List.map_append]
      rfl

theorem deviceOf_deviceDoc (hA : A.Lawful) {d : VirtualDevice} (h : d.Canonical)
    (hnames : d.commandNames.Nodup) : deviceOf A (deviceDoc d) = d := by
  obtain ⟨id, service, name, commands⟩ := d
  have hcommands : (commandMembers commands).map (slotOf A) = commands := by
    rw [commandMembers_eq_map hnames, List.map_map]
    conv_rhs => rw [← List.map_id commands]
    exact List.map_congr_left fun slot hslot => slotOf_slotDoc hA.asUInt16_int (h.slots slot hslot)
  change VirtualDevice.mk (orUInt16 (.int id.toNat) 0) (readStr (.str service) [])
    (readStr (.str name) []) ((commandMembers commands).map (slotOf A)) = _
  rw [hcommands, orUInt16_int, readStr_str h.service, readStr_str h.name]

theorem migrateDoc_configDoc {cfg : Config} (hversion : cfg.schemaVersion = 1 ∨
    cfg.schemaVersion = 2) :
    migrateDoc (configDoc cfg) cfg.schemaVersion =
      some (configDoc { cfg with schemaVersion := schemaVersionNow }) := by
  rcases hversion with hone | htwo
  · rw [hone]
    rfl
  · rw [htwo]
    rfl

theorem configOf_configDoc (hA : A.Lawful) {cfg : Config} (h : cfg.Canonical)
    (hnames : cfg.NamesDistinct) : configOf A (configDoc cfg) = cfg := by
  obtain ⟨schemaVersion, settings, nextDeviceId, devices⟩ := cfg
  obtain ⟨https, listenPort, trustedProxy, canonicalDomain, ledEnabled⟩ := settings
  have hdevices : (devices.map deviceDoc).map (deviceOf A) = devices := by
    rw [List.map_map]
    conv_rhs => rw [← List.map_id devices]
    exact List.map_congr_left fun d hd =>
      deviceOf_deviceDoc hA (h.devices d hd) (hnames d hd)
  change Config.mk (orUInt16 (.int schemaVersion.toNat) schemaVersionNow)
    { https := https, listenPort := orUInt16 (.int listenPort.toNat) 443
      trustedProxy := trustedProxy, canonicalDomain := readStr (.str canonicalDomain) []
      ledEnabled := ledEnabled }
    (orUInt16 (.int nextDeviceId.toNat) 2) ((devices.map deviceDoc).map (deviceOf A)) = _
  rw [hdevices, orUInt16_int, orUInt16_int, orUInt16_int, readStr_str h.domain]

/-- Conversely only distinct names survive: the document has one member a name. -/
theorem configOf_configDoc_iff (hA : A.Lawful) {cfg : Config} (h : cfg.Canonical) :
    configOf A (configDoc cfg) = cfg ↔ cfg.NamesDistinct := by
  constructor
  · intro heq d hd
    have hdevices : (cfg.devices.map deviceDoc).map (deviceOf A) = cfg.devices :=
      congrArg Config.devices heq
    have hid : (cfg.devices.map deviceDoc).map (deviceOf A) = cfg.devices.map id := by
      rw [hdevices, List.map_id]
    rw [List.map_map, List.map_inj_left] at hid
    have hnames : (deviceOf A (deviceDoc d)).commandNames = d.commandNames :=
      congrArg VirtualDevice.commandNames (hid d hd)
    rw [← hnames]
    exact deviceOf_deviceDoc_names d fun slot hslot => (h.devices d hd).slots slot hslot |>.name
  · exact configOf_configDoc hA h

end RoundTrip

theorem plain_uint16 (n : UInt16) : (Json.int n.toNat).Plain :=
  .int (Nat.lt_of_lt_of_le n.toNat_lt (by decide))

theorem plain_uint8 (n : UInt8) : (Json.int n.toNat).Plain :=
  .int (Nat.lt_of_lt_of_le n.toNat_lt (by decide))

/-- What is written for a slot: plain, and two containers deep. -/
theorem slotDoc_plain (slot : CommandSlot) :
    (slotDoc slot).Plain ∧ (slotDoc slot).depth ≤ 2 := by
  obtain ⟨name, code, repeatCount, repeatDelayMs⟩ := slot
  obtain ⟨kind, pulses, freqMHz, carrierHz, rolling, frameRepeat⟩ := code
  have hpulses : (Json.arr (pulses.map fun v => Json.int v.toNat)).Plain ∧
      (Json.arr (pulses.map fun v => Json.int v.toNat)).depth ≤ 1 := by
    refine ⟨.arr ?_, ?_⟩
    · intro x hx
      obtain ⟨v, -, rfl⟩ := List.mem_map.mp hx
      exact plain_uint16 v
    · rw [Json.depth]
      have hflat : Json.depthElements (pulses.map fun v => Json.int v.toNat) ≤ 0 := by
        rw [Json.depthElements_le_iff]
        intro x hx
        obtain ⟨v, -, rfl⟩ := List.mem_map.mp hx
        exact Nat.zero_le _
      omega
  have hdepth : ∀ ms : List (Bytes × Json), (∀ m ∈ ms, m.2.depth ≤ 1) →
      (Json.obj ms).depth ≤ 2 := by
    intro ms hms
    rw [Json.depth]
    have := (Json.depthMembers_le_iff ms 1).mpr hms
    omega
  have hmembers : ∀ m ∈ writeCodeFields ⟨kind, pulses, freqMHz, carrierHz, rolling, frameRepeat⟩ ++
      [(ascii "repeatCount", .int repeatCount.toNat),
        (ascii "repeatDelayMs", .int repeatDelayMs.toNat)],
      m.2.Plain ∧ m.2.depth ≤ 1 := by
    intro m hm
    cases kind <;>
      simp only [writeCodeFields, List.cons_append, List.nil_append, List.mem_cons,
        List.not_mem_nil, or_false] at hm
    · rcases hm with rfl | rfl | rfl | rfl
      · exact ⟨.str _, Nat.zero_le _⟩
      · exact hpulses
      · exact ⟨plain_uint8 _, Nat.zero_le _⟩
      · exact ⟨plain_uint16 _, Nat.zero_le _⟩
    · rcases hm with rfl | rfl | rfl | rfl | rfl | rfl | rfl
      · exact ⟨.str _, Nat.zero_le _⟩
      · exact ⟨plain_uint16 _, Nat.zero_le _⟩
      · exact ⟨.bool _, Nat.zero_le _⟩
      · exact ⟨plain_uint8 _, Nat.zero_le _⟩
      · exact hpulses
      · exact ⟨plain_uint8 _, Nat.zero_le _⟩
      · exact ⟨plain_uint16 _, Nat.zero_le _⟩
    · rcases hm with rfl | rfl | rfl | rfl | rfl
      · exact ⟨.str _, Nat.zero_le _⟩
      · exact ⟨plain_uint16 _, Nat.zero_le _⟩
      · exact hpulses
      · exact ⟨plain_uint8 _, Nat.zero_le _⟩
      · exact ⟨plain_uint16 _, Nat.zero_le _⟩
  refine ⟨.obj ?_ fun m hm => (hmembers m hm).1, hdepth _ fun m hm => (hmembers m hm).2⟩
  cases kind <;> simp only [writeCodeFields, List.cons_append, List.nil_append, List.map_cons,
    List.map_nil] <;> decide

theorem commandsDoc_plain (slots : List CommandSlot) :
    (Json.obj (commandMembers slots)).Plain ∧ (Json.obj (commandMembers slots)).depth ≤ 3 := by
  obtain ⟨hnodup, hmem⟩ := commandMembers_keys slots
  have hslots : ∀ m ∈ commandMembers slots, m.2.Plain ∧ m.2.depth ≤ 2 := by
    intro m hm
    obtain ⟨slot, -, rfl⟩ := hmem m hm
    exact slotDoc_plain slot
  refine ⟨.obj hnodup fun m hm => (hslots m hm).1, ?_⟩
  rw [Json.depth]
  have := (Json.depthMembers_le_iff _ 2).mpr fun m hm => (hslots m hm).2
  omega

/-- A device's members around any plain commands. -/
theorem deviceMembers_plain (id : UInt16) (service name : Bytes) {commands : Json}
    (hplain : commands.Plain) (hdepth : commands.depth ≤ 3) :
    let doc := Json.obj [(ascii "id", .int id.toNat), (ascii "service", .str service),
      (ascii "name", .str name), (ascii "commands", commands)]
    doc.Plain ∧ doc.depth ≤ 4 := by
  refine ⟨.obj (by simp only [List.map_cons, List.map_nil]; decide) ?_, ?_⟩
  · simp only [List.forall_mem_cons]
    exact ⟨plain_uint16 _, .str _, .str _, hplain, by simp⟩
  · rw [Json.depth]
    have hmembers : Json.depthMembers [(ascii "id", .int id.toNat), (ascii "service", .str service),
        (ascii "name", .str name), (ascii "commands", commands)] ≤ 3 := by
      rw [Json.depthMembers_le_iff]
      simp only [List.forall_mem_cons]
      exact ⟨Nat.zero_le _, Nat.zero_le _, Nat.zero_le _, hdepth, by simp⟩
    omega

theorem deviceDoc_plain (d : VirtualDevice) :
    (deviceDoc d).Plain ∧ (deviceDoc d).depth ≤ 4 :=
  deviceMembers_plain d.id d.service d.name (commandsDoc_plain d.commands).1
    (commandsDoc_plain d.commands).2

theorem settingsDoc_plain (s : Settings) :
    (settingsDoc s).Plain ∧ (settingsDoc s).depth ≤ 1 := by
  refine ⟨.obj (by simp only [List.map_cons, List.map_nil]; decide) ?_, Nat.le_refl 1⟩
  simp only [List.forall_mem_cons]
  exact ⟨.bool _, plain_uint16 _, .bool _, .str _, .bool _, by simp⟩

/-- A configuration's members around any plain devices. -/
theorem configMembers_plain (version next : UInt16) (s : Settings) {devices : List Json}
    (h : ∀ d ∈ devices, d.Plain ∧ d.depth ≤ 4) :
    let doc := Json.obj [(ascii "schemaVersion", .int version.toNat),
      (ascii "settings", settingsDoc s), (ascii "nextDeviceId", .int next.toNat),
      (ascii "devices", .arr devices)]
    doc.Plain ∧ doc.depth ≤ nestingLimit := by
  obtain ⟨hplain, hdepth⟩ := settingsDoc_plain s
  have hdevices : (Json.arr devices).Plain ∧ (Json.arr devices).depth ≤ 5 := by
    refine ⟨.arr fun d hd => (h d hd).1, ?_⟩
    rw [Json.depth]
    have hall := (Json.depthElements_le_iff devices 4).mpr fun d hd => (h d hd).2
    omega
  refine ⟨.obj (by simp only [List.map_cons, List.map_nil]; decide) ?_, ?_⟩
  · simp only [List.forall_mem_cons]
    exact ⟨plain_uint16 _, hplain, plain_uint16 _, hdevices.1, by simp⟩
  · unfold nestingLimit
    rw [Json.depth]
    have hmembers : Json.depthMembers [(ascii "schemaVersion", .int version.toNat),
        (ascii "settings", settingsDoc s), (ascii "nextDeviceId", .int next.toNat),
        (ascii "devices", .arr devices)] ≤ 5 := by
      rw [Json.depthMembers_le_iff]
      simp only [List.forall_mem_cons]
      exact ⟨Nat.zero_le _, hdepth.trans (by decide), Nat.zero_le _, hdevices.2, by simp⟩
    omega

/-- Every configuration is written as a plain document within the nesting limit. -/
theorem configDoc_plain (cfg : Config) :
    (configDoc cfg).Plain ∧ (configDoc cfg).depth ≤ nestingLimit := by
  apply configMembers_plain
  intro x hx
  obtain ⟨d, -, rfl⟩ := List.mem_map.mp hx
  exact deviceDoc_plain d

/-- What `toJson` wrote, `fromJson` reads as its document migrated. -/
theorem fromJson_toJson {A : ArduinoJson} (hA : A.Lawful) {cfg : Config} {text : Bytes}
    (htext : toJson A cfg = some text)
    (hversion : cfg.schemaVersion = 1 ∨ cfg.schemaVersion = 2) :
    fromJson A text =
      some (configOf A (configDoc { cfg with schemaVersion := schemaVersionNow })) := by
  unfold toJson at htext
  simp only at htext
  split_ifs at htext with hlong
  obtain rfl := Option.some.inj htext
  obtain ⟨hplain, hdepth⟩ := configDoc_plain cfg
  have hread : orUInt16 ((configDoc cfg).get (ascii "schemaVersion")) schemaVersionNow =
      cfg.schemaVersion := orUInt16_int cfg.schemaVersion _
  unfold fromJson
  rw [if_neg hlong, hA.parse_back nestingLimit _ hplain hdepth]
  simp only [hread, migrateDoc_configDoc hversion, Option.map_some]

/-- Every string of a parsed configuration ends before its first NUL, and every
code holds the defaults in the fields its kind does not have. -/
theorem configOf_canonical (A : ArduinoJson) (doc : Json) : (configOf A doc).Canonical := by
  have hstr : ∀ v : Json, 0 ∉ readStr v [] := by
    intro v
    cases v <;> simp [readStr, asCStr, zero_notMem_cStr]
  refine ⟨hstr _, ?_⟩
  intro d hd
  obtain ⟨jd, -, rfl⟩ := List.mem_map.mp hd
  refine ⟨hstr _, hstr _, ?_⟩
  intro slot hslot
  obtain ⟨kv, -, rfl⟩ := List.mem_map.mp hslot
  refine ⟨zero_notMem_cStr _, ?_⟩
  have hfields : (codeFields kv.2).Canonical := by
    unfold codeFields
    split_ifs
    · exact ⟨fun hne => absurd rfl hne, fun _ => rfl⟩
    · exact ⟨fun _ => ⟨rfl, rfl, rfl⟩, fun hne => absurd rfl hne⟩
    · exact ⟨fun _ => ⟨rfl, rfl, rfl⟩, fun _ => rfl⟩
  exact ⟨hfields.rfFields, hfields.irFields⟩

/-- A member just set is read back, unless the document is no object at all. -/
theorem setRootMember_get (key key' : Bytes) (value doc : Json) :
    (setRootMember key value doc).get key' =
      if key' = key then (match doc with
        | .obj _ => value
        | .null => value
        | _ => .null)
      else doc.get key' := by
  cases doc with
  | obj ms =>
      change (Json.lookup key' (Json.setMember key value ms)).getD .null = _
      rw [Json.lookup_setMember]
      by_cases hkey : key' = key
      · simp [hkey]
      · simp [hkey, Json.get, Json.members]
  | null =>
      by_cases hkey : key' = key
      · simp [setRootMember, Json.get, Json.members, Json.lookup, hkey]
      · simp [setRootMember, Json.get, Json.members, Json.lookup, hkey, Ne.symm hkey]
  | _ => simp [setRootMember, Json.get, Json.members, Json.lookup]

theorem migrateDoc_eq_some {doc doc' : Json} {v : UInt16} (h : migrateDoc doc v = some doc') :
    doc' = setRootMember (ascii "schemaVersion") (.int schemaVersionNow.toNat) doc := by
  unfold migrateDoc at h
  split_ifs at h
  exact (Option.some.inj h).symm

/-- A parsed configuration always has the current layout version. -/
theorem configOf_migrated_version (A : ArduinoJson) {doc doc' : Json} {v : UInt16}
    (h : migrateDoc doc v = some doc') : (configOf A doc').schemaVersion = schemaVersionNow := by
  have hget := setRootMember_get (ascii "schemaVersion") (ascii "schemaVersion")
    (.int schemaVersionNow.toNat) doc
  rw [if_pos rfl, ← migrateDoc_eq_some h] at hget
  have hversion : (configOf A doc').schemaVersion =
      orUInt16 (doc'.get (ascii "schemaVersion")) schemaVersionNow := rfl
  rw [hversion, hget]
  cases doc with
  | obj ms => exact orUInt16_int schemaVersionNow _
  | null => exact orUInt16_int schemaVersionNow _
  | _ => rfl

/-- The names a document's command keys become, device by device. -/
def commandKeys (doc : Json) : List (List Bytes) :=
  (doc.get (ascii "devices")).elements.map fun jd =>
    (jd.get (ascii "commands")).members.map fun kv => cStr kv.1

/-- In no device of the body do two command keys agree up to their first NUL. -/
def BodyNamesDistinct (A : ArduinoJson) (body : Bytes) : Prop :=
  ∀ doc, A.deserializeJson nestingLimit body = some doc →
    ∀ names ∈ commandKeys doc, names.Nodup

instance (A : ArduinoJson) (body : Bytes) : Decidable (BodyNamesDistinct A body) :=
  inferInstanceAs (Decidable (∀ doc ∈ A.deserializeJson nestingLimit body,
    ∀ names ∈ commandKeys doc, names.Nodup))

theorem commandKeys_migrated {doc doc' : Json} {v : UInt16} (h : migrateDoc doc v = some doc') :
    commandKeys doc' = commandKeys doc := by
  unfold commandKeys
  rw [migrateDoc_eq_some h, setRootMember_get, if_neg (by decide)]

theorem configOf_commandNames (A : ArduinoJson) (doc : Json) :
    (configOf A doc).devices.map VirtualDevice.commandNames = commandKeys doc := by
  change (((doc.get (ascii "devices")).elements.map (deviceOf A)).map
    VirtualDevice.commandNames) = _
  rw [List.map_map]
  apply List.map_congr_left
  intro jd _
  change ((jd.get (ascii "commands")).members.map (slotOf A)).map CommandSlot.name = _
  rw [List.map_map]
  rfl

/-- What a successful parse gives. -/
theorem fromJson_spec {A : ArduinoJson} {body : Bytes} {cfg : Config}
    (h : fromJson A body = some cfg) :
    cfg.Canonical ∧ cfg.schemaVersion = schemaVersionNow ∧
      (cfg.NamesDistinct ↔ BodyNamesDistinct A body) := by
  unfold fromJson at h
  split_ifs at h
  cases hdoc : A.deserializeJson nestingLimit body with
  | none => simp [hdoc] at h
  | some doc =>
      simp only [hdoc] at h
      obtain ⟨doc', hmigrated, rfl⟩ := Option.map_eq_some_iff.mp h
      refine ⟨configOf_canonical A doc', configOf_migrated_version A hmigrated, ?_⟩
      have hnames : (configOf A doc').devices.map VirtualDevice.commandNames =
          commandKeys doc := by
        rw [configOf_commandNames, commandKeys_migrated hmigrated]
      constructor
      · intro hdistinct other hother names hmem
        obtain rfl := Option.some.inj (hdoc.symm.trans hother)
        rw [← hnames] at hmem
        obtain ⟨d, hd, rfl⟩ := List.mem_map.mp hmem
        exact hdistinct d hd
      · intro hbody d hd
        exact hbody doc hdoc _ (hnames ▸ List.mem_map_of_mem hd)

end RfIrBlaster
