/-
`config::validate` and the host and address scanners it rests on.  Every check
is made in the source's order, so the reported error is the source's.
-/
import RfIrBlaster.ConfigModel

namespace RfIrBlaster

def isDigitByte (c : UInt8) : Bool :=
  48 ≤ c && c ≤ 57

/-- The scan of `parseIPv4`, one byte a step: `val` and `digits` describe the
octet being read, `acc` and `parts` the octets before it. -/
def parseIPv4Scan : Bytes → UInt32 → Nat → Nat → Nat → Option UInt32
  | [], acc, parts, val, digits =>
      if digits = 0 ∨ 255 < val then none
      else if parts + 1 = 4 then some ((acc <<< 8) ||| UInt32.ofNat val)
      else none
  | c :: cs, acc, parts, val, digits =>
      if isDigitByte c then
        if 3 < digits + 1 then none
        else parseIPv4Scan cs acc parts (val * 10 + (c.toNat - 48)) (digits + 1)
      else if digits = 0 ∨ 255 < val then none
      else if c ≠ 46 then none
      else if cs = [] then none
      else parseIPv4Scan cs ((acc <<< 8) ||| UInt32.ofNat val) (parts + 1) 0 0

/-- Strict dotted quad; the address in host byte order. -/
def parseIPv4 (s : Bytes) : Option UInt32 :=
  parseIPv4Scan s 0 0 0 0

def isIPv4 (s : Bytes) : Bool :=
  (parseIPv4 s).isSome

def isLabelByte (c : UInt8) : Bool :=
  (65 ≤ c && c ≤ 90) || (97 ≤ c && c ≤ 122) || isDigitByte c || c == 45

/-- What the loop of `isValidHostname` asks of one label. -/
def isValidLabel (label : Bytes) : Bool :=
  !label.isEmpty && decide (label.length ≤ maxLabelLen) &&
    label.head? != some 45 && label.getLast? != some 45 &&
    label.all isLabelByte

/-- The index loop of `isValidHostname`: `label` is `h[start..i)`. -/
def hostnameLoop : Bytes → Bytes → Bool
  | [], label => isValidLabel label
  | c :: cs, label =>
      if c = 46 then isValidLabel label && hostnameLoop cs []
      else hostnameLoop cs (label ++ [c])

def isValidHostname (s : Bytes) : Bool :=
  let h := if s.getLast? = some 46 then s.dropLast else s
  if h.isEmpty then false else hostnameLoop h []

/-- The bytes `isValidHostOrIp` refuses outright: `/ ? # :` and white space. -/
def isUrlByte (c : UInt8) : Bool :=
  c == 47 || c == 63 || c == 35 || c == 58 ||
    c == 32 || c == 9 || c == 10 || c == 13 || c == 12 || c == 11

def isValidHostOrIp (s : Bytes) : Bool :=
  if s.isEmpty then false
  else if s.any isUrlByte then false
  else isIPv4 s || isValidHostname s

/-- A byte of a label, or the dot between labels and octets. -/
def isHostByte (c : UInt8) : Bool :=
  isLabelByte c || c == 46

theorem isHostByte_of_isDigitByte {c : UInt8} (h : isDigitByte c = true) :
    isHostByte c = true := by
  simp [isHostByte, isLabelByte, h]

theorem parseIPv4Scan_bytes {s : Bytes} {acc : UInt32} {parts val digits : Nat}
    (h : (parseIPv4Scan s acc parts val digits).isSome) : ∀ c ∈ s, isHostByte c = true := by
  induction s generalizing acc parts val digits with
  | nil => simp
  | cons c cs ih =>
      rw [parseIPv4Scan] at h
      by_cases hdigit : isDigitByte c = true
      · rw [if_pos hdigit] at h
        split_ifs at h
        · cases h
        · exact List.forall_mem_cons.mpr ⟨isHostByte_of_isDigitByte hdigit, ih h⟩
      · rw [if_neg hdigit] at h
        split_ifs at h with hoctet hdot hend
        · cases h
        · cases h
        · cases h
        · rw [not_not] at hdot
          rw [hdot]
          exact List.forall_mem_cons.mpr ⟨by decide, ih h⟩

theorem isValidLabel_bytes {label : Bytes} (h : isValidLabel label = true) :
    ∀ c ∈ label, isHostByte c = true := by
  unfold isValidLabel at h
  simp only [Bool.and_eq_true, List.all_eq_true] at h
  intro c hc
  simp [isHostByte, h.2 c hc]

theorem hostnameLoop_bytes {cs label : Bytes} (h : hostnameLoop cs label = true) :
    ∀ c ∈ label ++ cs, isHostByte c = true := by
  induction cs generalizing label with
  | nil =>
      rw [List.append_nil]
      exact isValidLabel_bytes h
  | cons c cs ih =>
      rw [hostnameLoop] at h
      by_cases hdot : c = 46
      · rw [if_pos hdot, Bool.and_eq_true] at h
        have hrest := ih h.2
        rw [List.nil_append] at hrest
        rw [hdot]
        exact List.forall_mem_append.mpr ⟨isValidLabel_bytes h.1,
          List.forall_mem_cons.mpr ⟨by decide, hrest⟩⟩
      · rw [if_neg hdot] at h
        have hall := ih h
        rw [List.append_assoc] at hall
        exact hall

theorem isValidHostname_bytes {s : Bytes} (h : isValidHostname s = true) :
    ∀ c ∈ s, isHostByte c = true := by
  unfold isValidHostname at h
  by_cases hdot : s.getLast? = some 46
  · simp only [if_pos hdot] at h
    split_ifs at h
    have hall := hostnameLoop_bytes h
    rw [List.nil_append] at hall
    obtain ⟨front, rfl⟩ := List.getLast?_eq_some_iff.mp hdot
    rw [List.dropLast_concat] at hall
    exact List.forall_mem_append.mpr ⟨hall, by simp [isHostByte]⟩
  · simp only [if_neg hdot] at h
    split_ifs at h
    exact hostnameLoop_bytes h

/-- A host the validator lets through has label bytes and dots alone. -/
theorem isValidHostOrIp_bytes {s : Bytes} (h : isValidHostOrIp s = true) :
    ∀ c ∈ s, isHostByte c = true := by
  unfold isValidHostOrIp at h
  split_ifs at h
  rcases Bool.or_eq_true _ _ |>.mp h with hip | hname
  · exact parseIPv4Scan_bytes hip
  · exact isValidHostname_bytes hname

inductive ValidateError where
  | ok
  | tooManyDevices
  | duplicateDeviceId
  | nextIdNotMonotonic
  | reservedDeviceId
  | badService
  | emptyLearnedCode
  | oddPulseCount
  | tooManyPulses
  | badRfFreq
  | badIrCarrier
  | badRepeatCount
  | badRepeatDelay
  | badFrameRepeat
  | badListenPort
  | reservedListenPort
  | domainTooLong
  | badCanonicalDomain
  | nameTooLong
  | badRollingFlag
deriving DecidableEq, Repr

/-- The per-code checks of `validate`. -/
def validateCode (code : StoredCode) : ValidateError :=
  if code.kind = .none then .ok
  else if code.pulses.isEmpty then .emptyLearnedCode
  else if code.pulses.length % 2 ≠ 0 then .oddPulseCount
  else if maxPulses < code.pulses.length then .tooManyPulses
  else if code.kind = .rf ∧ code.freqMHz ≠ 315 ∧ code.freqMHz ≠ 433 then
    .badRfFreq
  else if code.kind = .rf ∧ code.rolling then .badRollingFlag
  else if code.kind = .ir ∧ (code.carrierHz < 20000 ∨ 60000 < code.carrierHz) then
    .badIrCarrier
  else if code.frameRepeat < 1 ∨ maxFrameRepeat < code.frameRepeat then
    .badFrameRepeat
  else .ok

def validateSlot (slot : CommandSlot) : ValidateError :=
  if maxNameLen < slot.name.length then .nameTooLong
  else if slot.repeatCount < 1 ∨ maxRepeatCount < slot.repeatCount then
    .badRepeatCount
  else if maxRepeatDelayMs < slot.repeatDelayMs then .badRepeatDelay
  else validateCode slot.code

def validateSlots : List CommandSlot → ValidateError
  | [] => .ok
  | slot :: rest =>
      match validateSlot slot with
      | .ok => validateSlots rest
      | e => e

/-- The device loop of `validate`; `seenIds` is the set of ids before `d`. -/
def validateDevices (nextDeviceId : UInt16) :
    List UInt16 → List VirtualDevice → ValidateError
  | _, [] => .ok
  | seenIds, d :: rest =>
      if d.id ∈ seenIds then .duplicateDeviceId
      else if d.id < 2 then .reservedDeviceId
      else if nextDeviceId ≤ d.id then .nextIdNotMonotonic
      else if d.service.isEmpty then .badService
      else if maxNameLen < d.service.length then .nameTooLong
      else if maxNameLen < d.name.length then .nameTooLong
      else
        match validateSlots d.commands with
        | .ok => validateDevices nextDeviceId (d.id :: seenIds) rest
        | e => e

def validateSettings (s : Settings) : ValidateError :=
  if s.listenPort = 0 then .badListenPort
  else if s.listenPort = otaPort ∨ s.listenPort = mdnsPort ∨
      s.listenPort = hapPort then .reservedListenPort
  else if s.canonicalDomain.isEmpty then .ok
  else if maxDomainLen < s.canonicalDomain.length then .domainTooLong
  else if !isValidHostOrIp s.canonicalDomain then .badCanonicalDomain
  else .ok

def validate (cfg : Config) : ValidateError :=
  if maxDevices < cfg.devices.length then .tooManyDevices
  else
    match validateSettings cfg.settings with
    | .ok => validateDevices cfg.nextDeviceId [] cfg.devices
    | e => e

def isValid (cfg : Config) : Bool :=
  validate cfg = .ok

/-- The layout version is no business of `validate`. -/
@[simp]
theorem validate_schemaVersion (cfg : Config) (v : UInt16) :
    validate { cfg with schemaVersion := v } = validate cfg :=
  rfl

/-- What a code that passes the per-code checks looks like. -/
theorem validateCode_eq_ok_iff (code : StoredCode) :
    validateCode code = .ok ↔ code.kind = .none ∨
      (code.pulses ≠ [] ∧ code.pulses.length % 2 = 0 ∧
        code.pulses.length ≤ maxPulses ∧
        (code.kind = .rf → (code.freqMHz = 315 ∨ code.freqMHz = 433) ∧
          code.rolling = false) ∧
        (code.kind = .ir → 20000 ≤ code.carrierHz ∧ code.carrierHz ≤ 60000) ∧
        1 ≤ code.frameRepeat ∧ code.frameRepeat ≤ maxFrameRepeat) := by
  unfold validateCode
  split_ifs <;> simp_all <;> grind

theorem validateSlots_eq_ok_iff (slots : List CommandSlot) :
    validateSlots slots = .ok ↔ ∀ slot ∈ slots, validateSlot slot = .ok := by
  induction slots with
  | nil => simp [validateSlots]
  | cons slot rest ih =>
      rw [validateSlots]
      cases hslot : validateSlot slot <;> simp [hslot, ih]

theorem validateSlot_eq_ok_iff (slot : CommandSlot) :
    validateSlot slot = .ok ↔ slot.name.length ≤ maxNameLen ∧
      (1 ≤ slot.repeatCount ∧ slot.repeatCount ≤ maxRepeatCount) ∧
      slot.repeatDelayMs ≤ maxRepeatDelayMs ∧ validateCode slot.code = .ok := by
  unfold validateSlot
  split_ifs with hname hcount hdelay
  · simp [Nat.not_le.mpr hname]
  · have hbad : ¬(1 ≤ slot.repeatCount ∧ slot.repeatCount ≤ maxRepeatCount) := by
      rw [not_and_or, UInt8.not_le, UInt8.not_le]
      exact hcount
    simp [hbad]
  · simp [UInt16.not_le.mpr hdelay]
  · rw [not_or, UInt8.not_lt, UInt8.not_lt] at hcount
    simp [Nat.not_lt.mp hname, hcount, UInt16.not_lt.mp hdelay]

/-- What the device loop asks, the ids in `seen` taken. -/
theorem validateDevices_eq_ok_iff (next : UInt16) (seen : List UInt16)
    (devices : List VirtualDevice) :
    validateDevices next seen devices = .ok ↔
      (devices.map VirtualDevice.id).Nodup ∧ ∀ d ∈ devices, d.id ∉ seen ∧
        (2 ≤ d.id ∧ d.id < next) ∧ (d.service ≠ [] ∧ d.service.length ≤ maxNameLen) ∧
        d.name.length ≤ maxNameLen ∧ ∀ slot ∈ d.commands, validateSlot slot = .ok := by
  induction devices generalizing seen with
  | nil => simp [validateDevices]
  | cons d rest ih =>
      have hsplit : validateDevices next seen (d :: rest) = .ok ↔
          (d.id ∉ seen ∧ (2 ≤ d.id ∧ d.id < next) ∧
            (d.service ≠ [] ∧ d.service.length ≤ maxNameLen) ∧ d.name.length ≤ maxNameLen ∧
            validateSlots d.commands = .ok) ∧
          validateDevices next (d.id :: seen) rest = .ok := by
        rw [validateDevices]
        split_ifs with hseen hlow hnext hservice hlong hname
        · simp [hseen]
        · simp [UInt16.not_le.mpr hlow]
        · simp [UInt16.not_lt.mpr hnext]
        · simp [List.isEmpty_iff.mp hservice]
        · simp [Nat.not_le.mpr hlong]
        · simp [Nat.not_le.mpr hname]
        · have hsome : d.service ≠ [] := fun h => hservice (List.isEmpty_iff.mpr h)
          cases hslots : validateSlots d.commands <;>
            simp [hseen, UInt16.not_lt.mp hlow, UInt16.not_le.mp hnext, hsome,
              Nat.not_lt.mp hlong, Nat.not_lt.mp hname]
      rw [hsplit, ih, validateSlots_eq_ok_iff, List.map_cons, List.nodup_cons,
        List.forall_mem_cons]
      constructor
      · rintro ⟨⟨hnew, hd⟩, hnodup, hrest⟩
        refine ⟨⟨?_, hnodup⟩, ⟨hnew, hd⟩, ?_⟩
        · intro hmem
          obtain ⟨other, hother, heq⟩ := List.mem_map.mp hmem
          exact (hrest other hother).1 (by simp [heq])
        · intro other hother
          obtain ⟨hfresh, hfields⟩ := hrest other hother
          exact ⟨fun hold => hfresh (List.mem_cons_of_mem _ hold), hfields⟩
      · rintro ⟨⟨hone, hnodup⟩, hd, hrest⟩
        refine ⟨hd, hnodup, ?_⟩
        intro other hother
        obtain ⟨hfresh, hfields⟩ := hrest other hother
        refine ⟨?_, hfields⟩
        intro hmem
        rcases List.mem_cons.mp hmem with heq | hold
        · exact hone (heq ▸ List.mem_map_of_mem hother)
        · exact hfresh hold

theorem validateSettings_eq_ok_iff (s : Settings) :
    validateSettings s = .ok ↔
      s.listenPort ≠ 0 ∧ s.listenPort ≠ otaPort ∧ s.listenPort ≠ mdnsPort ∧
        s.listenPort ≠ hapPort ∧
        (s.canonicalDomain = [] ∨
          s.canonicalDomain.length ≤ maxDomainLen ∧ isValidHostOrIp s.canonicalDomain = true) := by
  unfold validateSettings
  split_ifs with hzero hreserved hempty hlong hbad
  · simp [hzero]
  · constructor
    · intro heq
      cases heq
    · rintro ⟨-, hota, hmdns, hhap, -⟩
      rcases hreserved with heq | heq | heq
      · exact absurd heq hota
      · exact absurd heq hmdns
      · exact absurd heq hhap
  · simp_all
  · simp_all [Nat.not_le.mpr hlong]
  · simp_all
  · simp_all

theorem validate_eq_ok_iff (cfg : Config) :
    validate cfg = .ok ↔ cfg.devices.length ≤ maxDevices ∧
      validateSettings cfg.settings = .ok ∧
      validateDevices cfg.nextDeviceId [] cfg.devices = .ok := by
  unfold validate
  split_ifs with hmany
  · simp [Nat.not_le.mpr hmany]
  · cases hset : validateSettings cfg.settings <;> simp [Nat.not_lt.mp hmany]

/-- Ids accepted by the device loop are new and pairwise distinct. -/
theorem validateDevices_ids_nodup {next : UInt16} {seen : List UInt16}
    {devices : List VirtualDevice}
    (h : validateDevices next seen devices = .ok) :
    (devices.map VirtualDevice.id).Nodup ∧
      ∀ d ∈ devices, d.id ∉ seen ∧ 2 ≤ d.id ∧
        validateSlots d.commands = .ok := by
  rw [validateDevices_eq_ok_iff] at h
  refine ⟨h.1, ?_⟩
  intro d hd
  obtain ⟨hnew, hid, -, -, hslots⟩ := h.2 d hd
  exact ⟨hnew, hid.1, (validateSlots_eq_ok_iff d.commands).mpr hslots⟩

/-- Ids accepted by the device loop are below the counter. -/
theorem validateDevices_ids_lt {next : UInt16} {seen : List UInt16}
    {devices : List VirtualDevice} (h : validateDevices next seen devices = .ok) :
    ∀ d ∈ devices, d.id < next := by
  rw [validateDevices_eq_ok_iff] at h
  exact fun d hd => (h.2 d hd).2.1.2

theorem validate_settings {cfg : Config} (h : validate cfg = .ok) :
    validateSettings cfg.settings = .ok :=
  ((validate_eq_ok_iff cfg).mp h).2.1

theorem validate_devices {cfg : Config} (h : validate cfg = .ok) :
    validateDevices cfg.nextDeviceId [] cfg.devices = .ok :=
  ((validate_eq_ok_iff cfg).mp h).2.2

/-- A valid configuration has pairwise distinct device ids. -/
theorem validate_ids_nodup {cfg : Config} (h : validate cfg = .ok) :
    (cfg.devices.map VirtualDevice.id).Nodup :=
  (validateDevices_ids_nodup (validate_devices h)).1

/-- The counter of a valid configuration is above every device id. -/
theorem validate_ids_lt {cfg : Config} (h : validate cfg = .ok) :
    ∀ d ∈ cfg.devices, d.id < cfg.nextDeviceId :=
  validateDevices_ids_lt (validate_devices h)

end RfIrBlaster
