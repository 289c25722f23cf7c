/-
Which of the backups a device can serve the settings page takes back.
-/
import Mathlib.Data.Rat.Lemmas
import RfIrBlaster.ImportCheck

namespace RfIrBlaster.Browser

section Members

variable {ms : List (Bytes × Json)}

theorem lookup_map (g : Json → Json) (key : Bytes) :
    Json.lookup key (ms.map fun m => (m.1, g m.2)) = (Json.lookup key ms).map g := by
  induction ms with
  | nil => rfl
  | cons m ms ih =>
      obtain ⟨k, v⟩ := m
      rw [List.map_cons, Json.lookup, Json.lookup, ih]
      split_ifs <;> rfl

/-- The properties of an object under ASCII keys are those written, decoded. -/
theorem prop_decoded (hkeys : (ms.map Prod.fst).Nodup)
    (hascii : (ms.map Prod.fst).all isAscii = true) (key : String) :
    prop (mapStrings decodeUtf8 (.obj ms)) key =
      (prop (.obj ms) key).map (mapStrings decodeUtf8) := by
  have hfixed : ∀ k ∈ ms.map Prod.fst, decodeUtf8 k = k := fun k hk =>
    decodeUtf8_ascii (isAscii_iff.mp (List.all_eq_true.mp hascii k hk))
  rw [mapStrings, mapMembers_of_fixed hfixed hkeys]
  exact lookup_map _ _

/-- An object with ASCII keys whose values decoding leaves alone. -/
theorem decoded_obj (hkeys : (ms.map Prod.fst).Nodup)
    (hascii : (ms.map Prod.fst).all isAscii = true)
    (hvalues : ∀ m ∈ ms, mapStrings decodeUtf8 m.2 = m.2) :
    mapStrings decodeUtf8 (.obj ms) = .obj ms := by
  apply mapStrings_obj_of_fixed hkeys
  intro m hm
  exact ⟨decodeUtf8_ascii (isAscii_iff.mp (List.all_eq_true.mp hascii _ (List.mem_map_of_mem hm))),
    hvalues m hm⟩

end Members

theorem numberValue_natCast (n : Nat) : numberValue (.int n) = some (n : ℚ) := by
  rw [numberValue, Int.cast_natCast]

theorem isInteger_natCast (n : Nat) : isInteger (n : ℚ) = true := by
  simp [isInteger]

theorem isInteger_half (n : Nat) : isInteger ((n : ℚ) / 2) = true ↔ n % 2 = 0 := by
  have hdvd := Rat.den_div_intCast_eq_one_iff (n : ℤ) 2 (by decide)
  rw [Int.cast_natCast, Int.cast_ofNat] at hdvd
  rw [isInteger, decide_eq_true_iff, hdvd]
  omega

theorem inRange_natCast (n lo hi : Nat) :
    inRange (some (.int n)) lo hi = true ↔ lo ≤ n ∧ n ≤ hi := by
  rw [inRange, numberValue_natCast]
  simp [isInteger_natCast]

/-- Decoding leaves numbers alone. -/
theorem mapStrings_pulses (pulses : List UInt16) :
    mapStrings decodeUtf8 (.arr (pulses.map fun v => .int v.toNat)) =
      .arr (pulses.map fun v => .int v.toNat) := by
  rw [mapStrings, mapElements_eq, List.map_map]
  rfl

def kindName : CodeKind → String
  | .none => "none"
  | .rf => "rf"
  | .ir => "ir"

theorem kindName_ascii (kind : CodeKind) : ∀ c ∈ ascii (kindName kind), c < 0x80 := by
  rw [← isAscii_iff]
  cases kind <;> decide

/-- A command's document is ASCII: decoding leaves it alone. -/
theorem decoded_slotDoc (slot : CommandSlot) :
    mapStrings decodeUtf8 (slotDoc slot) = slotDoc slot := by
  obtain ⟨name, code, repeatCount, repeatDelayMs⟩ := slot
  obtain ⟨kind, pulses, freqMHz, carrierHz, rolling, frameRepeat⟩ := code
  have hkind : mapStrings decodeUtf8 (.str (ascii (kindName kind))) =
      .str (ascii (kindName kind)) := by
    rw [mapStrings, decodeUtf8_ascii (kindName_ascii kind)]
  have hpulses := mapStrings_pulses pulses
  unfold slotDoc
  apply decoded_obj
  · cases kind <;> simp only [writeCodeFields, List.cons_append, List.nil_append, List.map_cons,
      List.map_nil] <;> decide
  · cases kind <;> simp only [writeCodeFields, List.cons_append, List.nil_append, List.map_cons,
      List.map_nil] <;> decide
  · cases kind <;>
      simp only [writeCodeFields, List.cons_append, List.nil_append, List.forall_mem_cons]
    · exact ⟨hkind, hpulses, rfl, rfl, by simp⟩
    · exact ⟨hkind, rfl, rfl, rfl, hpulses, rfl, rfl, by simp⟩
    · exact ⟨hkind, rfl, hpulses, rfl, rfl, by simp⟩

/-- What a page reads of a command. -/
theorem shown_slot (slot : CommandSlot) :
    prop (mapStrings decodeUtf8 (slotDoc slot)) "kind" =
        some (.str (ascii (kindName slot.code.kind))) ∧
      prop (mapStrings decodeUtf8 (slotDoc slot)) "pulses" =
        some (.arr (slot.code.pulses.map fun v => .int v.toNat)) ∧
      prop (mapStrings decodeUtf8 (slotDoc slot)) "repeatCount" =
        some (.int slot.repeatCount.toNat) ∧
      prop (mapStrings decodeUtf8 (slotDoc slot)) "repeatDelayMs" =
        some (.int slot.repeatDelayMs.toNat) ∧
      (slot.code.kind = .rf → prop (mapStrings decodeUtf8 (slotDoc slot)) "freqMHz" =
        some (.int slot.code.freqMHz.toNat)) := by
  rw [decoded_slotDoc]
  obtain ⟨name, code, repeatCount, repeatDelayMs⟩ := slot
  obtain ⟨kind, pulses, freqMHz, carrierHz, rolling, frameRepeat⟩ := code
  cases kind with
  | rf => exact ⟨rfl, rfl, rfl, rfl, fun _ => rfl⟩
  | ir => exact ⟨rfl, rfl, rfl, rfl, fun h => by cases h⟩
  | none => exact ⟨rfl, rfl, rfl, rfl, fun h => by cases h⟩

theorem isText_kindName (kind : CodeKind) :
    isText (some (.str (ascii (kindName kind)))) "none" = decide (kind = .none) ∧
      isText (some (.str (ascii (kindName kind)))) "rf" = decide (kind = .rf) := by
  cases kind <;> decide

/-- A command's length, where it is a list. -/
theorem lengthOf_arr (xs : List Json) (fallback : Json) :
    lengthOf (orElse (some (.arr xs)) fallback) = some (xs.length : ℚ) :=
  numberValue_natCast xs.length

/-- A learned code that passes the device's checks passes the page's. -/
theorem commandIssues_slotDoc (cl label : Bytes) {slot : CommandSlot}
    (hslot : validateSlot slot = .ok) :
    commandIssues cl label (mapStrings decodeUtf8 (slotDoc slot)) = [] ↔
      (slot.code.kind = .none →
        slot.code.pulses.length % 2 = 0 ∧ slot.code.pulses.length ≤ maxImportPulses) := by
  obtain ⟨hkind, hpulses, hcount, hdelay, hfreq⟩ := shown_slot slot
  obtain ⟨hnone, hrf⟩ := isText_kindName slot.code.kind
  rw [validateSlot_eq_ok_iff, validateCode_eq_ok_iff] at hslot
  obtain ⟨-, hrepeat, hpause, hcode⟩ := hslot
  have hrepeatShown : inRange (some (.int slot.repeatCount.toNat)) 1 maxRepeat = true :=
    (inRange_natCast _ _ _).mpr
      ⟨UInt8.le_iff_toNat_le.mp hrepeat.1, UInt8.le_iff_toNat_le.mp hrepeat.2⟩
  have hpauseShown : inRange (some (.int slot.repeatDelayMs.toNat)) 0 maxDelay = true :=
    (inRange_natCast _ _ _).mpr ⟨Nat.zero_le _, UInt16.le_iff_toNat_le.mp hpause⟩
  have hlength := lengthOf_arr (slot.code.pulses.map fun v => .int v.toNat) (.arr [])
  rw [List.length_map] at hlength
  have hempty : some (slot.code.pulses.length : ℚ) = some 0 ↔ slot.code.pulses = [] := by
    rw [Option.some_inj, Nat.cast_eq_zero, List.length_eq_zero_iff]
  have heven : Option.map (fun n : ℚ => isInteger (n / 2)) (some (slot.code.pulses.length : ℚ)) =
      some true ↔ slot.code.pulses.length % 2 = 0 := by
    rw [Option.map_some, Option.some_inj, isInteger_half]
  have hmany : Option.map (fun n : ℚ => decide ((maxImportPulses : ℚ) < n))
      (some (slot.code.pulses.length : ℚ)) = some true ↔
        maxImportPulses < slot.code.pulses.length := by
    rw [Option.map_some, Option.some_inj, decide_eq_true_iff, Nat.cast_lt]
  have hradio : slot.code.kind = .rf →
      (prop (mapStrings decodeUtf8 (slotDoc slot)) "freqMHz").bind numberValue = some 315 ∨
        (prop (mapStrings decodeUtf8 (slotDoc slot)) "freqMHz").bind numberValue = some 433 := by
    intro hkindRf
    rw [hfreq hkindRf, Option.bind_some, numberValue_natCast]
    rcases hcode with hcode | ⟨-, -, -, hrfFields, -⟩
    · rw [hkindRf] at hcode
      cases hcode
    · rcases (hrfFields hkindRf).1 with heq | heq
      · exact Or.inl (by rw [heq]; rfl)
      · exact Or.inr (by rw [heq]; rfl)
  unfold commandIssues
  simp only [hkind, hpulses, hcount, hdelay, hlength, hnone, hrf, hrepeatShown, hpauseShown,
    hempty, heven, hmany, List.append_eq_nil_iff]
  rcases hcode with hunlearned | ⟨hsome, hpairs, hfew, -⟩
  · simp [hunlearned]
  · have hfewShown : ¬maxImportPulses < slot.code.pulses.length := Nat.not_lt.mpr hfew
    simp only [hsome, hpairs, hfewShown, Nat.not_lt.mp hfewShown]
    by_cases hkindRf : slot.code.kind = .rf
    · rcases hradio hkindRf with heq | heq <;> simp [heq]
    · simp [hkindRf]

/-- What the page asks of a device beyond the checks of `validate`. -/
structure Accepted (d : VirtualDevice) : Prop where
  service : d.service ∈ serviceNames ++ objectPrototypeNames
  unlearned : ∀ slot ∈ shownSlots d.commands, slot.code.kind = .none →
    slot.code.pulses.length % 2 = 0 ∧ slot.code.pulses.length ≤ maxImportPulses

theorem knownNames_ascii :
    ∀ name ∈ serviceNames ++ objectPrototypeNames, ∀ c ∈ name, c < 0x80 := by
  have hall : (serviceNames ++ objectPrototypeNames).all isAscii = true := by decide
  exact fun name hname => isAscii_iff.mp (List.all_eq_true.mp hall name hname)

theorem knownService_decoded (service : Bytes) :
    knownService (some (.str (decodeUtf8 service))) = true ↔
      service ∈ serviceNames ++ objectPrototypeNames := by
  have hmem : decodeUtf8 service ∈ serviceNames ++ objectPrototypeNames ↔
      service ∈ serviceNames ++ objectPrototypeNames := by
    constructor
    · intro h
      have heq := (decodeUtf8_eq_iff (knownNames_ascii _ h)).mp rfl
      rwa [← heq] at h
    · intro h
      rwa [decodeUtf8_ascii (knownNames_ascii service h)]
  rw [← hmem]
  simp only [knownService, concatText, toText, List.contains_iff_mem]

/-- The commands a page reads of a device. -/
theorem shown_commands (slots : List CommandSlot) :
    mapStrings decodeUtf8 (.obj (commandMembers slots)) =
      .obj ((shownSlots slots).map fun slot =>
        (decodeUtf8 slot.name, mapStrings decodeUtf8 (slotDoc slot))) := by
  have hwritten : commandMembers slots =
      (KeyedList.latest CommandSlot.name slots).map fun slot => (slot.name, slotDoc slot) :=
    foldl_setMember id (fun _ _ h => h) CommandSlot.name slotDoc slots []
  have hread := foldl_setMember id (fun _ _ h => h)
    (fun slot : CommandSlot => decodeUtf8 slot.name)
    (fun slot => mapStrings decodeUtf8 (slotDoc slot))
    (KeyedList.latest CommandSlot.name slots) []
  rw [mapStrings, mapMembers_eq, hwritten, List.foldl_map]
  exact congrArg Json.obj hread

theorem shown_device (d : VirtualDevice) :
    prop (mapStrings decodeUtf8 (deviceDoc d)) "id" = some (.int d.id.toNat) ∧
      prop (mapStrings decodeUtf8 (deviceDoc d)) "service" =
        some (.str (decodeUtf8 d.service)) ∧
      prop (mapStrings decodeUtf8 (deviceDoc d)) "commands" =
        some (.obj ((shownSlots d.commands).map fun slot =>
          (decodeUtf8 slot.name, mapStrings decodeUtf8 (slotDoc slot)))) := by
  have hprop := fun key => @prop_decoded [(ascii "id", .int d.id.toNat),
    (ascii "service", .str d.service), (ascii "name", .str d.name),
    (ascii "commands", .obj (commandMembers d.commands))]
    (by simp only [List.map_cons, List.map_nil]; decide)
    (by simp only [List.map_cons, List.map_nil]; decide) key
  unfold deviceDoc
  rw [hprop, hprop, hprop, ← shown_commands]
  exact ⟨rfl, rfl, rfl⟩

/-- An id from 2 on that was not met before. -/
theorem scanId_new {scan : ImportScan} {n : Nat} (label : Bytes) (hid : 2 ≤ n)
    (hnew : (n : ℚ) ∉ scan.seenIds) :
    scanId scan label (some (.int n)) =
      { issues := scan.issues
        seenIds := n :: scan.seenIds
        maxId := if scan.maxId < n then n else scan.maxId } := by
  have hlow : ¬(n : ℚ) < 1 := by
    rw [not_lt]
    exact_mod_cast Nat.le_of_succ_le hid
  have hbridge : ¬(n : ℚ) = 1 := by
    intro heq
    have : n = 1 := by exact_mod_cast heq
    omega
  unfold scanId
  rw [Option.bind_some, numberValue_natCast]
  simp only [isInteger_natCast, Bool.not_true, hlow, decide_false, Bool.or_self,
    Bool.false_eq_true, if_false, hbridge, hnew]

/-- One step of the loop over the devices. -/
theorem scanDevice_shown {scan : ImportScan} {d : VirtualDevice} (hid : 2 ≤ d.id)
    (hnew : (d.id.toNat : ℚ) ∉ scan.seenIds)
    (hslots : ∀ slot ∈ d.commands, validateSlot slot = .ok) :
    (scanDevice scan (mapStrings decodeUtf8 (deviceDoc d))).seenIds =
        (d.id.toNat : ℚ) :: scan.seenIds ∧
      (∀ next : ℚ, (scanDevice scan (mapStrings decodeUtf8 (deviceDoc d))).maxId < next ↔
        scan.maxId < next ∧ (d.id.toNat : ℚ) < next) ∧
      ((scanDevice scan (mapStrings decodeUtf8 (deviceDoc d))).issues = [] ↔
        scan.issues = [] ∧ Accepted d) := by
  obtain ⟨hidShown, hservice, hcommands⟩ := shown_device d
  obtain ⟨ms, hms⟩ : ∃ ms, mapStrings decodeUtf8 (deviceDoc d) = .obj ms := ⟨_, rfl⟩
  have hobject : (!truthy (.obj ms) || !isObject (.obj ms)) = false := rfl
  have hentries : ∀ fallback, entries (orElse (some (.obj ((shownSlots d.commands).map fun slot =>
      (decodeUtf8 slot.name, mapStrings decodeUtf8 (slotDoc slot))))) fallback) =
      (shownSlots d.commands).map fun slot =>
        (decodeUtf8 slot.name, mapStrings decodeUtf8 (slotDoc slot)) := fun _ => rfl
  have hstep := fun label => @scanId_new scan d.id.toNat label (UInt16.le_iff_toNat_le.mp hid) hnew
  rw [hms] at hidShown hservice hcommands ⊢
  unfold scanDevice
  simp only [hobject, Bool.false_eq_true, if_false, hidShown, hservice, hcommands, hstep, hentries]
  refine ⟨trivial, ?_, ?_⟩
  · intro next
    split_ifs with hlarger
    · exact ⟨fun h => ⟨hlarger.trans h, h⟩, fun h => h.2⟩
    · exact ⟨fun h => ⟨h, (not_lt.mp hlarger).trans_lt h⟩, fun h => h.1⟩
  · have hserviceOk : (if knownService (some (.str (decodeUtf8 d.service))) = true then []
        else [ascii "Device \"" ++ deviceLabel (.obj ms) ++ ascii "\" has an unknown type \"" ++
          escapeHtml (some (.str (decodeUtf8 d.service))) ++ ascii "\"."]) = [] ↔
        d.service ∈ serviceNames ++ objectPrototypeNames := by
      rw [← knownService_decoded]
      split_ifs with hknown <;> simp [hknown]
    rw [List.append_eq_nil_iff, List.append_eq_nil_iff, hserviceOk, List.flatMap_eq_nil_iff,
      List.forall_mem_map, and_assoc]
    apply and_congr_right
    intro _
    have hvalid : ∀ slot ∈ shownSlots d.commands, validateSlot slot = .ok := fun slot hslot =>
      hslots slot (KeyedList.mem_latest _ (KeyedList.mem_latest _ hslot))
    constructor
    · rintro ⟨hknown, hcommandsOk⟩
      refine ⟨hknown, ?_⟩
      intro slot hslot
      exact (commandIssues_slotDoc _ _ (hvalid slot hslot)).mp (hcommandsOk slot hslot)
    · rintro ⟨hknown, hunlearned⟩
      refine ⟨hknown, ?_⟩
      intro slot hslot
      exact (commandIssues_slotDoc _ _ (hvalid slot hslot)).mpr (hunlearned slot hslot)

/-- The loop over the devices. -/
theorem scanDevices_shown {devices : List VirtualDevice} {scan : ImportScan}
    (hvalid : ∀ d ∈ devices, 2 ≤ d.id ∧ ∀ slot ∈ d.commands, validateSlot slot = .ok)
    (hids : (devices.map VirtualDevice.id).Nodup)
    (hnew : ∀ d ∈ devices, (d.id.toNat : ℚ) ∉ scan.seenIds) :
    (∀ next : ℚ, ((devices.map fun d => mapStrings decodeUtf8 (deviceDoc d)).foldl
        scanDevice scan).maxId < next ↔
      scan.maxId < next ∧ ∀ d ∈ devices, (d.id.toNat : ℚ) < next) ∧
    (((devices.map fun d => mapStrings decodeUtf8 (deviceDoc d)).foldl
        scanDevice scan).issues = [] ↔ scan.issues = [] ∧ ∀ d ∈ devices, Accepted d) := by
  induction devices generalizing scan with
  | nil => simp
  | cons d rest ih =>
      rw [List.map_cons, List.nodup_cons] at hids
      rw [List.forall_mem_cons] at hvalid hnew
      obtain ⟨hseen, hmax, hissues⟩ := scanDevice_shown hvalid.1.1 hnew.1 hvalid.1.2
      have hrest : ∀ other ∈ rest, (other.id.toNat : ℚ) ∉
          (scanDevice scan (mapStrings decodeUtf8 (deviceDoc d))).seenIds := by
        intro other hother hmem
        rw [hseen] at hmem
        rcases List.mem_cons.mp hmem with heq | hold
        · have hsame : other.id = d.id := UInt16.toNat_inj.mp (by exact_mod_cast heq)
          exact hids.1 (hsame ▸ List.mem_map_of_mem hother)
        · exact hnew.2 other hother hold
      obtain ⟨hmaxRest, hissuesRest⟩ := ih hvalid.2 hids.2 hrest
      rw [List.map_cons, List.foldl_cons]
      constructor
      · intro next
        rw [hmaxRest next, hmax next, List.forall_mem_cons, and_assoc]
      · rw [hissuesRest, hissues, List.forall_mem_cons, and_assoc]

theorem utf16Length_ascii {s : Bytes} (h : ∀ c ∈ s, c < 0x80) : utf16Length s = s.length := by
  unfold utf16Length
  induction s with
  | nil => rfl
  | cons b bs ih =>
      rw [List.forall_mem_cons] at h
      have hlow : ¬(0x80 ≤ b ∧ b < 0xC0) := fun hmid => UInt8.not_le.mpr h.1 hmid.1
      have hsmall : ¬0xF0 ≤ b := fun hlarge => by
        have := UInt8.lt_iff_toNat_lt.mp h.1
        have := UInt8.le_iff_toNat_le.mp hlarge
        simp at *
        omega
      rw [List.map_cons, List.sum_cons, ih h.2, if_neg hlow, if_neg hsmall, List.length_cons,
        Nat.add_comm]

theorem isHostByte_ascii {c : UInt8} (h : isHostByte c = true) : c < 0x80 := by
  simp only [isHostByte, isLabelByte, isDigitByte, Bool.or_eq_true, Bool.and_eq_true,
    decide_eq_true_eq, beq_iff_eq, UInt8.le_iff_toNat_le, UInt8.lt_iff_toNat_lt,
    ← UInt8.toNat_inj] at h ⊢
  simp at h ⊢
  omega

theorem shown_settings (s : Settings) :
    prop (mapStrings decodeUtf8 (settingsDoc s)) "listenPort" = some (.int s.listenPort.toNat) ∧
      prop (mapStrings decodeUtf8 (settingsDoc s)) "canonicalDomain" =
        some (.str (decodeUtf8 s.canonicalDomain)) := by
  have hprop := fun key => @prop_decoded [(ascii "https", .bool s.https),
    (ascii "listenPort", .int s.listenPort.toNat), (ascii "trustedProxy", .bool s.trustedProxy),
    (ascii "canonicalDomain", .str s.canonicalDomain), (ascii "ledEnabled", .bool s.ledEnabled)]
    (by simp only [List.map_cons, List.map_nil]; decide)
    (by simp only [List.map_cons, List.map_nil]; decide) key
  unfold settingsDoc
  rw [hprop, hprop]
  exact ⟨rfl, rfl⟩

/-- The page and the device differ on a domain that ends in a dot. -/
theorem settingsIssues_shown {s : Settings} (hvalid : validateSettings s = .ok) :
    settingsIssues (mapStrings decodeUtf8 (settingsDoc s)) = [] ↔
      s.canonicalDomain.getLast? ≠ some 46 := by
  rw [validateSettings_eq_ok_iff] at hvalid
  obtain ⟨hzero, hota, hmdns, hhap, hdomain⟩ := hvalid
  obtain ⟨hport, hdomainShown⟩ := shown_settings s
  have hrange : ¬((s.listenPort.toNat : ℚ) < 1 ∨ 65535 < (s.listenPort.toNat : ℚ)) := by
    have hpos : s.listenPort.toNat ≠ 0 := fun heq => hzero (UInt16.toNat_inj.mp heq)
    have hlt := s.listenPort.toNat_lt
    have hlow : ¬s.listenPort.toNat < 1 := by omega
    have hhigh : ¬65535 < s.listenPort.toNat := by omega
    rintro (hbad | hbad)
    · exact hlow (by exact_mod_cast hbad)
    · exact hhigh (by exact_mod_cast hbad)
  have hother : ∀ port : UInt16, s.listenPort ≠ port →
      (s.listenPort.toNat : ℚ) ≠ (port.toNat : ℚ) := by
    intro port hne heq
    exact hne (UInt16.toNat_inj.mp (by exact_mod_cast heq))
  have hfree : reservedPort (s.listenPort.toNat : ℚ) = none := by
    have hhapShown : (s.listenPort.toNat : ℚ) ≠ 1201 := hother hapPort hhap
    have hotaShown : (s.listenPort.toNat : ℚ) ≠ 3232 := hother otaPort hota
    have hmdnsShown : (s.listenPort.toNat : ℚ) ≠ 5353 := hother mdnsPort hmdns
    rw [reservedPort, if_neg hhapShown, if_neg hotaShown, if_neg hmdnsShown]
  unfold settingsIssues
  rw [hport, hdomainShown]
  simp only [numberValue_natCast, hrange, if_false, hfree, List.nil_append]
  rcases hdomain with hempty | ⟨hlength, hhost⟩
  · simp [hempty, decodeUtf8, decodeFrom]
  · have hascii : ∀ c ∈ s.canonicalDomain, c < 0x80 := fun c hc =>
      isHostByte_ascii (isValidHostOrIp_bytes hhost c hc)
    have hne : s.canonicalDomain.isEmpty = false := by
      unfold isValidHostOrIp at hhost
      split_ifs at hhost with hempty
      exact Bool.eq_false_iff.mpr hempty
    rw [← hostReTest_of_valid hlength hhost, decodeUtf8_ascii hascii, utf16Length_ascii hascii,
      if_neg (Nat.not_lt.mpr hlength), hne]
    cases hostReTest s.canonicalDomain <;> simp

theorem shown_config (cfg : Config) :
    ∃ ms, mapStrings decodeUtf8 (configDoc cfg) = .obj ms ∧
      prop (.obj ms) "devices" =
        some (.arr (cfg.devices.map fun d => mapStrings decodeUtf8 (deviceDoc d))) ∧
      prop (.obj ms) "nextDeviceId" = some (.int cfg.nextDeviceId.toNat) ∧
      prop (.obj ms) "settings" = some (mapStrings decodeUtf8 (settingsDoc cfg.settings)) := by
  have hprop := fun key => @prop_decoded [(ascii "schemaVersion", .int cfg.schemaVersion.toNat),
    (ascii "settings", settingsDoc cfg.settings),
    (ascii "nextDeviceId", .int cfg.nextDeviceId.toNat),
    (ascii "devices", .arr (cfg.devices.map deviceDoc))]
    (by simp only [List.map_cons, List.map_nil]; decide)
    (by simp only [List.map_cons, List.map_nil]; decide) key
  have hdevices : mapStrings decodeUtf8 (.arr (cfg.devices.map deviceDoc)) =
      .arr (cfg.devices.map fun d => mapStrings decodeUtf8 (deviceDoc d)) := by
    rw [mapStrings, mapElements_eq, List.map_map]
    rfl
  refine ⟨_, rfl, ?_, ?_, ?_⟩
  · exact (hprop "devices").trans (congrArg some hdevices)
  · exact hprop "nextDeviceId"
  · exact hprop "settings"

/-- The checks behind the parse, of a configuration the device holds. -/
theorem configIssues_shown {cfg : Config} (hvalid : validate cfg = .ok) :
    configIssues (mapStrings decodeUtf8 (configDoc cfg)) = [] ↔
      (∀ d ∈ cfg.devices, Accepted d) ∧ 2 ≤ cfg.nextDeviceId ∧
        cfg.settings.canonicalDomain.getLast? ≠ some 46 := by
  rw [validate_eq_ok_iff, validateDevices_eq_ok_iff] at hvalid
  obtain ⟨hfew, hsettings, hids, hdevices⟩ := hvalid
  obtain ⟨ms, hms, hdevicesShown, hnextShown, hsettingsShown⟩ := shown_config cfg
  obtain ⟨hmax, hissues⟩ := @scanDevices_shown cfg.devices {}
    (fun d hd => ⟨(hdevices d hd).2.1.1, (hdevices d hd).2.2.2.2⟩) hids (by simp)
  have hobject : isObject (mapStrings decodeUtf8 (settingsDoc cfg.settings)) = true := rfl
  have hcount : ¬maxImportDevices < cfg.devices.length := Nat.not_lt.mpr hfew
  rw [hms]
  unfold configIssues
  simp only [hdevicesShown, hnextShown, hsettingsShown, hobject, if_true, List.length_map, hcount,
    if_false, List.nil_append, Option.bind_some, numberValue_natCast, List.append_eq_nil_iff,
    settingsIssues_shown hsettings, hissues, true_and]
  have hcounter : ¬(cfg.nextDeviceId.toNat : ℚ) ≤ ((cfg.devices.map fun d =>
      mapStrings decodeUtf8 (deviceDoc d)).foldl scanDevice {}).maxId ↔ 2 ≤ cfg.nextDeviceId := by
    rw [not_le, hmax, UInt16.le_iff_toNat_le]
    have hone : (1 : ℚ) < (cfg.nextDeviceId.toNat : ℚ) ↔ 2 ≤ cfg.nextDeviceId.toNat :=
      Nat.one_lt_cast
    constructor
    · exact fun h => hone.mp h.1
    · intro htwo
      refine ⟨hone.mpr htwo, ?_⟩
      intro d hd
      exact_mod_cast UInt16.lt_iff_toNat_lt.mp (hdevices d hd).2.1.2
  simp only [ite_eq_right_iff, List.cons_ne_nil, imp_false, hcounter, and_assoc]

/-- The import of a backup, where the page reads the configuration served, decoded. -/
theorem restorable_of_read {A : ArduinoJson} {cfg : Config}
    (hread : ∀ v, jsonParse (decodeUtf8 (A.serializeJson (configDoc cfg))) = some v →
      v = mapStrings decodeUtf8 (configDoc cfg))
    (hvalid : validate cfg = .ok) {file : Bytes} (hfile : exportedFile A cfg = some file) :
    (∃ doc, validateImport file file.length = .accepted doc) ↔ Restorable cfg file := by
  unfold exportedFile servedConfig at hfile
  obtain ⟨v, hv, rfl⟩ := Option.map_eq_some_iff.mp hfile
  obtain ⟨text, htext, hparsed⟩ := Option.bind_eq_some_iff.mp hv
  obtain ⟨ms, hms, -⟩ := shown_config cfg
  have hdoc : v = mapStrings decodeUtf8 (configDoc cfg) := by
    unfold toJson at htext
    simp only at htext
    split_ifs at htext with hlong
    obtain rfl := Option.some.inj htext
    exact hread v hparsed
  have hback : jsonParse (Json.serialize v) = some v := by
    rw [hdoc]
    exact parse_serialize_length (mapStrings_plain (configDoc_plain cfg).1)
  have hissues := configIssues_shown hvalid
  rw [← hdoc] at hissues
  obtain rfl := hdoc.trans hms
  unfold validateImport
  by_cases hsize : maxImportBytes < (Json.serialize (.obj ms)).length
  · rw [if_pos hsize]
    constructor
    · rintro ⟨doc, hdoc⟩
      cases hdoc
    · exact fun h => absurd h.size (Nat.not_le.mpr hsize)
  · rw [if_neg hsize, hback]
    by_cases hok : configIssues (.obj ms) = []
    · obtain ⟨hdevices, hcounter, hdomain⟩ := hissues.mp hok
      refine iff_of_true ?_ ?_
      · simp [hok]
      · exact {
          size := Nat.not_lt.mp hsize
          services := fun d hd => (hdevices d hd).service
          unlearned := fun d hd => (hdevices d hd).unlearned
          counter := hcounter
          domain := hdomain }
    · refine iff_of_false ?_ ?_
      · simp [hok]
      · exact fun h => hok (hissues.mpr
          ⟨fun d hd => ⟨h.services d hd, h.unlearned d hd⟩, h.counter, h.domain⟩)

theorem escape_of_not_ascii {c : UInt8} (h : ¬c < 0x80) : Json.escape c = [c] := by
  have hshort : Json.shortEscapes.all (fun e => e.1 < 0x80) = true := by decide
  have hnone : Json.shortEscapes.lookup c = none := by
    rw [List.lookup_eq_none_iff]
    intro e he
    have hne : c ≠ e.1 := by
      rintro rfl
      exact h (by simpa using List.all_eq_true.mp hshort e he)
    simpa using hne
  have hcontrol : ¬c < 32 := fun hlow => h (UInt8.lt_trans hlow (by decide))
  simp only [Json.escape, hnone, hcontrol, if_false]

/-- A byte that is not ASCII stands in the text of its string. -/
theorem ascii_of_stringText {s : Bytes} (h : ∀ c ∈ Json.stringText s, c < 0x80) :
    ∀ c ∈ s, c < 0x80 := by
  intro c hc
  by_contra hhigh
  have hmem : c ∈ Json.stringText s := by
    unfold Json.stringText
    apply List.mem_cons_of_mem
    apply List.mem_append_left
    exact List.mem_flatMap.mpr ⟨c, hc, by simp [escape_of_not_ascii hhigh]⟩
  exact hhigh (h c hmem)

theorem ascii_of_elements {xs : List Json} (h : ∀ c ∈ Json.serializeElements xs, c < 0x80) :
    ∀ x ∈ xs, ∀ c ∈ Json.serialize x, c < 0x80 := by
  induction xs with
  | nil => simp
  | cons x xs ih =>
      rw [Json.serializeElements, List.forall_mem_cons, List.forall_mem_append] at h
      exact List.forall_mem_cons.mpr ⟨h.2.1, ih h.2.2⟩

theorem ascii_of_members {ms : List (Bytes × Json)}
    (h : ∀ c ∈ Json.serializeMembers ms, c < 0x80) :
    ∀ m ∈ ms, (∀ c ∈ m.1, c < 0x80) ∧ ∀ c ∈ Json.serialize m.2, c < 0x80 := by
  induction ms with
  | nil => simp
  | cons m ms ih =>
      obtain ⟨k, v⟩ := m
      rw [Json.serializeMembers, List.forall_mem_cons, List.forall_mem_append,
        List.forall_mem_cons, List.forall_mem_append] at h
      obtain ⟨-, hkey, -, hvalue, hrest⟩ := h
      exact List.forall_mem_cons.mpr ⟨⟨ascii_of_stringText hkey, hvalue⟩, ih hrest⟩

/-- Decoding changes no document whose text is ASCII. -/
theorem mapStrings_ascii {doc : Json} (hplain : doc.Plain)
    (h : ∀ c ∈ Json.serialize doc, c < 0x80) : mapStrings decodeUtf8 doc = doc := by
  induction doc using Json.induction with
  | hnull => rfl
  | hbool b => rfl
  | hint n => rfl
  | hfloat t => rfl
  | hstr s => rw [mapStrings, decodeUtf8_ascii (ascii_of_stringText h)]
  | harr xs ih =>
      cases hplain with
      | arr hxs =>
          have hall : ∀ x ∈ xs, ∀ c ∈ Json.serialize x, c < 0x80 := by
            cases xs with
            | nil => simp
            | cons x xs =>
                rw [Json.serialize, List.forall_mem_cons, List.forall_mem_append] at h
                exact List.forall_mem_cons.mpr ⟨h.2.1, ascii_of_elements h.2.2⟩
          rw [mapStrings, mapElements_eq]
          congr 1
          conv_rhs => rw [← List.map_id xs]
          exact List.map_congr_left fun x hx => ih x hx (hxs x hx) (hall x hx)
  | hobj ms ih =>
      cases hplain with
      | obj hkeys hms =>
          have hall : ∀ m ∈ ms, (∀ c ∈ m.1, c < 0x80) ∧ ∀ c ∈ Json.serialize m.2, c < 0x80 := by
            cases ms with
            | nil => simp
            | cons m ms =>
                obtain ⟨k, v⟩ := m
                rw [Json.serialize, List.forall_mem_cons, List.forall_mem_append,
                  List.forall_mem_cons, List.forall_mem_append] at h
                obtain ⟨-, hkey, -, hvalue, hrest⟩ := h
                exact List.forall_mem_cons.mpr
                  ⟨⟨ascii_of_stringText hkey, hvalue⟩, ascii_of_members hrest⟩
          apply mapStrings_obj_of_fixed hkeys
          intro m hm
          exact ⟨decodeUtf8_ascii (hall m hm).1, ih m hm (hms m hm) (hall m hm).2⟩

/-- A page reads a plain document back from its ASCII text. -/
theorem jsonParse_ascii {doc : Json} (hplain : doc.Plain)
    (h : ∀ c ∈ Json.serialize doc, c < 0x80) :
    jsonParse (decodeUtf8 (Json.serialize doc)) = some (mapStrings decodeUtf8 doc) := by
  rw [decodeUtf8_ascii h, mapStrings_ascii hplain h]
  exact parse_serialize_length hplain

/-- A library that writes ASCII documents alone. -/
def asciiJson : ArduinoJson :=
  { strictJson with
    serializeJson := fun doc =>
      if isAscii (Json.serialize doc) then Json.serialize doc else [] }

theorem asciiJson_readable : Readable asciiJson := by
  intro doc v hplain hv
  have hwritten : asciiJson.serializeJson doc =
      if isAscii (Json.serialize doc) then Json.serialize doc else [] := rfl
  rw [hwritten] at hv
  split_ifs at hv with hascii
  · rw [jsonParse_ascii hplain (isAscii_iff.mp hascii)] at hv
    exact (Option.some.inj hv).symm
  · cases hv

/-- A backup is taken back exactly when the page knows its services and its domain ends
in no dot, its commands that hold no code have pulses the page takes, its counter is above
the bridge's id and the text is within the ceiling. -/
theorem backup_restorable_iff {A : ArduinoJson} (hA : Readable A) {cfg : Config}
    (hvalid : validate cfg = .ok) {file : Bytes} (hfile : exportedFile A cfg = some file) :
    (∃ doc, validateImport file file.length = .accepted doc) ↔ Restorable cfg file :=
  restorable_of_read (fun v hv => hA _ v (configDoc_plain cfg).1 hv) hvalid hfile

/-- The file the page exports for the remote. -/
def remoteBackup : Bytes :=
  (exportedFile asciiJson remoteConfig).getD []

theorem backup_restorable_iff_remote :
    exportedFile asciiJson remoteConfig = some remoteBackup ∧
      ∃ doc, validateImport remoteBackup remoteBackup.length = .accepted doc := by
  have hfile : exportedFile asciiJson remoteConfig = some remoteBackup := by
    have hsome : (exportedFile asciiJson remoteConfig).isSome = true := by decide +kernel
    obtain ⟨file, hfile⟩ := Option.isSome_iff_exists.mp hsome
    rw [remoteBackup, hfile]
    rfl
  refine ⟨hfile, ?_⟩
  rw [backup_restorable_iff asciiJson_readable (by decide) hfile]
  exact {
    size := by decide +kernel
    services := by decide
    unlearned := by decide
    counter := by decide
    domain := by decide }

/-- A remote with its domain written with the root's dot, which the device takes. -/
def rootedRemote : Config :=
  { remoteConfig with
    schemaVersion := schemaVersionNow
    settings := { canonicalDomain := ascii "example.com." } }

/-- The device runs the remote it reads from a request, serves it, and the page refuses
the backup. -/
theorem backup_with_rooted_domain_refused :
    ∃ body file, fromJson strictJson body = some rootedRemote ∧ validate rootedRemote = .ok ∧
      exportedFile strictJson rootedRemote = some file ∧
      ¬∃ doc, validateImport file file.length = .accepted doc := by
  have hvalid : validate rootedRemote = .ok := by decide +kernel
  obtain ⟨body, hbody⟩ : ∃ body, toJson strictJson rootedRemote = some body :=
    Option.isSome_iff_exists.mp (by decide +kernel)
  obtain ⟨file, hfile⟩ : ∃ file, exportedFile strictJson rootedRemote = some file :=
    Option.isSome_iff_exists.mp (by decide +kernel)
  have hheld : fromJson strictJson ((toJson strictJson rootedRemote).getD []) =
      some rootedRemote := by decide +kernel
  rw [hbody] at hheld
  refine ⟨body, file, hheld, hvalid, hfile, ?_⟩
  rw [restorable_of_read ?_ hvalid hfile]
  · exact fun h => h.domain (by decide)
  · intro v hv
    have hascii : isAscii (Json.serialize (configDoc rootedRemote)) = true := by decide +kernel
    have hback := jsonParse_ascii (configDoc_plain rootedRemote).1 (isAscii_iff.mp hascii)
    exact (Option.some.inj (hback.symm.trans hv)).symm

end RfIrBlaster.Browser
