/-
What Home does with the accessories: the `update` methods of `accessory_builder.cpp`.
HomeSpan calls `update` once for each service a request writes to, and keeps the new values
only when it answers true.
-/
import RfIrBlaster.AccessoryBuilder
import RfIrBlaster.PageEdits
import RfIrBlaster.PendingSends
import RfIrBlaster.StateMachine

namespace RfIrBlaster.Home

open Browser (commandsForService powerCommands)
open Repeat
open Transmit (Transmitter)

/-- What a request writes to one service.  One that writes a characteristic `update` does not
read, such as the name, writes none of these. -/
structure Write where
  power : Option Bool := none
  target : Option UInt8 := none
  remoteKey : Option UInt8 := none
  volumeSelector : Option UInt8 := none

/-- The values Home reads. -/
structure Values where
  power : Bool := false
  target : UInt8 := 0
  pos : UInt8 := 0
deriving DecidableEq, Repr

/-- What calls of `transmit` answer together, the commands they keyed and the sender they
leave. -/
structure Fired where
  answer : Bool
  keyed : List CommandSlot
  sender : Sender

section Update

variable (s : Sender) (now : UInt32) (aid : UInt16) (tx : Bytes → Transmitter)

/-- `tx` is the transmitter the send of each command finds. -/
def press (name : Bytes) : Fired :=
  let pressed := transmit s now aid name (tx name)
  ⟨pressed.answer, pressed.keyed.toList, pressed.sender⟩

def powerCommand (want : Bool) : Bytes :=
  ascii (if want then "on" else "off")

/-- Discrete on or off, falling back to the toggle. -/
def firePower (want : Bool) : Fired :=
  let first := press s now aid tx (powerCommand want)
  if first.answer then first else press first.sender now aid tx (ascii "toggle")

def keyCommand (remoteKey : UInt8) : Bytes :=
  if remoteKey = 4 then ascii "key_up"
  else if remoteKey = 5 then ascii "key_down"
  else if remoteKey = 6 then ascii "key_left"
  else if remoteKey = 7 then ascii "key_right"
  else if remoteKey = 8 then ascii "key_select"
  else if remoteKey = 9 then ascii "key_back"
  else if remoteKey = 11 then ascii "key_play_pause"
  else if remoteKey = 15 then ascii "key_info"
  else []

/-- `cmd` of a window covering. -/
def coverCommand (t : UInt8) : Bytes :=
  ascii (if t ≤ 5 then "down" else if 95 ≤ t then "up" else "stop")

def volumeCommand (volumeSelector : UInt8) : Bytes :=
  ascii (if volumeSelector = 0 then "volume_up" else "volume_down")

/-- `BlasterSwitch`, `BlasterOutlet`, `BlasterLightBulb` and `BlasterFan`: a request that does
not write the power sends for the one there is. -/
def updatePower (v : Values) (w : Write) : Fired × Values :=
  let want := w.power.getD v.power
  let fired := firePower s now aid tx want
  (fired, if fired.answer then { v with power := want } else v)

def updateWindowCovering (v : Values) (w : Write) : Fired × Values :=
  let t := w.target.getD v.target
  let fired := press s now aid tx (coverCommand t)
  (fired, if fired.answer then { v with target := t, pos := t } else v)

/-- The answer of a key is dropped. -/
def updateTelevision (remote : Bool) (v : Values) (w : Write) : Fired × Values :=
  let powered := w.power.elim ⟨true, [], s⟩ (firePower s now aid tx)
  if !powered.answer then (powered, v)
  else
    let pressed : Fired :=
      match w.remoteKey with
      | none => ⟨true, [], powered.sender⟩
      | some key =>
          if remote then press powered.sender now aid tx (keyCommand key)
          else ⟨true, [], powered.sender⟩
    (⟨true, powered.keyed ++ pressed.keyed, pressed.sender⟩,
      { v with power := w.power.getD v.power })

def updateTvSpeaker (w : Write) : Fired :=
  match w.volumeSelector with
  | none => ⟨true, [], s⟩
  | some sel => { press s now aid tx (volumeCommand sel) with answer := true }

end Update

/-- The services of an accessory a request can write to. -/
inductive Part where
  | main
  | speaker
deriving DecidableEq, Repr

/-- `update` of one service of an accessory; one that is not there is never called. -/
def update (acc : Accessory) (part : Part) (s : Sender) (now : UInt32) (tx : Bytes → Transmitter)
    (v : Values) (w : Write) : Fired × Values :=
  match part, acc.service with
  | .main, some .switch | .main, some .outlet | .main, some .lightBulb | .main, some .fan =>
      updatePower s now acc.aid tx v w
  | .main, some .windowCovering => updateWindowCovering s now acc.aid tx v w
  | .main, some .television => updateTelevision s now acc.aid tx acc.remoteKey v w
  | .speaker, some .television =>
      if acc.speaker then (updateTvSpeaker s now acc.aid tx w, v) else (⟨false, [], s⟩, v)
  | _, _ => (⟨false, [], s⟩, v)

/-- The bridge, with the values Home sees. -/
structure Bridge where
  builder : Builder
  pending : List PendingSeq := []
  values : UInt16 → Values := fun _ => {}

def Bridge.sender (b : Bridge) : Sender :=
  ⟨b.builder.config, b.pending⟩

inductive Event where
  | write (aid : UInt16) (part : Part) (w : Write) (now : UInt32) (tx : Bytes → Transmitter)
  | poll (now : UInt32) (tx : UInt16 → Transmitter)
  | apply (cfg : Config)

namespace Bridge

/-- An accessory that is created anew starts with the values of its constructor. -/
def applyConfigChange (b : Bridge) (cfg : Config) : Bridge where
  builder := b.builder.applyConfigChange cfg
  pending := (Repeat.applyConfigChange b.sender cfg).pending
  values := fun aid =>
    if aid ∈ (Builder.liveDiff b.builder.config cfg).toAdd.map PlannedAccessory.aid then {}
    else b.values aid

/-- The commands an event keys, with their accessory. -/
def keyed (b : Bridge) : Event → List (UInt16 × CommandSlot)
  | .write aid part w now tx =>
      match b.builder.accessories.find? fun acc => acc.aid == aid with
      | none => []
      | some acc =>
          (update acc part b.sender now tx (b.values aid) w).1.keyed.map fun slot => (aid, slot)
  | .poll now tx =>
      (b.pending.filter (PendingSeq.sends b.builder.config now tx)).filterMap fun p =>
        (resolveSlot b.builder.config p.aid p.name).map fun slot => (p.aid, slot)
  | .apply _ => []

def step (b : Bridge) : Event → Bridge
  | .write aid part w now tx =>
      match b.builder.accessories.find? fun acc => acc.aid == aid with
      | none => b
      | some acc =>
          let updated := update acc part b.sender now tx (b.values aid) w
          { b with
            pending := updated.1.sender.pending
            values := Function.update b.values aid updated.2 }
  | .poll now tx => { b with pending := (pollPendingSends b.sender now tx).1.pending }
  | .apply cfg => b.applyConfigChange cfg

def machine (cfg : Config) : StateMachine Bridge Event where
  init := { builder := Builder.buildAccessories cfg }
  step := step

end Bridge

section Press

variable {s : Sender} {now : UInt32} {aid : UInt16} {tx : Bytes → Transmitter} {name : Bytes}
  {slot : CommandSlot}

/-- The code goes out when the accessory is idle. -/
def Sendable (cfg : Config) (aid : UInt16) (tx : Bytes → Transmitter) (name : Bytes)
    (slot : CommandSlot) : Prop :=
  resolveSlot cfg aid name = some slot ∧ fires (tx name) (some slot.code) = true

theorem isLearned_of_fires {tx : Transmitter} {code : StoredCode}
    (h : fires tx (some code) = true) : code.isLearned = true := by
  cases hlearned : code.isLearned with
  | true => rfl
  | false => simp [fires, Transmit.fireCode, hlearned] at h

/-- Everything a press can do: key its command, be dropped on a busy accessory, or be refused. -/
theorem press_cases (s : Sender) (now : UInt32) (aid : UInt16) (tx : Bytes → Transmitter)
    (name : Bytes) :
    (∃ slot, Sendable s.config aid tx name slot ∧ aidBusy s.pending aid = false ∧
      (press s now aid tx name).answer = true ∧ (press s now aid tx name).keyed = [slot] ∧
      (press s now aid tx name).sender.config = s.config ∧
      ∀ p ∈ (press s now aid tx name).sender.pending,
        p ∈ s.pending ∨ p.aid = aid ∧ p.name = name) ∨
    (aidBusy s.pending aid = true ∧ press s now aid tx name = ⟨true, [], s⟩) ∨
    ((∀ slot, ¬Sendable s.config aid tx name slot ∨ aidBusy s.pending aid = true) ∧
      press s now aid tx name = ⟨false, [], s⟩) := by
  unfold press transmit Sendable
  cases hslot : resolveSlot s.config aid name with
  | none => exact Or.inr (Or.inr ⟨fun slot => Or.inl fun h => (nomatch h.1), rfl⟩)
  | some slot =>
      dsimp only
      split_ifs with hlearned hbusy hfires hmany
      · refine Or.inr (Or.inr ⟨fun other => Or.inl fun h => ?_, rfl⟩)
        rw [Option.some.injEq] at h
        rw [h.1, isLearned_of_fires h.2] at hlearned
        cases hlearned
      · exact Or.inr (Or.inl ⟨hbusy, rfl⟩)
      · refine Or.inr (Or.inr ⟨fun other => Or.inl fun h => ?_, rfl⟩)
        rw [Option.some.injEq] at h
        rw [h.1, h.2] at hfires
        cases hfires
      · left
        refine ⟨slot, ⟨rfl, by simpa using hfires⟩, by simpa using hbusy, rfl, rfl, rfl, ?_⟩
        intro p hp
        rcases List.mem_append.mp hp with hold | hnew
        · exact Or.inl hold
        · rw [List.mem_singleton.mp hnew]
          exact Or.inr ⟨rfl, rfl⟩
      · left
        exact ⟨slot, ⟨rfl, by simpa using hfires⟩, by simpa using hbusy, rfl, rfl, rfl,
          fun p hp => Or.inl hp⟩

theorem mem_press : slot ∈ (press s now aid tx name).keyed ↔
    aidBusy s.pending aid = false ∧ Sendable s.config aid tx name slot := by
  rcases press_cases s now aid tx name with
    ⟨slot', hsend, hidle, -, hkeyed, -⟩ | ⟨hbusy, heq⟩ | ⟨hnone, heq⟩
  · rw [hkeyed, List.mem_singleton]
    constructor
    · rintro rfl
      exact ⟨hidle, hsend⟩
    · rintro ⟨-, hslot, -⟩
      exact Option.some.inj (hslot.symm.trans hsend.1)
  · simp [heq, hbusy]
  · rw [heq]
    rcases hnone slot with hno | hbusy
    · simp [hno]
    · simp [hbusy]

theorem press_refused (h : (press s now aid tx name).answer = false) :
    (press s now aid tx name).keyed = [] ∧ (press s now aid tx name).sender = s := by
  rcases press_cases s now aid tx name with ⟨_, -, -, hyes, -⟩ | ⟨-, heq⟩ | ⟨-, heq⟩
  · rw [hyes] at h
    cases h
  · rw [heq] at h
    cases h
  · exact ⟨by rw [heq], by rw [heq]⟩

/-- An idle accessory refuses exactly what cannot be sent. -/
theorem press_answer (hidle : aidBusy s.pending aid = false) :
    (press s now aid tx name).answer = true ↔ ∃ slot, Sendable s.config aid tx name slot := by
  rcases press_cases s now aid tx name with
    ⟨slot, hsend, -, hyes, -⟩ | ⟨hbusy, -⟩ | ⟨hnone, heq⟩
  · exact iff_of_true hyes ⟨slot, hsend⟩
  · rw [hidle] at hbusy
    cases hbusy
  · refine iff_of_false (by simp [heq]) ?_
    rintro ⟨slot, hsend⟩
    rcases hnone slot with hno | hbusy
    · exact hno hsend
    · rw [hidle] at hbusy
      cases hbusy

theorem press_config : (press s now aid tx name).sender.config = s.config := by
  rcases press_cases s now aid tx name with ⟨_, -, -, -, -, h, -⟩ | ⟨-, heq⟩ | ⟨-, heq⟩
  · exact h
  · rw [heq]
  · rw [heq]

theorem press_pending {p : PendingSeq} (h : p ∈ (press s now aid tx name).sender.pending) :
    p ∈ s.pending ∨ p.aid = aid ∧ p.name = name := by
  rcases press_cases s now aid tx name with ⟨_, -, -, -, -, -, hp⟩ | ⟨-, heq⟩ | ⟨-, heq⟩
  · exact hp p h
  · rw [heq] at h
    exact Or.inl h
  · rw [heq] at h
    exact Or.inl h

/-- A busy accessory sends nothing more. -/
theorem press_busy (hbusy : aidBusy s.pending aid = true) :
    (press s now aid tx name).keyed = [] ∧ (press s now aid tx name).sender = s := by
  rcases press_cases s now aid tx name with ⟨_, -, hidle, -⟩ | ⟨-, heq⟩ | ⟨-, heq⟩
  · rw [hbusy] at hidle
    cases hidle
  · exact ⟨by rw [heq], by rw [heq]⟩
  · exact ⟨by rw [heq], by rw [heq]⟩

/-- The discrete command goes out, or the toggle when the discrete one cannot. -/
theorem mem_firePower {want : Bool} : slot ∈ (firePower s now aid tx want).keyed ↔
    aidBusy s.pending aid = false ∧
      (Sendable s.config aid tx (powerCommand want) slot ∨
        (∀ other, ¬Sendable s.config aid tx (powerCommand want) other) ∧
          Sendable s.config aid tx (ascii "toggle") slot) := by
  cases hidle : aidBusy s.pending aid with
  | true =>
      have hfirst := @press_busy s now aid tx (powerCommand want) hidle
      have hsecond := @press_busy s now aid tx (ascii "toggle") hidle
      unfold firePower
      dsimp only
      split_ifs
      · simp [hfirst.1]
      · simp [hfirst.2, hsecond.1]
  | false =>
      have hanswer := @press_answer s now aid tx (powerCommand want) hidle
      unfold firePower
      dsimp only
      split_ifs with hfirst
      · obtain ⟨other, hother⟩ := hanswer.mp hfirst
        rw [mem_press]
        constructor
        · rintro ⟨-, hsend⟩
          exact ⟨rfl, Or.inl hsend⟩
        · rintro ⟨-, hsend | ⟨hnone, -⟩⟩
          · exact ⟨hidle, hsend⟩
          · exact absurd hother (hnone other)
      · have hnone : ∀ other, ¬Sendable s.config aid tx (powerCommand want) other :=
          fun other hother => hfirst (hanswer.mpr ⟨other, hother⟩)
        obtain ⟨-, hsame⟩ := press_refused (Bool.eq_false_iff.mpr hfirst)
        rw [hsame, mem_press]
        simp [hidle, hnone]

theorem firePower_config {want : Bool} :
    (firePower s now aid tx want).sender.config = s.config := by
  unfold firePower
  dsimp only
  split_ifs
  · exact press_config
  · exact press_config.trans press_config

theorem firePower_pending {want : Bool} {p : PendingSeq}
    (h : p ∈ (firePower s now aid tx want).sender.pending) :
    p ∈ s.pending ∨ p.aid = aid ∧ p.name ∈ powerCommands := by
  have hwant : powerCommand want ∈ powerCommands := by cases want <;> decide
  have htoggle : ascii "toggle" ∈ powerCommands := by decide
  unfold firePower at h
  dsimp only at h
  split_ifs at h
  · rcases press_pending h with hold | ⟨haid, hname⟩
    · exact Or.inl hold
    · exact Or.inr ⟨haid, hname ▸ hwant⟩
  · rcases press_pending h with hold | ⟨haid, hname⟩
    · rcases press_pending hold with hold | ⟨haid, hname⟩
      · exact Or.inl hold
      · exact Or.inr ⟨haid, hname ▸ hwant⟩
    · exact Or.inr ⟨haid, hname ▸ htoggle⟩

theorem firePower_busy {want : Bool} (hbusy : aidBusy s.pending aid = true) :
    (firePower s now aid tx want).sender = s := by
  obtain ⟨-, hfirst⟩ := @press_busy s now aid tx (powerCommand want) hbusy
  unfold firePower
  dsimp only
  split_ifs
  · exact hfirst
  · rw [hfirst]
    exact (press_busy hbusy).2

end Press

def keyNames : List Bytes :=
  [ascii "key_up", ascii "key_down", ascii "key_left", ascii "key_right", ascii "key_select",
    ascii "key_back", ascii "key_play_pause", ascii "key_info"]

def volumeNames : List Bytes :=
  [ascii "volume_up", ascii "volume_down"]

/-- The commands the services of an accessory press; a key without a name presses the command
of the empty name. -/
def commandsOf (acc : Accessory) : List Bytes :=
  match acc.service with
  | some .switch | some .outlet | some .lightBulb | some .fan => powerCommands
  | some .windowCovering => [ascii "up", ascii "down", ascii "stop"]
  | some .television =>
      powerCommands ++ (if acc.remoteKey then [] :: keyNames else []) ++
        if acc.speaker then volumeNames else []
  | _ => []

theorem keyCommand_cases (key : UInt8) : keyCommand key ∈ [] :: keyNames := by
  unfold keyCommand
  split_ifs <;> decide

/-- Every key of the page has a number, and so has the unnamed one. -/
theorem exists_keyCommand {name : Bytes} (h : name ∈ [] :: keyNames) :
    ∃ key, keyCommand key = name := by
  have hall : ∀ n ∈ [] :: keyNames, n ∈ [0, 4, 5, 6, 7, 8, 9, 11, 15].map keyCommand := by
    decide
  obtain ⟨key, -, hkey⟩ := List.mem_map.mp (hall name h)
  exact ⟨key, hkey⟩

theorem coverCommand_mem (t : UInt8) :
    coverCommand t ∈ [ascii "up", ascii "down", ascii "stop"] := by
  unfold coverCommand
  split_ifs <;> decide

theorem volumeCommand_mem (sel : UInt8) : volumeCommand sel ∈ volumeNames := by
  unfold volumeCommand
  split_ifs <;> decide

section Services

variable {acc : Accessory} {part : Part} {s : Sender} {now : UInt32} {tx : Bytes → Transmitter}
  {v : Values} {w : Write} {slot : CommandSlot} {name : Bytes}

/-- The toggle is a fallback: it goes out only where one of the discrete commands cannot. -/
def Unshadowed (cfg : Config) (aid : UInt16) (tx : Bytes → Transmitter) (name : Bytes) : Prop :=
  name = ascii "toggle" →
    ∃ want, ∀ other, ¬Sendable cfg aid tx (powerCommand want) other

theorem powerCommand_ne_toggle (want : Bool) : powerCommand want ≠ ascii "toggle" := by
  cases want <;> decide

theorem firePower_unshadowed {want : Bool} {aid : UInt16}
    (h : slot ∈ (firePower s now aid tx want).keyed) :
    aidBusy s.pending aid = false ∧ ∃ name ∈ powerCommands,
      Sendable s.config aid tx name slot ∧ Unshadowed s.config aid tx name := by
  obtain ⟨hidle, hsend | ⟨hnone, hsend⟩⟩ := mem_firePower.mp h
  · refine ⟨hidle, powerCommand want, by cases want <;> decide, hsend, ?_⟩
    exact fun htoggle => absurd htoggle (powerCommand_ne_toggle want)
  · exact ⟨hidle, ascii "toggle", by decide, hsend, fun _ => ⟨want, hnone⟩⟩

theorem press_unshadowed {aid : UInt16} (hname : name ≠ ascii "toggle")
    (h : slot ∈ (press s now aid tx name).keyed) :
    aidBusy s.pending aid = false ∧ Sendable s.config aid tx name slot ∧
      Unshadowed s.config aid tx name := by
  obtain ⟨hidle, hsend⟩ := mem_press.mp h
  exact ⟨hidle, hsend, fun htoggle => absurd htoggle hname⟩

/-- The power of a Television. -/
def powered (s : Sender) (now : UInt32) (aid : UInt16) (tx : Bytes → Transmitter) (w : Write) :
    Fired :=
  w.power.elim ⟨true, [], s⟩ (firePower s now aid tx)

/-- What its power write leaves: the configuration as it was, the whole sender when busy, and
otherwise what a power command keys and schedules. -/
theorem powered_spec (s : Sender) (now : UInt32) (aid : UInt16) (tx : Bytes → Transmitter)
    (w : Write) :
    (powered s now aid tx w).sender.config = s.config ∧
      (aidBusy s.pending aid = true → (powered s now aid tx w).sender = s) ∧
      (∀ slot ∈ (powered s now aid tx w).keyed,
        ∃ want, slot ∈ (firePower s now aid tx want).keyed) ∧
      ∀ p ∈ (powered s now aid tx w).sender.pending,
        p ∈ s.pending ∨ p.aid = aid ∧ p.name ∈ powerCommands := by
  unfold powered
  cases w.power with
  | none => exact ⟨rfl, fun _ => rfl, fun slot hslot => (nomatch hslot), fun p hp => Or.inl hp⟩
  | some want =>
      exact ⟨firePower_config, firePower_busy, fun slot hslot => ⟨want, hslot⟩,
        fun p hp => firePower_pending hp⟩

/-- A write to a Television is its power alone, or the power and then a key. -/
theorem updateTelevision_eq {aid : UInt16} {remote : Bool} :
    ((updateTelevision s now aid tx remote v w).1.keyed = (powered s now aid tx w).keyed ∧
      (updateTelevision s now aid tx remote v w).1.sender = (powered s now aid tx w).sender) ∨
    ∃ key, remote = true ∧
      (updateTelevision s now aid tx remote v w).1.keyed = (powered s now aid tx w).keyed ++
        (press (powered s now aid tx w).sender now aid tx (keyCommand key)).keyed ∧
      (updateTelevision s now aid tx remote v w).1.sender =
        (press (powered s now aid tx w).sender now aid tx (keyCommand key)).sender := by
  unfold updateTelevision
  cases hkey : w.remoteKey with
  | none =>
      left
      dsimp only
      split_ifs
      · exact ⟨rfl, rfl⟩
      · exact ⟨List.append_nil _, rfl⟩
  | some key =>
      dsimp only
      split_ifs with hrefused hremote
      · exact Or.inl ⟨rfl, rfl⟩
      · exact Or.inr ⟨key, hremote, rfl, rfl⟩
      · exact Or.inl ⟨List.append_nil _, rfl⟩

/-- A key pressed after the power went out on an accessory that was idle before. -/
theorem mem_press_powered {aid : UInt16}
    (h : slot ∈ (press (powered s now aid tx w).sender now aid tx name).keyed) :
    slot ∈ (press s now aid tx name).keyed := by
  obtain ⟨hconfig, hbusy, -⟩ := powered_spec s now aid tx w
  rw [mem_press, hconfig] at h
  refine mem_press.mpr ⟨?_, h.2⟩
  cases hidle : aidBusy s.pending aid with
  | false => rfl
  | true =>
      rw [hbusy hidle, hidle] at h
      exact h.1

/-- Whatever a request makes an accessory key is one of its commands, on an idle accessory. -/
theorem update_keyed (h : slot ∈ (update acc part s now tx v w).1.keyed) :
    aidBusy s.pending acc.aid = false ∧ ∃ name ∈ commandsOf acc,
      Sendable s.config acc.aid tx name slot ∧ Unshadowed s.config acc.aid tx name := by
  have hkey : ∀ key, keyCommand key ≠ ascii "toggle" := by
    intro key htoggle
    have hmem := keyCommand_cases key
    rw [htoggle] at hmem
    exact absurd hmem (by decide)
  have hvolume : ∀ sel, volumeCommand sel ≠ ascii "toggle" := by
    intro sel
    unfold volumeCommand
    split_ifs <;> decide
  have hcover : ∀ t, coverCommand t ≠ ascii "toggle" := by
    intro t
    unfold coverCommand
    split_ifs <;> decide
  unfold update at h
  unfold commandsOf
  split at h
  case h_1 hservice | h_2 hservice | h_3 hservice | h_4 hservice =>
    rw [hservice]
    exact firePower_unshadowed h
  case h_5 hservice =>
    rw [hservice]
    obtain ⟨hidle, hsend⟩ := press_unshadowed (hcover _) h
    exact ⟨hidle, _, coverCommand_mem _, hsend⟩
  case h_6 hservice =>
    rw [hservice]
    obtain ⟨-, -, hpower, -⟩ := powered_spec s now acc.aid tx w
    rcases @updateTelevision_eq s now tx v w acc.aid acc.remoteKey with
      ⟨hkeyed, -⟩ | ⟨key, hremote, hkeyed, -⟩
    · rw [hkeyed] at h
      obtain ⟨want, hwant⟩ := hpower slot h
      obtain ⟨hidle, name, hname, hsend⟩ := firePower_unshadowed hwant
      exact ⟨hidle, name, by simp [hname], hsend⟩
    · rw [hkeyed] at h
      rcases List.mem_append.mp h with hpowered | hpressed
      · obtain ⟨want, hwant⟩ := hpower slot hpowered
        obtain ⟨hidle, name, hname, hsend⟩ := firePower_unshadowed hwant
        exact ⟨hidle, name, by simp [hname], hsend⟩
      · obtain ⟨hidle, hsend⟩ := press_unshadowed (hkey key) (mem_press_powered hpressed)
        have hname : keyCommand key ∈ if acc.remoteKey then [] :: keyNames else [] := by
          rw [if_pos hremote]
          exact keyCommand_cases key
        exact ⟨hidle, _, List.mem_append_left _ (List.mem_append_right _ hname), hsend⟩
  case h_7 hservice =>
    rw [hservice]
    split_ifs at h with hspeaker
    · unfold updateTvSpeaker at h
      cases hsel : w.volumeSelector with
      | none =>
          rw [hsel] at h
          cases h
      | some sel =>
          rw [hsel] at h
          obtain ⟨hidle, hsend⟩ := press_unshadowed (hvolume sel) h
          exact ⟨hidle, _, by simp [hspeaker, volumeCommand_mem], hsend⟩
    · cases h
  case h_8 => cases h

/-- What a request leaves scheduled was there before or is one of the accessory's commands. -/
theorem update_pending {p : PendingSeq}
    (h : p ∈ (update acc part s now tx v w).1.sender.pending) :
    p ∈ s.pending ∨ p.aid = acc.aid ∧ p.name ∈ commandsOf acc := by
  unfold update at h
  unfold commandsOf
  split at h
  case h_1 hservice | h_2 hservice | h_3 hservice | h_4 hservice =>
    rw [hservice]
    exact firePower_pending h
  case h_5 hservice =>
    rw [hservice]
    rcases press_pending h with hold | ⟨haid, hname⟩
    · exact Or.inl hold
    · exact Or.inr ⟨haid, hname ▸ coverCommand_mem _⟩
  case h_6 hservice =>
    rw [hservice]
    obtain ⟨-, -, -, hpower⟩ := powered_spec s now acc.aid tx w
    have hfrom : ∀ p ∈ (powered s now acc.aid tx w).sender.pending,
        p ∈ s.pending ∨ p.aid = acc.aid ∧ p.name ∈ powerCommands ++
          (if acc.remoteKey then [] :: keyNames else []) ++
            if acc.speaker then volumeNames else [] := by
      intro p hp
      rcases hpower p hp with hold | ⟨haid, hname⟩
      · exact Or.inl hold
      · exact Or.inr ⟨haid, List.mem_append_left _ (List.mem_append_left _ hname)⟩
    rcases @updateTelevision_eq s now tx v w acc.aid acc.remoteKey with
      ⟨-, hsender⟩ | ⟨key, hremote, -, hsender⟩
    · rw [hsender] at h
      exact hfrom p h
    · rw [hsender] at h
      rcases press_pending h with hold | ⟨haid, hname⟩
      · exact hfrom p hold
      · have hkey : p.name ∈ if acc.remoteKey then [] :: keyNames else [] := by
          rw [if_pos hremote, hname]
          exact keyCommand_cases key
        exact Or.inr ⟨haid, List.mem_append_left _ (List.mem_append_right _ hkey)⟩
  case h_7 hservice =>
    rw [hservice]
    split_ifs at h with hspeaker
    · unfold updateTvSpeaker at h
      cases hsel : w.volumeSelector with
      | none =>
          rw [hsel] at h
          exact Or.inl h
      | some sel =>
          rw [hsel] at h
          rcases press_pending h with hold | ⟨haid, hname⟩
          · exact Or.inl hold
          · refine Or.inr ⟨haid, List.mem_append_right _ ?_⟩
            rw [if_pos hspeaker, hname]
            exact volumeCommand_mem sel
    · exact Or.inl h
  case h_8 => exact Or.inl h

/-- A window covering is never seen moving. -/
theorem update_settled (h : v.pos = v.target) :
    (update acc part s now tx v w).2.pos = (update acc part s now tx v w).2.target := by
  unfold update
  split
  · unfold updatePower
    dsimp only
    split_ifs <;> exact h
  · unfold updatePower
    dsimp only
    split_ifs <;> exact h
  · unfold updatePower
    dsimp only
    split_ifs <;> exact h
  · unfold updatePower
    dsimp only
    split_ifs <;> exact h
  · unfold updateWindowCovering
    dsimp only
    split_ifs
    · rfl
    · exact h
  · unfold updateTelevision
    dsimp only
    split_ifs <;> exact h
  · split_ifs <;> exact h
  · exact h

/-- A power write keys each power command that can be sent and is reached. -/
theorem exists_firePower {aid : UInt16} (hname : name ∈ powerCommands)
    (hidle : aidBusy s.pending aid = false) (hsend : Sendable s.config aid tx name slot)
    (hfree : Unshadowed s.config aid tx name) :
    ∃ want, slot ∈ (firePower s now aid tx want).keyed := by
  simp only [powerCommands, List.mem_cons, List.not_mem_nil, or_false] at hname
  rcases hname with rfl | rfl | rfl
  · exact ⟨true, mem_firePower.mpr ⟨hidle, Or.inl hsend⟩⟩
  · exact ⟨false, mem_firePower.mpr ⟨hidle, Or.inl hsend⟩⟩
  · obtain ⟨want, hnone⟩ := hfree rfl
    exact ⟨want, mem_firePower.mpr ⟨hidle, Or.inr ⟨hnone, hsend⟩⟩⟩

/-- Every command of an idle accessory that can be sent has a request that keys it. -/
theorem exists_update (hname : name ∈ commandsOf acc)
    (hidle : aidBusy s.pending acc.aid = false)
    (hsend : Sendable s.config acc.aid tx name slot)
    (hfree : Unshadowed s.config acc.aid tx name) :
    ∃ part w, slot ∈ (update acc part s now tx v w).1.keyed := by
  have hpress : slot ∈ (press s now acc.aid tx name).keyed := mem_press.mpr ⟨hidle, hsend⟩
  unfold commandsOf at hname
  split at hname
  case h_1 hservice | h_2 hservice | h_3 hservice | h_4 hservice =>
    obtain ⟨want, hwant⟩ := @exists_firePower s now tx slot name acc.aid hname hidle hsend hfree
    refine ⟨.main, { power := some want }, ?_⟩
    simp only [update, hservice]
    exact hwant
  case h_5 hservice =>
    have ht : ∃ t, coverCommand t = name := by
      simp only [List.mem_cons, List.not_mem_nil, or_false] at hname
      rcases hname with rfl | rfl | rfl
      · exact ⟨100, by decide⟩
      · exact ⟨0, by decide⟩
      · exact ⟨50, by decide⟩
    obtain ⟨t, rfl⟩ := ht
    refine ⟨.main, { target := some t }, ?_⟩
    simp only [update, hservice]
    exact hpress
  case h_6 hservice =>
    rcases List.mem_append.mp hname with hname | hvolume
    · rcases List.mem_append.mp hname with hpower | hkeys
      · obtain ⟨want, hwant⟩ :=
          @exists_firePower s now tx slot name acc.aid hpower hidle hsend hfree
        refine ⟨.main, { power := some want }, ?_⟩
        simp only [update, hservice]
        rcases @updateTelevision_eq s now tx v { power := some want } acc.aid acc.remoteKey with
          ⟨hkeyed, -⟩ | ⟨key, -, hkeyed, -⟩
        · rw [hkeyed]
          exact hwant
        · rw [hkeyed]
          exact List.mem_append_left _ hwant
      · split_ifs at hkeys with hremote
        · obtain ⟨key, rfl⟩ := exists_keyCommand hkeys
          refine ⟨.main, { remoteKey := some key }, ?_⟩
          simp only [update, hservice, updateTelevision, hremote, Option.elim_none, Bool.not_true,
            Bool.false_eq_true, if_false, if_true, List.nil_append]
          exact hpress
        · cases hkeys
    · split_ifs at hvolume with hspeaker
      · have hsel : ∃ sel, volumeCommand sel = name := by
          simp only [volumeNames, List.mem_cons, List.not_mem_nil, or_false] at hvolume
          rcases hvolume with rfl | rfl
          · exact ⟨0, by decide⟩
          · exact ⟨1, by decide⟩
        obtain ⟨sel, rfl⟩ := hsel
        refine ⟨.speaker, { volumeSelector := some sel }, ?_⟩
        simp only [update, hservice, hspeaker, if_true, updateTvSpeaker]
        exact hpress
      · cases hvolume
  case h_7 => cases hname

end Services

end RfIrBlaster.Home
