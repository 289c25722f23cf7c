/-
The repeated sends of `accessory_builder.cpp`: `resolveSlot`, `transmit`,
`pollPendingSends` and the part `applyConfigChange` has in them, with what one call of
each does to the scheduled sequences.
-/
import RfIrBlaster.FireCode
import RfIrBlaster.KeyedList

namespace RfIrBlaster

namespace Repeat

open Transmit

/-- The first command of that name of the first device of that id. -/
def resolveSlot (cfg : Config) (aid : UInt16) (name : Bytes) : Option CommandSlot :=
  (cfg.devices.find? fun dev => dev.id = aid).bind fun dev =>
    dev.commands.find? fun slot => slot.name = name

/-- What `fireCode` returns. -/
def fires (tx : Transmitter) (code : Option StoredCode) : Bool :=
  (fireCode tx code).any Keying.sent

/-- A command's remaining timed sends; `sendsLeft` are due after the immediate first. -/
structure PendingSeq where
  aid : UInt16
  name : Bytes
  sendsLeft : UInt8
  delayMs : UInt16
  nextFireMs : UInt32
deriving DecidableEq, Repr

/-- `g_config` and `g_pending`. -/
structure Sender where
  config : Config
  pending : List PendingSeq := []

def aidBusy (pending : List PendingSeq) (aid : UInt16) : Bool :=
  pending.any fun p => p.aid = aid

/-- `count` of `transmit`. -/
def clampedCount (slot : CommandSlot) : UInt8 :=
  if slot.repeatCount < 1 then 1
  else if maxRepeatCount < slot.repeatCount then maxRepeatCount
  else slot.repeatCount

/-- `delay` of `transmit`. -/
def clampedDelay (slot : CommandSlot) : UInt16 :=
  if maxRepeatDelayMs < slot.repeatDelayMs then maxRepeatDelayMs else slot.repeatDelayMs

/-- What a call of `transmit` answers, the command it keyed and the state it leaves. -/
structure Pressed where
  answer : Bool
  keyed : Option CommandSlot
  sender : Sender

/-- `now` is what `millis()` reads; `name` is a C string. -/
def transmit (s : Sender) (now : UInt32) (aid : UInt16) (name : Bytes) (tx : Transmitter) :
    Pressed :=
  match resolveSlot s.config aid name with
  | none => ⟨false, none, s⟩
  | some slot =>
      if !slot.code.isLearned then ⟨false, none, s⟩
      else if aidBusy s.pending aid then ⟨true, none, s⟩
      else if !fires tx (some slot.code) then ⟨false, none, s⟩
      else
        let count := clampedCount slot
        if 1 < count then
          let delay := clampedDelay slot
          let seq : PendingSeq := ⟨aid, name, count - 1, delay, now + delay.toUInt32⟩
          ⟨true, some slot, { s with pending := s.pending ++ [seq] }⟩
        else ⟨true, some slot, s⟩

/-- Not the case `static_cast<int32_t>(now - p.nextFireMs) < 0`. -/
def PendingSeq.due (p : PendingSeq) (now : UInt32) : Bool :=
  !decide ((now - p.nextFireMs).toInt32 < 0)

/-- The code is resolved anew at every send. -/
def PendingSeq.firesNow (p : PendingSeq) (cfg : Config) (tx : Transmitter) : Bool :=
  fires tx ((resolveSlot cfg p.aid p.name).map CommandSlot.code)

/-- The loop of `pollPendingSends` at index `i`; `keyed` collects the accessories whose
code went out.  `tx` is the transmitter each accessory's send finds. -/
def pollLoop (cfg : Config) (now : UInt32) (tx : UInt16 → Transmitter)
    (pending : List PendingSeq) (i : Nat) (keyed : List UInt16) :
    List PendingSeq × List UInt16 :=
  if h : i < pending.length then
    let p := pending[i]
    if !p.due now then pollLoop cfg now tx pending (i + 1) keyed
    else if !p.firesNow cfg (tx p.aid) then
      pollLoop cfg now tx (pending.eraseIdx i) i keyed
    else if p.sendsLeft - 1 = 0 then
      pollLoop cfg now tx (pending.eraseIdx i) i (keyed ++ [p.aid])
    else
      let p' := { p with
        sendsLeft := p.sendsLeft - 1, nextFireMs := now + p.delayMs.toUInt32 }
      pollLoop cfg now tx (pending.set i p') (i + 1) (keyed ++ [p.aid])
  else (pending, keyed)
termination_by pending.length - i
decreasing_by
  · omega
  · rw [List.length_eraseIdx_of_lt h]
    omega
  · rw [List.length_eraseIdx_of_lt h]
    omega
  · rw [List.length_set]
    omega

/-- `pollPendingSends`, with the accessories whose code went out. -/
def pollPendingSends (s : Sender) (now : UInt32) (tx : UInt16 → Transmitter) :
    Sender × List UInt16 :=
  if s.pending.isEmpty then (s, [])
  else
    let polled := pollLoop s.config now tx s.pending 0 []
    ({ s with pending := polled.1 }, polled.2)

/-- The part of `applyConfigChange` the sends see. -/
def applyConfigChange (_ : Sender) (cfg : Config) : Sender :=
  ⟨cfg, []⟩

variable {cfg : Config} {aid : UInt16} {name : Bytes} {slot : CommandSlot}

/-- The bounds `validate` puts on the repeats of a command it lets through. -/
structure RepeatBounds (slot : CommandSlot) : Prop where
  one_le : 1 ≤ slot.repeatCount
  count_le : slot.repeatCount ≤ maxRepeatCount
  delay_le : slot.repeatDelayMs ≤ maxRepeatDelayMs

theorem repeatBounds_of_resolveSlot (hvalid : validate cfg = .ok)
    (hslot : resolveSlot cfg aid name = some slot) : RepeatBounds slot := by
  obtain ⟨dev, hdev, hfind⟩ := Option.bind_eq_some_iff.mp hslot
  have hslots := (validateDevices_ids_nodup (validate_devices hvalid)).2 dev
    (List.mem_of_find?_eq_some hdev)
  have hok := (validateSlots_eq_ok_iff dev.commands).mp hslots.2.2 slot
    (List.mem_of_find?_eq_some hfind)
  obtain ⟨-, hcount, hdelay, -⟩ := (validateSlot_eq_ok_iff slot).mp hok
  exact ⟨hcount.1, hcount.2, hdelay⟩

/-- On a command of a valid configuration neither clamp changes anything. -/
theorem clamped_of_bounds (h : RepeatBounds slot) :
    clampedCount slot = slot.repeatCount ∧ clampedDelay slot = slot.repeatDelayMs := by
  constructor
  · rw [clampedCount, if_neg (UInt8.not_lt.mpr h.one_le), if_neg (UInt8.not_lt.mpr h.count_le)]
  · rw [clampedDelay, if_neg (UInt16.not_lt.mpr h.delay_le)]

theorem aidBusy_iff {pending : List PendingSeq} :
    aidBusy pending aid = true ↔ aid ∈ pending.map PendingSeq.aid := by
  simp [aidBusy]

/-- The sequence a press at `now` schedules for its command. -/
def scheduled (aid : UInt16) (name : Bytes) (slot : CommandSlot) (now : UInt32) : PendingSeq where
  aid := aid
  name := name
  sendsLeft := slot.repeatCount - 1
  delayMs := slot.repeatDelayMs
  nextFireMs := now + slot.repeatDelayMs.toUInt32

/-- What a press does, as the command it keys tells: nothing keyed, nothing changed. -/
theorem transmit_cases (s : Sender) (hvalid : validate s.config = .ok) (now : UInt32)
    (aid : UInt16) (name : Bytes) (tx : Transmitter) :
    ((transmit s now aid name tx).keyed = none ∧ (transmit s now aid name tx).sender = s) ∨
    ∃ slot, resolveSlot s.config aid name = some slot ∧ aid ∉ s.pending.map PendingSeq.aid ∧
      RepeatBounds slot ∧ transmit s now aid name tx =
        ⟨true, some slot, ⟨s.config, s.pending ++
          if 1 < slot.repeatCount then [scheduled aid name slot now] else []⟩⟩ := by
  unfold transmit
  cases hslot : resolveSlot s.config aid name with
  | none => exact Or.inl ⟨rfl, rfl⟩
  | some slot =>
      have hbounds := repeatBounds_of_resolveSlot hvalid hslot
      obtain ⟨hcount, hdelay⟩ := clamped_of_bounds hbounds
      dsimp only
      rw [hcount, hdelay]
      split_ifs with hlearned hbusy hfires hmany
      · exact Or.inl ⟨rfl, rfl⟩
      · exact Or.inl ⟨rfl, rfl⟩
      · exact Or.inl ⟨rfl, rfl⟩
      · have hidle : aid ∉ s.pending.map PendingSeq.aid := fun h => hbusy (aidBusy_iff.mpr h)
        exact Or.inr ⟨slot, rfl, hidle, hbounds, by simp [hmany, scheduled]⟩
      · have hidle : aid ∉ s.pending.map PendingSeq.aid := fun h => hbusy (aidBusy_iff.mpr h)
        exact Or.inr ⟨slot, rfl, hidle, hbounds, by simp [hmany]⟩

/-- A press on a busy accessory, and one whose first send fails, key and schedule nothing. -/
theorem transmit_unchanged (s : Sender) (now : UInt32) (tx : Transmitter)
    (h : aidBusy s.pending aid = true ∨
      ∀ slot, resolveSlot s.config aid name = some slot → fires tx (some slot.code) = false) :
    (transmit s now aid name tx).keyed = none ∧ (transmit s now aid name tx).sender = s := by
  unfold transmit
  cases hslot : resolveSlot s.config aid name with
  | none => exact ⟨rfl, rfl⟩
  | some slot =>
      dsimp only
      split_ifs with hlearned hbusy hfires hmany
      · exact ⟨rfl, rfl⟩
      · exact ⟨rfl, rfl⟩
      · exact ⟨rfl, rfl⟩
      all_goals
        rcases h with hbusy' | hfails
        · exact absurd hbusy' hbusy
        · exact absurd (hfails slot hslot) (by simpa using hfires)

/-- An accepted press on an idle accessory keys its command. -/
theorem keyed_of_accepted {s : Sender} {now : UInt32} {tx : Transmitter}
    (hidle : aidBusy s.pending aid = false)
    (haccepted : (transmit s now aid name tx).answer = true) :
    ∃ slot, (transmit s now aid name tx).keyed = some slot := by
  unfold transmit at haccepted ⊢
  cases hslot : resolveSlot s.config aid name with
  | none => simp [hslot] at haccepted
  | some slot =>
      simp only [hslot, hidle, Bool.false_eq_true, if_false] at haccepted ⊢
      split_ifs at haccepted ⊢
      · exact ⟨slot, rfl⟩
      · exact ⟨slot, rfl⟩

/-- A poll sends for this sequence. -/
def PendingSeq.sends (cfg : Config) (now : UInt32) (tx : UInt16 → Transmitter)
    (p : PendingSeq) : Bool :=
  p.due now && p.firesNow cfg (tx p.aid)

/-- What a poll leaves of one sequence. -/
def PendingSeq.polled (cfg : Config) (now : UInt32) (tx : UInt16 → Transmitter)
    (p : PendingSeq) : Option PendingSeq :=
  if !p.due now then some p
  else if !p.firesNow cfg (tx p.aid) then none
  else if p.sendsLeft - 1 = 0 then none
  else some { p with sendsLeft := p.sendsLeft - 1, nextFireMs := now + p.delayMs.toUInt32 }

/-- The loop handles each sequence once, the erasing among them: behind those kept it goes
on with the rest. -/
theorem pollLoop_eq (cfg : Config) (now : UInt32) (tx : UInt16 → Transmitter)
    (kept rest : List PendingSeq) (keyed : List UInt16) :
    pollLoop cfg now tx (kept ++ rest) kept.length keyed =
      (kept ++ rest.filterMap (PendingSeq.polled cfg now tx),
        keyed ++ (rest.filter (PendingSeq.sends cfg now tx)).map PendingSeq.aid) := by
  induction rest generalizing kept keyed with
  | nil =>
      unfold pollLoop
      simp
  | cons p rest ih =>
      have hlt : kept.length < (kept ++ p :: rest).length := by simp
      have hget : (kept ++ p :: rest)[kept.length] = p := by simp
      have herase : (kept ++ p :: rest).eraseIdx kept.length = kept ++ rest := by
        rw [List.eraseIdx_append_of_length_le (Nat.le_refl _), Nat.sub_self,
          List.eraseIdx_cons_zero]
      have hkeep : ∀ p' keyed', pollLoop cfg now tx (kept ++ p' :: rest) (kept.length + 1) keyed' =
          (kept ++ p' :: rest.filterMap (PendingSeq.polled cfg now tx),
            keyed' ++ (rest.filter (PendingSeq.sends cfg now tx)).map PendingSeq.aid) := by
        intro p' keyed'
        have hrest := ih (kept ++ [p']) keyed'
        rw [List.length_append, List.length_singleton, List.append_assoc,
          List.append_assoc] at hrest
        exact hrest
      rw [pollLoop, dif_pos hlt]
      simp only [hget, herase]
      cases hdue : p.due now with
      | false =>
          rw [hkeep]
          simp [PendingSeq.polled, PendingSeq.sends, hdue]
      | true =>
          cases hfires : p.firesNow cfg (tx p.aid) with
          | false =>
              simp only [Bool.not_true, Bool.not_false, Bool.false_eq_true, if_false, if_true, ih]
              simp [PendingSeq.polled, PendingSeq.sends, hdue, hfires]
          | true =>
              simp only [Bool.not_true, Bool.false_eq_true, if_false]
              by_cases hlast : p.sendsLeft - 1 = 0
              · rw [if_pos hlast, ih]
                simp [PendingSeq.polled, PendingSeq.sends, hdue, hfires, hlast]
              · rw [if_neg hlast, List.set_append_right _ _ (Nat.le_refl _), Nat.sub_self,
                  List.set_cons_zero, hkeep]
                simp [PendingSeq.polled, PendingSeq.sends, hdue, hfires, hlast]

theorem pollPendingSends_eq (s : Sender) (now : UInt32) (tx : UInt16 → Transmitter) :
    pollPendingSends s now tx =
      (⟨s.config, s.pending.filterMap (PendingSeq.polled s.config now tx)⟩,
        (s.pending.filter (PendingSeq.sends s.config now tx)).map PendingSeq.aid) := by
  unfold pollPendingSends
  split_ifs with hempty
  · obtain ⟨config, pending⟩ := s
    have hnil : pending = [] := List.isEmpty_iff.mp hempty
    rw [hnil]
    rfl
  · have hloop := pollLoop_eq s.config now tx [] s.pending []
    simp only [List.nil_append, List.length_nil] at hloop
    rw [hloop]

/-- What `millis()` reads `now` milliseconds after the start. -/
def millis (now : Nat) : UInt32 :=
  UInt32.ofNat now

theorem millis_add (now : Nat) (delay : UInt16) :
    millis now + delay.toUInt32 = millis (now + delay.toNat) := by
  apply UInt32.toNat_inj.mp
  simp [millis]

theorem toInt32_neg_iff (x : UInt32) : x.toInt32 < 0 ↔ 2 ^ 31 ≤ x.toNat := by
  have hbits : x.toInt32.toInt = x.toBitVec.toInt := rfl
  have hzero : (0 : Int32).toInt = 0 := rfl
  rw [Int32.lt_iff_toInt_lt, hbits, hzero, BitVec.toInt_neg_iff, x.toNat_toBitVec]
  omega

/-- The comparison of the readings, told in real time. -/
theorem due_millis_iff {p : PendingSeq} {fire : Nat} (hfire : p.nextFireMs = millis fire)
    (now : Nat) :
    p.due (millis now) = true ↔ (now + (2 ^ 32 - fire % 2 ^ 32)) % 2 ^ 32 < 2 ^ 31 := by
  have hdiff : (millis now - millis fire).toNat =
      (now + (2 ^ 32 - fire % 2 ^ 32)) % 2 ^ 32 := by
    rw [UInt32.toNat_sub]
    simp only [millis, UInt32.toNat_ofNat']
    omega
  rw [PendingSeq.due, hfire, Bool.not_eq_true', decide_eq_false_iff_not, toInt32_neg_iff, hdiff,
    Nat.not_le]

/-- A sequence found due has reached its time, unless that is more than half the clock's
range ahead. -/
theorem fire_le_of_due {p : PendingSeq} {fire now : Nat} (hfire : p.nextFireMs = millis fire)
    (hnear : fire ≤ now + 2 ^ 31) (hdue : p.due (millis now) = true) : fire ≤ now := by
  rw [due_millis_iff hfire] at hdue
  omega

/-- A sequence is found due in the first half of each turn of the clock from its time on. -/
theorem due_of_turn {p : PendingSeq} {fire now turns : Nat} (hfire : p.nextFireMs = millis fire)
    (hreached : fire + 2 ^ 32 * turns ≤ now) (hhalf : now < fire + 2 ^ 32 * turns + 2 ^ 31) :
    p.due (millis now) = true := by
  rw [due_millis_iff hfire]
  omega

end Repeat

end RfIrBlaster
