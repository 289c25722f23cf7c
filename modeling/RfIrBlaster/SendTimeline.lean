/-
The scheduled sequences beside what an observer with a clock that does not wrap sees: the
presses keyed for each accessory and their sends, and the invariant that ties the two.
-/
import Mathlib.Data.List.Nodup
import RfIrBlaster.PendingSends
import RfIrBlaster.StateMachine

namespace RfIrBlaster

namespace Repeat

open Transmit

/-- An accepted press: what its command asks for, and the clock readings its sends were
keyed and scheduled at, newest first. -/
structure Press where
  count : Nat
  delayMs : Nat
  sends : List Nat
deriving DecidableEq, Repr

/-- At least one send and no more than asked for, each a delay after the one before. -/
structure Press.Timely (p : Press) : Prop where
  one_le : 1 ≤ p.sends.length
  le_count : p.sends.length ≤ p.count
  spaced : p.sends.IsChain fun later earlier => earlier + p.delayMs ≤ later

/-- The state of the code, and what an observer with a clock that does not wrap has seen of
it: the presses keyed for each accessory, newest first. -/
structure Timeline where
  sender : Sender
  history : UInt16 → List Press
  clock : Nat
  lastPoll : Option Nat

/-- The calls, each with the real time in milliseconds at which it reads the clock. -/
inductive Event where
  | transmit (now : Nat) (aid : UInt16) (name : Bytes) (tx : Transmitter)
  | pollPendingSends (now : Nat) (tx : UInt16 → Transmitter)
  | applyConfigChange (now : Nat) (cfg : Config)

def firstSend (now : Nat) (slot : CommandSlot) : Press :=
  ⟨slot.repeatCount.toNat, slot.repeatDelayMs.toNat, [now]⟩

def Press.send (now : Nat) (p : Press) : Press :=
  { p with sends := now :: p.sends }

/-- A later send belongs to the newest press. -/
def recordSend (now : Nat) (history : UInt16 → List Press) (aid : UInt16) : UInt16 → List Press :=
  Function.update history aid ((history aid).modifyHead (Press.send now))

def step (s : Timeline) : Event → Timeline
  | .transmit now aid name tx =>
      let pressed := transmit s.sender (millis now) aid name tx
      { s with
        sender := pressed.sender
        clock := now
        history := match pressed.keyed with
          | none => s.history
          | some slot => Function.update s.history aid (firstSend now slot :: s.history aid) }
  | .pollPendingSends now tx =>
      let polled := pollPendingSends s.sender (millis now) tx
      { sender := polled.1
        history := polled.2.foldl (recordSend now) s.history
        clock := now
        lastPoll := some now }
  | .applyConfigChange now cfg =>
      { s with sender := applyConfigChange s.sender cfg, clock := now }

def sendMachine (cfg : Config) (start : Nat) : StateMachine Timeline Event where
  init := ⟨{ config := cfg }, fun _ => [], start, none⟩
  step := step

/-- Time passes, consecutive polls are less than half the clock's range less the longest
delay apart, and only valid configurations are applied. -/
def Allowed (s : Timeline) : Event → Prop
  | .transmit now _ _ _ => s.clock ≤ now
  | .pollPendingSends now _ => s.clock ≤ now ∧
      ∀ last, s.lastPoll = some last → now < last + (2 ^ 31 - maxRepeatDelayMs.toNat)
  | .applyConfigChange now cfg => s.clock ≤ now ∧ validate cfg = .ok

/-- A scheduled sequence and the newest press of its accessory: they agree on the delay, on
what is left, and on the time of the next send. -/
structure Tracks (clock : Nat) (q : PendingSeq) (p : Press) : Prop where
  left_pos : 0 < q.sendsLeft.toNat
  total : p.sends.length + q.sendsLeft.toNat = p.count
  count_le : p.count ≤ maxRepeatCount.toNat
  delay : q.delayMs.toNat = p.delayMs
  delay_le : p.delayMs ≤ maxRepeatDelayMs.toNat
  fire : ∃ last earlier, p.sends = last :: earlier ∧ last ≤ clock ∧
    q.nextFireMs = millis (last + p.delayMs)

/-- The invariant of every run. -/
structure Scheduled (s : Timeline) : Prop where
  valid : validate s.sender.config = .ok
  nodup : (s.sender.pending.map PendingSeq.aid).Nodup
  tracked : ∀ q ∈ s.sender.pending, ∃ p old, s.history q.aid = p :: old ∧ Tracks s.clock q p
  timely : ∀ aid, ∀ p ∈ s.history aid, p.Timely

variable {s : Timeline} {q q' : PendingSeq} {p : Press} {clock now : Nat}

theorem Tracks.mono (h : Tracks clock q p) (hle : clock ≤ now) : Tracks now q p := by
  obtain ⟨last, earlier, hsends, hlast, hfire⟩ := h.fire
  exact { h with fire := ⟨last, earlier, hsends, Nat.le_trans hlast hle, hfire⟩ }

/-- What an accepted press of several sends schedules. -/
theorem tracks_firstSend {aid : UInt16} {name : Bytes} {slot : CommandSlot}
    (hbounds : RepeatBounds slot) (hmany : 1 < slot.repeatCount) (now : Nat) :
    Tracks now (scheduled aid name slot (millis now)) (firstSend now slot) := by
  have hmore : 1 < slot.repeatCount.toNat := UInt8.lt_iff_toNat_lt.mp hmany
  have hleft : (slot.repeatCount - 1).toNat = slot.repeatCount.toNat - 1 :=
    UInt8.toNat_sub_of_le _ _ (UInt8.le_iff_toNat_le.mpr (Nat.le_of_lt hmore))
  refine ⟨?_, ?_, ?_, rfl, ?_, now, [], rfl, Nat.le_refl _, ?_⟩
  · simp only [scheduled, hleft]
    omega
  · simp only [scheduled, hleft, firstSend, List.length_singleton]
    omega
  · exact UInt8.le_iff_toNat_le.mp hbounds.count_le
  · exact UInt16.le_iff_toNat_le.mp hbounds.delay_le
  · exact millis_add now slot.repeatDelayMs

/-- No send is early: when the poll at `now` finds the sequence due, the delay since its
last send is over. -/
theorem Tracks.reached (h : Tracks clock q p) (hle : clock ≤ now)
    (hdue : q.due (millis now) = true) :
    ∃ last earlier, p.sends = last :: earlier ∧ last + p.delayMs ≤ now := by
  obtain ⟨last, earlier, hsends, hlast, hfire⟩ := h.fire
  have hdelay := h.delay_le
  have hmax : maxRepeatDelayMs.toNat < 2 ^ 31 := by decide
  exact ⟨last, earlier, hsends, fire_le_of_due hfire (by omega) hdue⟩

theorem Tracks.timely_send (h : Tracks clock q p) (htimely : p.Timely) (hle : clock ≤ now)
    (hdue : q.due (millis now) = true) : (p.send now).Timely := by
  obtain ⟨last, earlier, hsends, hreached⟩ := h.reached hle hdue
  have hleft := h.left_pos
  have htotal := h.total
  have hspaced := htimely.spaced
  refine ⟨?_, ?_, ?_⟩
  · simp [Press.send]
  · simp only [Press.send, List.length_cons]
    omega
  · simp only [Press.send]
    rw [hsends] at hspaced ⊢
    exact List.isChain_cons_cons.mpr ⟨hreached, hspaced⟩

/-- What a poll does to a tracked sequence that sends: it goes on behind the longer press,
or the press is complete. -/
theorem Tracks.polled (h : Tracks clock q p) {cfg : Config} {tx : UInt16 → Transmitter}
    (hsends : q.sends cfg (millis now) tx = true) :
    (q.polled cfg (millis now) tx = none ∧ (p.send now).sends.length = p.count) ∨
    ∃ q', q.polled cfg (millis now) tx = some q' ∧ q'.aid = q.aid ∧ q'.name = q.name ∧
      Tracks now q' (p.send now) := by
  rw [PendingSeq.sends, Bool.and_eq_true] at hsends
  have hleft := h.left_pos
  have htotal := h.total
  have hone : (q.sendsLeft - 1).toNat = q.sendsLeft.toNat - 1 :=
    UInt8.toNat_sub_of_le _ _ (UInt8.le_iff_toNat_le.mpr hleft)
  unfold PendingSeq.polled
  simp only [hsends.1, hsends.2, Bool.not_true, Bool.false_eq_true, if_false]
  split_ifs with hlast
  · have hzero := congrArg UInt8.toNat hlast
    rw [hone, UInt8.toNat_zero] at hzero
    refine Or.inl ⟨rfl, ?_⟩
    simp only [Press.send, List.length_cons]
    omega
  · have hmore : q.sendsLeft.toNat - 1 ≠ 0 := by
      intro hzero
      apply hlast
      apply UInt8.toNat_inj.mp
      rw [hone, hzero, UInt8.toNat_zero]
    refine Or.inr ⟨_, rfl, rfl, rfl, ?_⟩
    refine ⟨?_, ?_, h.count_le, h.delay, h.delay_le, now, p.sends, rfl, Nat.le_refl _, ?_⟩
    · simp only [hone]
      omega
    · simp only [hone, Press.send, List.length_cons]
      omega
    · simp only [millis_add, h.delay, Press.send]

/-- A sequence a poll does not send for is kept as it is, or dropped with its failed send. -/
theorem polled_of_not_sends {cfg : Config} {tx : UInt16 → Transmitter} {now : UInt32}
    (hsends : q.sends cfg now tx = false) (hpolled : q.polled cfg now tx = some q') : q' = q := by
  rw [PendingSeq.sends, Bool.and_eq_false_iff] at hsends
  unfold PendingSeq.polled at hpolled
  rcases hsends with hdue | hfires
  · simp only [hdue, Bool.not_false, if_true] at hpolled
    exact (Option.some.inj hpolled).symm
  · split_ifs at hpolled
    · exact (Option.some.inj hpolled).symm
    · simp [hfires] at *

/-- A poll changes neither the accessory nor the command of a sequence. -/
theorem command_of_polled {cfg : Config} {tx : UInt16 → Transmitter} {now : UInt32}
    (hpolled : q.polled cfg now tx = some q') : q'.aid = q.aid ∧ q'.name = q.name := by
  unfold PendingSeq.polled at hpolled
  split_ifs at hpolled
  all_goals
    rw [← Option.some.inj hpolled]
    exact ⟨rfl, rfl⟩

theorem nodup_polled {cfg : Config} {tx : UInt16 → Transmitter} {now : UInt32}
    {pending : List PendingSeq} (h : (pending.map PendingSeq.aid).Nodup) :
    ((pending.filterMap (PendingSeq.polled cfg now tx)).map PendingSeq.aid).Nodup := by
  induction pending with
  | nil => exact List.nodup_nil
  | cons q rest ih =>
      rw [List.map_cons, List.nodup_cons] at h
      rw [List.filterMap_cons]
      cases hpolled : q.polled cfg now tx with
      | none => exact ih h.2
      | some q' =>
          rw [List.map_cons, List.nodup_cons]
          refine ⟨?_, ih h.2⟩
          intro hmem
          obtain ⟨r', hr', haid⟩ := List.mem_map.mp hmem
          obtain ⟨r, hr, hrpolled⟩ := List.mem_filterMap.mp hr'
          apply h.1
          rw [← (command_of_polled hpolled).1, ← haid, (command_of_polled hrpolled).1]
          exact List.mem_map_of_mem hr

/-- The sends of one poll are recorded once for each accessory. -/
theorem foldl_recordSend {keyed : List UInt16} (h : keyed.Nodup) (now : Nat)
    (history : UInt16 → List Press) (aid : UInt16) :
    keyed.foldl (recordSend now) history aid =
      if aid ∈ keyed then (history aid).modifyHead (Press.send now) else history aid := by
  induction keyed generalizing history with
  | nil => simp
  | cons first rest ih =>
      rw [List.nodup_cons] at h
      rw [List.foldl_cons, ih h.2]
      by_cases hfirst : aid = first
      · subst hfirst
        simp [h.1, recordSend]
      · simp [hfirst, recordSend]

/-- The accessories a poll sends for. -/
theorem mem_keyed_iff {cfg : Config} {tx : UInt16 → Transmitter} {now : UInt32}
    {pending : List PendingSeq} {aid : UInt16} :
    aid ∈ (pending.filter (PendingSeq.sends cfg now tx)).map PendingSeq.aid ↔
      ∃ q ∈ pending, q.aid = aid ∧ q.sends cfg now tx = true := by
  simp only [List.mem_map, List.mem_filter]
  constructor
  · rintro ⟨q, ⟨hq, hsends⟩, haid⟩
    exact ⟨q, hq, haid, hsends⟩
  · rintro ⟨q, hq, haid, hsends⟩
    exact ⟨q, ⟨hq, hsends⟩, haid⟩

section OneStep

variable (hs : Scheduled s)

include hs

theorem Scheduled.eq_of_aid (hq : q ∈ s.sender.pending) (hq' : q' ∈ s.sender.pending)
    (haid : q'.aid = q.aid) : q' = q :=
  List.inj_on_of_nodup_map hs.nodup hq' hq haid

theorem Scheduled.history_poll (tx : UInt16 → Transmitter) (aid : UInt16) :
    (step s (.pollPendingSends now tx)).history aid =
      if aid ∈ (s.sender.pending.filter
          (PendingSeq.sends s.sender.config (millis now) tx)).map PendingSeq.aid then
        (s.history aid).modifyHead (Press.send now)
      else s.history aid := by
  have hnodup : ((s.sender.pending.filter
      (PendingSeq.sends s.sender.config (millis now) tx)).map PendingSeq.aid).Nodup :=
    hs.nodup.sublist (List.filter_sublist.map PendingSeq.aid)
  simp only [step, pollPendingSends_eq]
  exact foldl_recordSend hnodup now s.history aid

/-- A poll that sends for a sequence records it with the press the sequence tracks. -/
theorem Scheduled.history_of_sends {tx : UInt16 → Transmitter} {old : List Press}
    (hq : q ∈ s.sender.pending) (hhistory : s.history q.aid = p :: old)
    (hsends : q.sends s.sender.config (millis now) tx = true) :
    (step s (.pollPendingSends now tx)).history q.aid = p.send now :: old := by
  rw [hs.history_poll, if_pos (mem_keyed_iff.mpr ⟨q, hq, rfl, hsends⟩), hhistory]
  rfl

theorem Scheduled.history_of_not_sends {tx : UInt16 → Transmitter}
    (hq : q ∈ s.sender.pending)
    (hsends : q.sends s.sender.config (millis now) tx = false) :
    (step s (.pollPendingSends now tx)).history q.aid = s.history q.aid := by
  rw [hs.history_poll, if_neg]
  intro hmem
  obtain ⟨q', hq', haid, hsends'⟩ := mem_keyed_iff.mp hmem
  rw [hs.eq_of_aid hq hq' haid, hsends] at hsends'
  cases hsends'

/-- What a step does to the presses of one accessory: nothing, a new press, or one more
send of the newest, which was not complete and is not early. -/
theorem Scheduled.history_cases (event : Event) (hallowed : Allowed s event) (aid : UInt16) :
    (step s event).history aid = s.history aid ∨
    (∃ now slot, RepeatBounds slot ∧
      (step s event).history aid = firstSend now slot :: s.history aid) ∨
    ∃ now p old, s.history aid = p :: old ∧ p.sends.length < p.count ∧
      (p.send now).Timely ∧ (step s event).history aid = p.send now :: old := by
  cases event with
  | transmit now aid' name tx =>
      rcases transmit_cases s.sender hs.valid (millis now) aid' name tx with
        ⟨hkeyed, -⟩ | ⟨slot, -, -, hbounds, heq⟩
      · exact Or.inl (by simp only [step, hkeyed])
      · by_cases haid : aid = aid'
        · subst haid
          exact Or.inr (Or.inl ⟨now, slot, hbounds, by simp [step, heq]⟩)
        · exact Or.inl (by simp [step, heq, haid])
  | pollPendingSends now tx =>
      rw [hs.history_poll]
      split_ifs with hmem
      · obtain ⟨q, hq, rfl, hsends⟩ := mem_keyed_iff.mp hmem
        obtain ⟨p, old, hhistory, htracks⟩ := hs.tracked q hq
        have htimely : p.Timely := hs.timely q.aid p (by simp [hhistory])
        have hdue := (Bool.and_eq_true_iff.mp hsends).1
        have hleft := htracks.left_pos
        have htotal := htracks.total
        refine Or.inr (Or.inr ⟨now, p, old, hhistory, by omega, ?_, by simp [hhistory]⟩)
        exact htracks.timely_send htimely hallowed.1 hdue
      · exact Or.inl rfl
  | applyConfigChange now cfg => exact Or.inl rfl

theorem Scheduled.timely_step (event : Event) (hallowed : Allowed s event) (aid : UInt16)
    (hp : p ∈ (step s event).history aid) : p.Timely := by
  rcases hs.history_cases event hallowed aid with
    hsame | ⟨now, slot, hbounds, hnew⟩ | ⟨now, head, old, hhistory, -, htimely, hsend⟩
  · rw [hsame] at hp
    exact hs.timely aid p hp
  · rw [hnew] at hp
    rcases List.mem_cons.mp hp with rfl | hold
    · exact ⟨Nat.le_refl 1, UInt8.le_iff_toNat_le.mp hbounds.one_le, List.IsChain.singleton _⟩
    · exact hs.timely aid p hold
  · rw [hsend] at hp
    rcases List.mem_cons.mp hp with rfl | hold
    · exact htimely
    · exact hs.timely aid p (by simp [hhistory, hold])

theorem scheduled_transmit {aid : UInt16} {name : Bytes} {tx : Transmitter}
    (hallowed : Allowed s (.transmit now aid name tx)) :
    Scheduled (step s (.transmit now aid name tx)) := by
  have htimely := fun aid' p => hs.timely_step (p := p) (.transmit now aid name tx) hallowed aid'
  rcases transmit_cases s.sender hs.valid (millis now) aid name tx with
    ⟨hkeyed, hsame⟩ | ⟨slot, -, hidle, hbounds, heq⟩
  · refine ⟨?_, ?_, ?_, htimely⟩
    · simp only [step, hsame]
      exact hs.valid
    · simp only [step, hsame]
      exact hs.nodup
    · intro q hq
      simp only [step, hsame, hkeyed] at hq ⊢
      obtain ⟨p, old, hhistory, htracks⟩ := hs.tracked q hq
      exact ⟨p, old, hhistory, htracks.mono hallowed⟩
  · have hnew : ∀ q ∈ (if 1 < slot.repeatCount then
        [scheduled aid name slot (millis now)] else []),
        1 < slot.repeatCount ∧ q = scheduled aid name slot (millis now) := by
      intro q hq
      split_ifs at hq with hmany
      · exact ⟨hmany, List.mem_singleton.mp hq⟩
      · cases hq
    refine ⟨?_, ?_, ?_, htimely⟩
    · simp only [step, heq]
      exact hs.valid
    · simp only [step, heq, List.map_append]
      split_ifs
      · rw [List.nodup_append]
        refine ⟨hs.nodup, List.nodup_singleton _, ?_⟩
        rintro held hheld new hnew' rfl
        rw [List.map_singleton, List.mem_singleton] at hnew'
        have haid : held = aid := hnew'
        exact hidle (haid ▸ hheld)
      · rw [List.map_nil, List.append_nil]
        exact hs.nodup
    · intro q hq
      simp only [step, heq] at hq ⊢
      rcases List.mem_append.mp hq with hheld | hq'
      · obtain ⟨p, old, hhistory, htracks⟩ := hs.tracked q hheld
        have hother : q.aid ≠ aid := fun h => hidle (h ▸ List.mem_map_of_mem hheld)
        exact ⟨p, old, by simp [hother, hhistory], htracks.mono hallowed⟩
      · obtain ⟨hmany, rfl⟩ := hnew q hq'
        exact ⟨firstSend now slot, s.history aid, by simp [scheduled],
          tracks_firstSend hbounds hmany now⟩

theorem scheduled_poll {tx : UInt16 → Transmitter}
    (hallowed : Allowed s (.pollPendingSends now tx)) :
    Scheduled (step s (.pollPendingSends now tx)) := by
  refine ⟨?_, ?_, ?_, fun aid p => hs.timely_step (.pollPendingSends now tx) hallowed aid⟩
  · simp only [step, pollPendingSends_eq]
    exact hs.valid
  · simp only [step, pollPendingSends_eq]
    exact nodup_polled hs.nodup
  · intro q' hq'
    have hmem : q' ∈ s.sender.pending.filterMap
        (PendingSeq.polled s.sender.config (millis now) tx) := by
      simpa only [step, pollPendingSends_eq] using hq'
    obtain ⟨q, hq, hpolled⟩ := List.mem_filterMap.mp hmem
    obtain ⟨p, old, hhistory, htracks⟩ := hs.tracked q hq
    rw [(command_of_polled hpolled).1]
    cases hsends : q.sends s.sender.config (millis now) tx with
    | true =>
        refine ⟨p.send now, old, hs.history_of_sends hq hhistory hsends, ?_⟩
        rcases htracks.polled hsends with ⟨hnone, -⟩ | ⟨r, hr, -, -, htracks'⟩
        · rw [hnone] at hpolled
          cases hpolled
        · rw [hr] at hpolled
          rw [← Option.some.inj hpolled]
          exact htracks'
    | false =>
        rw [polled_of_not_sends hsends hpolled]
        exact ⟨p, old, (hs.history_of_not_sends hq hsends).trans hhistory,
          htracks.mono hallowed.1⟩

theorem scheduled_step {event : Event} (hallowed : Allowed s event) :
    Scheduled (step s event) := by
  cases event with
  | transmit now aid name tx => exact scheduled_transmit hs hallowed
  | pollPendingSends now tx => exact scheduled_poll hs hallowed
  | applyConfigChange now cfg =>
      refine ⟨hallowed.2, List.nodup_nil, ?_, hs.timely⟩
      intro q hq
      cases hq

/-- A press stays where it is in the history, under its own count and delay; once complete
it gets no further send. -/
theorem Scheduled.press_step {event : Event} (hallowed : Allowed s event) {aid : UInt16}
    {newer old : List Press} (hhistory : s.history aid = newer ++ p :: old) :
    ∃ newer' p', (step s event).history aid = newer' ++ p' :: old ∧
      p'.count = p.count ∧ p'.delayMs = p.delayMs ∧ (p.sends.length = p.count → p' = p) := by
  rcases hs.history_cases event hallowed aid with
    hsame | ⟨now, slot, -, hnew⟩ | ⟨now, head, rest, hhead, hless, -, hsend⟩
  · exact ⟨newer, p, hsame.trans hhistory, rfl, rfl, fun _ => rfl⟩
  · exact ⟨firstSend now slot :: newer, p, by rw [hnew, hhistory, List.cons_append], rfl, rfl,
      fun _ => rfl⟩
  · rw [hhead] at hhistory
    cases newer with
    | nil =>
        obtain ⟨rfl, rfl⟩ := List.cons.inj hhistory
        exact ⟨[], head.send now, hsend, rfl, rfl, fun hcomplete => by omega⟩
    | cons first newer =>
        obtain ⟨rfl, rfl⟩ := List.cons.inj hhistory
        exact ⟨head.send now :: newer, p, hsend, rfl, rfl, fun _ => rfl⟩

/-- The send of a due sequence: the press is complete or its sequence goes on. -/
theorem Scheduled.send_of_due {tx : UInt16 → Transmitter} {old : List Press}
    (hq : q ∈ s.sender.pending) (hhistory : s.history q.aid = p :: old)
    (hsends : q.sends s.sender.config (millis now) tx = true) :
    (step s (.pollPendingSends now tx)).history q.aid = p.send now :: old ∧
      ((p.send now).sends.length = p.count ∨
        ∃ q' ∈ (step s (.pollPendingSends now tx)).sender.pending, q'.aid = q.aid) := by
  refine ⟨hs.history_of_sends hq hhistory hsends, ?_⟩
  obtain ⟨p', old', hhistory', htracks⟩ := hs.tracked q hq
  rw [hhistory] at hhistory'
  obtain ⟨rfl, -⟩ := List.cons.inj hhistory'
  rcases htracks.polled hsends with ⟨-, hcomplete⟩ | ⟨q', hq', haid, -, -⟩
  · exact Or.inl hcomplete
  · refine Or.inr ⟨q', ?_, haid⟩
    simp only [step, pollPendingSends_eq]
    exact List.mem_filterMap.mpr ⟨q, hq, hq'⟩

/-- Without a configuration change and a failing send, a sequence stays until its next
send. -/
theorem Scheduled.waits {event : Event} {old : List Press}
    (hq : q ∈ s.sender.pending) (hhistory : s.history q.aid = p :: old)
    (hunchanged : ∀ now cfg, event ≠ .applyConfigChange now cfg)
    (hsucceeds : ∀ now tx, event = .pollPendingSends now tx → q.due (millis now) = true →
      q.firesNow s.sender.config (tx q.aid) = true) :
    (q ∈ (step s event).sender.pending ∧
      (step s event).history q.aid = p :: old) ∨
    ∃ now, (step s event).history q.aid = p.send now :: old ∧
      ((p.send now).sends.length = p.count ∨
        ∃ q' ∈ (step s event).sender.pending, q'.aid = q.aid) := by
  cases event with
  | transmit now aid name tx =>
      left
      rcases transmit_cases s.sender hs.valid (millis now) aid name tx with
        ⟨hkeyed, hsame⟩ | ⟨slot, -, hidle, -, heq⟩
      · simp only [step, hkeyed, hsame]
        exact ⟨hq, hhistory⟩
      · have hother : q.aid ≠ aid := fun h => hidle (h ▸ List.mem_map_of_mem hq)
        simp only [step, heq]
        exact ⟨List.mem_append_left _ hq, by simp [hother, hhistory]⟩
  | pollPendingSends now tx =>
      cases hdue : q.due (millis now) with
      | true =>
          have hsends : q.sends s.sender.config (millis now) tx = true := by
            rw [PendingSeq.sends, hdue, hsucceeds now tx rfl hdue]
            rfl
          exact Or.inr ⟨now, hs.send_of_due hq hhistory hsends⟩
      | false =>
          have hsends : q.sends s.sender.config (millis now) tx = false := by
            rw [PendingSeq.sends, hdue]
            rfl
          refine Or.inl ⟨?_, (hs.history_of_not_sends hq hsends).trans hhistory⟩
          simp only [step, pollPendingSends_eq]
          refine List.mem_filterMap.mpr ⟨q, hq, ?_⟩
          simp [PendingSeq.polled, hdue]
  | applyConfigChange now cfg => exact absurd rfl (hunchanged now cfg)

end OneStep

theorem scheduled_init {cfg : Config} (hvalid : validate cfg = .ok) (start : Nat) :
    Scheduled (sendMachine cfg start).init :=
  ⟨hvalid, List.nodup_nil, by simp [sendMachine], by simp [sendMachine]⟩

theorem scheduled_run {cfg : Config} (hvalid : validate cfg = .ok) (start : Nat)
    {events : List Event} (hguard : (sendMachine cfg start).Guarded Allowed events) :
    Scheduled ((sendMachine cfg start).run events) :=
  (sendMachine cfg start).guarded_run_induction (P := fun _ s => Scheduled s)
    (scheduled_init hvalid start) (fun _ _ hallowed hs => scheduled_step hs hallowed) events hguard

end Repeat

end RfIrBlaster
