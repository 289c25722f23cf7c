/-
The sends of each accepted press over a whole run of presses, polls and configuration
changes, told in real time: at most the count the command asks for, none early, and all of
them where nothing fails.
-/
import Mathlib.Data.Nat.Find
import RfIrBlaster.SendTimeline

namespace RfIrBlaster

namespace Repeat

open Transmit

/-- Polls never end: there is one past every moment. -/
def PollsContinue (events : Nat → Event) : Prop :=
  ∀ time, ∃ i now tx, events i = .pollPendingSends now tx ∧ time ≤ now

/-- No configuration is applied behind event `i`. -/
def ConfigKept (events : Nat → Event) (i : Nat) : Prop :=
  ∀ k, i < k → ∀ now cfg, events k ≠ .applyConfigChange now cfg

/-- Every send due for the accessory behind event `i` goes out. -/
def SendsSucceed (M : StateMachine Timeline Event) (events : Nat → Event) (i : Nat)
    (aid : UInt16) : Prop :=
  ∀ k, i < k → ∀ now tx, events k = .pollPendingSends now tx →
    ∀ q ∈ (M.stateAt events k).sender.pending, q.aid = aid → q.due (millis now) = true →
      q.firesNow (M.stateAt events k).sender.config (tx q.aid) = true

/-- The press in front of the `old` ones is there, with its count of sends. -/
def Complete (aid : UInt16) (count : Nat) (old : List Press) (s : Timeline) : Prop :=
  ∃ newer p, s.history aid = newer ++ p :: old ∧ p.count = count ∧ p.sends.length = count

section Endless

variable {cfg : Config} {start : Nat} {events : Nat → Event}

theorem scheduled_stateAt (hvalid : validate cfg = .ok)
    (hguard : ∀ i, Allowed ((sendMachine cfg start).stateAt events i) (events i)) (i : Nat) :
    Scheduled ((sendMachine cfg start).stateAt events i) :=
  (sendMachine cfg start).stateAt_induction (scheduled_init hvalid start)
    (fun _ _ hallowed hs => scheduled_step hs hallowed) hguard i

theorem clock_mono_step {s : Timeline} {event : Event} (hallowed : Allowed s event) :
    s.clock ≤ (step s event).clock := by
  cases event with
  | transmit now aid name tx => exact hallowed
  | pollPendingSends now tx => exact hallowed.1
  | applyConfigChange now cfg => exact hallowed.1

/-- Between two polls, with none past `bound` in between, the last poll stays below it. -/
theorem lastPoll_lt {a b now bound : Nat} {tx : UInt16 → Transmitter} (hab : a < b)
    (hpoll : events a = .pollPendingSends now tx) (hnow : now < bound)
    (hbelow : ∀ k, k < b → ∀ now tx, events k = .pollPendingSends now tx → now < bound) :
    ∃ last, ((sendMachine cfg start).stateAt events b).lastPoll = some last ∧ last < bound := by
  induction b, hab using Nat.le_induction with
  | base =>
      rw [StateMachine.stateAt_succ, hpoll]
      exact ⟨now, rfl, hnow⟩
  | succ b hab ih =>
      obtain ⟨last, hlast, hlt⟩ := ih fun k hk => hbelow k (Nat.lt_succ_of_lt hk)
      rw [StateMachine.stateAt_succ]
      cases hevent : events b with
      | transmit now aid name tx => exact ⟨last, hlast, hlt⟩
      | pollPendingSends now tx => exact ⟨now, rfl, hbelow b (Nat.lt_succ_self b) now tx hevent⟩
      | applyConfigChange now cfg => exact ⟨last, hlast, hlt⟩

variable (hguard : ∀ i, Allowed ((sendMachine cfg start).stateAt events i) (events i))

include hguard

theorem clock_mono {i k : Nat} (hik : i ≤ k) :
    ((sendMachine cfg start).stateAt events i).clock ≤
      ((sendMachine cfg start).stateAt events k).clock := by
  apply (sendMachine cfg start).stateAt_persists
    (P := fun s => ((sendMachine cfg start).stateAt events i).clock ≤ s.clock)
    (Nat.le_refl _) _ hik
  intro k _ hle
  exact Nat.le_trans hle (clock_mono_step (hguard k))

/-- A poll that reads a later time than a state of the run comes behind that state. -/
theorem le_of_clock_lt {i k now : Nat} {tx : UInt16 → Transmitter}
    (hpoll : events k = .pollPendingSends now tx)
    (hlate : ((sendMachine cfg start).stateAt events i).clock < now) : i ≤ k := by
  by_contra hlt
  have hmono := clock_mono hguard (Nat.succ_le_of_lt (Nat.not_le.mp hlt))
  rw [StateMachine.stateAt_succ, hpoll] at hmono
  exact Nat.not_le.mpr hlate hmono

/-- Whatever the time asked for, some later poll reads the clock in the half turn behind
it: polls are closer than half a turn, so they cannot jump over it. -/
theorem exists_poll_in_turn (hcontinue : PollsContinue events) (i fire : Nat) :
    ∃ b now tx turns, i ≤ b ∧ events b = .pollPendingSends now tx ∧
      fire + 2 ^ 32 * turns ≤ now ∧ now < fire + 2 ^ 32 * turns + 2 ^ 31 := by
  classical
  obtain ⟨a, early, txA, hpollA, hearly⟩ :=
    hcontinue (((sendMachine cfg start).stateAt events i).clock + 1)
  have hia : i ≤ a := le_of_clock_lt hguard hpollA hearly
  -- the turn is chosen past the poll at `a`, so that some poll comes in front of it
  have hlater : early < fire + 2 ^ 32 * (early + 1) := by omega
  have hexists : ∃ b now tx, events b = .pollPendingSends now tx ∧
      fire + 2 ^ 32 * (early + 1) ≤ now := hcontinue _
  obtain ⟨now, tx, hpoll, hreached⟩ := Nat.find_spec hexists
  have hbelow : ∀ k, k < Nat.find hexists → ∀ now tx, events k = .pollPendingSends now tx →
      now < fire + 2 ^ 32 * (early + 1) := by
    intro k hk now' tx' hpoll'
    by_contra hle
    exact Nat.find_min hexists hk ⟨now', tx', hpoll', Nat.not_lt.mp hle⟩
  have hab : a < Nat.find hexists := by
    have hclock : ((sendMachine cfg start).stateAt events (a + 1)).clock < now := by
      rw [StateMachine.stateAt_succ, hpollA]
      exact Nat.lt_of_lt_of_le hlater hreached
    exact le_of_clock_lt hguard hpoll hclock
  obtain ⟨last, hlast, hlt⟩ : ∃ last,
      ((sendMachine cfg start).stateAt events (Nat.find hexists)).lastPoll = some last ∧
        last < fire + 2 ^ 32 * (early + 1) := lastPoll_lt hab hpollA hlater hbelow
  have hallowed := hguard (Nat.find hexists)
  rw [hpoll] at hallowed
  have hgap := hallowed.2 last hlast
  exact ⟨_, now, tx, early + 1, Nat.le_trans hia (Nat.le_of_lt hab), hpoll, hreached, by omega⟩

/-- A press in flight is completed, one send after another. -/
theorem exists_complete (hvalid : validate cfg = .ok) (hcontinue : PollsContinue events)
    {i : Nat} {aid : UInt16} (hkept : ConfigKept events i)
    (hsucceed : SendsSucceed (sendMachine cfg start) events i aid) {old : List Press}
    (left k : Nat) (p : Press) (hik : i < k)
    (hhistory : ((sendMachine cfg start).stateAt events k).history aid = p :: old)
    (hleft : p.sends.length + left = p.count)
    (hflight : left = 0 ∨
      ∃ q ∈ ((sendMachine cfg start).stateAt events k).sender.pending, q.aid = aid) :
    ∃ j, Complete aid p.count old ((sendMachine cfg start).stateAt events j) := by
  induction left generalizing k p with
  | zero => exact ⟨k, [], p, hhistory, rfl, hleft⟩
  | succ left ih =>
      obtain ⟨q, hq, rfl⟩ := hflight.resolve_left (Nat.succ_ne_zero left)
      have hs := scheduled_stateAt hvalid hguard
      obtain ⟨p', old', hhistory', htracks⟩ := (hs k).tracked q hq
      rw [hhistory] at hhistory'
      obtain ⟨rfl, -⟩ := List.cons.inj hhistory'
      obtain ⟨last, earlier, hsends, -, hfire⟩ := htracks.fire
      obtain ⟨b, now, tx, turns, hkb, hpoll, hreached, hhalf⟩ :=
        exists_poll_in_turn hguard hcontinue k (last + p.delayMs)
      have hdue : q.due (millis now) = true := due_of_turn hfire hreached hhalf
      obtain ⟨k', hk', now', hsent, hnext⟩ := (sendMachine cfg start).stateAt_until
        (P := fun s => q ∈ s.sender.pending ∧ s.history q.aid = p :: old)
        (Q := fun s => ∃ now, s.history q.aid = p.send now :: old ∧
          ((p.send now).sends.length = p.count ∨ ∃ q' ∈ s.sender.pending, q'.aid = q.aid))
        hkb ⟨hq, hhistory⟩
        (fun m hm hwaiting => (hs m).waits hwaiting.1 hwaiting.2 (hkept m (by omega))
          fun now tx hevent => hsucceed m (by omega) now tx hevent q hwaiting.1 rfl)
        (by
          intro hwaiting
          have hfires := hsucceed b (by omega) now tx hpoll q hwaiting.1 rfl hdue
          rw [hpoll]
          refine ⟨now, (hs b).send_of_due hwaiting.1 hwaiting.2 ?_⟩
          rw [PendingSeq.sends, hdue, hfires]
          rfl)
      have hlength : (p.send now').sends.length + left = p.count := by
        simp only [Press.send, List.length_cons]
        omega
      refine ih k' (p.send now') (by omega) hsent hlength ?_
      exact hnext.imp_left fun hcomplete => by omega

theorem complete_persists (hvalid : validate cfg = .ok) {aid : UInt16} {count j : Nat}
    {old : List Press} (h : Complete aid count old ((sendMachine cfg start).stateAt events j))
    {k : Nat} (hjk : j ≤ k) :
    Complete aid count old ((sendMachine cfg start).stateAt events k) := by
  apply (sendMachine cfg start).stateAt_persists (P := Complete aid count old) h _ hjk
  rintro m - ⟨newer, p, hhistory, hcount, hlength⟩
  obtain ⟨newer', p', hhistory', hcount', -, hsame⟩ :=
    (scheduled_stateAt hvalid hguard m).press_step (hguard m) hhistory
  refine ⟨newer', p', hhistory', hcount'.trans hcount, ?_⟩
  rw [hsame (hlength.trans hcount.symm), hlength]

end Endless

/-- At most one sequence for each accessory, with a send left and fewer than a press may
ask for. -/
structure OneSequenceEach (pending : List PendingSeq) : Prop where
  nodup : (pending.map PendingSeq.aid).Nodup
  left : ∀ q ∈ pending, 1 ≤ q.sendsLeft ∧ q.sendsLeft ≤ maxRepeatCount - 1

theorem Scheduled.oneSequenceEach {s : Timeline} (hs : Scheduled s)
    (htimely : ∀ aid, ∀ p ∈ s.history aid, p.Timely) : OneSequenceEach s.sender.pending := by
  refine ⟨hs.nodup, ?_⟩
  intro q hq
  obtain ⟨p, old, hhistory, htracks⟩ := hs.tracked q hq
  have hsent := (htimely q.aid p (by simp [hhistory])).one_le
  have hleft := htracks.left_pos
  have htotal := htracks.total
  have hcount := htracks.count_le
  have hmax : (maxRepeatCount - 1).toNat = maxRepeatCount.toNat - 1 := by decide
  rw [UInt8.le_iff_toNat_le, UInt8.le_iff_toNat_le, hmax]
  exact ⟨hleft, by omega⟩

/-- A press that `transmit` answers with success while no sequence of its accessory runs. -/
def Accepts (s : Sender) (now : UInt32) (aid : UInt16) (name : Bytes) (tx : Transmitter) : Prop :=
  aidBusy s.pending aid = false ∧ (transmit s now aid name tx).answer = true

/-- An accepted press sends at once, and schedules a sequence when more is asked for. -/
theorem Scheduled.accepted {s : Timeline} (hs : Scheduled s) {now : Nat} {aid : UInt16}
    {name : Bytes} {tx : Transmitter} (haccepts : Accepts s.sender (millis now) aid name tx) :
    ∃ slot, resolveSlot s.sender.config aid name = some slot ∧
      (step s (.transmit now aid name tx)).history aid = firstSend now slot :: s.history aid ∧
      (slot.repeatCount.toNat = 1 ∨
        ∃ q ∈ (step s (.transmit now aid name tx)).sender.pending, q.aid = aid) := by
  obtain ⟨slot', hkeyed⟩ := keyed_of_accepted haccepts.1 haccepts.2
  rcases transmit_cases s.sender hs.valid (millis now) aid name tx with
    ⟨hnone, -⟩ | ⟨slot, hslot, -, hbounds, heq⟩
  · rw [hnone] at hkeyed
    cases hkeyed
  · refine ⟨slot, hslot, by simp [step, heq], ?_⟩
    by_cases hmany : 1 < slot.repeatCount
    · right
      refine ⟨scheduled aid name slot (millis now), ?_, rfl⟩
      simp [step, heq, hmany]
    · left
      have hone := UInt8.le_iff_toNat_le.mp hbounds.one_le
      have hnot := UInt8.le_iff_toNat_le.mp (UInt8.not_lt.mp hmany)
      exact Nat.le_antisymm hnot hone

/-- A press on a busy accessory, and one whose first send fails, leaves all as it is. -/
theorem step_of_nothing {s : Timeline} {aid : UInt16} {name : Bytes} {tx : Transmitter}
    (now : Nat) (h : aidBusy s.sender.pending aid = true ∨
      ∀ slot, resolveSlot s.sender.config aid name = some slot →
        fires tx (some slot.code) = false) :
    step s (.transmit now aid name tx) = { s with clock := now } := by
  obtain ⟨hkeyed, hsame⟩ := transmit_unchanged s.sender (millis now) tx h
  simp only [step, hkeyed, hsame]

/-- The press keeps its place and what it asks for over the rest of a run. -/
theorem press_kept {cfg : Config} (hvalid : validate cfg = .ok) {start : Nat}
    {pre post : List Event} (hguard : (sendMachine cfg start).Guarded Allowed (pre ++ post))
    {aid : UInt16} {p : Press} {newer old : List Press}
    (hhistory : ((sendMachine cfg start).run pre).history aid = newer ++ p :: old) :
    ∃ newer' p', ((sendMachine cfg start).run (pre ++ post)).history aid = newer' ++ p' :: old ∧
      p'.count = p.count ∧ p'.delayMs = p.delayMs := by
  induction post using List.reverseRecOn with
  | nil =>
      rw [List.append_nil]
      exact ⟨newer, p, hhistory, rfl, rfl⟩
  | append_singleton post event ih =>
      rw [← List.append_assoc] at hguard ⊢
      obtain ⟨newer', p', hhistory', hcount, hdelay⟩ := ih hguard.of_concat
      rw [StateMachine.run_concat]
      obtain ⟨newer'', p'', hhistory'', hcount', hdelay', -⟩ :=
        (scheduled_run hvalid start hguard.of_concat).press_step hguard.last hhistory'
      exact ⟨newer'', p'', hhistory'', hcount'.trans hcount, hdelay'.trans hdelay⟩

/-- Repeated sends are exact and never early: in every run each accessory has at most one
sequence and every press has its sends in time and no more than its count; a press that is
busy or whose first send fails leaves nothing; and where polls go on, the configuration
stays and no send fails, an accepted press gets its whole count. -/
theorem repeatedSends_exact (cfg : Config) (hvalid : validate cfg = .ok) (start : Nat) :
    (∀ events, (sendMachine cfg start).Guarded Allowed events →
      OneSequenceEach ((sendMachine cfg start).run events).sender.pending ∧
      ∀ aid, ∀ p ∈ ((sendMachine cfg start).run events).history aid, p.Timely) ∧
    (∀ pre now aid name tx post,
      (sendMachine cfg start).Guarded Allowed (pre ++ Event.transmit now aid name tx :: post) →
      ((aidBusy ((sendMachine cfg start).run pre).sender.pending aid = true ∨
          ∀ slot, resolveSlot ((sendMachine cfg start).run pre).sender.config aid name =
            some slot → fires tx (some slot.code) = false) →
        (sendMachine cfg start).run (pre ++ [Event.transmit now aid name tx]) =
          { (sendMachine cfg start).run pre with clock := now }) ∧
      (Accepts ((sendMachine cfg start).run pre).sender (millis now) aid name tx →
        ∃ slot newer p,
          resolveSlot ((sendMachine cfg start).run pre).sender.config aid name = some slot ∧
          ((sendMachine cfg start).run
              (pre ++ Event.transmit now aid name tx :: post)).history aid =
            newer ++ p :: ((sendMachine cfg start).run pre).history aid ∧
          p.count = slot.repeatCount.toNat ∧ p.delayMs = slot.repeatDelayMs.toNat ∧
          p.Timely)) ∧
    (∀ events : Nat → Event,
      (∀ i, Allowed ((sendMachine cfg start).stateAt events i) (events i)) →
      PollsContinue events →
      ∀ i now aid name tx, events i = .transmit now aid name tx →
        Accepts ((sendMachine cfg start).stateAt events i).sender (millis now) aid name tx →
        ConfigKept events i → SendsSucceed (sendMachine cfg start) events i aid →
        ∃ slot j,
          resolveSlot ((sendMachine cfg start).stateAt events i).sender.config aid name =
            some slot ∧
          ∀ k, j ≤ k → Complete aid slot.repeatCount.toNat
            (((sendMachine cfg start).stateAt events i).history aid)
            ((sendMachine cfg start).stateAt events k)) := by
  refine ⟨?_, ?_, ?_⟩
  · intro events hguard
    have hs := scheduled_run hvalid start hguard
    exact ⟨hs.oneSequenceEach hs.timely, hs.timely⟩
  · intro pre now aid name tx post hguard
    have hs := scheduled_run hvalid start hguard.of_append
    have hsplit : pre ++ .transmit now aid name tx :: post =
        (pre ++ [Event.transmit now aid name tx]) ++ post := by simp
    constructor
    · intro hnothing
      rw [StateMachine.run_concat]
      exact step_of_nothing now hnothing
    · intro haccepts
      obtain ⟨slot, hslot, hhistory, -⟩ := hs.accepted haccepts
      rw [hsplit] at hguard ⊢
      have hpress : ((sendMachine cfg start).run (pre ++ [Event.transmit now aid name tx])).history
          aid = [] ++ firstSend now slot :: ((sendMachine cfg start).run pre).history aid := by
        rw [StateMachine.run_concat]
        exact hhistory
      obtain ⟨newer, p, hkept, hcount, hdelay⟩ := press_kept hvalid hguard hpress
      refine ⟨slot, newer, p, hslot, hkept, hcount, hdelay, ?_⟩
      apply (scheduled_run hvalid start hguard).timely aid p
      rw [hkept]
      exact List.mem_append_right newer List.mem_cons_self
  · intro events hguard hcontinue i now aid name tx hpress haccepts hkept hsucceed
    have hs := scheduled_stateAt hvalid hguard i
    obtain ⟨slot, hslot, hhistory, hflight⟩ := hs.accepted haccepts
    have hnext : (sendMachine cfg start).stateAt events (i + 1) =
        step ((sendMachine cfg start).stateAt events i) (.transmit now aid name tx) := by
      rw [StateMachine.stateAt_succ, hpress]
      rfl
    have hcount := UInt8.le_iff_toNat_le.mp
      (repeatBounds_of_resolveSlot hs.valid hslot).one_le
    have hone : (1 : UInt8).toNat = 1 := rfl
    rw [← hnext] at hhistory hflight
    obtain ⟨j, hcomplete⟩ := exists_complete hguard hvalid hcontinue hkept hsucceed
      (slot.repeatCount.toNat - 1) (i + 1) (firstSend now slot) (Nat.lt_succ_self i) hhistory
      (by simp only [firstSend, List.length_singleton]; omega)
      (hflight.imp_left fun hsingle => by omega)
    exact ⟨slot, j, hslot, fun k hjk => complete_persists hguard hvalid hcomplete hjk⟩

/-- One command, asked for three times. -/
def bellSlot : CommandSlot where
  name := ascii "on"
  code := doorbellCode
  repeatCount := 3
  repeatDelayMs := 100

def bellConfig : Config where
  nextDeviceId := 3
  devices := [{ id := 2, service := ascii "switch", commands := [bellSlot] }]

/-- One press, then polls that come just as a send is due. -/
def bellEvents : Nat → Event
  | 0 => .transmit 5 2 (ascii "on") idleTransmitter
  | i + 1 => .pollPendingSends (5 + 100 * (i + 1)) fun _ => idleTransmitter

theorem bellEvents_allowed (i : Nat) :
    Allowed ((sendMachine bellConfig 0).stateAt bellEvents i) (bellEvents i) := by
  match i with
  | 0 => exact Nat.zero_le 5
  | 1 =>
      rw [StateMachine.stateAt_succ]
      have hlater : 5 ≤ 5 + 100 * (0 + 1) := by decide
      refine ⟨hlater, ?_⟩
      intro last hlast
      cases hlast
  | i + 2 =>
      rw [StateMachine.stateAt_succ]
      have hmax : maxRepeatDelayMs.toNat = 5000 := rfl
      have hlater : 5 + 100 * (i + 1) ≤ 5 + 100 * (i + 1 + 1) := by omega
      refine ⟨hlater, ?_⟩
      intro last hlast
      cases Option.some.inj hlast
      omega

/-- Everything scheduled is the bell's command. -/
theorem bellEvents_pending (i : Nat) :
    ((sendMachine bellConfig 0).stateAt bellEvents i).sender.config = bellConfig ∧
      ∀ q ∈ ((sendMachine bellConfig 0).stateAt bellEvents i).sender.pending,
        q.aid = 2 ∧ q.name = ascii "on" := by
  induction i with
  | zero => exact ⟨rfl, fun q hq => by cases hq⟩
  | succ i ih =>
      have hs := scheduled_stateAt (by decide) bellEvents_allowed i
      rw [StateMachine.stateAt_succ]
      cases i with
      | zero =>
          rcases transmit_cases ((sendMachine bellConfig 0).stateAt bellEvents 0).sender hs.valid
            (millis 5) 2 (ascii "on") idleTransmitter with ⟨-, hsame⟩ | ⟨slot, -, -, -, heq⟩
          · simp only [sendMachine, step, bellEvents] at hsame ⊢
            rw [hsame]
            exact ih
          · simp only [sendMachine, step, bellEvents] at heq ih ⊢
            rw [heq]
            refine ⟨ih.1, fun q hq => ?_⟩
            rcases List.mem_append.mp hq with hheld | hnew
            · exact ih.2 q hheld
            · split_ifs at hnew
              · rw [List.mem_singleton.mp hnew]
                exact ⟨rfl, rfl⟩
              · cases hnew
      | succ i =>
          simp only [sendMachine, step, bellEvents, pollPendingSends_eq] at ih ⊢
          refine ⟨ih.1, fun q' hq' => ?_⟩
          obtain ⟨q, hq, hpolled⟩ := List.mem_filterMap.mp hq'
          rw [(command_of_polled hpolled).1, (command_of_polled hpolled).2]
          exact ih.2 q hq

theorem repeatedSends_exact_bell :
    ∃ j, ∀ k, j ≤ k → Complete 2 3 [] ((sendMachine bellConfig 0).stateAt bellEvents k) := by
  have hfires : fires idleTransmitter (some doorbellCode) = true := by decide +kernel
  have hslot : resolveSlot bellConfig 2 (ascii "on") = some bellSlot := by decide
  have hcontinue : PollsContinue bellEvents :=
    fun time => ⟨time + 1, 5 + 100 * (time + 1), fun _ => idleTransmitter, rfl, by omega⟩
  have haccepts : Accepts ⟨bellConfig, []⟩ (millis 5) 2 (ascii "on") idleTransmitter := by
    refine ⟨rfl, ?_⟩
    have hlearned : bellSlot.code.isLearned = true := by decide
    have hfirst : fires idleTransmitter (some bellSlot.code) = true := hfires
    simp only [transmit, hslot, hlearned, hfirst]
    rfl
  have hkept : ConfigKept bellEvents 0 := by
    intro k hk now cfg hevent
    cases k with
    | zero => exact Nat.lt_irrefl 0 hk
    | succ k => cases hevent
  have hsucceed : SendsSucceed (sendMachine bellConfig 0) bellEvents 0 2 := by
    intro k hk now tx hevent q hq haid hdue
    obtain ⟨hconfig, hpending⟩ := bellEvents_pending k
    cases k with
    | zero => exact absurd hk (Nat.lt_irrefl 0)
    | succ k =>
        obtain ⟨rfl, rfl⟩ := Event.pollPendingSends.inj hevent
        rw [PendingSeq.firesNow, hconfig, haid, (hpending q hq).2, hslot]
        exact hfires
  obtain ⟨slot, j, hresolved, hcomplete⟩ := (repeatedSends_exact bellConfig (by decide) 0).2.2
    bellEvents bellEvents_allowed hcontinue 0 5 2 (ascii "on") idleTransmitter rfl haccepts
    hkept hsucceed
  have hbell : slot = bellSlot := Option.some.inj (hresolved.symm.trans hslot)
  rw [hbell] at hcomplete
  exact ⟨j, hcomplete⟩

end Repeat

end RfIrBlaster
