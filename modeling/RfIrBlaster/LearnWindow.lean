/-
The learn window against the real clock: `millis()` wraps at `2 ^ 32`, the deadline
of `begin` does not, and a session left open keeps the transmitters shut.
-/
import RfIrBlaster.LearnApi

namespace RfIrBlaster

open Learn

/-- What the RMT driver answers while a receiver is armed. -/
structure ArmAnswers where
  newChannel : Bool := true
  registerCallbacks : Bool := true
  enable : Bool := true
deriving DecidableEq, Repr

/-- The receive channel of `ir.cpp`; it is created once and never deleted. -/
structure IrReceiver where
  rx : Bool := true
  rxEnabled : Bool := false
  enabled_has_channel : rxEnabled = true → rx = true := by simp

/-- The receive channel of one band of `radios.cpp`. -/
structure RfBand where
  rx : Bool := false
  rxEnabled : Bool := false
deriving DecidableEq, Repr

def startIRRx (ir : IrReceiver) (answers : ArmAnswers) : IrReceiver :=
  if hrx : ir.rx = false then ir
  else if ir.rxEnabled then ir
  else if !answers.enable then ir
  else { rx := ir.rx, rxEnabled := true, enabled_has_channel := fun _ => by simpa using hrx }

def stopIRRx (ir : IrReceiver) : IrReceiver :=
  if !ir.rx || !ir.rxEnabled then ir
  else { rx := ir.rx, rxEnabled := false }

def armBand (b : RfBand) (answers : ArmAnswers) : RfBand :=
  let created : Option RfBand :=
    if b.rx then some b
    else if !answers.newChannel then none
    else if !answers.registerCallbacks then none
    else some { b with rx := true }
  match created with
  | none => { b with rx := false }
  | some b =>
      if b.rxEnabled then b
      else if !answers.enable then { b with rx := false }
      else { b with rxEnabled := true }

def disarmBand (_ : RfBand) : RfBand :=
  { rx := false, rxEnabled := false }

structure Receivers where
  ir : IrReceiver := {}
  band315 : RfBand := {}
  band433 : RfBand := {}

namespace Receivers

def bandFor (r : Receivers) (freqMHz : UInt16) : Option RfBand :=
  if freqMHz = 315 then some r.band315
  else if freqMHz = 433 then some r.band433
  else none

def startAll (r : Receivers) (answers : Source → ArmAnswers) : Receivers where
  ir := startIRRx r.ir (answers .ir)
  band315 := armBand r.band315 (answers .rf315)
  band433 := armBand r.band433 (answers .rf433)

def stopAll (r : Receivers) : Receivers where
  ir := stopIRRx r.ir
  band315 := disarmBand r.band315
  band433 := disarmBand r.band433

/-- Nothing listens. -/
structure Stopped (r : Receivers) : Prop where
  ir : r.ir.rxEnabled = false
  band315 : r.band315 = {}
  band433 : r.band433 = {}

end Receivers

/-- `sendRFCode`; `transmitted` is what `transmitOOK` answers. -/
def sendRFCode (r : Receivers) (freqMHz : UInt16) (pulses : List UInt16)
    (transmitted : Bool) : Bool :=
  if pulses.length < 2 ∨ pulses.length % 2 ≠ 0 then false
  else
    match r.bandFor freqMHz with
    | none => false
    | some b => if b.rx then false else transmitted

/-- `sendIR`; `transmitted` is what the transmit channel answers. -/
def sendIR (r : Receivers) (pulses : List UInt16) (transmitted : Bool) : Bool :=
  if pulses.length < 2 ∨ pulses.length % 2 ≠ 0 then false
  else if r.ir.rxEnabled then false
  else transmitted

/-- `learn.cpp` with the receivers it starts and stops. -/
structure LearnDevice where
  driver : LearnDriver := {}
  receivers : Receivers := {}

/-- The clock of the device at a real time in ms since boot. -/
def millis (time : Nat) : UInt32 :=
  UInt32.ofNat time

/-- One `pollLearn`: its real time and the bursts the receivers hold. -/
structure Poll where
  time : Nat
  ir : List (List UInt16 × UInt16) := []
  rf315 : List (List UInt16) := []
  rf433 : List (List UInt16) := []
deriving DecidableEq, Repr

def Poll.input (p : Poll) : DriverInput where
  now := (millis p.time).toUInt64
  ir := p.ir
  rf315 := p.rf315
  rf433 := p.rf433

namespace LearnDevice

def startLearn (d : LearnDevice) (time : Nat) (answers : Source → ArmAnswers) :
    LearnDevice where
  driver := d.driver.startLearn (millis time).toUInt64
  receivers := d.receivers.startAll answers

def pollLearn (d : LearnDevice) (p : Poll) : LearnDevice where
  driver := d.driver.pollLearn p.input
  receivers :=
    if d.driver.active ∧ (d.driver.pollLearn p.input).machine.state ≠ .listening then
      d.receivers.stopAll
    else d.receivers

/-- A learn session: `startLearn`, then polls. -/
def session (d : LearnDevice) (start : Nat) (answers : Source → ArmAnswers)
    (polls : List Poll) : LearnDevice :=
  polls.foldl pollLearn (d.startLearn start answers)

/-- The session is over, the receivers are stopped and every send that is well
formed reaches the transmitter. -/
structure Closed (d : LearnDevice) : Prop where
  finished : d.driver.machine.state ≠ .listening
  stopped : d.receivers.Stopped
  rf_sends : ∀ freqMHz pulses transmitted, freqMHz = 315 ∨ freqMHz = 433 →
    2 ≤ pulses.length → pulses.length % 2 = 0 →
      sendRFCode d.receivers freqMHz pulses transmitted = transmitted
  ir_sends : ∀ pulses transmitted, 2 ≤ pulses.length → pulses.length % 2 = 0 →
    sendIR d.receivers pulses transmitted = transmitted

end LearnDevice

/-- The bursts of one poll, fed without a tick. -/
def feedPoll (m : LearnMachine) (p : Poll) : LearnMachine :=
  let m := feedWhileListening .ir p.input.now p.ir m
  let m :=
    if m.state = .listening then
      feedWhileListening .rf315 p.input.now (p.rf315.map fun pulses => (pulses, 0)) m
    else m
  if m.state = .listening then
    feedWhileListening .rf433 p.input.now (p.rf433.map fun pulses => (pulses, 0)) m
  else m

/-- What is heard settles the session by itself: a capture, or a rolling code. -/
def Settled (start : Nat) (polls : List Poll) : Prop :=
  (polls.foldl feedPoll (({} : LearnMachine).begin (millis start).toUInt64)).state ≠ .listening

theorem millis_toNat (time : Nat) : (millis time).toUInt64.toNat = time % 2 ^ 32 := by
  rw [UInt32.toNat_toUInt64, millis, UInt32.toNat_ofNat']

theorem stopAll_stopped (r : Receivers) : r.stopAll.Stopped where
  ir := by
    unfold Receivers.stopAll stopIRRx
    cases hrx : r.ir.rxEnabled with
    | false => simp [hrx]
    | true => simp [r.ir.enabled_has_channel hrx]
  band315 := rfl
  band433 := rfl

/-- A stopped receiver refuses no send. -/
theorem closed_of_stopped {d : LearnDevice} (hover : d.driver.machine.state ≠ .listening)
    (hstopped : d.receivers.Stopped) : d.Closed where
  finished := hover
  stopped := hstopped
  rf_sends := by
    intro freqMHz pulses transmitted hfreq hlong heven
    have hform : ¬(pulses.length < 2 ∨ pulses.length % 2 ≠ 0) := by omega
    rw [sendRFCode, if_neg hform]
    rcases hfreq with rfl | rfl
    · simp [Receivers.bandFor, hstopped.band315]
    · simp [Receivers.bandFor, hstopped.band433]
  ir_sends := by
    intro pulses transmitted hlong heven
    have hform : ¬(pulses.length < 2 ∨ pulses.length % 2 ≠ 0) := by omega
    rw [sendIR, if_neg hform]
    simp [hstopped.ir]

theorem feedBurst_deadline (m : LearnMachine) (src : Source) (pulses : List UInt16)
    (carrierHz : UInt16) (now : UInt64) :
    (m.feedBurst src pulses carrierHz now).deadline = m.deadline := by
  rcases m.feedBurst_cases src pulses carrierHz now with ⟨-, heq⟩ | ⟨-, -, hfed⟩
  · rw [heq]
  · rcases hfed with ⟨_, -, heq⟩ | ⟨-, -, -, heq⟩ | ⟨-, -, heq⟩
    · rw [heq]
    · rw [heq]
    · rw [heq]
      rfl

theorem feedWhileListening_deadline (src : Source) (now : UInt64)
    (bursts : List (List UInt16 × UInt16)) (m : LearnMachine) :
    (feedWhileListening src now bursts m).deadline = m.deadline := by
  induction bursts generalizing m with
  | nil => rfl
  | cons burst rest ih =>
      rw [feedWhileListening]
      split_ifs
      · exact feedBurst_deadline m src burst.1 burst.2 now
      · rw [ih, feedBurst_deadline]

theorem feedPoll_deadline (m : LearnMachine) (p : Poll) :
    (feedPoll m p).deadline = m.deadline := by
  simp only [feedPoll]
  split_ifs <;> simp only [feedWhileListening_deadline]

/-- A machine that has made up its mind is not fed any more. -/
theorem feedWhileListening_settled {src : Source} {now : UInt64}
    {bursts : List (List UInt16 × UInt16)} {m : LearnMachine} (h : m.state ≠ .listening) :
    feedWhileListening src now bursts m = m := by
  cases bursts with
  | nil => rfl
  | cons burst rest =>
      have hsame : m.feedBurst src burst.1 burst.2 now = m := by
        rw [LearnMachine.feedBurst, if_pos (Or.inl h)]
      rw [feedWhileListening]
      rw [hsame, if_pos h]

theorem feedPoll_settled {m : LearnMachine} (h : m.state ≠ .listening) (p : Poll) :
    feedPoll m p = m := by
  simp only [feedPoll, feedWhileListening_settled h, if_neg h]

theorem pollLearn_active {d : LearnDriver} (h : d.active = true) (p : Poll) :
    d.pollLearn p.input =
      { machine := (feedPoll d.machine p).tick p.input.now
        active := ((feedPoll d.machine p).tick p.input.now).state = .listening } := by
  rw [LearnDriver.pollLearn, if_neg (by simp [h])]
  rfl

theorem LearnMachine.tick_settled {m : LearnMachine} (h : m.state ≠ .listening) (now : UInt64) :
    m.tick now = m :=
  if_neg fun hdue => h hdue.1

theorem LearnMachine.tick_early {m : LearnMachine} {now : UInt64} (h : now.toNat < m.deadline) :
    m.tick now = m :=
  if_neg fun hdue => absurd hdue.2 (Nat.not_le.mpr h)

theorem LearnMachine.tick_late {m : LearnMachine} {now : UInt64} (h : m.deadline ≤ now.toNat) :
    (m.tick now).state ≠ .listening := by
  by_cases hlistening : m.state = .listening
  · rw [LearnMachine.tick, if_pos ⟨hlistening, h⟩, LearnMachine.fail]
    simp
  · rw [LearnMachine.tick_settled hlistening]
    exact hlistening

namespace LearnDevice

theorem pollLearn_idle {d : LearnDevice} (h : d.driver.active = false) (p : Poll) :
    d.pollLearn p = d := by
  have hdriver : d.driver.pollLearn p.input = d.driver := by
    rw [LearnDriver.pollLearn, if_pos (by simp [h])]
  rw [pollLearn, hdriver, if_neg (by simp [h])]

theorem polls_idle {d : LearnDevice} (h : d.driver.active = false) (polls : List Poll) :
    polls.foldl pollLearn d = d := by
  induction polls with
  | nil => rfl
  | cons p rest ih => rw [List.foldl_cons, pollLearn_idle h, ih]

/-- The device next to the machine that hears the same bursts and is never ticked:
both listen, or the device is closed for good. -/
inductive Follows (d : LearnDevice) (m : LearnMachine) : Prop
  | waiting (hlistening : m.state = .listening) (hdriver : d.driver = ⟨m, true⟩)
  | closed (hsettled : m.state ≠ .listening) (hidle : d.driver.active = false)
      (hclosed : d.Closed)

/-- A poll that ends the session stops the receivers. -/
theorem pollLearn_closes {d : LearnDevice} (hactive : d.driver.active = true) {p : Poll}
    (hover : ((feedPoll d.driver.machine p).tick p.input.now).state ≠ .listening) :
    (d.pollLearn p).driver.active = false ∧ (d.pollLearn p).Closed := by
  have hdriver := pollLearn_active hactive p
  refine ⟨?_, closed_of_stopped ?_ ?_⟩
  · rw [pollLearn, hdriver]
    simp [hover]
  · rw [pollLearn, hdriver]
    exact hover
  · rw [pollLearn, hdriver, if_pos ⟨hactive, hover⟩]
    exact stopAll_stopped _

/-- One poll before the deadline. -/
theorem Follows.poll_early {d : LearnDevice} {m : LearnMachine} (h : d.Follows m) {p : Poll}
    (hearly : p.input.now.toNat < m.deadline) : (d.pollLearn p).Follows (feedPoll m p) := by
  cases h with
  | closed hsettled hidle hclosed =>
      rw [pollLearn_idle hidle, feedPoll_settled hsettled]
      exact .closed hsettled hidle hclosed
  | waiting hlistening hdriver =>
      have hactive : d.driver.active = true := by rw [hdriver]
      have hmachine : d.driver.machine = m := by rw [hdriver]
      by_cases hfed : (feedPoll m p).state = .listening
      · have htick : (feedPoll m p).tick p.input.now = feedPoll m p :=
          LearnMachine.tick_early (by rw [feedPoll_deadline]; exact hearly)
        refine .waiting hfed ?_
        rw [pollLearn, pollLearn_active hactive, hmachine, htick, hfed]
        rfl
      · have hover : ((feedPoll d.driver.machine p).tick p.input.now).state ≠ .listening := by
          rw [hmachine, LearnMachine.tick_settled hfed]
          exact hfed
        obtain ⟨hidle, hclosed⟩ := pollLearn_closes hactive hover
        exact .closed hfed hidle hclosed

/-- Any poll: it closes the session when the deadline has come or what was heard
settles it, and only then. -/
theorem Follows.poll_closed_iff {d : LearnDevice} {m : LearnMachine} (h : d.Follows m)
    (p : Poll) :
    (d.pollLearn p).Closed ↔
      m.deadline ≤ p.input.now.toNat ∨ (feedPoll m p).state ≠ .listening := by
  cases h with
  | closed hsettled hidle hclosed =>
      rw [pollLearn_idle hidle, feedPoll_settled hsettled]
      exact iff_of_true hclosed (Or.inr hsettled)
  | waiting hlistening hdriver =>
      have hactive : d.driver.active = true := by rw [hdriver]
      have hmachine : d.driver.machine = m := by rw [hdriver]
      constructor
      · intro hclosed
        have hover := hclosed.finished
        rw [pollLearn, pollLearn_active hactive, hmachine] at hover
        by_contra hnot
        rw [not_or, Nat.not_le, not_not] at hnot
        rw [LearnMachine.tick_early (by rw [feedPoll_deadline]; exact hnot.1)] at hover
        exact hover hnot.2
      · intro hends
        have hover : ((feedPoll d.driver.machine p).tick p.input.now).state ≠ .listening := by
          rw [hmachine]
          rcases hends with hlate | hfed
          · exact LearnMachine.tick_late (by rw [feedPoll_deadline]; exact hlate)
          · rw [LearnMachine.tick_settled hfed]
            exact hfed
        exact (pollLearn_closes hactive hover).2

theorem pollLearn_listens {d : LearnDevice} {p : Poll}
    (h : (d.pollLearn p).driver.active = true) :
    (d.pollLearn p).driver.machine.state = .listening := by
  cases hactive : d.driver.active with
  | false =>
      rw [pollLearn_idle hactive, hactive] at h
      cases h
  | true =>
      rw [pollLearn, pollLearn_active hactive] at h ⊢
      exact of_decide_eq_true h

/-- A session closed by a poll stays closed. -/
theorem Closed.stays {d : LearnDevice} {p : Poll} (h : (d.pollLearn p).Closed)
    (more : List Poll) : (more.foldl pollLearn (d.pollLearn p)).Closed := by
  have hidle : (d.pollLearn p).driver.active = false :=
    Bool.eq_false_iff.mpr fun hactive => h.finished (pollLearn_listens hactive)
  rw [polls_idle hidle]
  exact h

/-- Polls before the deadline keep the device next to the machine that only hears. -/
theorem Follows.polls_early {d : LearnDevice} {m : LearnMachine} (h : d.Follows m)
    {polls : List Poll} (hearly : ∀ p ∈ polls, p.input.now.toNat < m.deadline) :
    (polls.foldl pollLearn d).Follows (polls.foldl feedPoll m) ∧
      (polls.foldl feedPoll m).deadline = m.deadline := by
  induction polls generalizing d m with
  | nil => exact ⟨h, rfl⟩
  | cons p rest ih =>
      have hdeadline := feedPoll_deadline m p
      obtain ⟨hfollows, hsame⟩ := ih (h.poll_early (hearly p List.mem_cons_self))
        fun q hq => by rw [hdeadline]; exact hearly q (List.mem_cons_of_mem _ hq)
      exact ⟨hfollows, hsame.trans hdeadline⟩

theorem startLearn_follows (d : LearnDevice) (start : Nat) (answers : Source → ArmAnswers) :
    (d.startLearn start answers).Follows
      (({} : LearnMachine).begin (millis start).toUInt64) :=
  .waiting rfl rfl

end LearnDevice

theorem begin_deadline (start : Nat) :
    (({} : LearnMachine).begin (millis start).toUInt64).deadline =
      start % 2 ^ 32 + kWindowMs := by
  rw [LearnMachine.begin, millis_toNat]
  apply Nat.mod_eq_of_lt
  have hlt : start % 2 ^ 32 < 2 ^ 32 := Nat.mod_lt _ (by decide)
  rw [kWindowMs]
  omega

/-- Before the window has passed, no reading of the clock reaches the deadline. -/
theorem early_reading {start time : Nat} (hfrom : start ≤ time)
    (hbefore : time < start + kWindowMs) : time % 2 ^ 32 < start % 2 ^ 32 + kWindowMs := by
  rw [kWindowMs] at hbefore ⊢
  omega

/-- After the window a reading has reached the deadline unless the clock has wrapped. -/
theorem late_reading_iff {start time : Nat} (hafter : start + kWindowMs ≤ time)
    (hrange : time < start + 2 ^ 31) :
    start % 2 ^ 32 + kWindowMs ≤ time % 2 ^ 32 ↔ start / 2 ^ 32 = time / 2 ^ 32 := by
  rw [kWindowMs] at hafter ⊢
  omega

/-- After the poll `last` the session is closed, whatever is polled later. -/
def WindowCloses (d : LearnDevice) (start : Nat) (answers : Source → ArmAnswers)
    (polls : List Poll) (last : Poll) : Prop :=
  ∀ more, (d.session start answers (polls ++ last :: more)).Closed

/-- With `last` the first poll at or after the end of the window, the session closes
exactly when the clock has not wrapped since the start or what was heard settles it. -/
theorem learn_window_closes_iff (d : LearnDevice) (start : Nat)
    (answers : Source → ArmAnswers) (polls : List Poll) (last : Poll)
    (hearly : ∀ p ∈ polls, start ≤ p.time ∧ p.time < start + kWindowMs)
    (hlast : start + kWindowMs ≤ last.time) (hrange : last.time < start + 2 ^ 31) :
    WindowCloses d start answers polls last ↔
      start / 2 ^ 32 = last.time / 2 ^ 32 ∨ Settled start (polls ++ [last]) := by
  have hreadings : ∀ p ∈ polls, p.input.now.toNat <
      (({} : LearnMachine).begin (millis start).toUInt64).deadline := by
    intro p hp
    obtain ⟨hfrom, hbefore⟩ := hearly p hp
    rw [begin_deadline, Poll.input, millis_toNat]
    exact early_reading hfrom hbefore
  obtain ⟨hfollows, hdeadline⟩ := (d.startLearn_follows start answers).polls_early hreadings
  have hclosed := hfollows.poll_closed_iff last
  rw [hdeadline, begin_deadline, Poll.input, millis_toNat, late_reading_iff hlast hrange]
    at hclosed
  have hsettled : Settled start (polls ++ [last]) ↔ (feedPoll (polls.foldl feedPoll
      (({} : LearnMachine).begin (millis start).toUInt64)) last).state ≠ .listening := by
    rw [Settled, List.foldl_append]
    rfl
  have hsession : ∀ more, d.session start answers (polls ++ last :: more) =
      more.foldl LearnDevice.pollLearn
        ((polls.foldl LearnDevice.pollLearn (d.startLearn start answers)).pollLearn last) := by
    intro more
    rw [LearnDevice.session, List.foldl_append]
    rfl
  rw [hsettled, ← hclosed]
  constructor
  · intro hcloses
    have hnow := hcloses []
    rw [hsession] at hnow
    exact hnow
  · intro hnow more
    rw [hsession]
    exact hnow.stays more

/-- A session that hears nothing, far from the wrap. -/
theorem learn_window_closes_silent :
    WindowCloses {} 5000 (fun _ => {}) [{ time := 6000 }, { time := 34999 }]
      { time := 35010 } :=
  (learn_window_closes_iff {} 5000 (fun _ => {}) [{ time := 6000 }, { time := 34999 }]
    { time := 35010 } (by decide) (by decide) (by decide)).mpr (Or.inl (by decide))

/-- A session started ten seconds before the clock wraps, polled thirty seconds later:
it still listens, and a send is refused. -/
theorem learn_window_stuck :
    ¬WindowCloses {} 4294957296 (fun _ => {}) [] { time := 4294987296 } ∧
      sendRFCode (LearnDevice.session {} 4294957296 (fun _ => {})
        [{ time := 4294987296 }]).receivers 433 [350, 1050] true = false := by
  refine ⟨?_, by decide⟩
  intro hcloses
  have hover := (hcloses []).finished
  exact hover (by decide)

end RfIrBlaster
