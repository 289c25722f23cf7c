/-
The receivers under the learn endpoints: the phase shared with the httpd task, the
session flag of the driver and the receivers' own flags are updated at different
points, and between two calls of `pollLearnApi` they agree.
-/
import RfIrBlaster.LearnWindow

namespace RfIrBlaster

open Learn

/-- The learn globals with the receivers `learn.cpp` starts and stops. -/
structure LearnRadios where
  api : LearnApi := {}
  receivers : Receivers := {}

/-- What either task does; the loop task's driver call carries what the RMT driver
answers while receivers are armed. -/
inductive RadioEvent where
  | start (req : HttpRequest)
  | cancel (req : HttpRequest)
  | read
  | drive (io : DriverInput) (answers : Source → ArmAnswers)
  | publish

def RadioEvent.learnEvent : RadioEvent → LearnEvent
  | .start req => .start req
  | .cancel req => .cancel req
  | .read => .read
  | .drive io _ => .drive io
  | .publish => .publish

namespace LearnRadios

/-- The receivers after the driver call of the branch taken. -/
def driveReceivers (s : LearnRadios) (io : DriverInput) (answers : Source → ArmAnswers) :
    Receivers :=
  match s.api.loop with
  | .startRead => s.receivers.startAll answers
  | .cancelRead => s.receivers.stopAll
  | .listenRead =>
      if s.api.driver.active ∧ (s.api.driver.pollLearn io).machine.state ≠ .listening then
        s.receivers.stopAll
      else s.receivers
  | _ => s.receivers

def step (s : LearnRadios) (e : RadioEvent) : LearnRadios where
  api := s.api.step e.learnEvent
  receivers :=
    match e with
    | .drive io answers => s.driveReceivers io answers
    | _ => s.receivers

/-- After boot the infrared channel may be missing, when `initIR` failed. -/
def machine (irChannel : Bool) : StateMachine LearnRadios RadioEvent where
  init := { receivers := { ir := { rx := irChannel } } }
  step := step

/-- The driver and its receivers, as `learn.cpp` has them. -/
def device (s : LearnRadios) : LearnDevice where
  driver := s.api.driver
  receivers := s.receivers

/-- Nothing is being learned and no request waits. -/
def AtRest (p : LearnPhase) : Prop :=
  p = .idle ∨ p = .captured ∨ p = .failed

/-- A request waits for the loop task. -/
def Requested (p : LearnPhase) : Prop :=
  p = .startReq ∨ p = .cancelReq

/-- The loop task holds a final result that it has not published. -/
def Resulted (loop : LoopStep) : Prop :=
  (∃ code, loop = .tookCode code) ∨ ∃ reason, loop = .gaveUp reason

theorem not_atRest_of_requested {p : LearnPhase} (h : Requested p) : ¬AtRest p := by
  rcases h with rfl | rfl <;> simp [AtRest]

theorem not_listening_of_requested {p : LearnPhase} (h : Requested p) : p ≠ .listening := by
  rcases h with rfl | rfl <;> decide

/-- How the phase, the session flag, the machine and the receivers hang together at
every point of either task. -/
structure Agree (s : LearnRadios) : Prop where
  active_iff : s.api.driver.active = true ↔ s.api.driver.machine.state = .listening
  stopped : s.api.driver.active = false → s.receivers.Stopped
  rest : AtRest s.api.phase → s.api.driver.active = false
  held : s.api.phase = .listening → s.api.driver.active = true ∨ Resulted s.api.loop
  requested : s.api.loop = .startRead ∨ s.api.loop = .started ∨ s.api.loop = .cancelRead ∨
    s.api.loop = .cancelled → Requested s.api.phase
  armed : s.api.loop = .started → s.api.driver.active = true
  disarmed : s.api.loop = .cancelled ∨ Resulted s.api.loop → s.api.driver.active = false

/-- Feeding bursts to a listening machine does not lead to `idle`. -/
theorem feedWhileListening_ne_idle (src : Source) (now : UInt64)
    (bursts : List (List UInt16 × UInt16)) {m : LearnMachine} (h : m.state ≠ .idle) :
    (feedWhileListening src now bursts m).state ≠ .idle := by
  induction bursts generalizing m with
  | nil => exact h
  | cons burst rest ih =>
      have hfed : (m.feedBurst src burst.1 burst.2 now).state ≠ .idle := by
        rcases m.feedBurst_cases src burst.1 burst.2 now with ⟨-, heq⟩ | ⟨hstate, -, hfed⟩
        · rw [heq]
          exact h
        · rcases hfed with ⟨c, -, heq⟩ | ⟨-, -, -, heq⟩ | ⟨-, -, heq⟩
          · simp [heq]
          · simp [heq]
          · simp [heq, LearnMachine.setTrack, hstate]
      rw [feedWhileListening]
      split_ifs
      · exact hfed
      · exact ih hfed

theorem tick_ne_idle {m : LearnMachine} (h : m.state ≠ .idle) (now : UInt64) :
    (m.tick now).state ≠ .idle := by
  rcases m.tick_cases now with heq | ⟨-, reason, heq⟩
  · rw [heq]
    exact h
  · simp [heq, LearnMachine.fail]

/-- What a poll of a running session leaves: it goes on, or it ended in a result. -/
theorem pollLearn_running {d : LearnDriver} (hactive : d.active = true)
    (hstate : d.machine.state = .listening) (io : DriverInput) :
    ((d.pollLearn io).active = true ↔ (d.pollLearn io).machine.state = .listening) ∧
      (d.pollLearn io).machine.state ≠ .idle := by
  have hne : d.machine.state ≠ .idle := by simp [hstate]
  have hnext : ∀ (src : Source) (bursts : List (List UInt16 × UInt16)) (m : LearnMachine),
      m.state ≠ .idle →
        (if m.state = .listening then feedWhileListening src io.now bursts m else m).state ≠
          .idle := by
    intro src bursts m hm
    split_ifs
    · exact feedWhileListening_ne_idle src io.now bursts hm
    · exact hm
  rw [LearnDriver.pollLearn, if_neg (by simp [hactive])]
  refine ⟨by simp, tick_ne_idle ?_ io.now⟩
  exact hnext _ _ _ (hnext _ _ _ (feedWhileListening_ne_idle .ir io.now io.ir hne))

theorem pollLearn_inactive {d : LearnDriver} (hactive : d.active = false) (io : DriverInput) :
    d.pollLearn io = d :=
  if_pos (by simp [hactive])

/-- A handler only turns the phase into a request. -/
theorem Agree.request {s : LearnRadios} (h : s.Agree) {api : LearnApi}
    (hphase : Requested api.phase) (hloop : api.loop = s.api.loop)
    (hdriver : api.driver = s.api.driver) :
    Agree { api := api, receivers := s.receivers } := by
  refine ⟨?_, ?_, ?_, ?_, fun _ => hphase, ?_, ?_⟩
  · simpa only [hdriver] using h.active_iff
  · simpa only [hdriver] using h.stopped
  · exact fun hrest => absurd hrest (not_atRest_of_requested hphase)
  · exact fun hlistening => absurd hlistening (not_listening_of_requested hphase)
  · simpa only [hdriver, hloop] using h.armed
  · simpa only [hdriver, hloop] using h.disarmed

theorem Agree.start {s : LearnRadios} (h : s.Agree) (req : HttpRequest) :
    (s.step (.start req)).Agree := by
  by_cases hsession : req.session = true
  · have hstep : s.step (.start req) =
        { api := { s.api with
            phase := .startReq, starts := s.api.starts + 1, outstanding := true }
          receivers := s.receivers } := by
      simp only [step, RadioEvent.learnEvent, LearnApi.step, LearnApi.handleLearnStart,
        if_pos hsession]
    rw [hstep]
    exact h.request (Or.inl rfl) rfl rfl
  · have hstep : s.step (.start req) = s := by
      simp only [step, RadioEvent.learnEvent, LearnApi.step, LearnApi.handleLearnStart,
        if_neg hsession]
    rw [hstep]
    exact h

theorem Agree.cancel {s : LearnRadios} (h : s.Agree) (req : HttpRequest) :
    (s.step (.cancel req)).Agree := by
  by_cases hsession : req.session = true
  · have hstep : s.step (.cancel req) =
        { api := { s.api with phase := .cancelReq, outstanding := false }
          receivers := s.receivers } := by
      simp only [step, RadioEvent.learnEvent, LearnApi.step, LearnApi.handleLearnCancel,
        if_pos hsession]
    rw [hstep]
    exact h.request (Or.inr rfl) rfl rfl
  · have hstep : s.step (.cancel req) = s := by
      simp only [step, RadioEvent.learnEvent, LearnApi.step, LearnApi.handleLearnCancel,
        if_neg hsession]
    rw [hstep]
    exact h

/-- The first lock section enters a branch on the phase it is for. -/
theorem Agree.read {s : LearnRadios} (h : s.Agree) : (s.step .read).Agree := by
  have hstep : s.step .read = { api := s.api.readPhase, receivers := s.receivers } := rfl
  rw [hstep]
  rcases s.api.readPhase_enters with heq | ⟨hidle, loop, heq, hbranch⟩
  · rw [heq]
    exact h
  · have hnone : ¬Resulted s.api.loop := by simp [Resulted, hidle]
    rw [heq]
    refine ⟨h.active_iff, h.stopped, h.rest, ?_, ?_, ?_, ?_⟩
    · exact fun hlistening => Or.inl ((h.held hlistening).resolve_right hnone)
    · intro hloop
      rcases hbranch with ⟨-, hphase⟩ | ⟨-, hphase⟩ | ⟨rfl, -⟩
      · exact Or.inl hphase
      · exact Or.inr hphase
      · simp at hloop
    · intro hstarted
      rcases hbranch with ⟨rfl, -⟩ | ⟨rfl, -⟩ | ⟨rfl, -⟩ <;> cases hstarted
    · intro hover
      rcases hbranch with ⟨rfl, -⟩ | ⟨rfl, -⟩ | ⟨rfl, -⟩ <;> simp [Resulted] at hover

/-- `startLearn` arms a session, whichever receivers come up. -/
theorem Agree.armed_session {s : LearnRadios} (h : s.Agree) (hloop : s.api.loop = .startRead)
    (io : DriverInput) (answers : Source → ArmAnswers) :
    (s.step (.drive io answers)).Agree := by
  have hstep : s.step (.drive io answers) =
      { api := { s.api with
          driver := s.api.driver.startLearn io.now, loop := .started, session := s.api.starts }
        receivers := s.receivers.startAll answers } := by
    simp only [step, RadioEvent.learnEvent, LearnApi.step, LearnApi.drive, driveReceivers, hloop]
  have hphase : Requested s.api.phase := h.requested (Or.inl hloop)
  rw [hstep]
  refine ⟨?_, ?_, ?_, fun _ => Or.inl rfl, fun _ => hphase, fun _ => rfl, ?_⟩
  · exact ⟨fun _ => rfl, fun _ => rfl⟩
  · intro hinactive
    cases hinactive
  · exact fun hrest => absurd hrest (not_atRest_of_requested hphase)
  · intro hover
    simp [Resulted] at hover

/-- `cancelLearn` stops every receiver. -/
theorem Agree.cancelled_session {s : LearnRadios} (h : s.Agree)
    (hloop : s.api.loop = .cancelRead) (io : DriverInput) (answers : Source → ArmAnswers) :
    (s.step (.drive io answers)).Agree := by
  have hstep : s.step (.drive io answers) =
      { api := { s.api with driver := s.api.driver.cancelLearn, loop := .cancelled }
        receivers := s.receivers.stopAll } := by
    simp only [step, RadioEvent.learnEvent, LearnApi.step, LearnApi.drive, driveReceivers, hloop]
  have hphase : Requested s.api.phase :=
    h.requested (Or.inr (Or.inr (Or.inl hloop)))
  rw [hstep]
  refine ⟨?_, fun _ => stopAll_stopped s.receivers, fun _ => rfl, ?_, fun _ => hphase, ?_,
    fun _ => rfl⟩
  · exact ⟨fun hactive => (by cases hactive), fun hlistening => (by cases hlistening)⟩
  · exact fun hlistening => absurd hlistening (not_listening_of_requested hphase)
  · intro hstarted
    cases hstarted

/-- The driver call of the listening branch, by what the machine came to. -/
theorem drive_listening {s : LearnApi} (hloop : s.loop = .listenRead) (io : DriverInput) :
    ((s.driver.pollLearn io).machine.state = .captured ∧
      ∃ code, s.drive io =
        { s with driver := (s.driver.pollLearn io).takeLearnedCode.2, loop := .tookCode code }) ∨
    ((s.driver.pollLearn io).machine.state = .failed ∧
      ∃ reason, s.drive io =
        { s with driver := s.driver.pollLearn io, loop := .gaveUp reason }) ∨
    ((s.driver.pollLearn io).machine.state ≠ .captured ∧
      (s.driver.pollLearn io).machine.state ≠ .failed ∧
      s.drive io = { s with driver := s.driver.pollLearn io, loop := .idle }) := by
  unfold LearnApi.drive
  rw [hloop]
  cases hstate : (s.driver.pollLearn io).machine.state with
  | captured =>
      exact Or.inl ⟨rfl, (s.driver.pollLearn io).takeLearnedCode.1, by simp only [hstate]⟩
  | failed =>
      exact Or.inr (Or.inl ⟨rfl, (s.driver.pollLearn io).machine.reason, by simp only [hstate]⟩)
  | idle => exact Or.inr (Or.inr ⟨by decide, by decide, by simp only [hstate]⟩)
  | listening => exact Or.inr (Or.inr ⟨by decide, by decide, by simp only [hstate]⟩)

/-- Where a poll ends the session, the flag is down and every receiver stopped. -/
theorem Agree.poll_over {s : LearnRadios} (h : s.Agree) (hloop : s.api.loop = .listenRead)
    (io : DriverInput) (answers : Source → ArmAnswers)
    (hover : (s.api.driver.pollLearn io).machine.state ≠ .listening) :
    (s.api.driver.pollLearn io).active = false ∧ (s.driveReceivers io answers).Stopped := by
  unfold driveReceivers
  rw [hloop]
  cases hactive : s.api.driver.active with
  | true =>
      obtain ⟨hrun, -⟩ := pollLearn_running hactive (h.active_iff.mp hactive) io
      simp only [ne_eq, hover, not_false_eq_true, and_self, if_true]
      refine ⟨?_, stopAll_stopped s.receivers⟩
      simpa using fun hstill => hover (hrun.mp hstill)
  | false =>
      simp only [Bool.false_eq_true, false_and, if_false]
      rw [pollLearn_inactive hactive io]
      exact ⟨hactive, h.stopped hactive⟩

/-- A poll of the driver keeps the flag on exactly while the machine listens. -/
theorem Agree.poll_active_iff {s : LearnRadios} (h : s.Agree) (io : DriverInput) :
    (s.api.driver.pollLearn io).active = true ↔
      (s.api.driver.pollLearn io).machine.state = .listening := by
  cases hactive : s.api.driver.active with
  | true => exact (pollLearn_running hactive (h.active_iff.mp hactive) io).1
  | false =>
      rw [pollLearn_inactive hactive io]
      exact h.active_iff

/-- A poll leaves the session running, or over with every receiver stopped. -/
theorem Agree.polled_session {s : LearnRadios} (h : s.Agree) (hloop : s.api.loop = .listenRead)
    (io : DriverInput) (answers : Source → ArmAnswers) :
    (s.step (.drive io answers)).Agree := by
  have hstep : s.step (.drive io answers) =
      { api := s.api.drive io, receivers := s.driveReceivers io answers } := rfl
  have hrest : AtRest s.api.phase → (s.api.driver.pollLearn io).active = false := by
    intro hrest
    rw [pollLearn_inactive (h.rest hrest) io]
    exact h.rest hrest
  rw [hstep]
  rcases drive_listening hloop io with
    ⟨hstate, code, hdrive⟩ | ⟨hstate, reason, hdrive⟩ | ⟨hnotcaptured, hnotfailed, hdrive⟩
  · obtain ⟨hdown, hstopped⟩ := h.poll_over hloop io answers (by simp [hstate])
    have htaken : (s.api.driver.pollLearn io).takeLearnedCode.2 =
        { machine := {}, active := false } := by
      simp [LearnDriver.takeLearnedCode, LearnMachine.takeCode, hstate, hdown]
    rw [hdrive, htaken]
    refine ⟨by simp, fun _ => hstopped, fun _ => rfl, fun _ => Or.inr (Or.inl ⟨code, rfl⟩), ?_,
      ?_, fun _ => rfl⟩
    · intro hloop'
      simp at hloop'
    · intro hloop'
      cases hloop'
  · obtain ⟨hdown, hstopped⟩ := h.poll_over hloop io answers (by simp [hstate])
    rw [hdrive]
    refine ⟨h.poll_active_iff io, fun _ => hstopped, hrest,
      fun _ => Or.inr (Or.inr ⟨reason, rfl⟩), ?_, ?_, fun _ => hdown⟩
    · intro hloop'
      simp at hloop'
    · intro hloop'
      cases hloop'
  · rw [hdrive]
    refine ⟨h.poll_active_iff io, ?_, hrest, ?_, ?_, ?_, ?_⟩
    · intro hdown
      refine (h.poll_over hloop io answers ?_).2
      intro hlistening
      have hup := (h.poll_active_iff io).mpr hlistening
      rw [hdown] at hup
      cases hup
    · intro hlistening
      have hnone : ¬Resulted s.api.loop := by simp [Resulted, hloop]
      have hactive := (h.held hlistening).resolve_right hnone
      obtain ⟨hrun, hnotidle⟩ := pollLearn_running hactive (h.active_iff.mp hactive) io
      refine Or.inl (hrun.mpr ?_)
      cases hstate : (s.api.driver.pollLearn io).machine.state with
      | listening => rfl
      | idle => exact absurd hstate hnotidle
      | captured => exact absurd hstate hnotcaptured
      | failed => exact absurd hstate hnotfailed
    · intro hloop'
      simp at hloop'
    · intro hloop'
      cases hloop'
    · intro hloop'
      simp [Resulted] at hloop'

theorem Agree.drive {s : LearnRadios} (h : s.Agree) (io : DriverInput)
    (answers : Source → ArmAnswers) : (s.step (.drive io answers)).Agree := by
  have hstill : (s.api.drive io = s.api ∧ s.driveReceivers io answers = s.receivers) →
      (s.step (.drive io answers)).Agree := by
    rintro ⟨hapi, hreceivers⟩
    have hstep : s.step (.drive io answers) =
        { api := s.api.drive io, receivers := s.driveReceivers io answers } := rfl
    rw [hstep, hapi, hreceivers]
    exact h
  cases hloop : s.api.loop with
  | startRead => exact h.armed_session hloop io answers
  | cancelRead => exact h.cancelled_session hloop io answers
  | listenRead => exact h.polled_session hloop io answers
  | idle => exact hstill ⟨by simp [LearnApi.drive, hloop], by simp [driveReceivers, hloop]⟩
  | started => exact hstill ⟨by simp [LearnApi.drive, hloop], by simp [driveReceivers, hloop]⟩
  | cancelled => exact hstill ⟨by simp [LearnApi.drive, hloop], by simp [driveReceivers, hloop]⟩
  | tookCode code => exact hstill ⟨by simp [LearnApi.drive, hloop], by simp [driveReceivers, hloop]⟩
  | gaveUp reason => exact hstill ⟨by simp [LearnApi.drive, hloop], by simp [driveReceivers, hloop]⟩

/-- The second lock section over a phase that it leaves as it is. -/
theorem Agree.settle {s : LearnRadios} (h : s.Agree) (hphase : s.api.phase ≠ .listening) :
    Agree { api := { s.api with loop := .idle }, receivers := s.receivers } := by
  refine ⟨h.active_iff, h.stopped, h.rest, fun hlistening => absurd hlistening hphase, ?_, ?_, ?_⟩
  · intro hloop
    simp at hloop
  · intro hloop
    cases hloop
  · intro hloop
    simp [Resulted] at hloop

/-- The second lock section over a phase with nothing left to learn. -/
theorem Agree.finish {s : LearnRadios} (h : s.Agree) (hdown : s.api.driver.active = false)
    {api : LearnApi} (hphase : AtRest api.phase) (hloop : api.loop = .idle)
    (hdriver : api.driver = s.api.driver) :
    Agree { api := api, receivers := s.receivers } := by
  have hquiet : api.phase ≠ .listening := by
    rcases hphase with heq | heq | heq <;> rw [heq] <;> decide
  refine ⟨?_, ?_, ?_, fun hlistening => absurd hlistening hquiet, ?_, ?_, ?_⟩
  · simpa only [hdriver] using h.active_iff
  · simpa only [hdriver] using h.stopped
  · exact fun _ => (congrArg LearnDriver.active hdriver).trans hdown
  · intro hbranch
    simp [hloop] at hbranch
  · intro hbranch
    simp [hloop] at hbranch
  · intro hbranch
    simp [hloop, Resulted] at hbranch

theorem Agree.publish {s : LearnRadios} (h : s.Agree) : (s.step .publish).Agree := by
  have hstep : s.step .publish = { api := s.api.publish, receivers := s.receivers } := rfl
  rw [hstep]
  unfold LearnApi.publish
  split
  · rename_i hloop
    have hphase := h.requested (Or.inr (Or.inl hloop))
    split_ifs
    · -- The request was not withdrawn while the receivers were armed.
      refine ⟨h.active_iff, h.stopped, ?_, fun _ => Or.inl (h.armed hloop), ?_, ?_, ?_⟩
      · intro hrest
        simp [AtRest] at hrest
      · intro hbranch
        simp at hbranch
      · intro hbranch
        cases hbranch
      · intro hbranch
        simp [Resulted] at hbranch
    · exact h.settle (not_listening_of_requested hphase)
  · rename_i hloop
    exact h.finish (h.disarmed (Or.inl hloop)) (Or.inl rfl) rfl rfl
  · rename_i code hloop
    have hdown := h.disarmed (Or.inr (Or.inl ⟨code, hloop⟩))
    split_ifs with hphase
    · exact h.finish hdown (Or.inr (Or.inl rfl)) rfl rfl
    · exact h.settle hphase
  · rename_i reason hloop
    have hdown := h.disarmed (Or.inr (Or.inr ⟨reason, hloop⟩))
    split_ifs with hphase
    · exact h.finish hdown (Or.inr (Or.inr rfl)) rfl rfl
    · exact h.settle hphase
  · exact h

/-- Whatever either task does next keeps the layers in agreement. -/
theorem Agree.step {s : LearnRadios} (h : s.Agree) (e : RadioEvent) : (s.step e).Agree := by
  cases e with
  | start req => exact h.start req
  | cancel req => exact h.cancel req
  | read => exact h.read
  | drive io answers => exact h.drive io answers
  | publish => exact h.publish

theorem run_agree (irChannel : Bool) (events : List RadioEvent) :
    ((machine irChannel).run events).Agree := by
  apply StateMachine.run_induction (machine irChannel) (P := fun _ s => s.Agree)
  · have hstopped : ({ ir := { rx := irChannel } } : Receivers).Stopped := ⟨rfl, rfl, rfl⟩
    refine ⟨by simp [machine], fun _ => hstopped, fun _ => rfl, ?_, ?_, ?_, ?_⟩
    · intro hlistening
      cases hlistening
    · intro hbranch
      simp [machine] at hbranch
    · intro hbranch
      cases hbranch
    · intro _
      rfl
  · exact fun _ e h => h.step e

/-- Learning never leaves the radios held: between two calls of `pollLearnApi`, with no
session and no request in the phase the driver's flag is down, the receivers are stopped
and sends reach the transmitters; in `listening` the session runs, so it can end. -/
theorem radios_released (irChannel : Bool) (events : List RadioEvent) :
    let s := (machine irChannel).run events
    s.api.loop = .idle →
      (s.api.phase = .idle ∨ s.api.phase = .captured ∨ s.api.phase = .failed →
        s.api.driver.active = false ∧ s.receivers.Stopped ∧ s.device.Closed) ∧
      (s.api.phase = .listening →
        s.api.driver.active = true ∧ s.api.driver.machine.state = .listening) := by
  intro s hboundary
  have h : s.Agree := run_agree irChannel events
  constructor
  · intro hrest
    have hdown := h.rest hrest
    have hover : s.api.driver.machine.state ≠ .listening := by
      intro hlistening
      have hup := h.active_iff.mpr hlistening
      rw [hdown] at hup
      cases hup
    exact ⟨hdown, h.stopped hdown, closed_of_stopped hover (h.stopped hdown)⟩
  · intro hlistening
    have hnone : ¬Resulted s.api.loop := by simp [Resulted, hboundary]
    have hup := (h.held hlistening).resolve_right hnone
    exact ⟨hup, h.active_iff.mp hup⟩

/-- A learn whose 433 band does not come up, and its timeout: both sides of the claim
are met on the way. -/
theorem radios_released_timeout :
    let armed := (machine true).run [.start {}, .read,
      .drive { now := 0 } (fun src => { enable := decide (src ≠ .rf433) }), .publish]
    let ended := (machine true).run [.start {}, .read,
      .drive { now := 0 } (fun src => { enable := decide (src ≠ .rf433) }), .publish,
      .read, .drive { now := 30000 } (fun _ => {}), .publish]
    (armed.api.loop = .idle ∧ armed.api.phase = .listening ∧
      armed.api.driver.active = true) ∧
    (ended.api.loop = .idle ∧ ended.api.phase = .failed ∧ ended.receivers.Stopped) := by
  intro armed ended
  have harmed := radios_released true [.start {}, .read,
    .drive { now := 0 } (fun src => { enable := decide (src ≠ .rf433) }), .publish]
  have hended := radios_released true [.start {}, .read,
    .drive { now := 0 } (fun src => { enable := decide (src ≠ .rf433) }), .publish,
    .read, .drive { now := 30000 } (fun _ => {}), .publish]
  have harmedloop : armed.api.loop = .idle := by decide
  have harmedphase : armed.api.phase = .listening := by decide
  have hendedloop : ended.api.loop = .idle := by decide
  have hendedphase : ended.api.phase = .failed := by decide
  exact ⟨⟨harmedloop, harmedphase, ((harmed harmedloop).2 harmedphase).1⟩,
    hendedloop, hendedphase, ((hended hendedloop).1 (Or.inr (Or.inr hendedphase))).2.1⟩

end LearnRadios

end RfIrBlaster
