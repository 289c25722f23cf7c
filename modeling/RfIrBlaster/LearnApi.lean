/-
The learn endpoints of `web_config_api.cpp` and the loop task that serves them: the
handlers and the two lock sections of `pollLearnApi` share the learn phase, and the
driver of `learn.cpp` runs between the sections.
-/
import RfIrBlaster.ConfigApi
import RfIrBlaster.LearnMachine

namespace RfIrBlaster

open Learn

inductive LearnPhase where
  | idle
  | startReq
  | listening
  | captured
  | failed
  | cancelReq
deriving DecidableEq, Repr

/-- What the receivers hold when the driver is polled. -/
structure DriverInput where
  now : UInt64
  ir : List (List UInt16 × UInt16) := []
  rf315 : List (List UInt16) := []
  rf433 : List (List UInt16) := []
deriving DecidableEq, Repr

/-- The state of `learn.cpp`; the receivers are not part of it. -/
structure LearnDriver where
  machine : LearnMachine := {}
  active : Bool := false

/-- Feed bursts until the machine has made up its mind. -/
def feedWhileListening (src : Source) (now : UInt64) :
    List (List UInt16 × UInt16) → LearnMachine → LearnMachine
  | [], m => m
  | (pulses, carrierHz) :: rest, m =>
      let m := m.feedBurst src pulses carrierHz now
      if m.state ≠ .listening then m else feedWhileListening src now rest m

namespace LearnDriver

def startLearn (d : LearnDriver) (now : UInt64) : LearnDriver :=
  { machine := d.machine.begin now, active := true }

def cancelLearn (d : LearnDriver) : LearnDriver :=
  { machine := d.machine.cancel, active := false }

def pollLearn (d : LearnDriver) (io : DriverInput) : LearnDriver :=
  if !d.active then d
  else
    let m := feedWhileListening .ir io.now io.ir d.machine
    let m :=
      if m.state = .listening then
        feedWhileListening .rf315 io.now (io.rf315.map fun pulses => (pulses, 0)) m
      else m
    let m :=
      if m.state = .listening then
        feedWhileListening .rf433 io.now (io.rf433.map fun pulses => (pulses, 0)) m
      else m
    let m := m.tick io.now
    { machine := m, active := m.state = .listening }

def takeLearnedCode (d : LearnDriver) : StoredCode × LearnDriver :=
  (d.machine.takeCode.1, { d with machine := d.machine.takeCode.2 })

end LearnDriver

/-- Where the loop task stands in `pollLearnApi`: before the first lock section, before
the driver call of the branch taken, or before the second lock section. -/
inductive LoopStep where
  | idle
  | startRead
  | started
  | cancelRead
  | cancelled
  | listenRead
  | tookCode (code : StoredCode)
  | gaveUp (reason : FailReason)
deriving DecidableEq, Repr

/-- The learn globals of both tasks.  The last four fields only record the history: the
start requests answered, whether one stands with no cancel after it, how many were
answered when the running session's `startLearn` completed, and that number for the
session of the published result. -/
structure LearnApi where
  phase : LearnPhase := .idle
  code : StoredCode := {}
  reason : FailReason := .timeout
  driver : LearnDriver := {}
  loop : LoopStep := .idle
  starts : Nat := 0
  outstanding : Bool := false
  session : Nat := 0
  result : Nat := 0

inductive LearnEvent where
  | start (req : HttpRequest)
  | cancel (req : HttpRequest)
  | read
  | drive (io : DriverInput)
  | publish
deriving DecidableEq, Repr

inductive PollResult where
  | auth
  | captured (code : StoredCode)
  | failed (reason : FailReason)
  | listening
deriving DecidableEq, Repr

def codeToJson (A : ArduinoJson) (code : StoredCode) : Bytes :=
  A.serializeJson (.obj (writeCodeFields code))

def failReasonText : FailReason → String
  | .rolling => "rolling"
  | .noisy => "noisy"
  | .timeout => "timeout"

def PollResult.response (A : ArduinoJson) : PollResult → Response
  | .auth => errorResponse "401 Unauthorized" "auth"
  | .captured code =>
      { status := "200 OK"
        body := ascii "\x7b\"ok\":true,\"code\":" ++ codeToJson A code ++ ascii "\x7d" }
  | .failed reason =>
      { status := "200 OK"
        body := ascii ("\x7b\"ok\":false,\"reason\":\"" ++ failReasonText reason ++ "\"\x7d") }
  | .listening => { status := "200 OK", body := ascii "\x7b\"status\":\"listening\"\x7d" }

namespace LearnApi

def handleLearnStart (req : HttpRequest) (s : LearnApi) : LearnApi :=
  if req.session then { s with phase := .startReq, starts := s.starts + 1, outstanding := true }
  else s

def handleLearnCancel (req : HttpRequest) (s : LearnApi) : LearnApi :=
  if req.session then { s with phase := .cancelReq, outstanding := false } else s

/-- Read-only. -/
def handleLearnPoll (req : HttpRequest) (s : LearnApi) : PollResult :=
  if !req.session then .auth
  else
    match s.phase with
    | .captured => .captured s.code
    | .failed => .failed s.reason
    | _ => .listening

/-- The first lock section of `pollLearnApi`. -/
def readPhase (s : LearnApi) : LearnApi :=
  match s.loop with
  | .idle =>
      match s.phase with
      | .startReq => { s with loop := .startRead }
      | .cancelReq => { s with loop := .cancelRead }
      | .listening => { s with loop := .listenRead }
      | _ => s
  | _ => s

/-- The driver calls of the branch taken, outside the lock. -/
def drive (io : DriverInput) (s : LearnApi) : LearnApi :=
  match s.loop with
  | .startRead =>
      { s with driver := s.driver.startLearn io.now, loop := .started, session := s.starts }
  | .cancelRead => { s with driver := s.driver.cancelLearn, loop := .cancelled }
  | .listenRead =>
      let driver := s.driver.pollLearn io
      match driver.machine.state with
      | .captured =>
          { s with
            driver := driver.takeLearnedCode.2
            loop := .tookCode driver.takeLearnedCode.1 }
      | .failed => { s with driver := driver, loop := .gaveUp driver.machine.reason }
      | _ => { s with driver := driver, loop := .idle }
  | _ => s

/-- The second lock section. -/
def publish (s : LearnApi) : LearnApi :=
  match s.loop with
  | .started =>
      if s.phase = .startReq then { s with phase := .listening, loop := .idle }
      else { s with loop := .idle }
  | .cancelled => { s with phase := .idle, loop := .idle }
  | .tookCode code =>
      if s.phase = .listening then
        { s with code := code, phase := .captured, loop := .idle, result := s.session }
      else { s with loop := .idle }
  | .gaveUp reason =>
      if s.phase = .listening then
        { s with reason := reason, phase := .failed, loop := .idle, result := s.session }
      else { s with loop := .idle }
  | _ => s

def step (s : LearnApi) : LearnEvent → LearnApi
  | .start req => s.handleLearnStart req
  | .cancel req => s.handleLearnCancel req
  | .read => s.readPhase
  | .drive io => s.drive io
  | .publish => s.publish

def machine : StateMachine LearnApi LearnEvent where
  init := {}
  step := step

/-- No start request is answered between the read of a cancel request and the write that
settles it, nor between the end of `startLearn` and the write after it. -/
def Unraced (s : LearnApi) : LearnEvent → Prop
  | .start req => req.session = true →
      s.loop ≠ .cancelRead ∧ s.loop ≠ .cancelled ∧ s.loop ≠ .started
  | _ => True

/-- The phases a standing start request goes through, with sessions no older than it. -/
def Served (s : LearnApi) : Prop :=
  s.phase = .startReq ∨ (s.phase = .listening ∧ s.session = s.starts) ∨
    ((s.phase = .captured ∨ s.phase = .failed) ∧ s.result = s.starts)

/-- What the loop task's position says of a standing request. -/
structure OnCourse (s : LearnApi) : Prop where
  served : s.outstanding = true → s.Served
  cancelling : s.loop = .cancelRead ∨ s.loop = .cancelled → s.outstanding = false
  started : s.loop = .started → s.outstanding = true → s.session = s.starts

/-- One move of the phase on behalf of a standing request. -/
def Advances (p p' : LearnPhase) : Prop :=
  p' = p ∨ (p = .startReq ∧ p' = .listening) ∨
    (p = .listening ∧ (p' = .captured ∨ p' = .failed))

theorem Served.phase_ne {s : LearnApi} (h : s.Served) :
    s.phase ≠ .idle ∧ s.phase ≠ .cancelReq := by
  rcases h with hphase | ⟨hphase, -⟩ | ⟨hphase | hphase, -⟩ <;> rw [hphase] <;> decide

theorem Served.session_eq {s : LearnApi} (h : s.Served) (hlistening : s.phase = .listening) :
    s.session = s.starts := by
  rcases h with hphase | ⟨-, hsession⟩ | ⟨hphase | hphase, -⟩
  · rw [hphase] at hlistening
    cases hlistening
  · exact hsession
  · rw [hphase] at hlistening
    cases hlistening
  · rw [hphase] at hlistening
    cases hlistening

theorem Served.congr {s s' : LearnApi} (h : s.Served) (hphase : s'.phase = s.phase)
    (hsession : s'.session = s.session) (hresult : s'.result = s.result)
    (hstarts : s'.starts = s.starts) : s'.Served := by
  unfold Served
  rw [hphase, hsession, hresult, hstarts]
  exact h

/-- The first lock section takes an idle loop task into the branch of its phase. -/
theorem readPhase_enters (s : LearnApi) :
    s.readPhase = s ∨ s.loop = .idle ∧
      ∃ loop, s.readPhase = { s with loop := loop } ∧
        ((loop = .startRead ∧ s.phase = .startReq) ∨
          (loop = .cancelRead ∧ s.phase = .cancelReq) ∨
          (loop = .listenRead ∧ s.phase = .listening)) := by
  unfold readPhase
  split
  · rename_i hidle
    split
    · rename_i hphase
      exact Or.inr ⟨hidle, _, rfl, Or.inl ⟨rfl, hphase⟩⟩
    · rename_i hphase
      exact Or.inr ⟨hidle, _, rfl, Or.inr (Or.inl ⟨rfl, hphase⟩)⟩
    · rename_i hphase
      exact Or.inr ⟨hidle, _, rfl, Or.inr (Or.inr ⟨rfl, hphase⟩)⟩
    · exact Or.inl rfl
  · exact Or.inl rfl

/-- The first lock section only moves the loop task, into the cancel branch for a cancel
request alone. -/
theorem readPhase_cases (s : LearnApi) :
    s.readPhase = s ∨
      ∃ loop, s.readPhase = { s with loop := loop } ∧ loop ≠ .cancelled ∧ loop ≠ .started ∧
        (loop = .cancelRead → s.phase = .cancelReq) := by
  rcases readPhase_enters s with heq | ⟨-, loop, heq, hbranch⟩
  · exact Or.inl heq
  · refine Or.inr ⟨loop, heq, ?_⟩
    rcases hbranch with ⟨rfl, -⟩ | ⟨rfl, hphase⟩ | ⟨rfl, -⟩
    · simp
    · simp [hphase]
    · simp

/-- The driver calls: a session starts, one is cancelled, or the receivers are polled. -/
theorem drive_cases (s : LearnApi) (io : DriverInput) :
    s.drive io = s ∨
      s.drive io = { s with
        driver := s.driver.startLearn io.now, loop := .started, session := s.starts } ∨
      (s.loop = .cancelRead ∧
        s.drive io = { s with driver := s.driver.cancelLearn, loop := .cancelled }) ∨
      ∃ driver loop, s.drive io = { s with driver := driver, loop := loop } ∧
        loop ≠ .cancelRead ∧ loop ≠ .cancelled ∧ loop ≠ .started := by
  unfold LearnApi.drive
  split
  · exact Or.inr (Or.inl rfl)
  · rename_i hloop
    exact Or.inr (Or.inr (Or.inl ⟨hloop, rfl⟩))
  · right; right; right
    simp only
    split
    · exact ⟨_, _, rfl, by simp, by simp, by simp⟩
    · exact ⟨_, _, rfl, by simp, by simp, by simp⟩
    · exact ⟨_, _, rfl, by simp, by simp, by simp⟩
  · exact Or.inl rfl

theorem OnCourse.start {s : LearnApi} (h : s.OnCourse) {req : HttpRequest}
    (hguard : s.Unraced (.start req)) : (s.handleLearnStart req).OnCourse := by
  unfold handleLearnStart
  by_cases hsession : req.session = true
  · obtain ⟨hread, hcancelled, hstarted⟩ := hguard hsession
    rw [if_pos hsession]
    refine ⟨fun _ => Or.inl rfl, ?_, ?_⟩
    · rintro (hloop | hloop)
      · exact absurd hloop hread
      · exact absurd hloop hcancelled
    · exact fun hloop => absurd hloop hstarted
  · rw [if_neg hsession]
    exact h

theorem OnCourse.cancel {s : LearnApi} (h : s.OnCourse) (req : HttpRequest) :
    (s.handleLearnCancel req).OnCourse := by
  unfold handleLearnCancel
  by_cases hsession : req.session = true
  · rw [if_pos hsession]
    refine ⟨?_, fun _ => rfl, ?_⟩
    · intro hstanding
      cases hstanding
    · intro _ hstanding
      cases hstanding
  · rw [if_neg hsession]
    exact h

theorem OnCourse.read {s : LearnApi} (h : s.OnCourse) : s.readPhase.OnCourse := by
  rcases readPhase_cases s with heq | ⟨loop, heq, hcancelled, hstarted, hcancel⟩
  · rw [heq]
    exact h
  · rw [heq]
    refine ⟨?_, ?_, fun hloop => absurd hloop hstarted⟩
    · exact fun hstanding => (h.served hstanding).congr rfl rfl rfl rfl
    · rintro (hloop | hloop)
      · -- A cancel request in the phase means that no start request stands.
        cases hstanding : s.outstanding with
        | false => rfl
        | true => exact absurd (hcancel hloop) (h.served hstanding).phase_ne.2
      · exact absurd hloop hcancelled

theorem OnCourse.drive {s : LearnApi} (h : s.OnCourse) (io : DriverInput) :
    (s.drive io).OnCourse := by
  rcases drive_cases s io with
    heq | heq | ⟨hloop, heq⟩ | ⟨driver, loop, heq, hread, hdone, hstarted⟩
  · rw [heq]
    exact h
  · rw [heq]
    refine ⟨?_, ?_, fun _ _ => rfl⟩
    · intro hstanding
      rcases h.served hstanding with hphase | ⟨hphase, -⟩ | hresult
      · exact Or.inl hphase
      · exact Or.inr (Or.inl ⟨hphase, rfl⟩)
      · exact Or.inr (Or.inr hresult)
    · rintro (hloop | hloop) <;> cases hloop
  · rw [heq]
    refine ⟨?_, fun _ => h.cancelling (Or.inl hloop), ?_⟩
    · exact fun hstanding => (h.served hstanding).congr rfl rfl rfl rfl
    · intro hstarted
      cases hstarted
  · rw [heq]
    refine ⟨?_, ?_, fun hloop => absurd hloop hstarted⟩
    · exact fun hstanding => (h.served hstanding).congr rfl rfl rfl rfl
    · rintro (hloop | hloop)
      · exact absurd hloop hread
      · exact absurd hloop hdone

/-- What the second lock section can do to the phase. -/
theorem publish_cases (s : LearnApi) :
    (s.publish.loop = .cancelRead → s.loop = .cancelRead) ∧ s.publish.loop ≠ .cancelled ∧
      s.publish.loop ≠ .started ∧
      s.publish.outstanding = s.outstanding ∧ s.publish.starts = s.starts ∧
      s.publish.session = s.session ∧
      ((s.publish.phase = s.phase ∧ s.publish.result = s.result) ∨
        (s.loop = .started ∧ s.phase = .startReq ∧ s.publish.phase = .listening) ∨
        (s.loop = .cancelled ∧ s.publish.phase = .idle) ∨
        (s.phase = .listening ∧ (s.publish.phase = .captured ∨ s.publish.phase = .failed) ∧
          s.publish.result = s.session)) := by
  unfold LearnApi.publish
  cases hloop : s.loop with
  | started =>
      by_cases hphase : s.phase = .startReq
      · simp [hphase]
      · simp [hphase]
  | cancelled => simp
  | tookCode code =>
      by_cases hphase : s.phase = .listening
      · simp [hphase]
      · simp [hphase]
  | gaveUp reason =>
      by_cases hphase : s.phase = .listening
      · simp [hphase]
      · simp [hphase]
  | _ => simp [hloop]

theorem OnCourse.publish {s : LearnApi} (h : s.OnCourse) :
    s.publish.OnCourse ∧ (s.outstanding = true → Advances s.phase s.publish.phase) := by
  obtain ⟨hread, hdone, hstarted, houtstanding, hstarts, hsession, hphase⟩ := publish_cases s
  have hmoved : s.outstanding = true → s.publish.Served ∧ Advances s.phase s.publish.phase := by
    intro hstanding
    have hserved := h.served hstanding
    rcases hphase with ⟨hsame, hresult⟩ | ⟨hloop, hreq, harmed⟩ | ⟨hloop, -⟩ |
      ⟨hlistening, hfinal, hresult⟩
    · exact ⟨hserved.congr hsame hsession hresult hstarts, Or.inl hsame⟩
    · refine ⟨Or.inr (Or.inl ⟨harmed, ?_⟩), Or.inr (Or.inl ⟨hreq, harmed⟩)⟩
      rw [hsession, hstarts]
      exact h.started hloop hstanding
    · exact absurd ((h.cancelling (Or.inr hloop)).symm.trans hstanding) Bool.false_ne_true
    · refine ⟨Or.inr (Or.inr ⟨hfinal, ?_⟩), Or.inr (Or.inr ⟨hlistening, hfinal⟩)⟩
      rw [hresult, hstarts]
      exact hserved.session_eq hlistening
  refine ⟨⟨?_, ?_, fun hloop => absurd hloop hstarted⟩, fun hstanding => (hmoved hstanding).2⟩
  · intro hstanding
    exact (hmoved (houtstanding.symm.trans hstanding)).1
  · rintro (hloop | hloop)
    · exact houtstanding.trans (h.cancelling (Or.inl (hread hloop)))
    · exact absurd hloop hdone

@[simp]
theorem readPhase_phase (s : LearnApi) : s.readPhase.phase = s.phase := by
  rcases readPhase_cases s with heq | ⟨loop, heq, -⟩ <;> rw [heq]

@[simp]
theorem drive_phase (s : LearnApi) (io : DriverInput) : (s.drive io).phase = s.phase := by
  rcases drive_cases s io with heq | heq | ⟨-, heq⟩ | ⟨driver, loop, heq, -⟩ <;> rw [heq]

/-- One unraced event keeps the course, and the loop task's events advance the phase. -/
theorem OnCourse.step {s : LearnApi} (h : s.OnCourse) {event : LearnEvent}
    (hguard : s.Unraced event) : (s.step event).OnCourse := by
  cases event with
  | start req => exact h.start hguard
  | cancel req => exact h.cancel req
  | read => exact h.read
  | drive io => exact h.drive io
  | publish => exact h.publish.1

theorem run_onCourse (events : List LearnEvent) (hguard : machine.Guarded Unraced events) :
    (machine.run events).OnCourse := by
  apply StateMachine.guarded_run_induction machine (P := fun _ s => s.OnCourse) _ _ events hguard
  · refine ⟨?_, ?_, ?_⟩
    · intro hstanding
      cases hstanding
    · intro _
      rfl
    · intro hloop
      cases hloop
  · exact fun _ _ hevent h => h.step hevent

/-- In a run without those races a start request stands until it is cancelled: its phase
is never idle, a published result is from a session started after it, each event of the
loop task moves the phase forward, and a client told to wait has its request pending. -/
theorem start_never_lost (events : List LearnEvent) (hguard : machine.Guarded Unraced events) :
    let s := machine.run events
    s.outstanding = true →
      s.phase ≠ .idle ∧ s.phase ≠ .cancelReq ∧
        (s.phase = .captured ∨ s.phase = .failed → s.result = s.starts) ∧
        (∀ io, ∀ event ∈ [.read, .drive io, .publish],
          Advances s.phase (s.step event).phase) ∧
        (∀ req, s.handleLearnPoll req = .listening →
          s.phase = .startReq ∨ (s.phase = .listening ∧ s.session = s.starts)) := by
  intro s hstanding
  have hcourse : s.OnCourse := run_onCourse events hguard
  have hserved := hcourse.served hstanding
  refine ⟨hserved.phase_ne.1, hserved.phase_ne.2, ?_, ?_, ?_⟩
  · intro hresult
    rcases hserved with hphase | ⟨hphase, -⟩ | ⟨-, heq⟩
    · rw [hphase] at hresult
      simp at hresult
    · rw [hphase] at hresult
      simp at hresult
    · exact heq
  · intro io event hevent
    simp only [List.mem_cons, List.not_mem_nil, or_false] at hevent
    rcases hevent with rfl | rfl | rfl
    · exact Or.inl (readPhase_phase s)
    · exact Or.inl (drive_phase s io)
    · exact hcourse.publish.2 hstanding
  · intro req hpoll
    rcases hserved with hphase | hlistening | ⟨hphase, -⟩
    · exact Or.inl hphase
    · exact Or.inr hlistening
    · unfold handleLearnPoll at hpoll
      cases hsession : req.session <;> rcases hphase with hphase | hphase <;>
        simp [hsession, hphase] at hpoll

/-- A learn started, read, armed and published. -/
def armedRun : List LearnEvent :=
  [.start {}, .read, .drive { now := 0 }, .publish]

theorem start_never_lost_armed :
    (machine.run armedRun).outstanding = true ∧ (machine.run armedRun).phase = .listening ∧
      (machine.run armedRun).phase ≠ .idle := by
  have hstart : machine.Guarded Unraced [LearnEvent.start {}] :=
    (StateMachine.Guarded.nil machine Unraced).concat fun _ => by decide
  have hread : machine.Guarded Unraced ([LearnEvent.start {}] ++ [LearnEvent.read]) :=
    hstart.concat trivial
  have hdrive : machine.Guarded Unraced
      ([LearnEvent.start {}, .read] ++ [LearnEvent.drive { now := 0 }]) :=
    hread.concat trivial
  have hguard : machine.Guarded Unraced
      ([LearnEvent.start {}, .read, .drive { now := 0 }] ++ [LearnEvent.publish]) :=
    hdrive.concat trivial
  have hstanding : (machine.run armedRun).outstanding = true := by decide
  exact ⟨hstanding, by decide, (start_never_lost armedRun hguard hstanding).1⟩

/-- The cancel branch has read its request when a new start request is answered: its
write drops the request.  And one answered after `startLearn` is served by the session
that was started before it, here up to its timeout. -/
theorem raced_start_lost :
    let dropped := machine.run [.cancel {}, .read, .drive { now := 0 }, .start {}, .publish]
    let stale := machine.run [.start {}, .read, .drive { now := 0 }, .start {}, .publish, .read,
      .drive { now := 30000 }, .publish]
    (dropped.outstanding = true ∧ dropped.phase = .idle) ∧
      (stale.outstanding = true ∧ stale.phase = .failed ∧ stale.starts = 2 ∧
        stale.result = 1) := by
  decide

end LearnApi

end RfIrBlaster
