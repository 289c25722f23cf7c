/-
The dialogs in any number of tabs, their requests and answers on the way, and the device that
serves them: what a code a dialog offers was learned from.
-/
import RfIrBlaster.LearnApi
import RfIrBlaster.LearnDialogs

namespace RfIrBlaster.WebLearn

/-- What `r.json()` makes of the answer to a poll. -/
def pollDoc : PollResult → Response
  | .auth => .unauthorized
  | .captured code =>
      .json (.obj [(ascii "ok", .bool true), (ascii "code", .obj (writeCodeFields code))])
  | .failed reason =>
      .json (.obj [(ascii "ok", .bool false),
        (ascii "reason", .str (ascii (failReasonText reason)))])
  | .listening => .json (.obj [(ascii "status", .str (ascii "listening"))])

/-- The device, the tabs, and for each call of each tab the answer on its way to it. -/
structure System where
  device : LearnApi := {}
  tabs : Nat → Tab := fun _ => {}
  answers : Nat → Nat → Option Response := fun _ _ => none

/-- `arrive` brings the request a call has out to the device, `reply` its answer to the page;
`lost` rejects the fetch.  The events of the device are those of its loop task, the cancel
requests of the dialogs and whatever other clients ask for; a restart forgets the capture. -/
inductive SystemEvent where
  | dialog (tab : Nat) (e : DialogEvent)
  | arrive (tab call : Nat) (req : HttpRequest)
  | reply (tab call : Nat)
  | lost (tab call : Nat)
  | timer (tab call : Nat)
  | device (e : LearnEvent)
  | restart

namespace System

def setTab (s : System) (t : Nat) (tab : Tab) : System :=
  { s with tabs := Function.update s.tabs t tab }

def setAnswer (s : System) (t k : Nat) (r : Option Response) : System :=
  { s with answers := Function.update s.answers t (Function.update (s.answers t) k r) }

/-- The handlers of `/api/learn/start` and `/api/learn/poll`. -/
def arrive (s : System) (t k : Nat) (req : HttpRequest) : System :=
  match s.answers t k, (s.tabs t).session.calls[k]? with
  | none, some .starting =>
      { s with device := s.device.handleLearnStart req }.setAnswer t k
        (some (if req.session then .json (.obj [(ascii "ok", .bool true)]) else .unauthorized))
  | none, some .polling => s.setAnswer t k (some (pollDoc (s.device.handleLearnPoll req)))
  | _, _ => s

def reply (s : System) (t k : Nat) : System :=
  match s.answers t k with
  | none => s
  | some r => (s.setTab t ((s.tabs t).deliver k r)).setAnswer t k none

def lose (s : System) (t k : Nat) : System :=
  if ((s.tabs t).session.calls[k]?).any Call.fetching then
    (s.setTab t ((s.tabs t).deliver k .failed)).setAnswer t k none
  else s

def step (s : System) : SystemEvent → System
  | .dialog t e => s.setTab t ((s.tabs t).dialogStep e)
  | .arrive t k req => s.arrive t k req
  | .reply t k => s.reply t k
  | .lost t k => s.lose t k
  | .timer t k =>
      s.setTab t { s.tabs t with session := (s.tabs t).session.step (.timer k) }
  | .device e => { s with device := s.device.step e }
  | .restart => { s with device := {} }

/-- No dialog is open yet, and the device has come up. -/
def machine : StateMachine System SystemEvent where
  init := {}
  step := step

/-- The event has the device answer the start request of call `k` of tab `t`. -/
def Serves (s : System) (e : SystemEvent) (t k : Nat) : Prop :=
  ∃ req, e = .arrive t k req ∧ req.session = true ∧ s.answers t k = none ∧
    (s.tabs t).session.calls[k]? = some .starting

/-- The start request of call `k` of tab `t` is answered at event `i` of the run. -/
def StartServed (events : List SystemEvent) (t k i : Nat) : Prop :=
  ∃ e, events[i]? = some e ∧ (machine.run (events.take i)).Serves e t k

/-- The driver after a start and the given polls of the receivers. -/
def learned (now : UInt64) (ios : List DriverInput) : LearnDriver :=
  ios.foldl LearnDriver.pollLearn (({} : LearnDriver).startLearn now)

/-- Polls of the receivers, in the order of the run, each with its place in it: the loop task
was at the step that polls them. -/
structure Polls (events : List SystemEvent) (heard : List (Nat × DriverInput)) : Prop where
  order : heard.Pairwise fun p q => p.1 < q.1
  polled : ∀ p ∈ heard, events[p.1]? = some (.device (.drive p.2))
  listening : ∀ p ∈ heard, (machine.run (events.take p.1)).device.loop = .listenRead

/-- The code is what the learn machine made of polls all of which came after those events. -/
def LearnedAfter (events : List SystemEvent) (after : Nat → Prop) (code : StoredCode) : Prop :=
  ∃ now heard, Polls events heard ∧ (∀ i, after i → ∀ p ∈ heard, i < p.1) ∧
    (learned now (heard.map Prod.snd)).machine.state = .captured ∧
    (learned now (heard.map Prod.snd)).takeLearnedCode.1 = code

/-- The document holds a code learned after the start request of call `k` was answered. -/
def Fresh (events : List SystemEvent) (t k : Nat) (doc : Json) : Prop :=
  ∃ i code, StartServed events t k i ∧ LearnedAfter events (· = i) code ∧
    doc = .obj (writeCodeFields code)

section History

variable {events : List SystemEvent}

theorem startServed_concat (e : SystemEvent) (t k i : Nat) :
    StartServed (events ++ [e]) t k i ↔
      StartServed events t k i ∨ (i = events.length ∧ (machine.run events).Serves e t k) := by
  unfold StartServed
  rcases Nat.lt_trichotomy i events.length with hlt | rfl | hgt
  · rw [List.getElem?_append_left hlt, List.take_append_of_le_length hlt.le]
    exact ⟨Or.inl, fun h => h.resolve_right fun hlast => absurd hlast.1 hlt.ne⟩
  · rw [List.getElem?_concat_length, List.take_left', List.getElem?_eq_none le_rfl]
    · simp
    · rfl
  · rw [List.getElem?_eq_none (by simp; omega), List.getElem?_eq_none hgt.le]
    simp [hgt.ne']

theorem StartServed.concat {t k i : Nat} (h : StartServed events t k i) (e : SystemEvent) :
    StartServed (events ++ [e]) t k i :=
  (startServed_concat e t k i).mpr (Or.inl h)

theorem Polls.concat {heard : List (Nat × DriverInput)} (h : Polls events heard)
    (e : SystemEvent) : Polls (events ++ [e]) heard := by
  refine ⟨h.order, fun p hp => ?_, fun p hp => ?_⟩
  · obtain ⟨hlt, -⟩ := List.getElem?_eq_some_iff.mp (h.polled p hp)
    rw [List.getElem?_append_left hlt]
    exact h.polled p hp
  · obtain ⟨hlt, -⟩ := List.getElem?_eq_some_iff.mp (h.polled p hp)
    rw [List.take_append_of_le_length hlt.le]
    exact h.listening p hp

/-- One more poll of the receivers. -/
theorem Polls.poll {heard : List (Nat × DriverInput)} (h : Polls events heard)
    (hloop : (machine.run events).device.loop = .listenRead) (io : DriverInput) :
    Polls (events ++ [SystemEvent.device (.drive io)]) (heard ++ [(events.length, io)]) := by
  refine ⟨?_, ?_, ?_⟩
  · rw [List.pairwise_append]
    refine ⟨h.order, List.pairwise_singleton _ _, fun p hp q hq => ?_⟩
    rw [List.mem_singleton.mp hq]
    exact (List.getElem?_eq_some_iff.mp (h.polled p hp)).1
  · intro p hp
    rcases List.mem_append.mp hp with hold | hnew
    · exact (h.concat _).polled p hold
    · rw [List.mem_singleton.mp hnew]
      exact List.getElem?_concat_length
  · intro p hp
    rcases List.mem_append.mp hp with hold | hnew
    · exact (h.concat _).listening p hold
    · rw [List.mem_singleton.mp hnew, List.take_left' rfl]
      exact hloop

theorem learned_poll (now : UInt64) (heard : List (Nat × DriverInput)) (n : Nat)
    (io : DriverInput) :
    learned now ((heard ++ [(n, io)]).map Prod.snd) =
      (learned now (heard.map Prod.snd)).pollLearn io := by
  simp [learned]

theorem LearnedAfter.concat {after after' : Nat → Prop} {code : StoredCode}
    (h : LearnedAfter events after code) (e : SystemEvent) (hafter : ∀ i, after' i → after i) :
    LearnedAfter (events ++ [e]) after' code := by
  obtain ⟨now, heard, hpolls, hsince, hlearned⟩ := h
  exact ⟨now, heard, hpolls.concat e, fun i hi => hsince i (hafter i hi), hlearned⟩

theorem Fresh.concat {t k : Nat} {doc : Json} (h : Fresh events t k doc) (e : SystemEvent) :
    Fresh (events ++ [e]) t k doc := by
  obtain ⟨i, code, hserved, hlearned, hdoc⟩ := h
  exact ⟨i, code, hserved.concat e, hlearned.concat e fun _ hi => hi, hdoc⟩

end History

/-- Some start request of a dialog is answered at event `i`. -/
def AnyServed (events : List SystemEvent) (i : Nat) : Prop :=
  ∃ t k, StartServed events t k i

/-- Whatever the device holds of a session, before the loop task has published it and after,
it got from polls that came after every start request answered so far. -/
structure Recorded (events : List SystemEvent) (s : LearnApi) : Prop where
  listening : s.phase = .listening → s.loop = .idle ∨ s.loop = .listenRead →
    ∃ now heard, Polls events heard ∧ (∀ i, AnyServed events i → ∀ p ∈ heard, i < p.1) ∧
      s.driver = learned now (heard.map Prod.snd)
  arming : s.loop = .startRead ∨ s.loop = .started → s.phase ≠ .listening
  started : s.loop = .started → ∃ now, s.driver = learned now []
  took : ∀ code, s.phase = .listening → s.loop = .tookCode code →
    LearnedAfter events (AnyServed events) code
  captured : s.phase = .captured → LearnedAfter events (AnyServed events) s.code

section Device

variable {events : List SystemEvent} {s : LearnApi}

theorem anyServed_concat {e : SystemEvent} (he : ∀ t k, ¬(machine.run events).Serves e t k)
    {i : Nat} (h : AnyServed (events ++ [e]) i) : AnyServed events i := by
  obtain ⟨t, k, hserved⟩ := h
  rcases (startServed_concat e t k i).mp hserved with hold | ⟨-, hnew⟩
  · exact ⟨t, k, hold⟩
  · exact absurd hnew (he t k)

/-- Only the arrival of a request has the device answer a start. -/
theorem not_serves {e : SystemEvent} (he : ∀ t k req, e ≠ .arrive t k req) (s : System)
    (t k : Nat) : ¬s.Serves e t k := by
  rintro ⟨req, heq, -⟩
  exact he t k req heq

theorem Recorded.concat (h : Recorded events s) {e : SystemEvent}
    (he : ∀ t k, ¬(machine.run events).Serves e t k) : Recorded (events ++ [e]) s := by
  refine ⟨fun hphase hloop => ?_, h.arming, h.started, fun code hphase hloop => ?_,
    fun hphase => ?_⟩
  · obtain ⟨now, heard, hpolls, hsince, hdriver⟩ := h.listening hphase hloop
    exact ⟨now, heard, hpolls.concat e, fun i hi => hsince i (anyServed_concat he hi), hdriver⟩
  · exact (h.took code hphase hloop).concat e fun i hi => anyServed_concat he hi
  · exact (h.captured hphase).concat e fun i hi => anyServed_concat he hi

/-- With a new request in the phase nothing that was heard before counts any more. -/
theorem Recorded.of_phase (events : List SystemEvent)
    (hphase : s.phase ≠ .listening ∧ s.phase ≠ .captured)
    (hstarted : s.loop = .started → ∃ now, s.driver = learned now []) : Recorded events s :=
  ⟨fun h => absurd h hphase.1, fun _ => hphase.1, hstarted, fun _ h => absurd h hphase.1,
    fun h => absurd h hphase.2⟩

theorem Recorded.start (h : Recorded events s) {req : HttpRequest} (hsession : req.session = true)
    (events' : List SystemEvent) : Recorded events' (s.handleLearnStart req) := by
  unfold LearnApi.handleLearnStart
  rw [if_pos hsession]
  exact Recorded.of_phase events' ⟨by simp, by simp⟩ h.started

theorem Recorded.cancel (h : Recorded events s) (req : HttpRequest) :
    Recorded events (s.handleLearnCancel req) := by
  unfold LearnApi.handleLearnCancel
  by_cases hsession : req.session = true
  · rw [if_pos hsession]
    exact Recorded.of_phase events ⟨by simp, by simp⟩ h.started
  · rw [if_neg hsession]
    exact h

theorem Recorded.read (h : Recorded events s) : Recorded events s.readPhase := by
  rcases s.readPhase_enters with heq | ⟨hidle, loop, heq, hloop⟩
  · rw [heq]
    exact h
  · rw [heq]
    refine ⟨fun hphase _ => h.listening hphase (Or.inl hidle), ?_, ?_, ?_, h.captured⟩
    · intro harming hphase
      rcases hloop with ⟨-, hreq⟩ | ⟨-, hreq⟩ | ⟨rfl, -⟩
      · exact absurd (hreq.symm.trans hphase) (by decide)
      · exact absurd (hreq.symm.trans hphase) (by decide)
      · rcases harming with hno | hno <;> cases hno
    · rintro rfl
      rcases hloop with ⟨hno, -⟩ | ⟨hno, -⟩ | ⟨hno, -⟩ <;> cases hno
    · rintro code - rfl
      rcases hloop with ⟨hno, -⟩ | ⟨hno, -⟩ | ⟨hno, -⟩ <;> cases hno

/-- One more poll of a running session. -/
theorem Recorded.heard (h : Recorded events s) (hphase : s.phase = .listening)
    (hloop : s.loop = .listenRead) (hrun : (machine.run events).device = s) (io : DriverInput) :
    ∃ now heard, Polls (events ++ [SystemEvent.device (.drive io)]) heard ∧
      (∀ i, AnyServed (events ++ [SystemEvent.device (.drive io)]) i → ∀ p ∈ heard, i < p.1) ∧
      s.driver.pollLearn io = learned now (heard.map Prod.snd) := by
  obtain ⟨now, heard, hpolls, hsince, hdriver⟩ := h.listening hphase (Or.inr hloop)
  refine ⟨now, heard ++ [(events.length, io)], hpolls.poll (hrun ▸ hloop) io, ?_, ?_⟩
  · intro i hi p hp
    have hold : AnyServed events i := anyServed_concat (not_serves (by simp) _) hi
    rcases List.mem_append.mp hp with hheard | hnew
    · exact hsince i hold p hheard
    · obtain ⟨t, k, e, he, -⟩ := hold
      rw [List.mem_singleton.mp hnew]
      exact (List.getElem?_eq_some_iff.mp he).1
  · rw [learned_poll, hdriver]

theorem Recorded.drive (h : Recorded events s) (hrun : (machine.run events).device = s)
    (io : DriverInput) :
    Recorded (events ++ [SystemEvent.device (.drive io)]) (s.drive io) := by
  have hkept : Recorded (events ++ [SystemEvent.device (.drive io)]) s :=
    h.concat (not_serves (by simp) _)
  cases hloop : s.loop with
  | startRead =>
      have heq : s.drive io =
          { s with
            driver := s.driver.startLearn io.now, loop := .started, session := s.starts } := by
        simp only [LearnApi.drive, hloop]
      rw [heq]
      exact ⟨by simp, fun _ => h.arming (Or.inl hloop), fun _ => ⟨io.now, rfl⟩, by simp,
        hkept.captured⟩
  | cancelRead =>
      have heq : s.drive io =
          { s with driver := s.driver.cancelLearn, loop := .cancelled } := by
        simp only [LearnApi.drive, hloop]
      rw [heq]
      exact ⟨by simp, by simp, by simp, by simp, hkept.captured⟩
  | listenRead =>
      have hmore := fun hphase hloop => h.heard hphase hloop hrun io
      cases hstate : (s.driver.pollLearn io).machine.state with
      | captured =>
          have heq : s.drive io =
              { s with
                driver := (s.driver.pollLearn io).takeLearnedCode.2
                loop := .tookCode (s.driver.pollLearn io).takeLearnedCode.1 } := by
            simp only [LearnApi.drive, hloop, hstate]
          rw [heq]
          refine ⟨by simp, by simp, by simp, fun code hphase htook => ?_, hkept.captured⟩
          obtain ⟨now, heard, hpolls, hsince, hdriver⟩ := hmore hphase hloop
          refine ⟨now, heard, hpolls, hsince, ?_, ?_⟩
          · rw [← hdriver, hstate]
          · rw [← hdriver]
            exact LoopStep.tookCode.inj htook
      | failed =>
          have heq : s.drive io =
              { s with
                driver := s.driver.pollLearn io
                loop := .gaveUp (s.driver.pollLearn io).machine.reason } := by
            simp only [LearnApi.drive, hloop, hstate]
          rw [heq]
          exact ⟨by simp, by simp, by simp, by simp, hkept.captured⟩
      | idle | listening =>
          have heq : s.drive io = { s with driver := s.driver.pollLearn io, loop := .idle } := by
            simp only [LearnApi.drive, hloop, hstate]
          rw [heq]
          exact ⟨fun hphase _ => hmore hphase hloop, by simp, by simp, by simp, hkept.captured⟩
  | idle | started | cancelled | tookCode code | gaveUp reason =>
      have heq : s.drive io = s := by
        simp only [LearnApi.drive, hloop]
      rw [heq]
      exact hkept

theorem Recorded.publish (h : Recorded events s) : Recorded events s.publish := by
  unfold LearnApi.publish
  cases hloop : s.loop with
  | started =>
      obtain ⟨now, hdriver⟩ := h.started hloop
      by_cases hphase : s.phase = .startReq
      · simp only [if_pos hphase]
        refine ⟨fun _ _ => ⟨now, [], ⟨.nil, by simp, by simp⟩, by simp, hdriver⟩, by simp, by simp,
          by simp, by simp⟩
      · simp only [if_neg hphase]
        exact ⟨fun hlistening => absurd hlistening (h.arming (Or.inr hloop)), by simp, by simp,
          by simp, h.captured⟩
  | cancelled => exact Recorded.of_phase events ⟨by simp, by simp⟩ (by simp)
  | tookCode code =>
      by_cases hphase : s.phase = .listening
      · simp only [if_pos hphase]
        exact ⟨by simp, by simp, by simp, by simp, fun _ => h.took code hphase hloop⟩
      · simp only [if_neg hphase]
        exact ⟨fun hlistening => absurd hlistening hphase, by simp, by simp, by simp, h.captured⟩
  | gaveUp reason =>
      by_cases hphase : s.phase = .listening
      · simp only [if_pos hphase]
        exact ⟨by simp, by simp, by simp, by simp, by simp⟩
      · simp only [if_neg hphase]
        exact ⟨fun hlistening => absurd hlistening hphase, by simp, by simp, by simp, h.captured⟩
  | idle | startRead | cancelRead | listenRead => exact h

end Device

/-- The answers on their way to a tab and its calls that poll: a start request was answered
for each of them, and a code that is on its way is fresh. -/
structure Fetches (events : List SystemEvent) (t : Nat) (answers : Nat → Option Response)
    (calls : List Call) : Prop where
  awaited : ∀ k r, answers k = some r →
    (calls[k]? = some .starting ∧ (r = .unauthorized ∨ ∃ i, StartServed events t k i)) ∨
    (calls[k]? = some .polling ∧
      ∀ doc, r = .json doc → okOf doc = some true → Fresh events t k (doc.get (ascii "code")))
  polled : ∀ k, calls[k]? = some .polling ∨ calls[k]? = some .waiting →
    ∃ i, StartServed events t k i

namespace Fetches

variable {events : List SystemEvent} {t : Nat} {answers : Nat → Option Response}
  {calls : List Call}

theorem concat (h : Fetches events t answers calls) (e : SystemEvent) :
    Fetches (events ++ [e]) t answers calls := by
  refine ⟨fun k r hr => ?_, fun k hk => ?_⟩
  · rcases h.awaited k r hr with ⟨hcall, hrefused | ⟨i, hserved⟩⟩ | ⟨hcall, hfresh⟩
    · exact Or.inl ⟨hcall, Or.inl hrefused⟩
    · exact Or.inl ⟨hcall, Or.inr ⟨i, hserved.concat e⟩⟩
    · exact Or.inr ⟨hcall, fun doc hdoc hok => (hfresh doc hdoc hok).concat e⟩
  · obtain ⟨i, hserved⟩ := h.polled k hk
    exact ⟨i, hserved.concat e⟩

/-- One more call, which has its start request out. -/
theorem start (h : Fetches events t answers calls) :
    Fetches events t answers (calls ++ [.starting]) := by
  have hold : ∀ {k : Nat} {call : Call}, calls[k]? = some call →
      (calls ++ [Call.starting])[k]? = some call := by
    intro k call hcall
    rwa [List.getElem?_append_left (List.getElem?_eq_some_iff.mp hcall).1]
  refine ⟨fun k r hr => ?_, fun k hk => ?_⟩
  · rcases h.awaited k r hr with ⟨hcall, hserved⟩ | ⟨hcall, hfresh⟩
    · exact Or.inl ⟨hold hcall, hserved⟩
    · exact Or.inr ⟨hold hcall, hfresh⟩
  · rcases Nat.lt_trichotomy k calls.length with hlt | rfl | hgt
    · rw [List.getElem?_append_left hlt] at hk
      exact h.polled k hk
    · rw [List.getElem?_concat_length] at hk
      rcases hk with hk | hk <;> cases hk
    · rw [List.getElem?_eq_none (by simp; omega)] at hk
      rcases hk with hk | hk <;> cases hk

/-- An event of call `k`, with no answer on its way to it any more. -/
theorem event {s : Session} (h : Fetches events t answers s.calls) {e : Event} {k : Nat}
    (he : e.call = some k) {answers' : Nat → Option Response} (hnone : answers' k = none)
    (hother : ∀ j, j ≠ k → answers' j = answers j)
    (hserved : (s.step e).calls[k]? = some .polling ∨ (s.step e).calls[k]? = some .waiting →
      ∃ i, StartServed events t k i) : Fetches events t answers' (s.step e).calls := by
  refine ⟨fun j r hr => ?_, fun j hj => ?_⟩
  · have hne : j ≠ k := by
      rintro rfl
      rw [hnone] at hr
      cases hr
    rw [call_other he hne]
    exact h.awaited j r (hother j hne ▸ hr)
  · by_cases hne : j = k
    · subst hne
      exact hserved hj
    · rw [call_other he hne] at hj
      exact h.polled j hj

theorem timer {s : Session} (h : Fetches events t answers s.calls) (k : Nat) :
    Fetches events t answers (s.step (.timer k)).calls := by
  by_cases hwaiting : s.calls[k]? = some .waiting
  · have hnone : answers k = none := by
      cases hr : answers k with
      | none => rfl
      | some r =>
          rcases h.awaited k r hr with ⟨hcall, -⟩ | ⟨hcall, -⟩ <;>
            exact absurd (hwaiting.symm.trans hcall) (by simp)
    exact h.event rfl hnone (fun _ _ => rfl) fun _ => h.polled k (Or.inr hwaiting)
  · have hsame : s.step (.timer k) = s := by
      simp only [Session.step]
    rw [hsame]
    exact h

/-- A start that is turned away or lost never polls. -/
theorem response {s : Session} (h : Fetches events t answers s.calls) {k : Nat} {r : Response}
    (hr : r = .failed ∨ answers k = some r)
    (hcall : s.calls[k]? = some .starting ∨ s.calls[k]? = some .polling) :
    Fetches events t (Function.update answers k none) (s.step (.response k r)).calls := by
  refine h.event rfl (Function.update_self ..) (fun j hj => Function.update_of_ne hj ..) ?_
  intro hpolls
  rcases hcall with hstarting | hpolling
  · have hdone : ∀ {call : Call}, (s.step (.response k r)).calls[k]? = some call →
        call ≠ .polling ∧ call ≠ .waiting → ∃ i, StartServed events t k i := by
      rintro call hcall ⟨hno, hno'⟩
      rw [hcall] at hpolls
      rcases hpolls with hno'' | hno''
      · exact absurd (Option.some.inj hno'') hno
      · exact absurd (Option.some.inj hno'') hno'
    rcases start_response hstarting r with ⟨-, hstopped⟩ | ⟨-, hrejected⟩ | ⟨doc, rfl, -⟩
    · exact hdone hstopped (by simp)
    · exact hdone hrejected (by simp)
    · rcases hr with hno | hanswer
      · cases hno
      · rcases h.awaited k _ hanswer with ⟨-, hno | hserved⟩ | ⟨hno, -⟩
        · cases hno
        · exact hserved
        · exact absurd (hstarting.symm.trans hno) (by simp)
  · exact h.polled k (Or.inl hpolling)

end Fetches

/-- Only a captured code is answered with `ok`. -/
theorem pollDoc_ok {result : PollResult} {doc : Json} (hdoc : pollDoc result = .json doc)
    (hok : okOf doc = some true) :
    ∃ code, result = .captured code ∧ doc.get (ascii "code") = .obj (writeCodeFields code) := by
  cases result with
  | auth => cases hdoc
  | captured code =>
      cases hdoc
      exact ⟨code, rfl, rfl⟩
  | failed reason =>
      cases hdoc
      have hfalse : okOf (.obj [(ascii "ok", .bool false),
          (ascii "reason", .str (ascii (failReasonText reason)))]) = some false := rfl
      exact absurd (hfalse.symm.trans hok) (by simp)
  | listening =>
      cases hdoc
      exact absurd hok (by decide)

theorem captured_of_poll {s : LearnApi} {req : HttpRequest} {code : StoredCode}
    (h : s.handleLearnPoll req = .captured code) : s.phase = .captured ∧ s.code = code := by
  unfold LearnApi.handleLearnPoll at h
  split_ifs at h
  cases hphase : s.phase with
  | captured =>
      rw [hphase] at h
      exact ⟨rfl, PollResult.captured.inj h⟩
  | idle | startReq | listening | failed | cancelReq =>
      rw [hphase] at h
      cases h

/-- What holds after every run. -/
structure Sound (events : List SystemEvent) (s : System) : Prop where
  device : Recorded events s.device
  armed : ∀ t, (s.tabs t).Armed
  fetches : ∀ t, Fetches events t (s.answers t) (s.tabs t).session.calls
  shows : ∀ t, (s.tabs t).Shows (Fresh events t)

namespace Sound

variable {events : List SystemEvent} {s : System}

theorem shows_concat {tab : Tab} {t : Nat} (h : tab.Shows (Fresh events t)) (e : SystemEvent) :
    tab.Shows (Fresh (events ++ [e]) t) := by
  intro d dlg hdlg hstep
  obtain ⟨k, token, hk, hlast, hfresh⟩ := h d dlg hdlg hstep
  exact ⟨k, token, hk, hlast, hfresh.concat e⟩

/-- An event that serves no start has made the run longer. -/
theorem concat (h : Sound events s) {e : SystemEvent}
    (he : ∀ t k, ¬(machine.run events).Serves e t k) : Sound (events ++ [e]) s :=
  ⟨h.device.concat he, h.armed, fun t => (h.fetches t).concat e,
    fun t => shows_concat (h.shows t) e⟩

/-- One tab and the answers to it change. -/
theorem update (h : Sound events s) (s' : System) (t : Nat) (hdevice : s'.device = s.device)
    (hother : ∀ t', t' ≠ t → s'.tabs t' = s.tabs t' ∧ s'.answers t' = s.answers t')
    (harmed : (s'.tabs t).Armed)
    (hfetches : Fetches events t (s'.answers t) (s'.tabs t).session.calls)
    (hshows : (s'.tabs t).Shows (Fresh events t)) : Sound events s' := by
  refine ⟨hdevice ▸ h.device, fun t' => ?_, fun t' => ?_, fun t' => ?_⟩
  · by_cases ht : t' = t
    · exact ht ▸ harmed
    · rw [(hother t' ht).1]
      exact h.armed t'
  · by_cases ht : t' = t
    · exact ht ▸ hfetches
    · rw [(hother t' ht).1, (hother t' ht).2]
      exact h.fetches t'
  · by_cases ht : t' = t
    · exact ht ▸ hshows
    · rw [(hother t' ht).1]
      exact h.shows t'

theorem dialog (h : Sound events s) (t : Nat) (e : DialogEvent) :
    Sound events (s.setTab t ((s.tabs t).dialogStep e)) := by
  have htab : (s.setTab t ((s.tabs t).dialogStep e)).tabs t = (s.tabs t).dialogStep e :=
    Function.update_self ..
  refine h.update (s.setTab t _) t rfl
    (fun t' ht => ⟨Function.update_of_ne ht .., rfl⟩) ?_ ?_ ?_
  · rw [htab]
    exact (h.armed t).dialogStep e
  · rw [htab]
    rcases (s.tabs t).dialogStep_calls e with hsame | hmore
    · rw [hsame]
      exact h.fetches t
    · rw [hmore]
      exact (h.fetches t).start
  · rw [htab]
    exact (h.shows t).dialogStep e

theorem timer (h : Sound events s) (t k : Nat) : Sound events (s.step (.timer t k)) := by
  have htab : (s.step (.timer t k)).tabs t =
      { s.tabs t with session := (s.tabs t).session.step (.timer k) } :=
    Function.update_self ..
  refine h.update (s.step (.timer t k)) t rfl
    (fun t' ht => ⟨Function.update_of_ne ht .., rfl⟩) ?_ ?_ ?_
  · rw [htab]
    exact ⟨(h.armed t).order, (h.armed t).recent⟩
  · rw [htab]
    exact (h.fetches t).timer k
  · rw [htab]
    exact h.shows t

/-- An answer or a failure reaches the call that waits for it. -/
theorem deliver (h : Sound events s) {t k : Nat} {r : Response}
    (hr : r = .failed ∨ s.answers t k = some r)
    (hcall : (s.tabs t).session.calls[k]? = some .starting ∨
      (s.tabs t).session.calls[k]? = some .polling) :
    Sound events ((s.setTab t ((s.tabs t).deliver k r)).setAnswer t k none) := by
  have htab : ((s.setTab t ((s.tabs t).deliver k r)).setAnswer t k none).tabs t =
      (s.tabs t).deliver k r :=
    Function.update_self ..
  have hanswers : ((s.setTab t ((s.tabs t).deliver k r)).setAnswer t k none).answers t =
      Function.update (s.answers t) k none :=
    Function.update_self ..
  refine h.update ((s.setTab t _).setAnswer t k none) t rfl
    (fun t' ht => ⟨Function.update_of_ne ht .., Function.update_of_ne ht ..⟩) ?_ ?_ ?_
  · rw [htab]
    exact (h.armed t).deliver k r
  · rw [htab, hanswers, Tab.deliver_session]
    exact (h.fetches t).response hr hcall
  · rw [htab]
    apply (h.shows t).deliver (h.armed t)
    intro res hres hok
    rcases hcall with hstarting | hpolling
    · rcases start_response hstarting r with ⟨-, hno⟩ | ⟨-, hno⟩ | ⟨doc, -, hrefused⟩
      · exact absurd (hno.symm.trans hres) (by simp)
      · exact absurd (hno.symm.trans hres) (by simp)
      · exact absurd ((hrefused res hres).symm.trans hok) (by simp)
    · have hdoc := poll_response hpolling hres
      rcases hr with hno | hanswer
      · exact absurd (hno.symm.trans hdoc) (by simp)
      · rcases (h.fetches t).awaited k r hanswer with ⟨hno, -⟩ | ⟨-, hfresh⟩
        · exact absurd (hpolling.symm.trans hno) (by simp)
        · exact hfresh res hdoc hok

theorem loopTask (h : Sound events s) (hrun : machine.run events = s) (e : LearnEvent) :
    Sound (events ++ [SystemEvent.device e]) (s.step (.device e)) := by
  have hkept : Sound (events ++ [SystemEvent.device e]) s := h.concat (not_serves (by simp) _)
  refine ⟨?_, hkept.armed, hkept.fetches, hkept.shows⟩
  cases e with
  | start req =>
      by_cases hsession : req.session = true
      · exact hkept.device.start hsession _
      · have hsame : (s.step (.device (.start req))).device = s.device := if_neg hsession
        rw [hsame]
        exact hkept.device
  | cancel req => exact hkept.device.cancel req
  | read => exact hkept.device.read
  | drive io => exact h.device.drive (congrArg System.device hrun) io
  | publish => exact hkept.device.publish

theorem restart (h : Sound events s) :
    Sound (events ++ [SystemEvent.restart]) (s.step .restart) := by
  have hkept : Sound (events ++ [SystemEvent.restart]) s := h.concat (not_serves (by simp) _)
  exact ⟨Recorded.of_phase (s := {}) _ ⟨by simp, by simp⟩ (by simp), hkept.armed, hkept.fetches,
    hkept.shows⟩

/-- An answer leaves for call `k` of tab `t`. -/
theorem answer (h : Sound events s) {t k : Nat} {r : Response}
    (hnew : ((s.tabs t).session.calls[k]? = some .starting ∧
        (r = .unauthorized ∨ ∃ i, StartServed events t k i)) ∨
      ((s.tabs t).session.calls[k]? = some .polling ∧
        ∀ doc, r = .json doc → okOf doc = some true →
          Fresh events t k (doc.get (ascii "code")))) :
    Sound events (s.setAnswer t k (some r)) := by
  have hanswers : (s.setAnswer t k (some r)).answers t =
      Function.update (s.answers t) k (some r) :=
    Function.update_self ..
  refine h.update (s.setAnswer t k (some r)) t rfl
    (fun t' ht => ⟨rfl, Function.update_of_ne ht ..⟩) (h.armed t) ?_ (h.shows t)
  refine ⟨fun j r' hr => ?_, (h.fetches t).polled⟩
  rw [hanswers, Function.update_apply] at hr
  split_ifs at hr with hj
  · cases hr
    exact hj ▸ hnew
  · exact (h.fetches t).awaited j r' hr

/-- A poll answered with a code comes after the start of its call. -/
theorem poll_fresh (h : Sound events s) {t k : Nat}
    (hcall : (s.tabs t).session.calls[k]? = some .polling) (req : HttpRequest) {doc : Json}
    (hdoc : pollDoc (s.device.handleLearnPoll req) = .json doc) (hok : okOf doc = some true) :
    Fresh events t k (doc.get (ascii "code")) := by
  obtain ⟨i, hserved⟩ := (h.fetches t).polled k (Or.inl hcall)
  obtain ⟨code, hpoll, hget⟩ := pollDoc_ok hdoc hok
  obtain ⟨hphase, rfl⟩ := captured_of_poll hpoll
  obtain ⟨now, heard, hpolls, hsince, hlearned⟩ := h.device.captured hphase
  refine ⟨i, s.device.code, hserved, ⟨now, heard, hpolls, ?_, hlearned⟩, hget⟩
  intro j hj
  exact hsince j ⟨t, k, hj ▸ hserved⟩

/-- A request reaches the device. -/
theorem arrive (h : Sound events (machine.run events)) (t k : Nat) (req : HttpRequest) :
    Sound (events ++ [SystemEvent.arrive t k req]) ((machine.run events).arrive t k req) := by
  generalize hs : machine.run events = s at h
  have hserves : ∀ t' k', (machine.run events).Serves (.arrive t k req) t' k' →
      req.session = true ∧ s.answers t k = none ∧
        (s.tabs t).session.calls[k]? = some .starting := by
    rintro t' k' ⟨req', heq, hserved⟩
    cases heq
    exact hs ▸ hserved
  by_cases hstart : s.answers t k = none ∧ (s.tabs t).session.calls[k]? = some .starting
  · simp only [System.arrive, hstart]
    by_cases hsession : req.session = true
    · have hserved : StartServed (events ++ [SystemEvent.arrive t k req]) t k events.length :=
        (startServed_concat _ t k _).mpr
          (Or.inr ⟨rfl, req, rfl, hsession, by rw [hs]; exact hstart⟩)
      have hkept : Sound (events ++ [SystemEvent.arrive t k req])
          { s with device := s.device.handleLearnStart req } :=
        ⟨h.device.start hsession _, h.armed, fun t' => (h.fetches t').concat _,
          fun t' => shows_concat (h.shows t') _⟩
      rw [if_pos hsession]
      exact hkept.answer (Or.inl ⟨hstart.2, Or.inr ⟨events.length, hserved⟩⟩)
    · have hkept : Sound (events ++ [SystemEvent.arrive t k req]) s :=
        h.concat fun t' k' hserved => hsession (hserves t' k' hserved).1
      have hsame : s.device.handleLearnStart req = s.device := if_neg hsession
      rw [if_neg hsession, hsame]
      exact hkept.answer (Or.inl ⟨hstart.2, Or.inl rfl⟩)
  · have hkept : Sound (events ++ [SystemEvent.arrive t k req]) s :=
      h.concat fun t' k' hserved => hstart (hserves t' k' hserved).2
    by_cases hpoll : s.answers t k = none ∧ (s.tabs t).session.calls[k]? = some .polling
    · simp only [System.arrive, hpoll]
      exact hkept.answer
        (Or.inr ⟨hpoll.2, fun doc hdoc hok => hkept.poll_fresh hpoll.2 req hdoc hok⟩)
    · have hsame : s.arrive t k req = s := by
        unfold System.arrive
        split
        · rename_i hnone hcall
          exact absurd ⟨hnone, hcall⟩ hstart
        · rename_i hnone hcall
          exact absurd ⟨hnone, hcall⟩ hpoll
        · rfl
      rw [hsame]
      exact hkept

theorem step (h : Sound events (machine.run events)) (e : SystemEvent) :
    Sound (events ++ [e]) (machine.step (machine.run events) e) := by
  have hkept : (∀ t k req, e ≠ .arrive t k req) → Sound (events ++ [e]) (machine.run events) :=
    fun he => h.concat (not_serves he _)
  cases e with
  | dialog t e => exact (hkept (by simp)).dialog t e
  | arrive t k req => exact h.arrive t k req
  | reply t k =>
      have hlong := hkept (by simp)
      change Sound _ ((machine.run events).reply t k)
      unfold System.reply
      cases hanswer : (machine.run events).answers t k with
      | none => exact hlong
      | some r =>
          apply hlong.deliver (Or.inr hanswer)
          rcases (h.fetches t).awaited k r hanswer with ⟨hcall, -⟩ | ⟨hcall, -⟩
          · exact Or.inl hcall
          · exact Or.inr hcall
  | lost t k =>
      have hlong := hkept (by simp)
      change Sound _ ((machine.run events).lose t k)
      unfold System.lose
      split_ifs with hfetching
      · exact hlong.deliver (Or.inl rfl) (fetching_iff.mp hfetching)
      · exact hlong
  | timer t k => exact (hkept (by simp)).timer t k
  | device e => exact h.loopTask rfl e
  | restart => exact h.restart

end Sound

theorem run_sound (events : List SystemEvent) : Sound events (machine.run events) := by
  apply machine.run_induction (P := Sound)
  · refine ⟨Recorded.of_phase (s := {}) [] ⟨by simp, by simp⟩ (by simp),
      fun t => ⟨List.Pairwise.nil, ?_⟩, fun t => ⟨?_, ?_⟩, ?_⟩
    · intro a ha
      cases ha
    · intro k r hr
      cases hr
    · intro k hk
      rcases hk with hk | hk <;> cases hk
    · intro t d dlg hdlg
      cases hdlg
  · exact fun events e h => h.step e

/-- In any run of the device with any number of tabs, with requests and answers late or lost
and other clients starting and cancelling in between, a dialog that offers a code offers what
the learn machine made of bursts all of which were polled after the device had answered the
start request of the call the dialog armed last. -/
theorem offered_code_fresh (events : List SystemEvent) {t d : Nat} {dlg : Dialog}
    (hdlg : ((machine.run events).tabs t).dialogs[d]? = some dlg)
    (hstep : dlg.step = .captured ∨ dlg.step = .assign) :
    ∃ k token, ((machine.run events).tabs t).arms[k]? = some (d, token) ∧
      (∀ k' token', ((machine.run events).tabs t).arms[k']? = some (d, token') → k' ≤ k) ∧
      ∃ i code, StartServed events t k i ∧ LearnedAfter events (· = i) code ∧
        dlg.code = .obj (writeCodeFields code) :=
  (run_sound events).shows t d dlg hdlg hstep

/-- A press of a button, as the loop task polls it. -/
def press (now : UInt64) : List SystemEvent :=
  [.device .read, .device (.drive { now := now, rf433 := [List.replicate 17 400] })]

/-- Another client starts and gives up while the dialog's start request is on its way. -/
def learnedRun : List SystemEvent :=
  [SystemEvent.dialog 0 .open, .device (.start {}), .device .read, .device (.drive { now := 0 }),
    .device .publish, .device (.cancel {}), .arrive 0 0 {}, .reply 0 0, .device .read,
    .device (.drive { now := 500 }), .device .publish] ++
  press 1000 ++ press 2000 ++ press 3000 ++
    [SystemEvent.device .publish, .arrive 0 0 {}, .reply 0 0]

theorem offered_code_fresh_press :
    ∃ dlg : Dialog,
      ((machine.run learnedRun).tabs 0).dialogs[0]? = some dlg ∧ dlg.step = .captured ∧
      ∃ k token, ((machine.run learnedRun).tabs 0).arms[k]? = some (0, token) ∧
        (∀ k' token', ((machine.run learnedRun).tabs 0).arms[k']? = some (0, token') → k' ≤ k) ∧
        ∃ i code, StartServed learnedRun 0 k i ∧ LearnedAfter learnedRun (· = i) code ∧
          dlg.code = .obj (writeCodeFields code) := by
  have hstep : (((machine.run learnedRun).tabs 0).dialogs[0]?).map Dialog.step =
      some .captured := by
    decide +kernel
  obtain ⟨dlg, hdlg, hcaptured⟩ := Option.map_eq_some_iff.mp hstep
  exact ⟨dlg, hdlg, hcaptured, offered_code_fresh learnedRun hdlg (Or.inl hcaptured)⟩

end System

end RfIrBlaster.WebLearn
