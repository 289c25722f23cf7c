/-
The learn sessions of the web page: `startLearn`, `cancelLearn` and the poll loops of
`data.js`, with the responses and timers of any call firing in any order.
-/
import RfIrBlaster.ConfigModel
import RfIrBlaster.Json
import RfIrBlaster.StateMachine

namespace RfIrBlaster.WebLearn

/-- What a fetch comes to: it rejects, it is a 401 and the page leaves for the login, or
the body parses. -/
inductive Response where
  | failed
  | unauthorized
  | json (doc : Json)

/-- What one `startLearn` call waits for, or how it ended.  A stopped call's promise
never settles. -/
inductive Call where
  | starting
  | polling
  | waiting
  | stopped
  | rejected
  | resolved (answer : Json)

/-- A request or a timer of the call is still out. -/
def Call.Pending : Call → Prop
  | .starting | .polling | .waiting => True
  | .stopped | .rejected | .resolved _ => False

instance (call : Call) : Decidable call.Pending := by
  cases call <;> unfold Call.Pending <;> infer_instance

/-- The gate all calls share, and the calls in the order they were made. -/
structure Session where
  learnPolling : Bool := false
  calls : List Call := []

inductive Event where
  | start
  | cancel
  | response (call : Nat) (r : Response)
  | timer (call : Nat)

/-- `doc.ok` where it is `true` or `false`. -/
def okOf (doc : Json) : Option Bool :=
  match doc.get (ascii "ok") with
  | .bool b => some b
  | _ => none

namespace Session

def setCall (s : Session) (k : Nat) (call : Call) : Session :=
  { s with calls := s.calls.set k call }

/-- The head of `poll`: the gate decides whether another request goes out. -/
def poll (s : Session) (k : Nat) : Session :=
  s.setCall k (if s.learnPolling then .polling else .stopped)

def startResponse (s : Session) (k : Nat) : Response → Session
  | .failed => s.setCall k .rejected
  | .unauthorized => s.setCall k .stopped
  | .json res =>
      if okOf res = some false then
        { s with learnPolling := false }.setCall k (.resolved res)
      else s.poll k

def pollResponse (s : Session) (k : Nat) : Response → Session
  | .failed => s.setCall k (if s.learnPolling then .waiting else .stopped)
  | .unauthorized => s.setCall k .stopped
  | .json p =>
      if s.learnPolling then
        if (okOf p).isSome then
          { s with learnPolling := false }.setCall k (.resolved p)
        else s.setCall k .waiting
      else s.setCall k .stopped

/-- A response or a timer the call does not wait for does not fire. -/
def step (s : Session) : Event → Session
  | .start => { learnPolling := true, calls := s.calls ++ [.starting] }
  | .cancel => { s with learnPolling := false }
  | .response k r =>
      match s.calls[k]? with
      | some .starting => s.startResponse k r
      | some .polling => s.pollResponse k r
      | _ => s
  | .timer k =>
      match s.calls[k]? with
      | some .waiting => s.poll k
      | _ => s

/-- The page as it loads. -/
def machine : StateMachine Session Event where
  init := {}
  step := step

/-- The loop of call `k` takes the terminal answer `p`. -/
def Consumes (s : Session) (e : Event) (k : Nat) (p : Json) : Prop :=
  e = .response k (.json p) ∧ s.calls[k]? = some .polling ∧ s.learnPolling = true ∧
    (okOf p).isSome = true

end Session

/-- The call whose request or timer the event is. -/
def Event.call : Event → Option Nat
  | .start | .cancel => none
  | .response k _ | .timer k => some k

/-- The latest call of the history is not cancelled. -/
def Uncancelled (events : List Event) : Prop :=
  ∃ before after, events = before ++ .start :: after ∧ .start ∉ after ∧ .cancel ∉ after

open Session

/-- While the latest call is not cancelled, a terminal answer is the latest call's to
take and resolves it, and no other call closes the gate on it. -/
def Resolves (events : List Event) : Prop :=
  ∀ pre e post, events = pre ++ e :: post → Uncancelled pre →
    (∀ k p, (machine.run pre).Consumes e k p →
      k + 1 = (machine.run pre).calls.length ∧
        (machine.run (pre ++ [e])).calls[k]? = some (.resolved p)) ∧
    (∀ k, e.call = some k → k + 1 ≠ (machine.run pre).calls.length →
      (machine.run (pre ++ [e])).learnPolling = (machine.run pre).learnPolling)

/-- No request and no timer of any call is out. -/
def Quiet (s : Session) : Prop :=
  ∀ call ∈ s.calls, ¬call.Pending

instance (s : Session) : Decidable (Quiet s) :=
  inferInstanceAs (Decidable (∀ call ∈ s.calls, ¬call.Pending))

/-- A new session starts only when nothing of the earlier ones is out. -/
def QuietStart (s : Session) : Event → Prop
  | .start => Quiet s
  | _ => True

/-- Only the latest call can have anything out. -/
def LatestOnly (s : Session) : Prop :=
  ∀ k call, s.calls[k]? = some call → call.Pending → k + 1 = s.calls.length

@[simp]
theorem setCall_calls (s : Session) (k : Nat) (call : Call) :
    (s.setCall k call).calls = s.calls.set k call :=
  rfl

@[simp]
theorem setCall_learnPolling (s : Session) (k : Nat) (call : Call) :
    (s.setCall k call).learnPolling = s.learnPolling :=
  rfl

theorem startResponse_calls (s : Session) (k : Nat) (r : Response) :
    ∃ call, (s.startResponse k r).calls = s.calls.set k call := by
  cases r with
  | failed => exact ⟨_, rfl⟩
  | unauthorized => exact ⟨_, rfl⟩
  | json res =>
      simp only [startResponse]
      split_ifs
      · exact ⟨_, rfl⟩
      · exact ⟨_, rfl⟩

theorem pollResponse_calls (s : Session) (k : Nat) (r : Response) :
    ∃ call, (s.pollResponse k r).calls = s.calls.set k call := by
  cases r with
  | failed => exact ⟨_, rfl⟩
  | unauthorized => exact ⟨_, rfl⟩
  | json p =>
      simp only [pollResponse]
      split_ifs
      · exact ⟨_, rfl⟩
      · exact ⟨_, rfl⟩
      · exact ⟨_, rfl⟩

/-- What an event of a call does: nothing at all, unless something of the call is out,
and then it touches that call alone. -/
theorem step_call {s : Session} {e : Event} {k : Nat} (he : e.call = some k) :
    s.step e = s ∨
      ∃ call call', s.calls[k]? = some call ∧ call.Pending ∧
        (s.step e).calls = s.calls.set k call' := by
  cases e with
  | start => cases he
  | cancel => cases he
  | response _ r =>
      cases he
      by_cases hstarting : s.calls[k]? = some .starting
      · obtain ⟨call', hset⟩ := startResponse_calls s k r
        exact Or.inr ⟨_, call', hstarting, trivial, by simp only [step, hstarting, hset]⟩
      · by_cases hpolling : s.calls[k]? = some .polling
        · obtain ⟨call', hset⟩ := pollResponse_calls s k r
          exact Or.inr ⟨_, call', hpolling, trivial, by simp only [step, hpolling, hset]⟩
        · left
          simp only [step]
  | timer _ =>
      cases he
      by_cases hwaiting : s.calls[k]? = some .waiting
      · exact Or.inr ⟨_, _, hwaiting, trivial, by simp only [step, hwaiting]; rfl⟩
      · left
        simp only [step]

/-- The loop that takes a terminal answer closes the gate and resolves its own call. -/
theorem step_consumes {s : Session} {e : Event} {k : Nat} {p : Json} (h : s.Consumes e k p) :
    s.step e = { learnPolling := false, calls := s.calls.set k (.resolved p) } := by
  obtain ⟨rfl, hcall, hgate, hterminal⟩ := h
  simp only [step, hcall, pollResponse, if_pos hgate, if_pos hterminal]
  rfl

/-- A session that starts quietly is the only one with anything out. -/
theorem LatestOnly.step {s : Session} (h : LatestOnly s) {e : Event} (hquiet : QuietStart s e) :
    LatestOnly (s.step e) := by
  cases hk : e.call with
  | none =>
      cases e with
      | start =>
          intro k call hcall hpending
          change (s.calls ++ [Call.starting])[k]? = some call at hcall
          change k + 1 = (s.calls ++ [Call.starting]).length
          by_cases hlt : k < s.calls.length
          · rw [List.getElem?_append_left hlt] at hcall
            exact absurd hpending (hquiet call (List.mem_of_getElem? hcall))
          · obtain ⟨hbound, -⟩ := List.getElem?_eq_some_iff.mp hcall
            simp only [List.length_append, List.length_singleton] at hbound ⊢
            omega
      | cancel => exact h
      | response k r => cases hk
      | timer k => cases hk
  | some k =>
      rcases step_call (s := s) hk with hsame | ⟨call, call', hcall, hpending, hcalls⟩
      · rw [hsame]
        exact h
      · intro j other hother hout
        rw [hcalls, List.length_set] at *
        by_cases hj : k = j
        · rw [← hj]
          exact h k call hcall hpending
        · rw [List.getElem?_set_ne hj] at hother
          exact h j other hother hout

theorem run_latestOnly {events : List Event} (hquiet : machine.Guarded QuietStart events) :
    LatestOnly (machine.run events) := by
  apply machine.guarded_run_induction (P := fun _ s => LatestOnly s)
  · intro k call hcall
    cases hcall
  · exact fun _ _ hstart h => h.step hstart
  · exact hquiet

/-- Where only the latest call has anything out, the session resolves. -/
theorem resolves_of_quiet {events : List Event} (hquiet : machine.Guarded QuietStart events) :
    Resolves events := by
  rintro pre e post rfl -
  have hlatest := run_latestOnly hquiet.of_append
  rw [machine.run_concat]
  refine ⟨?_, ?_⟩
  · intro k p hconsumes
    have hstep : machine.step (machine.run pre) e = _ := step_consumes hconsumes
    obtain ⟨-, hcall, -, -⟩ := hconsumes
    obtain ⟨hlt, -⟩ := List.getElem?_eq_some_iff.mp hcall
    refine ⟨hlatest k _ hcall trivial, ?_⟩
    rw [hstep]
    exact List.getElem?_set_self hlt
  · intro k hk hearlier
    rcases step_call (s := machine.run pre) hk with hsame | ⟨call, -, hcall, hpending, -⟩
    · exact congrArg Session.learnPolling hsame
    · exact absurd (hlatest k call hcall hpending) hearlier

/-- Something an earlier call has out becomes a poll request of its own inside the new
session. -/
theorem pending_polls {pre : List Event} {k : Nat} {call : Call}
    (hcall : (machine.run pre).calls[k]? = some call) (hpending : call.Pending) :
    ∃ mid : List Event, .start ∉ mid ∧ .cancel ∉ mid ∧
      let s := machine.run (pre ++ Event.start :: mid)
      s.calls[k]? = some .polling ∧ s.learnPolling = true ∧
        s.calls.length = (machine.run pre).calls.length + 1 := by
  let s₁ : Session := { learnPolling := true, calls := (machine.run pre).calls ++ [.starting] }
  obtain ⟨hlt, -⟩ := List.getElem?_eq_some_iff.mp hcall
  have hcall₁ : s₁.calls[k]? = some call := (List.getElem?_append_left hlt).trans hcall
  have hlt₁ : k < s₁.calls.length := (List.getElem?_eq_some_iff.mp hcall₁).1
  have hlen₁ : s₁.calls.length = (machine.run pre).calls.length + 1 := List.length_append
  have hrun : machine.run (pre ++ [Event.start]) = s₁ := machine.run_concat pre .start
  have hrun₁ : ∀ e, machine.run (pre ++ [Event.start, e]) = s₁.step e := by
    intro e
    rw [← hrun, show pre ++ [Event.start, e] = (pre ++ [Event.start]) ++ [e] by simp]
    exact machine.run_concat _ e
  have hpolls : s₁.poll k = { learnPolling := true, calls := s₁.calls.set k .polling } := rfl
  cases call with
  | starting =>
      -- the start request was slow: its answer starts the loop
      have hstep : s₁.step (.response k (.json .null)) = s₁.poll k := by
        simp only [step, hcall₁]
        rfl
      refine ⟨[.response k (.json .null)], by simp, by simp, ?_⟩
      simp only
      rw [hrun₁, hstep, hpolls]
      exact ⟨List.getElem?_set_self hlt₁, rfl, List.length_set.trans hlen₁⟩
  | polling =>
      refine ⟨[], by simp, by simp, ?_⟩
      simp only
      rw [hrun]
      exact ⟨hcall₁, rfl, hlen₁⟩
  | waiting =>
      -- the timer wakes the old loop up with the new session's gate
      have hstep : s₁.step (.timer k) = s₁.poll k := by
        simp only [step, hcall₁]
      refine ⟨[.timer k], by simp, by simp, ?_⟩
      simp only
      rw [hrun₁, hstep, hpolls]
      exact ⟨List.getElem?_set_self hlt₁, rfl, List.length_set.trans hlen₁⟩
  | stopped => exact absurd hpending not_false
  | rejected => exact absurd hpending not_false
  | resolved answer => exact absurd hpending not_false

/-- A terminal answer, as `handlePollLearn` sends it. -/
def terminal : Json :=
  .obj [(ascii "ok", .bool true)]

theorem not_resolves_of_pending {pre : List Event} (hpending : ¬Quiet (machine.run pre)) :
    ∃ post, ¬Resolves (pre ++ .start :: post) := by
  obtain ⟨call, hmem, hout⟩ : ∃ call ∈ (machine.run pre).calls, call.Pending := by
    simpa [Quiet] using hpending
  obtain ⟨k, hcall⟩ := List.mem_iff_getElem?.mp hmem
  obtain ⟨mid, hstart, hcancel, hpolling, hgate, hlen⟩ := pending_polls hcall hout
  refine ⟨mid ++ [Event.response k (.json terminal)], fun hresolves => ?_⟩
  obtain ⟨htakes, -⟩ := hresolves (pre ++ .start :: mid) (.response k (.json terminal)) []
    (by simp) ⟨pre, mid, rfl, hstart, hcancel⟩
  obtain ⟨hlatest, -⟩ := htakes k terminal ⟨rfl, hpolling, hgate, by decide⟩
  obtain ⟨hlt, -⟩ := List.getElem?_eq_some_iff.mp hcall
  omega

/-- The session resolves in every run where each one starts quietly, and where the next
one would start otherwise the rest of the run can break it. -/
theorem learn_session_resolves (events : List Event) :
    (machine.Guarded QuietStart events → Resolves events) ∧
      (¬QuietStart (machine.run events) .start → ∃ post, ¬Resolves (events ++ .start :: post)) :=
  ⟨resolves_of_quiet, not_resolves_of_pending⟩

/-- Captured, then opened again; and opened twice over. -/
theorem learn_session_resolves_captured :
    Resolves [.start, .response 0 (.json (.obj [])), .response 0 (.json terminal), .start] ∧
      ∃ post, ¬Resolves ([.start] ++ .start :: post) := by
  have hfirst : machine.Guarded QuietStart [.start] :=
    (StateMachine.Guarded.nil machine QuietStart).concat (show Quiet _ by decide)
  have hlistening : machine.Guarded QuietStart [.start, .response 0 (.json (.obj []))] :=
    hfirst.concat trivial
  have hcaptured : machine.Guarded QuietStart
      [.start, .response 0 (.json (.obj [])), .response 0 (.json terminal)] :=
    hlistening.concat trivial
  have hagain : machine.Guarded QuietStart
      [.start, .response 0 (.json (.obj [])), .response 0 (.json terminal), .start] :=
    hcaptured.concat (show Quiet _ by decide)
  exact ⟨(learn_session_resolves _).1 hagain,
    (learn_session_resolves [.start]).2 (show ¬Quiet _ by decide)⟩

/-- Closed and opened again with a poll request out: the first session's loop takes the
answer, and the second session's gate is closed. -/
theorem learn_reopened :
    ¬∀ events, Resolves events := by
  intro hclaim
  let pre : List Event := [.start, .response 0 (.json (.obj [])), .cancel, .start]
  obtain ⟨htakes, -⟩ := hclaim (pre ++ [Event.response 0 (.json terminal)]) pre
    (.response 0 (.json terminal)) [] rfl
    ⟨[.start, .response 0 (.json (.obj [])), .cancel], [], rfl, by simp, by simp⟩
  obtain ⟨hlatest, -⟩ := htakes 0 terminal ⟨rfl, by rfl, by rfl, by decide⟩
  exact absurd hlatest (by decide)

end RfIrBlaster.WebLearn
