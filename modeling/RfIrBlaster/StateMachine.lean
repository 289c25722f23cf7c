/-
Deterministic machines driven by a list of events: runs, and the two rules by
which every whole-run result of the development is obtained from a step lemma.
-/
import Mathlib.Data.List.Induction
import Mathlib.Data.Nat.Init

universe u v w z

/-- A start state and a total step.  A step that is not enabled is modelled by
a step that leaves the state as it is. -/
structure StateMachine (σ : Type u) (ε : Type v) where
  init : σ
  step : σ → ε → σ

namespace StateMachine

variable {σ : Type u} {ε : Type v}

/-- The state after a list of events, oldest event first. -/
def run (M : StateMachine σ ε) (events : List ε) : σ :=
  events.foldl M.step M.init

@[simp]
theorem run_nil (M : StateMachine σ ε) : M.run [] = M.init :=
  rfl

@[simp]
theorem run_concat (M : StateMachine σ ε) (events : List ε) (event : ε) :
    M.run (events ++ [event]) = M.step (M.run events) event := by
  simp [run]

/-- The history rule: a property of the event history and the state it leads
to holds of every run once the start has it and one more event preserves it. -/
theorem run_induction (M : StateMachine σ ε) {P : List ε → σ → Prop}
    (hinit : P [] M.init)
    (hstep : ∀ events event, P events (M.run events) →
      P (events ++ [event]) (M.step (M.run events) event))
    (events : List ε) : P events (M.run events) := by
  induction events using List.reverseRecOn with
  | nil => exact hinit
  | append_singleton pre event ih =>
      rw [run_concat]
      exact hstep pre event ih

/-- Every event of the run is taken in a state where `guard` allows it. -/
def Guarded (M : StateMachine σ ε) (guard : σ → ε → Prop)
    (events : List ε) : Prop :=
  ∀ pre event post, events = pre ++ event :: post → guard (M.run pre) event

theorem Guarded.of_append {M : StateMachine σ ε} {guard : σ → ε → Prop}
    {events post : List ε} (h : M.Guarded guard (events ++ post)) : M.Guarded guard events := by
  intro pre e rest heq
  exact h pre e (rest ++ post) (by simp [heq])

theorem Guarded.of_concat {M : StateMachine σ ε} {guard : σ → ε → Prop}
    {events : List ε} {event : ε}
    (h : M.Guarded guard (events ++ [event])) : M.Guarded guard events :=
  h.of_append

theorem Guarded.last {M : StateMachine σ ε} {guard : σ → ε → Prop}
    {events : List ε} {event : ε}
    (h : M.Guarded guard (events ++ [event])) : guard (M.run events) event :=
  h events event [] rfl

theorem Guarded.nil (M : StateMachine σ ε) (guard : σ → ε → Prop) : M.Guarded guard [] := by
  intro pre event post heq
  simp at heq

/-- An event of a run that is one event longer is the new one or an earlier one. -/
theorem concat_eq_append_cons {events pre post : List ε} {event e : ε}
    (h : events ++ [event] = pre ++ e :: post) :
    (events = pre ∧ event = e) ∨ ∃ front, events = pre ++ e :: front := by
  rcases List.eq_nil_or_concat post with rfl | ⟨front, last, rfl⟩
  · obtain ⟨hpre, hsingle⟩ := List.append_inj' h rfl
    exact Or.inl ⟨hpre, (List.cons.inj hsingle).1⟩
  · have hsplit : events ++ [event] = (pre ++ e :: front) ++ [last] := by
      rw [h, List.concat_eq_append, List.append_assoc, List.cons_append]
    exact Or.inr ⟨front, (List.append_inj' hsplit rfl).1⟩

theorem Guarded.concat {M : StateMachine σ ε} {guard : σ → ε → Prop} {events : List ε}
    {event : ε} (h : M.Guarded guard events) (hlast : guard (M.run events) event) :
    M.Guarded guard (events ++ [event]) := by
  intro pre e post heq
  rcases concat_eq_append_cons heq with ⟨rfl, rfl⟩ | ⟨front, hfront⟩
  · exact hlast
  · exact h pre e front hfront

/-- The guarded history rule: the step need only preserve the property where
the guard allows the event. -/
theorem guarded_run_induction (M : StateMachine σ ε)
    {guard : σ → ε → Prop} {P : List ε → σ → Prop}
    (hinit : P [] M.init)
    (hstep : ∀ events event, guard (M.run events) event →
      P events (M.run events) →
      P (events ++ [event]) (M.step (M.run events) event))
    (events : List ε) (hguard : M.Guarded guard events) :
    P events (M.run events) := by
  induction events using List.reverseRecOn with
  | nil => exact hinit
  | append_singleton pre event ih =>
      rw [run_concat]
      exact hstep pre event hguard.last (ih hguard.of_concat)

/-- The prefix rule: a reflexive and transitive relation that every step of a run keeps
relates each earlier state of the run to the last. -/
theorem run_prefix_rel (M : StateMachine σ ε) {R : σ → σ → Prop} (hrefl : ∀ s, R s s)
    (htrans : ∀ a b c, R a b → R b c → R a c) {pre post : List ε}
    (hstep : ∀ mid event rest, post = mid ++ event :: rest →
      R (M.run (pre ++ mid)) (M.step (M.run (pre ++ mid)) event)) :
    R (M.run pre) (M.run (pre ++ post)) := by
  induction post using List.reverseRecOn with
  | nil =>
      rw [List.append_nil]
      exact hrefl _
  | append_singleton mid event ih =>
      have hearlier : R (M.run pre) (M.run (pre ++ mid)) := by
        apply ih
        intro mid' event' rest heq
        exact hstep mid' event' (rest ++ [event]) (by simp [heq])
      rw [← List.append_assoc, run_concat]
      exact htrans _ _ _ hearlier (hstep mid event [] rfl)

/-- The component rule: where each step of a run changes what `view` shows by
the events under `k` alone, and as `C` does, the run shows the run of `C` on
these events. -/
theorem run_component {τ : Type w} {κ : Type z} [DecidableEq κ] (M : StateMachine σ ε)
    (C : StateMachine τ ε) (key : ε → κ) (k : κ) (view : σ → τ)
    (hinit : view M.init = C.init) (events : List ε)
    (hstep : ∀ pre event post, events = pre ++ event :: post →
      view (M.step (M.run pre) event) =
        if key event = k then C.step (view (M.run pre)) event else view (M.run pre)) :
    view (M.run events) = C.run (events.filter fun event => key event = k) := by
  induction events using List.reverseRecOn with
  | nil => exact hinit
  | append_singleton pre event ih =>
      have hview := hstep pre event [] rfl
      have hpre := ih fun pre' event' post heq =>
        hstep pre' event' (post ++ [event]) (by simp [heq])
      rw [hpre] at hview
      rw [run_concat, hview, List.filter_append]
      by_cases hkey : key event = k
      · simp [hkey]
      · simp [hkey]

/-- The state in front of event `i` of an endless run. -/
def stateAt (M : StateMachine σ ε) (events : Nat → ε) (i : Nat) : σ :=
  M.run ((List.range i).map events)

@[simp]
theorem stateAt_zero (M : StateMachine σ ε) (events : Nat → ε) : M.stateAt events 0 = M.init :=
  rfl

theorem stateAt_succ (M : StateMachine σ ε) (events : Nat → ε) (i : Nat) :
    M.stateAt events (i + 1) = M.step (M.stateAt events i) (events i) := by
  simp [stateAt, List.range_succ]

/-- The guarded rule on an endless run. -/
theorem stateAt_induction (M : StateMachine σ ε) {guard : σ → ε → Prop} {P : σ → Prop}
    (hinit : P M.init) (hstep : ∀ s event, guard s event → P s → P (M.step s event))
    {events : Nat → ε} (hguard : ∀ i, guard (M.stateAt events i) (events i)) (i : Nat) :
    P (M.stateAt events i) := by
  induction i with
  | zero => exact hinit
  | succ i ih =>
      rw [stateAt_succ]
      exact hstep _ _ (hguard i) ih

/-- What every step keeps from some point on holds from there on. -/
theorem stateAt_persists (M : StateMachine σ ε) {events : Nat → ε} {P : σ → Prop} {i : Nat}
    (hi : P (M.stateAt events i))
    (hstep : ∀ k, i ≤ k → P (M.stateAt events k) → P (M.step (M.stateAt events k) (events k)))
    {k : Nat} (hk : i ≤ k) : P (M.stateAt events k) := by
  induction k, hk using Nat.le_induction with
  | base => exact hi
  | succ k hk ih =>
      rw [stateAt_succ]
      exact hstep k hk ih

/-- The until rule: where each step keeps `P` or reaches `Q`, and the step at `b` does not
keep `P` without reaching `Q`, some step from `i` on reaches `Q`. -/
theorem stateAt_until (M : StateMachine σ ε) {events : Nat → ε} {P Q : σ → Prop} {i b : Nat}
    (hib : i ≤ b) (hi : P (M.stateAt events i))
    (hstep : ∀ k, i ≤ k → P (M.stateAt events k) →
      P (M.step (M.stateAt events k) (events k)) ∨ Q (M.step (M.stateAt events k) (events k)))
    (hb : P (M.stateAt events b) → Q (M.step (M.stateAt events b) (events b))) :
    ∃ k, i < k ∧ Q (M.stateAt events k) := by
  by_contra hnone
  have hnever : ∀ k, i ≤ k → ¬Q (M.step (M.stateAt events k) (events k)) := by
    intro k hk hq
    apply hnone
    refine ⟨k + 1, Nat.lt_succ_of_le hk, ?_⟩
    rw [stateAt_succ]
    exact hq
  have hkept : P (M.stateAt events b) :=
    M.stateAt_persists hi (fun k hk hp => (hstep k hk hp).resolve_right (hnever k hk)) hib
  exact hnever b hib (hb hkept)

end StateMachine
