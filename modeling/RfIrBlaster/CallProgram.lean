/-
Programs that call a service of which nothing is known but that it answers each call by yes or
no, and the orders of use such programs keep, whatever the answers are.
-/
import RfIrBlaster.StateMachine

universe u v w z

/-- A program that is done, or makes a call and goes on from the answer. -/
inductive CallProgram (χ : Type u) (α : Type v) where
  | done (result : α)
  | call (c : χ) (next : Bool → CallProgram χ α)

/-- What is called: it answers from a state of its own. -/
structure Service (χ : Type u) (δ : Type v) where
  call : χ → δ → Bool × δ

/-- The calls made, oldest first, each with its answer. -/
abbrev CallLog (χ : Type u) := List (χ × Bool)

namespace CallProgram

variable {χ : Type u} {α : Type v} {β : Type w} {δ : Type z}

/-- Go on with the result. -/
def andThen : CallProgram χ α → (α → CallProgram χ β) → CallProgram χ β
  | .done result, f => f result
  | .call c next, f => .call c fun ok => (next ok).andThen f

/-- The calls a run makes, the state it leaves the service in, and its result. -/
def run (S : Service χ δ) : CallProgram χ α → δ → CallLog χ × δ × α
  | .done result, service => ([], service, result)
  | .call c next, service =>
      let answer := S.call c service
      let rest := (next answer.1).run S answer.2
      ((c, answer.1) :: rest.1, rest.2)

end CallProgram

/-- An order of use: which calls may come next, and what a call and its answer change of that. -/
structure OrderOfUse (χ : Type u) (σ : Type v) where
  allows : σ → χ → Prop
  after : σ → χ → Bool → σ

namespace OrderOfUse

variable {χ : Type u} {α : Type v} {β : Type w} {σ : Type z} (O : OrderOfUse χ σ)

/-- Each call of the log was allowed where it was made. -/
def Kept : σ → CallLog χ → Prop
  | _, [] => True
  | s, (c, ok) :: rest => O.allows s c ∧ Kept (O.after s c ok) rest

/-- Where the log leads to. -/
def reached : σ → CallLog χ → σ
  | s, [] => s
  | s, (c, ok) :: rest => reached (O.after s c ok) rest

theorem reached_append (s : σ) (xs ys : CallLog χ) :
    O.reached s (xs ++ ys) = O.reached (O.reached s xs) ys := by
  induction xs generalizing s with
  | nil => rfl
  | cons x xs ih => exact ih (O.after s x.1 x.2)

/-- From `s` on the program keeps the order, and ends with `post` of its result and the place
reached, whatever each of its calls answers. -/
def Ensures : CallProgram χ α → (α → σ → Prop) → σ → Prop
  | .done result, post, s => post result s
  | .call c next, post, s => O.allows s c ∧ ∀ ok, Ensures (next ok) post (O.after s c ok)

variable {O}

theorem Kept.append {s : σ} {xs ys : CallLog χ} (hxs : O.Kept s xs)
    (hys : O.Kept (O.reached s xs) ys) : O.Kept s (xs ++ ys) := by
  induction xs generalizing s with
  | nil => exact hys
  | cons x xs ih => exact ⟨hxs.1, ih hxs.2 hys⟩

theorem Ensures.done {result : α} {post : α → σ → Prop} {s : σ} (h : post result s) :
    O.Ensures (.done result) post s :=
  h

/-- The rule of a call. -/
theorem Ensures.call {c : χ} {next : Bool → CallProgram χ α} {post : α → σ → Prop} {s : σ}
    (hallows : O.allows s c) (hnext : ∀ ok, O.Ensures (next ok) post (O.after s c ok)) :
    O.Ensures (.call c next) post s :=
  ⟨hallows, hnext⟩

/-- The rule of consequence. -/
theorem Ensures.mono {p : CallProgram χ α} {post post' : α → σ → Prop} {s : σ}
    (h : O.Ensures p post s) (hpost : ∀ result s', post result s' → post' result s') :
    O.Ensures p post' s := by
  induction p generalizing s with
  | done result => exact hpost result s h
  | call c next ih => exact ⟨h.1, fun ok => ih ok (h.2 ok)⟩

/-- The rule of composition. -/
theorem Ensures.andThen {p : CallProgram χ α} {f : α → CallProgram χ β}
    {mid : α → σ → Prop} {post : β → σ → Prop} {s : σ} (hp : O.Ensures p mid s)
    (hf : ∀ result s', mid result s' → O.Ensures (f result) post s') :
    O.Ensures (p.andThen f) post s := by
  induction p generalizing s with
  | done result => exact hf result s hp
  | call c next ih => exact ⟨hp.1, fun ok => ih ok (hp.2 ok)⟩

/-- With any service at all, the calls of a run keep the order and lead to `post`. -/
theorem Ensures.run {δ : Type w} {p : CallProgram χ α} {post : α → σ → Prop} {s : σ}
    (h : O.Ensures p post s) (S : Service χ δ) (service : δ) :
    O.Kept s (p.run S service).1 ∧
      post (p.run S service).2.2 (O.reached s (p.run S service).1) := by
  induction p generalizing s service with
  | done result => exact ⟨trivial, h⟩
  | call c next ih =>
      obtain ⟨hkept, hpost⟩ := ih (S.call c service).1 (h.2 _) (S.call c service).2
      exact ⟨⟨h.1, hkept⟩, hpost⟩

end OrderOfUse

/-- A program's own data between its calls, the service, and the calls so far. -/
structure CallSession (χ : Type u) (δ : Type v) (β : Type w) where
  data : β
  service : δ
  log : CallLog χ

namespace CallSession

variable {χ : Type u} {δ : Type v} {β : Type w} {σ : Type z} {ε : Type z}

/-- A program takes the session from one datum to the next. -/
def advance (S : Service χ δ) (s : CallSession χ δ β) (p : CallProgram χ β) : CallSession χ δ β :=
  let out := p.run S s.service
  { data := out.2.2, service := out.2.1, log := s.log ++ out.1 }

/-- One program at the start, then one for each event. -/
def machine (S : Service χ δ) (service : δ) (start : CallProgram χ β)
    (program : β → ε → CallProgram χ β) : StateMachine (CallSession χ δ β) ε where
  init :=
    let out := start.run S service
    { data := out.2.2, service := out.2.1, log := out.1 }
  step s e := s.advance S (program s.data e)

/-- The whole log keeps the order, and ends where `inv` wants the data. -/
structure Orderly (O : OrderOfUse χ σ) (first : σ) (inv : β → σ → Prop)
    (s : CallSession χ δ β) : Prop where
  kept : O.Kept first s.log
  inv : inv s.data (O.reached first s.log)

/-- Where the start sets up an invariant and the program of each event keeps it, every call of
every run comes in its order, whatever the service answers. -/
theorem run_orderly {O : OrderOfUse χ σ} {first : σ} {inv : β → σ → Prop}
    {start : CallProgram χ β} {program : β → ε → CallProgram χ β}
    (hstart : O.Ensures start inv first)
    (hprogram : ∀ b e s, inv b s → O.Ensures (program b e) inv s)
    (S : Service χ δ) (service : δ) (events : List ε) :
    Orderly O first inv ((machine S service start program).run events) := by
  refine (machine S service start program).run_induction
    (P := fun _ s => Orderly O first inv s) ?_ ?_ events
  · obtain ⟨hkept, hinv⟩ := hstart.run S service
    exact ⟨hkept, hinv⟩
  · intro events e ih
    obtain ⟨hkept, hinv⟩ := (hprogram _ e _ ih.inv).run S
      ((machine S service start program).run events).service
    refine ⟨ih.kept.append hkept, ?_⟩
    change inv _ (O.reached first (_ ++ _))
    rw [O.reached_append]
    exact hinv

end CallSession
