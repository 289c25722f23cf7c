/-
The handoff from the httpd task to the loop task: one pending slot, written by the
request handlers and drained by `pollConfigApply`.
-/
import RfIrBlaster.ConfigApi

namespace RfIrBlaster

inductive Pending where
  | none
  | apply
  | restart
  | factory
deriving DecidableEq, Repr

def Pending.strength : Pending → Nat
  | .none => 0
  | .apply => 1
  | .restart => 2
  | .factory => 3

/-- Doing `a` does all that `b` asked for: a factory reset covers everything, a restart
covers a restart and an apply, an apply only an apply. -/
def Pending.covers (a b : Pending) : Bool :=
  b.strength ≤ a.strength

theorem Pending.covers_trans {a b c : Pending} (hab : a.covers b = true)
    (hbc : b.covers c = true) : a.covers c = true := by
  unfold Pending.covers at hab hbc ⊢
  simp only [decide_eq_true_eq] at hab hbc ⊢
  exact Nat.le_trans hbc hab

/-- The globals of both tasks.  `answered` is the action of the response just sent, which
the httpd task enqueues next; `executing` the restart the loop task is about to make.
`fresh` and `lost` only record what was enqueued since the last take: in this boot, and
before it. -/
structure Handoff (σ : Type) where
  api : ApiState σ
  pending : Pending := .none
  pendingCfg : Config := {}
  answered : Option Pending := none
  executing : Option Pending := none
  fresh : List Pending := []
  lost : List Pending := []

inductive ApiRequest where
  | post (req : HttpRequest)
  | factoryReset (req : HttpRequest)
  | regenOtaPassword (req : HttpRequest) (stored : Bool)
deriving DecidableEq, Repr

inductive HandoffEvent where
  | answer (req : ApiRequest)
  | enqueue
  | poll
  | reboot
deriving DecidableEq, Repr

/-- What `handlePostConfig` enqueues after its response. -/
def PostResult.action : PostResult → Option Pending
  | .written _ restart _ => some (if restart then .restart else .apply)
  | _ => none

def handleFactoryReset (req : HttpRequest) : Option Pending :=
  if req.session && req.csrf then some .factory else none

/-- `stored` tells whether the new password could be written. -/
def handleRegenOtaPassword (req : HttpRequest) (stored : Bool) : Option Pending :=
  if req.session && req.csrf && stored then some .restart else none

namespace Handoff

variable {σ : Type}

def enqueue (action : Pending) (s : Handoff σ) : Handoff σ :=
  { s with
    pending := action
    pendingCfg := if action = .apply then s.api.config else s.pendingCfg
    fresh := s.fresh ++ [action] }

/-- The action taken from the slot with its configuration, and the slot emptied. -/
def pollConfigApply (s : Handoff σ) : (Pending × Config) × Handoff σ :=
  ((s.pending, s.pendingCfg),
    { s with
      pending := .none
      pendingCfg := if s.pending = .apply then {} else s.pendingCfg
      executing := if s.pending = .restart ∨ s.pending = .factory then some s.pending else none
      fresh := []
      lost := [] })

/-- The httpd task runs one request at a time, up to its response. -/
def answer (A : ArduinoJson) (S : BlobStore σ) (req : ApiRequest) (s : Handoff σ) : Handoff σ :=
  match s.answered with
  | some _ => s
  | none =>
      match req with
      | .post req =>
          let res := handlePostConfig A S req s.api
          { s with api := res.2, answered := res.1.action }
      | .factoryReset req => { s with answered := handleFactoryReset req }
      | .regenOtaPassword req stored =>
          { s with answered := handleRegenOtaPassword req stored }

/-- `blank` is the erased store. -/
def step (A : ArduinoJson) (S : BlobStore σ) (blank : σ) (s : Handoff σ) :
    HandoffEvent → Handoff σ
  | .answer req => s.answer A S req
  | .enqueue =>
      match s.answered with
      | none => s
      | some action => { s.enqueue action with answered := none }
  | .poll =>
      match s.executing with
      | some _ => s
      | none => s.pollConfigApply.2
  | .reboot =>
      match s.executing with
      | none => s
      | some action =>
          { api := boot A S (if action = .factory then blank else s.api.store)
            lost := s.lost ++ s.fresh }

def machine (A : ArduinoJson) (S : BlobStore σ) (blank store : σ) :
    StateMachine (Handoff σ) HandoffEvent where
  init := { api := boot A S store }
  step := step A S blank

/-- Everything enqueued since the slot was last taken. -/
def sinceTake (s : Handoff σ) : List Pending :=
  s.lost ++ s.fresh

/-- The action of the last request enqueued since the last take or restart. -/
def lastEnqueued (s : Handoff σ) : Pending :=
  s.fresh.getLast?.getD .none

/-- The slot holds the last action, an apply with the configuration it was enqueued under. -/
structure SlotCurrent (s : Handoff σ) : Prop where
  slot : s.pending = s.lastEnqueued
  config : s.answered = none → s.pending = .apply → s.pendingCfg = s.api.config

section Slot

variable {A : ArduinoJson} {S : BlobStore σ}

theorem SlotCurrent.answer {s : Handoff σ} (h : s.SlotCurrent) (req : ApiRequest) :
    (s.answer A S req).SlotCurrent := by
  obtain ⟨hslot, hconfig⟩ := h
  unfold Handoff.answer
  cases hanswered : s.answered with
  | some action => exact ⟨hslot, hconfig⟩
  | none =>
      have hpendingCfg := hconfig hanswered
      cases req with
      | factoryReset req => exact ⟨hslot, fun _ => hpendingCfg⟩
      | regenOtaPassword req stored => exact ⟨hslot, fun _ => hpendingCfg⟩
      | post req =>
          refine ⟨hslot, ?_⟩
          -- A POST that enqueues nothing has left the configuration alone.
          intro hnone hpending
          change s.pendingCfg = (handlePostConfig A S req s.api).2.config
          rw [hpendingCfg hpending]
          rcases handlePostConfig_cases A S req s.api with hwritten | ⟨-, hsame | hstore⟩
          · obtain ⟨incoming, -, -, -, -, -, -, -, heq⟩ := hwritten
            change (handlePostConfig A S req s.api).1.action = none at hnone
            rw [heq] at hnone
            cases hnone
          · rw [hsame]
          · obtain ⟨incoming, -, heq⟩ := hstore
            rw [heq]

theorem SlotCurrent.enqueue (s : Handoff σ) (action : Pending) :
    { s.enqueue action with answered := none }.SlotCurrent := by
  refine ⟨?_, ?_⟩
  · change action = (s.fresh ++ [action]).getLast?.getD .none
    simp
  · intro _ hpending
    exact if_pos hpending

theorem run_slotCurrent (A : ArduinoJson) (S : BlobStore σ) (blank store : σ)
    (events : List HandoffEvent) : ((machine A S blank store).run events).SlotCurrent := by
  apply StateMachine.run_induction (machine A S blank store) (P := fun _ s => s.SlotCurrent)
  · exact ⟨rfl, fun _ hpending => by cases hpending⟩
  · intro events event h
    change (step A S blank ((machine A S blank store).run events) event).SlotCurrent
    generalize (machine A S blank store).run events = s at h
    cases event with
    | answer req => exact h.answer req
    | enqueue =>
        unfold step
        cases s.answered with
        | none => exact h
        | some action => exact SlotCurrent.enqueue s action
    | poll =>
        unfold step
        cases s.executing with
        | none => exact ⟨rfl, fun _ hpending => by cases hpending⟩
        | some action => exact h
    | reboot =>
        unfold step
        cases s.executing with
        | none => exact h
        | some action => exact ⟨rfl, fun _ hpending => by cases hpending⟩

/-- No request enqueues less than the slot still holds, and none while a restart is
under way. -/
def InOrder (s : Handoff σ) : HandoffEvent → Prop
  | .enqueue => s.executing = none ∧ ∀ action ∈ s.answered, action.covers s.pending = true
  | _ => True

/-- The slot makes up for everything enqueued since the last take. -/
def Covered (s : Handoff σ) : Prop :=
  ∀ a ∈ s.sinceTake, s.pending.covers a = true

theorem ordered_run_covered (A : ArduinoJson) (S : BlobStore σ) (blank store : σ)
    (events : List HandoffEvent) (hordered : (machine A S blank store).Guarded InOrder events) :
    ((machine A S blank store).run events).Covered ∧
      (((machine A S blank store).run events).executing ≠ none →
        ((machine A S blank store).run events).sinceTake = []) := by
  apply StateMachine.guarded_run_induction (machine A S blank store)
    (P := fun _ s => s.Covered ∧ (s.executing ≠ none → s.sinceTake = [])) _ _ events hordered
  · refine ⟨?_, fun hne => absurd rfl hne⟩
    intro a ha
    cases ha
  · intro events event hguard h
    change (step A S blank ((machine A S blank store).run events) event).Covered ∧
      ((step A S blank ((machine A S blank store).run events) event).executing ≠ none →
        (step A S blank ((machine A S blank store).run events) event).sinceTake = [])
    generalize (machine A S blank store).run events = s at h hguard
    obtain ⟨hcovered, hidle⟩ := h
    cases event with
    | answer req =>
        unfold step Handoff.answer
        cases s.answered with
        | some action => exact ⟨hcovered, hidle⟩
        | none => cases req <;> exact ⟨hcovered, hidle⟩
    | enqueue =>
        unfold step
        cases hanswered : s.answered with
        | none => exact ⟨hcovered, hidle⟩
        | some action =>
            obtain ⟨hfree, hover⟩ := hguard
            refine ⟨?_, fun hne => absurd hfree hne⟩
            intro a ha
            change action.covers a = true
            change a ∈ s.lost ++ (s.fresh ++ [action]) at ha
            rw [← List.append_assoc] at ha
            rcases List.mem_append.mp ha with hold | hnew
            · exact Pending.covers_trans (hover action hanswered) (hcovered a hold)
            · rw [List.mem_singleton.mp hnew]
              exact decide_eq_true (Nat.le_refl _)
    | poll =>
        unfold step
        cases hexecuting : s.executing with
        | none =>
            refine ⟨?_, fun _ => rfl⟩
            intro a ha
            cases ha
        | some action => exact ⟨hcovered, hidle⟩
    | reboot =>
        unfold step
        cases hexecuting : s.executing with
        | none => exact ⟨hcovered, hidle⟩
        | some action =>
            have hempty : s.lost ++ s.fresh = [] := hidle (by rw [hexecuting]; simp)
            refine ⟨?_, fun hne => absurd rfl hne⟩
            intro a ha
            change a ∈ (s.lost ++ s.fresh) ++ [] at ha
            rw [hempty] at ha
            cases ha

/-- Whenever the loop task takes the slot, it takes the last action enqueued: it makes
up for everything enqueued since the last take exactly when that action does, an apply
runs the current configuration, and where requests come in order nothing is lost. -/
theorem take_covers_iff (A : ArduinoJson) (S : BlobStore σ) (blank store : σ)
    (events : List HandoffEvent) :
    let s := (machine A S blank store).run events
    let taken := s.pollConfigApply.1
    ((∀ a ∈ s.sinceTake, taken.1.covers a = true) ↔
        ∀ a ∈ s.sinceTake, s.lastEnqueued.covers a = true) ∧
      (s.answered = none → taken.1 = .apply → taken.2 = s.api.config) ∧
      ((machine A S blank store).Guarded InOrder events →
        ∀ a ∈ s.sinceTake, taken.1.covers a = true) := by
  intro s taken
  obtain ⟨hslot, hconfig⟩ := run_slotCurrent A S blank store events
  refine ⟨?_, hconfig, ?_⟩
  · have htaken : taken.1 = s.lastEnqueued := hslot
    rw [htaken]
  · exact fun hordered => (ordered_run_covered A S blank store events hordered).1

theorem take_covers_iff_factory :
    let s := (machine strictJson (memoryBlobStore 20480) none none).run
      [.answer (.factoryReset {}), .enqueue]
    s.sinceTake = [.factory] ∧ ∀ a ∈ s.sinceTake, s.pollConfigApply.1.1.covers a = true := by
  intro s
  obtain ⟨hcovered, -⟩ := take_covers_iff strictJson (memoryBlobStore 20480) none none
    [.answer (.factoryReset {}), .enqueue]
  exact ⟨rfl, hcovered.mpr (by decide +kernel)⟩

/-- A factory reset is answered and enqueued, then a lamp is saved before the loop task
comes round: the loop task applies the lamp and never resets. -/
theorem factory_reset_replaced :
    let s := (machine strictJson (memoryBlobStore 20480) none none).run
      [.answer (.factoryReset {}), .enqueue, .answer (.post lampPost), .enqueue]
    s.executing = none ∧ .factory ∈ s.sinceTake ∧
      s.pollConfigApply.1.1 = .apply ∧ Pending.covers .apply .factory = false := by
  decide +kernel

end Slot

end Handoff

end RfIrBlaster
