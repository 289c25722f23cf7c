/-
The whole device, from the configuration API to what Home sends: the handoff from the httpd
task to the loop task, the bridge the loop task keeps, restarts and losses of power.
-/
import RfIrBlaster.DecodeSafety
import RfIrBlaster.DeviceIds
import RfIrBlaster.HomeCommands
import RfIrBlaster.PendingAction

namespace RfIrBlaster

open Home (Bridge Part Write)
open Transmit (Transmitter)

structure Device (σ : Type) where
  handoff : Handoff σ
  bridge : Bridge

inductive DeviceEvent where
  | handoff (e : HandoffEvent)
  | home (aid : UInt16) (part : Part) (w : Write) (now : UInt32) (tx : Bytes → Transmitter)
  | pollSends (now : UInt32) (tx : UInt16 → Transmitter)
  | powerLoss

namespace Device

variable {σ : Type}

/-- `setup()`: the same configuration seeds the API and the accessories. -/
def setup (A : ArduinoJson) (S : BlobStore σ) (store : σ) (lost : List Pending) : Device σ where
  handoff := { api := boot A S store, lost := lost }
  bridge := { builder := Builder.buildAccessories (boot A S store).config }

/-- What the accessories see of a step of the handoff. -/
def applied (d : Device σ) : Bridge :=
  if d.handoff.executing = none ∧ d.handoff.pending = .apply then
    d.bridge.applyConfigChange d.handoff.pendingCfg
  else d.bridge

/-- The loop task does nothing more once it is about to restart. -/
def step (A : ArduinoJson) (S : BlobStore σ) (blank : σ) (d : Device σ) : DeviceEvent → Device σ
  | .handoff .poll => ⟨d.handoff.step A S blank .poll, d.applied⟩
  | .handoff .reboot =>
      let handoff := d.handoff.step A S blank .reboot
      ⟨handoff,
        if d.handoff.executing = none then d.bridge
        else { builder := Builder.buildAccessories handoff.api.config }⟩
  | .handoff e => ⟨d.handoff.step A S blank e, d.bridge⟩
  | .home aid part w now tx =>
      if d.handoff.executing = none then
        { d with bridge := d.bridge.step (.write aid part w now tx) }
      else d
  | .pollSends now tx =>
      if d.handoff.executing = none then { d with bridge := d.bridge.step (.poll now tx) } else d
  | .powerLoss => setup A S d.handoff.api.store d.handoff.sinceTake

def machine (A : ArduinoJson) (S : BlobStore σ) (blank store : σ) :
    StateMachine (Device σ) DeviceEvent where
  init := setup A S store []
  step := step A S blank

/-- Nothing is under way between the two tasks. -/
structure Settled (d : Device σ) : Prop where
  answered : d.handoff.answered = none
  pending : d.handoff.pending = .none
  executing : d.handoff.executing = none

/-- The invariant of every run. -/
structure Sound (d : Device σ) : Prop where
  valid : validate d.handoff.api.config = .ok
  slot : d.handoff.SlotCurrent
  asked : d.handoff.answered ≠ some .none
  carried : d.handoff.pending = .apply → validate d.handoff.pendingCfg = .ok
  bridge : Home.Keeps d.bridge
  current : d.Settled → d.bridge.builder.config = d.handoff.api.config

variable {A : ArduinoJson} {S : BlobStore σ} {blank : σ} {d : Device σ}

theorem boot_valid (A : ArduinoJson) (S : BlobStore σ) (store : σ) :
    validate (boot A S store).config = .ok := by
  have hdefaults : validate {} = .ok := by decide
  rw [boot_config, load]
  cases S.get store with
  | none => exact hdefaults
  | some blob =>
      have hdecode : validate (decode A blob).config = .ok := by
        rcases decode_accepted_or_defaulted A blob with haccepted | hdefaulted
        · exact haccepted.valid
        · rw [hdefaulted.config]
          exact hdefaults
      dsimp only
      split_ifs <;> exact hdecode

theorem setup_sound (A : ArduinoJson) (S : BlobStore σ) (store : σ) (lost : List Pending) :
    (setup A S store lost).Sound where
  valid := boot_valid A S store
  slot := ⟨rfl, fun _ hpending => nomatch hpending⟩
  asked := nofun
  carried := nofun
  bridge := Home.Keeps.init (boot_valid A S store)
  current := fun _ => (Builder.buildAccessories_shows (boot_valid A S store)).config

/-- What a request changes: nothing of the slot, and the configuration only with an action to
enqueue. -/
theorem answer_spec (A : ArduinoJson) (S : BlobStore σ) (req : ApiRequest) (s : Handoff σ) :
    (s.answer A S req).pending = s.pending ∧ (s.answer A S req).pendingCfg = s.pendingCfg ∧
      (s.answer A S req).executing = s.executing ∧
      ((s.answer A S req).answered = none → s.answered = none ∧
        (s.answer A S req).api.config = s.api.config) ∧
      (s.answered ≠ some .none → (s.answer A S req).answered ≠ some .none) := by
  unfold Handoff.answer
  cases hanswered : s.answered with
  | some action => simp [hanswered]
  | none =>
      cases req with
      | factoryReset req =>
          refine ⟨rfl, rfl, rfl, fun _ => ⟨rfl, rfl⟩, fun _ => ?_⟩
          dsimp only
          unfold handleFactoryReset
          split_ifs <;> simp
      | regenOtaPassword req stored =>
          refine ⟨rfl, rfl, rfl, fun _ => ⟨rfl, rfl⟩, fun _ => ?_⟩
          dsimp only
          unfold handleRegenOtaPassword
          split_ifs <;> simp
      | post req =>
          refine ⟨rfl, rfl, rfl, fun hnone => ⟨rfl, ?_⟩, fun _ => ?_⟩
          · rcases handlePostConfig_cases A S req s.api with
              ⟨incoming, -, -, -, -, -, -, -, heq⟩ | ⟨-, hsame | ⟨incoming, -, heq⟩⟩
            · dsimp only at hnone
              rw [heq] at hnone
              cases hnone
            · dsimp only
              rw [hsame]
            · dsimp only
              rw [heq]
          · dsimp only
            unfold PostResult.action
            split
            · split_ifs <;> simp
            · simp

theorem Sound.applied (h : d.Sound) : Home.Keeps d.applied ∧
    d.applied.builder.config = if d.handoff.executing = none ∧ d.handoff.pending = .apply then
      d.handoff.pendingCfg else d.bridge.builder.config := by
  unfold Device.applied
  split_ifs with hcarried
  · have hallowed : Home.Allowed d.bridge (.apply d.handoff.pendingCfg) := h.carried hcarried.2
    obtain ⟨under, hshows⟩ := h.bridge.shows
    exact ⟨h.bridge.step hallowed, (hshows.apply h.bridge.valid hallowed).config⟩
  · exact ⟨h.bridge, rfl⟩

/-- The loop task takes the slot: an apply carries the configuration the API has by then. -/
theorem Sound.poll (h : d.Sound) : (d.step A S blank (.handoff .poll)).Sound := by
  obtain ⟨hkeeps, hconfig⟩ := h.applied
  unfold Device.step Handoff.step
  dsimp only
  cases hexecuting : d.handoff.executing with
  | some action =>
      have hsame : d.applied = d.bridge := by
        rw [Device.applied, if_neg (by simp [hexecuting])]
      rw [hsame]
      exact h
  | none =>
      refine ⟨h.valid, ⟨rfl, fun _ hpending => nomatch hpending⟩, h.asked, nofun, hkeeps, ?_⟩
      intro hsettled
      rw [hconfig]
      have hquiet : d.handoff.answered = none := hsettled.answered
      have hfree : (if d.handoff.pending = .restart ∨ d.handoff.pending = .factory then
          some d.handoff.pending else none) = none := hsettled.executing
      split_ifs with hcarried
      · exact h.slot.config hquiet hcarried.2
      · refine h.current ⟨hquiet, ?_, hexecuting⟩
        cases hpending : d.handoff.pending with
        | none => rfl
        | apply => exact absurd ⟨hexecuting, hpending⟩ hcarried
        | restart => simp [hpending] at hfree
        | factory => simp [hpending] at hfree

theorem Sound.step (h : d.Sound) (e : DeviceEvent) : (d.step A S blank e).Sound := by
  cases e with
  | powerLoss => exact setup_sound A S _ _
  | home aid part w now tx =>
      unfold Device.step
      dsimp only
      split_ifs
      · have hconfig : (d.bridge.step (.write aid part w now tx)).builder = d.bridge.builder := by
          unfold Bridge.step
          dsimp only
          split <;> rfl
        have hallowed : Home.Allowed d.bridge (.write aid part w now tx) := trivial
        refine ⟨h.valid, h.slot, h.asked, h.carried, h.bridge.step hallowed, ?_⟩
        intro hsettled
        dsimp only
        rw [hconfig]
        exact h.current ⟨hsettled.answered, hsettled.pending, hsettled.executing⟩
      · exact h
  | pollSends now tx =>
      unfold Device.step
      dsimp only
      split_ifs
      · have hallowed : Home.Allowed d.bridge (.poll now tx) := trivial
        refine ⟨h.valid, h.slot, h.asked, h.carried, h.bridge.step hallowed, ?_⟩
        intro hsettled
        exact h.current ⟨hsettled.answered, hsettled.pending, hsettled.executing⟩
      · exact h
  | handoff e =>
      cases e with
      | answer req =>
          obtain ⟨hpending, hcfg, hexecuting, hquiet, hasked⟩ := answer_spec A S req d.handoff
          have hvalid : validate (d.handoff.answer A S req).api.config = .ok := by
            unfold Handoff.answer
            cases d.handoff.answered with
            | some action => exact h.valid
            | none =>
                cases req with
                | post req => exact handlePostConfig_valid h.valid req
                | factoryReset req => exact h.valid
                | regenOtaPassword req stored => exact h.valid
          refine ⟨hvalid, h.slot.answer req, hasked h.asked, ?_, h.bridge, ?_⟩
          · intro happly
            change validate (d.handoff.answer A S req).pendingCfg = .ok
            rw [hcfg]
            exact h.carried (hpending.symm.trans happly)
          · intro hsettled
            obtain ⟨hnone, hsame⟩ := hquiet hsettled.answered
            change d.bridge.builder.config = (d.handoff.answer A S req).api.config
            rw [hsame]
            exact h.current ⟨hnone, hpending.symm.trans hsettled.pending,
              hexecuting.symm.trans hsettled.executing⟩
      | enqueue =>
          unfold Device.step Handoff.step
          dsimp only
          cases hanswered : d.handoff.answered with
          | none => exact h
          | some action =>
              refine
                ⟨h.valid, Handoff.SlotCurrent.enqueue d.handoff action, nofun, ?_, h.bridge, ?_⟩
              · intro happly
                have happly : action = .apply := happly
                change validate (if action = .apply then d.handoff.api.config
                  else d.handoff.pendingCfg) = .ok
                rw [if_pos happly]
                exact h.valid
              · intro hsettled
                have hnone : action = .none := hsettled.pending
                exact absurd (hnone ▸ hanswered) h.asked
      | poll => exact h.poll
      | reboot =>
          unfold Device.step Handoff.step
          dsimp only
          cases hexecuting : d.handoff.executing with
          | none => exact h
          | some action =>
              exact setup_sound A S (if action = .factory then blank else d.handoff.api.store)
                (d.handoff.lost ++ d.handoff.fresh)

theorem run_sound (A : ArduinoJson) (S : BlobStore σ) (blank store : σ)
    (events : List DeviceEvent) : ((machine A S blank store).run events).Sound :=
  (machine A S blank store).run_induction (P := fun _ d => d.Sound)
    (setup_sound A S store []) (fun _ e h => h.step e) events

/-- Whatever is under way is through when both tasks have gone on once, with the restart it may
have asked for. -/
theorem settled_soon (A : ArduinoJson) (S : BlobStore σ) (blank store : σ)
    (events : List DeviceEvent) :
    ((machine A S blank store).run
      (events ++ [DeviceEvent.handoff .enqueue, .handoff .poll, .handoff .reboot])).Settled := by
  rw [StateMachine.run, List.foldl_append]
  change (step A S blank (step A S blank (step A S blank ((machine A S blank store).run events)
    (.handoff .enqueue)) (.handoff .poll)) (.handoff .reboot)).Settled
  generalize (machine A S blank store).run events = d
  have hanswered : (d.step A S blank (.handoff .enqueue)).handoff.answered = none := by
    change (d.handoff.step A S blank .enqueue).answered = none
    unfold Handoff.step
    cases hanswered : d.handoff.answered with
    | none => exact hanswered
    | some action => rfl
  generalize d.step A S blank (.handoff .enqueue) = d' at hanswered ⊢
  have hpolled : (d'.step A S blank (.handoff .poll)).handoff.answered = none ∧
      ((d'.step A S blank (.handoff .poll)).handoff.executing = none →
        (d'.step A S blank (.handoff .poll)).handoff.pending = .none) := by
    change (d'.handoff.step A S blank .poll).answered = none ∧
      ((d'.handoff.step A S blank .poll).executing = none →
        (d'.handoff.step A S blank .poll).pending = .none)
    unfold Handoff.step
    cases hexecuting : d'.handoff.executing with
    | none => exact ⟨hanswered, fun _ => rfl⟩
    | some action =>
        refine ⟨hanswered, fun hnone => ?_⟩
        exact absurd (hexecuting.symm.trans hnone) (Option.some_ne_none _)
  generalize d'.step A S blank (.handoff .poll) = d'' at hpolled ⊢
  unfold Device.step Handoff.step
  cases hexecuting : d''.handoff.executing with
  | none => exact ⟨hpolled.1, hpolled.2 hexecuting, hexecuting⟩
  | some action => exact ⟨rfl, rfl, rfl⟩

/-- A lamp is saved, and both tasks have gone on. -/
def savedLamp : List DeviceEvent :=
  [.handoff (.answer (.post lampPost)), .handoff .enqueue, .handoff .poll]

end Device

end RfIrBlaster
