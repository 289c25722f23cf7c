/-
What the onboarding portal answers, over every interleaving of its two tasks: a job that
was given its inputs before a newer request came in publishes for that request.
-/
import RfIrBlaster.Onboarding

namespace RfIrBlaster.Onboarding

/-- The credentials `applyVerify` has read and not yet published a result for. -/
def LoopTask.underTest : LoopTask → Option Credentials
  | .verifying _ c | .verified _ c _ => some c
  | _ => none

/-- The loop task is on its way to a result for `verify-status`. -/
def LoopTask.Testing : LoopTask → Prop
  | .snapped _ vst => vst = .testing
  | .verifying _ _ | .verified _ _ _ => True
  | _ => False

/-- The loop task is on its way to a result for `handleFinish`. -/
def LoopTask.Finishing : LoopTask → Prop
  | .snapped fst _ | .verifying fst _ | .verified fst _ _ | .checking fst => fst = .pending
  | .finishing _ | .persisted _ _ => True
  | .top | .exited => False

/-- The request `applyFinish` has read and will publish as done, unless its store write
has failed already. -/
def LoopTask.inHand : LoopTask → Option Request
  | .finishing r | .persisted r (.ok _) => some r
  | _ => none

/-- The storage holds what a request asked for. -/
structure Nvs.Holds (nvs : Nvs) (r : Request) : Prop where
  wifi : nvs.wifi = some (r.cStr.ssid, r.cStr.pwd)
  pairingCode : nvs.pairingCode = some r.cStr.code
  setupCode : nvs.setupCode = some r.cStr.code

namespace Portal

/-- The credentials an event submits for a test. -/
def submitsVerify (s : Portal) (e : Event) : Option Credentials :=
  match e, s.httpd with
  | .verify body, none => (verifyInputs body).toOption
  | _, _ => none

/-- The request an event submits for persisting. -/
def submitsFinish (s : Portal) (e : Event) : Option Request :=
  match e, s.httpd with
  | .finish body, none => (finishInputs body).toOption
  | _, _ => none

/-- No new request lands behind the back of a job that has read other inputs, and the
store takes the setup code. -/
structure Timely (s : Portal) (e : Event) : Prop where
  verify : ∀ c, s.submitsVerify e = some c → ∀ c', s.loop.underTest = some c' →
    c.wifiBegin = c'.wifiBegin
  finish : ∀ r, s.submitsFinish e = some r → ∀ r', s.loop.inHand = some r' → r.cStr = r'.cStr
  stored : ∀ w r, e = .loop w → s.loop = .finishing r → w.storeOk = true →
    w.codeStored = true ∨ s.nvs.setupCode = some r.cStr.code

end Portal

section

variable (hapQR : UInt32 → Bytes → UInt8 → Bytes) (nvs : Nvs)

/-- The credentials submitted last in the history. -/
def LastSubmitted (events : List Event) (c : Credentials) : Prop :=
  ∃ before e after, events = before ++ e :: after ∧
    ((Portal.machine hapQR nvs).run before).submitsVerify e = some c ∧
    ∀ mid e' rest, after = mid ++ e' :: rest →
      ((Portal.machine hapQR nvs).run (before ++ e :: mid)).submitsVerify e' = none

/-- Whatever `verify-status` reports was obtained with the credentials submitted last. -/
def VerifyFresh (events : List Event) : Prop :=
  ∀ pre e post, events = pre ++ e :: post → ∀ st,
    let s := (Portal.machine hapQR nvs).run pre
    (s.serve hapQR e).1 = some (.verifyStatus st) → st = .ok ∨ st = .fail →
      ∃ c, LastSubmitted hapQR nvs pre c ∧ s.testedWith = some c.wifiBegin

/-- Whatever `handleFinish` answers as done was made from the request it answers. -/
def FinishFresh (events : List Event) : Prop :=
  ∀ pre e post, events = pre ++ e :: post → ∀ qr code nonce ip,
    let s := (Portal.machine hapQR nvs).run pre
    (s.serve hapQR e).1 = some (.finished qr code nonce ip) →
      ∃ polls r, s.httpd = some (polls, r) ∧ code = r.code ∧
        qr = qrOf hapQR r.cStr.code ∧ s.nvs.Holds r

end

variable {hapQR : UInt32 → Bytes → UInt8 → Bytes} {nvs : Nvs}

theorem verifyInputs_error {body : Option Bytes} {reply : Reply}
    (h : verifyInputs body = .error reply) : reply = .unread ∨ ∃ error, reply = .refused error := by
  unfold verifyInputs at h
  split at h
  · exact Or.inl (Except.error.inj h).symm
  · simp only at h
    split at h
    · exact Or.inr ⟨_, (Except.error.inj h).symm⟩
    · cases h

theorem finishInputs_error {body : Option Bytes} {reply : Reply}
    (h : finishInputs body = .error reply) : reply = .unread ∨ ∃ error, reply = .refused error := by
  unfold finishInputs at h
  split at h
  · exact Or.inl (Except.error.inj h).symm
  · simp only at h
    split at h
    · exact Or.inr ⟨_, (Except.error.inj h).symm⟩
    · split_ifs at h
      exact Or.inr ⟨_, (Except.error.inj h).symm⟩

theorem submitsVerify_eq_some {s : Portal} {e : Event} {c : Credentials}
    (h : s.submitsVerify e = some c) :
    ∃ body, e = .verify body ∧ s.httpd = none ∧ verifyInputs body = .ok c := by
  cases hhttpd : s.httpd with
  | some busy => cases e <;> simp [Portal.submitsVerify, hhttpd] at h
  | none =>
      cases e with
      | verify body =>
          simp only [Portal.submitsVerify, hhttpd] at h
          cases hinputs : verifyInputs body with
          | error reply =>
              rw [hinputs] at h
              cases h
          | ok c' =>
              rw [hinputs] at h
              exact ⟨body, rfl, rfl, hinputs.trans (congrArg Except.ok (Option.some.inj h))⟩
      | _ => cases h

theorem submitsFinish_eq_some {s : Portal} {e : Event} {r : Request}
    (h : s.submitsFinish e = some r) :
    ∃ body, e = .finish body ∧ s.httpd = none ∧ finishInputs body = .ok r := by
  cases hhttpd : s.httpd with
  | some busy => cases e <;> simp [Portal.submitsFinish, hhttpd] at h
  | none =>
      cases e with
      | finish body =>
          simp only [Portal.submitsFinish, hhttpd] at h
          cases hinputs : finishInputs body with
          | error reply =>
              rw [hinputs] at h
              cases h
          | ok r' =>
              rw [hinputs] at h
              exact ⟨body, rfl, rfl, hinputs.trans (congrArg Except.ok (Option.some.inj h))⟩
      | _ => cases h

/-- What a handler does to the portal. -/
structure Handled (s : Portal) (e : Event) (s' : Portal) : Prop where
  loop : s'.loop = s.loop
  nvs : s'.nvs = s.nvs
  qr : s'.qr = s.qr
  testedWith : s'.testedWith = s.testedWith
  verify : (s.submitsVerify e = none ∧ s'.verify = s.verify ∧ s'.vstate = s.vstate) ∨
    ∃ c, s.submitsVerify e = some c ∧ s'.verify = c ∧ s'.vstate = .testing
  finish : (s.submitsFinish e = none ∧ s'.request = s.request ∧ s'.fstate = s.fstate ∧
      ∀ polls r, s'.httpd = some (polls, r) → ∃ polls', s.httpd = some (polls', r)) ∨
    ∃ r, s.submitsFinish e = some r ∧ s'.request = r ∧ s'.fstate = .pending ∧
      s'.httpd = some (0, r)

theorem Handled.refl {s : Portal} {e : Event} (hverify : s.submitsVerify e = none)
    (hfinish : s.submitsFinish e = none) : Handled s e s :=
  ⟨rfl, rfl, rfl, rfl, Or.inl ⟨hverify, rfl, rfl⟩,
    Or.inl ⟨hfinish, rfl, rfl, fun polls _ h => ⟨polls, h⟩⟩⟩

theorem pollFinish_handled {s : Portal} {polls : Nat} {r : Request}
    (hhttpd : s.httpd = some (polls, r)) : Handled s .poll (s.pollFinish polls r).2 := by
  have hverify : s.submitsVerify .poll = none := rfl
  have hfinish : s.submitsFinish .poll = none := rfl
  have hclosed : Handled s .poll { s with httpd := none } :=
    { Handled.refl hverify hfinish with
      finish := Or.inl ⟨hfinish, rfl, rfl, fun _ _ h => by cases h⟩ }
  have hwaiting : Handled s .poll { s with httpd := some (polls + 1, r) } :=
    { Handled.refl hverify hfinish with
      finish := Or.inl ⟨hfinish, rfl, rfl, fun _ r' h => by cases h; exact ⟨polls, hhttpd⟩⟩ }
  unfold Portal.pollFinish
  split
  · exact hclosed
  · exact hclosed
  · split_ifs
    · exact hwaiting
    · exact hclosed
  · split_ifs
    · exact hwaiting
    · exact hclosed

theorem serve_handled (s : Portal) {e : Event} (he : ∀ w, e ≠ .loop w) :
    Handled s e (s.serve hapQR e).2 := by
  cases hhttpd : s.httpd with
  | some busy =>
      obtain ⟨polls, r⟩ := busy
      cases e with
      | loop w => exact absurd rfl (he w)
      | poll => simpa only [Portal.serve, hhttpd] using pollFinish_handled hhttpd
      | verify body =>
          simp only [Portal.serve, hhttpd]
          exact Handled.refl (by simp only [Portal.submitsVerify, hhttpd]) rfl
      | verifyStatus =>
          simp only [Portal.serve, hhttpd]
          exact Handled.refl rfl rfl
      | finish body =>
          simp only [Portal.serve, hhttpd]
          exact Handled.refl rfl (by simp only [Portal.submitsFinish, hhttpd])
      | reboot =>
          simp only [Portal.serve, hhttpd]
          exact Handled.refl rfl rfl
  | none =>
      cases e with
      | loop w => exact absurd rfl (he w)
      | poll =>
          simp only [Portal.serve, hhttpd]
          exact Handled.refl rfl rfl
      | verify body =>
          simp only [Portal.serve, hhttpd, Portal.handleVerify]
          have hsubmits : s.submitsVerify (.verify body) = (verifyInputs body).toOption := by
            simp only [Portal.submitsVerify, hhttpd]
          cases hinputs : verifyInputs body with
          | error reply =>
              rw [hinputs] at hsubmits
              exact Handled.refl hsubmits rfl
          | ok c =>
              rw [hinputs] at hsubmits
              exact
                { loop := rfl
                  nvs := rfl
                  qr := rfl
                  testedWith := rfl
                  verify := Or.inr ⟨c, hsubmits, rfl, rfl⟩
                  finish := Or.inl ⟨rfl, rfl, rfl, fun _ _ h => by cases h⟩ }
      | verifyStatus =>
          simp only [Portal.serve, hhttpd]
          exact Handled.refl rfl rfl
      | finish body =>
          simp only [Portal.serve, hhttpd, Portal.handleFinish]
          have hsubmits : s.submitsFinish (.finish body) = (finishInputs body).toOption := by
            simp only [Portal.submitsFinish, hhttpd]
          cases hinputs : finishInputs body with
          | error reply =>
              rw [hinputs] at hsubmits
              exact Handled.refl rfl hsubmits
          | ok r =>
              rw [hinputs] at hsubmits
              exact
                { loop := rfl
                  nvs := rfl
                  qr := rfl
                  testedWith := rfl
                  verify := Or.inl ⟨rfl, rfl, rfl⟩
                  finish := Or.inr ⟨r, hsubmits, rfl, rfl, rfl⟩ }
      | reboot =>
          simp only [Portal.serve, hhttpd]
          exact
            { Handled.refl (s := s) (e := .reboot) rfl rfl with
              loop := rfl
              nvs := rfl }

/-- An event is a step of the loop task or a handler's. -/
theorem serve_cases (s : Portal) (e : Event) :
    (∃ w, e = .loop w) ∨ Handled s e (s.serve hapQR e).2 := by
  by_cases hloop : ∃ w, e = .loop w
  · exact Or.inl hloop
  · exact Or.inr (serve_handled s fun w hw => hloop ⟨w, hw⟩)

/-- A loop step leaves the requests and the handler at work alone. -/
theorem loopStep_requests (w : World) (s : Portal) :
    (s.loopStep hapQR w).verify = s.verify ∧ (s.loopStep hapQR w).request = s.request ∧
      (s.loopStep hapQR w).httpd = s.httpd := by
  unfold Portal.loopStep
  split
  · split_ifs <;> exact ⟨rfl, rfl, rfl⟩
  · split_ifs <;> exact ⟨rfl, rfl, rfl⟩
  · exact ⟨rfl, rfl, rfl⟩
  · exact ⟨rfl, rfl, rfl⟩
  · split_ifs <;> exact ⟨rfl, rfl, rfl⟩
  · exact ⟨rfl, rfl, rfl⟩
  · exact ⟨rfl, rfl, rfl⟩
  · exact ⟨rfl, rfl, rfl⟩
  · exact ⟨rfl, rfl, rfl⟩

theorem LastSubmitted.concat {events : List Event} {e : Event} {c : Credentials}
    (h : LastSubmitted hapQR nvs events c)
    (hnone : ((Portal.machine hapQR nvs).run events).submitsVerify e = none) :
    LastSubmitted hapQR nvs (events ++ [e]) c := by
  obtain ⟨before, e₀, after, rfl, hsubmits, hlast⟩ := h
  refine ⟨before, e₀, after ++ [e], by simp, hsubmits, ?_⟩
  intro mid e' rest heq
  rcases StateMachine.concat_eq_append_cons heq with ⟨rfl, rfl⟩ | ⟨front, hfront⟩
  · exact hnone
  · exact hlast mid e' front hfront

theorem lastSubmitted_new {events : List Event} {e : Event} {c : Credentials}
    (h : ((Portal.machine hapQR nvs).run events).submitsVerify e = some c) :
    LastSubmitted hapQR nvs (events ++ [e]) c :=
  ⟨events, e, [], rfl, h, by simp⟩

/-- The verify side of the portal after a history. -/
structure VerifyOrder (hapQR : UInt32 → Bytes → UInt8 → Bytes) (nvs : Nvs)
    (events : List Event) (s : Portal) : Prop where
  last : LastSubmitted hapQR nvs events s.verify ∨ (s.vstate = .idle ∧ ¬s.loop.Testing)
  tested : s.vstate = .ok ∨ s.vstate = .fail → s.testedWith = some s.verify.wifiBegin
  underTest : ∀ c, s.loop.underTest = some c → c.wifiBegin = s.verify.wifiBegin

/-- The finish side of the portal. -/
structure FinishOrder (hapQR : UInt32 → Bytes → UInt8 → Bytes) (s : Portal) : Prop where
  polled : ∀ polls r, s.httpd = some (polls, r) → s.request = r
  finishing : s.loop.Finishing → s.fstate = .pending
  inHand : ∀ r, s.loop.inHand = some r → r.cStr = s.request.cStr
  persisted : ∀ r payload nonce, s.loop = .persisted r (.ok (payload, nonce)) →
    payload = qrOf hapQR r.cStr.code ∧ s.nvs.Holds r
  done : s.fstate = .done → s.qr = qrOf hapQR s.request.cStr.code ∧ s.nvs.Holds s.request

theorem Nvs.Holds.congr {held : Nvs} {r r' : Request} (h : held.Holds r)
    (heq : r.cStr = r'.cStr) : held.Holds r' :=
  ⟨heq ▸ h.wifi, heq ▸ h.pairingCode, heq ▸ h.setupCode⟩

/-- A store that opens and takes the setup code holds the request afterwards. -/
theorem persist_ok {w : World} {r : Request} {held held' : Nvs} {payload nonce : Bytes}
    (h : persist hapQR w r held = (held', .ok (payload, nonce)))
    (hstored : w.storeOk = true → w.codeStored = true ∨ held.setupCode = some r.cStr.code) :
    payload = qrOf hapQR r.cStr.code ∧ held'.Holds r := by
  unfold persist at h
  simp only at h
  by_cases hopen : w.storeOk = true
  · rw [if_pos hopen] at h
    obtain ⟨rfl, hjob⟩ := Prod.mk.inj h
    obtain ⟨rfl, -⟩ := Prod.mk.inj (Except.ok.inj hjob)
    refine ⟨rfl, rfl, rfl, ?_⟩
    rcases hstored hopen with hcode | hheld
    · simp only [if_pos hcode]
    · simp only [hheld, ite_self]
  · rw [if_neg hopen] at h
    cases (Prod.mk.inj h).2

theorem FinishOrder.loopStep {s : Portal} (h : FinishOrder hapQR s) {w : World}
    (htimely : s.Timely (.loop w)) : FinishOrder hapQR (s.loopStep hapQR w) := by
  have hstored := fun r hloop => htimely.stored w r rfl hloop
  obtain ⟨-, hrequest, hhttpd⟩ := @loopStep_requests hapQR w s
  have hpolled : ∀ polls r, (s.loopStep hapQR w).httpd = some (polls, r) →
      (s.loopStep hapQR w).request = r := by
    rw [hrequest, hhttpd]
    exact h.polled
  cases hloop : s.loop with
  | top =>
      simp only [Portal.loopStep, hloop] at hpolled ⊢
      split_ifs at hpolled ⊢
      · exact ⟨hpolled, by simp [LoopTask.Finishing], by simp [LoopTask.inHand], by simp, h.done⟩
      · exact ⟨hpolled, id, by simp [LoopTask.inHand], by simp, h.done⟩
  | snapped fst vst =>
      have hfinishing := h.finishing
      rw [hloop] at hfinishing
      simp only [Portal.loopStep, hloop] at hpolled ⊢
      split_ifs at hpolled ⊢
      · exact ⟨hpolled, hfinishing, by simp [LoopTask.inHand], by simp, h.done⟩
      · exact ⟨hpolled, hfinishing, by simp [LoopTask.inHand], by simp, h.done⟩
  | verifying fst c =>
      have hfinishing := h.finishing
      rw [hloop] at hfinishing
      simp only [Portal.loopStep, hloop] at hpolled ⊢
      exact ⟨hpolled, hfinishing, by simp [LoopTask.inHand], by simp, h.done⟩
  | verified fst c ip =>
      have hfinishing := h.finishing
      rw [hloop] at hfinishing
      simp only [Portal.loopStep, hloop] at hpolled ⊢
      exact ⟨hpolled, hfinishing, by simp [LoopTask.inHand], by simp, h.done⟩
  | checking fst =>
      have hfinishing := h.finishing
      rw [hloop] at hfinishing
      simp only [Portal.loopStep, hloop] at hpolled ⊢
      split_ifs at hpolled ⊢ with hpending
      · refine ⟨hpolled, fun _ => hfinishing hpending, ?_, by simp, h.done⟩
        -- the inputs are read here, all at once
        intro r hr
        rw [← Option.some.inj hr]
      · exact ⟨hpolled, by simp [LoopTask.Finishing], by simp [LoopTask.inHand], by simp, h.done⟩
  | finishing r =>
      have hpending := h.finishing (by rw [hloop]; trivial)
      have hinHand := h.inHand r (by rw [hloop]; rfl)
      simp only [Portal.loopStep, hloop] at hpolled ⊢
      refine ⟨hpolled, fun _ => hpending, ?_, ?_, ?_⟩
      · intro r' hr'
        cases hjob : (persist hapQR w r s.nvs).2 with
        | error err => simp [hjob, LoopTask.inHand] at hr'
        | ok job =>
            simp only [hjob, LoopTask.inHand, Option.some.injEq] at hr'
            rw [← hr']
            exact hinHand
      · intro r' payload nonce hpersisted
        obtain ⟨rfl, hjob⟩ := LoopTask.persisted.inj hpersisted
        exact persist_ok (Prod.ext rfl hjob) (hstored r hloop)
      · exact fun hdone => absurd (hpending.symm.trans hdone) (by decide)
  | persisted r job =>
      have hpending := h.finishing (by rw [hloop]; trivial)
      cases job with
      | error err =>
          simp only [Portal.loopStep, hloop] at hpolled ⊢
          exact ⟨hpolled, by simp [LoopTask.Finishing], by simp [LoopTask.inHand], by simp, by simp⟩
      | ok job =>
          obtain ⟨payload, nonce⟩ := job
          obtain ⟨hpayload, hholds⟩ := h.persisted r payload nonce hloop
          have hinHand := h.inHand r (by rw [hloop]; rfl)
          simp only [Portal.loopStep, hloop] at hpolled ⊢
          refine ⟨hpolled, by simp [LoopTask.Finishing], by simp [LoopTask.inHand], by simp, ?_⟩
          intro _
          rw [← hinHand]
          exact ⟨hpayload, hholds.congr hinHand⟩
  | exited =>
      simp only [Portal.loopStep, hloop]
      exact h

theorem FinishOrder.handled {s s' : Portal} {e : Event} (h : FinishOrder hapQR s)
    (htimely : s.Timely e) (hhandled : Handled s e s') : FinishOrder hapQR s' := by
  rcases hhandled.finish with
    ⟨-, hrequest, hfstate, hhttpd⟩ | ⟨r, hsubmits, hrequest, hfstate, hhttpd⟩
  · refine ⟨?_, ?_, ?_, ?_, ?_⟩
    · intro polls r hpolled
      obtain ⟨polls', hearlier⟩ := hhttpd polls r hpolled
      rw [hrequest]
      exact h.polled polls' r hearlier
    · rw [hhandled.loop, hfstate]
      exact h.finishing
    · rw [hhandled.loop, hrequest]
      exact h.inHand
    · rw [hhandled.loop, hhandled.nvs]
      exact h.persisted
    · rw [hfstate, hrequest, hhandled.qr, hhandled.nvs]
      exact h.done
  · refine ⟨?_, fun _ => hfstate, ?_, ?_, ?_⟩
    · intro polls r' hpolled
      rw [hhttpd] at hpolled
      rw [hrequest]
      exact (Prod.mk.inj (Option.some.inj hpolled)).2
    · -- the guard: what the job has read is what the new request asks for
      intro r' hr'
      rw [hhandled.loop] at hr'
      rw [hrequest]
      exact (htimely.finish r hsubmits r' hr').symm
    · rw [hhandled.loop, hhandled.nvs]
      exact h.persisted
    · intro hdone
      rw [hfstate] at hdone
      cases hdone

theorem VerifyOrder.loopStep {events : List Event}
    (h : VerifyOrder hapQR nvs events ((Portal.machine hapQR nvs).run events)) (w : World) :
    VerifyOrder hapQR nvs (events ++ [Event.loop w])
      (((Portal.machine hapQR nvs).run events).loopStep hapQR w) := by
  have hlast : LastSubmitted hapQR nvs events ((Portal.machine hapQR nvs).run events).verify →
      LastSubmitted hapQR nvs (events ++ [Event.loop w])
        ((Portal.machine hapQR nvs).run events).verify :=
    fun hlast => hlast.concat rfl
  generalize (Portal.machine hapQR nvs).run events = s at *
  have hkeep : ∀ loop : LoopTask, (loop.Testing → s.loop.Testing ∨ s.vstate = .testing) →
      LastSubmitted hapQR nvs (events ++ [Event.loop w]) s.verify ∨
        (s.vstate = .idle ∧ ¬loop.Testing) := by
    intro loop htesting
    rcases h.last with hsubmitted | ⟨hidle, hquiet⟩
    · exact Or.inl (hlast hsubmitted)
    · refine Or.inr ⟨hidle, fun hloop => ?_⟩
      rcases htesting hloop with hbefore | hvstate
      · exact hquiet hbefore
      · rw [hidle] at hvstate
        cases hvstate
  cases hloop : s.loop with
  | top =>
      simp only [Portal.loopStep, hloop]
      split_ifs
      · exact ⟨hkeep _ (by simp [LoopTask.Testing]), h.tested, by simp [LoopTask.underTest]⟩
      · exact ⟨hkeep _ Or.inr, h.tested, by simp [LoopTask.underTest]⟩
  | snapped fst vst =>
      simp only [Portal.loopStep, hloop]
      split_ifs with htesting
      · refine ⟨hkeep _ fun _ => Or.inl ?_, h.tested, ?_⟩
        · rw [hloop]
          exact htesting
        · -- the inputs are read here
          intro c hc
          rw [← Option.some.inj hc]
      · exact ⟨hkeep _ (by simp [LoopTask.Testing]), h.tested, by simp [LoopTask.underTest]⟩
  | verifying fst c =>
      have hunder := h.underTest c (by rw [hloop]; rfl)
      simp only [Portal.loopStep, hloop]
      refine ⟨hkeep _ fun _ => Or.inl ?_, h.tested, ?_⟩
      · rw [hloop]
        trivial
      · intro c' hc'
        rw [← Option.some.inj hc']
        exact hunder
  | verified fst c ip =>
      have hunder := h.underTest c (by rw [hloop]; rfl)
      simp only [Portal.loopStep, hloop]
      refine ⟨?_, fun _ => congrArg some hunder, by simp [LoopTask.underTest]⟩
      rcases h.last with hsubmitted | ⟨-, hquiet⟩
      · exact Or.inl (hlast hsubmitted)
      · rw [hloop] at hquiet
        exact absurd trivial hquiet
  | checking fst =>
      simp only [Portal.loopStep, hloop]
      split_ifs
      · exact ⟨hkeep _ (by simp [LoopTask.Testing]), h.tested, by simp [LoopTask.underTest]⟩
      · exact ⟨hkeep _ (by simp [LoopTask.Testing]), h.tested, by simp [LoopTask.underTest]⟩
  | finishing r =>
      simp only [Portal.loopStep, hloop]
      exact ⟨hkeep _ (by simp [LoopTask.Testing]), h.tested, by simp [LoopTask.underTest]⟩
  | persisted r job =>
      cases job with
      | error err =>
          simp only [Portal.loopStep, hloop]
          exact ⟨hkeep _ (by simp [LoopTask.Testing]), h.tested, by simp [LoopTask.underTest]⟩
      | ok job =>
          simp only [Portal.loopStep, hloop]
          exact ⟨hkeep _ (by simp [LoopTask.Testing]), h.tested, by simp [LoopTask.underTest]⟩
  | exited =>
      simp only [Portal.loopStep, hloop]
      exact ⟨hkeep _ Or.inl, h.tested, h.underTest⟩

theorem VerifyOrder.handled {events : List Event} {e : Event} {s' : Portal}
    (h : VerifyOrder hapQR nvs events ((Portal.machine hapQR nvs).run events))
    (htimely : ((Portal.machine hapQR nvs).run events).Timely e)
    (hhandled : Handled ((Portal.machine hapQR nvs).run events) e s') :
    VerifyOrder hapQR nvs (events ++ [e]) s' := by
  rcases hhandled.verify with ⟨hnone, hverify, hvstate⟩ | ⟨c, hsubmits, hverify, hvstate⟩
  · refine ⟨?_, ?_, ?_⟩
    · rw [hverify, hvstate, hhandled.loop]
      exact h.last.imp_left fun hlast => hlast.concat hnone
    · rw [hvstate, hverify, hhandled.testedWith]
      exact h.tested
    · rw [hhandled.loop, hverify]
      exact h.underTest
  · refine ⟨?_, ?_, ?_⟩
    · rw [hverify]
      exact Or.inl (lastSubmitted_new hsubmits)
    · rw [hvstate]
      simp
    · -- the guard: what is under test is what the new request asks for
      intro c' hc'
      rw [hhandled.loop] at hc'
      rw [hverify]
      exact (htimely.verify c hsubmits c' hc').symm

/-- Both sides hold after every history of timely events. -/
theorem run_orders {events : List Event}
    (htimely : (Portal.machine hapQR nvs).Guarded Portal.Timely events) :
    VerifyOrder hapQR nvs events ((Portal.machine hapQR nvs).run events) ∧
      FinishOrder hapQR ((Portal.machine hapQR nvs).run events) := by
  apply (Portal.machine hapQR nvs).guarded_run_induction
    (P := fun events s => s = (Portal.machine hapQR nvs).run events →
      VerifyOrder hapQR nvs events s ∧ FinishOrder hapQR s)
  · intro _
    refine ⟨⟨Or.inr ⟨rfl, not_false⟩, by simp [Portal.machine], ?_⟩, ?_, ?_, ?_, ?_, ?_⟩
    · exact fun c hc => by cases hc
    · exact fun polls r hr => by cases hr
    · exact False.elim
    · exact fun r hr => by cases hr
    · exact fun r payload nonce hr => by cases hr
    · exact fun hdone => by cases hdone
  · intro events e hguard ih _
    obtain ⟨hverify, hfinish⟩ := ih rfl
    rcases @serve_cases hapQR ((Portal.machine hapQR nvs).run events) e with ⟨w, rfl⟩ | hhandled
    · exact ⟨hverify.loopStep w, hfinish.loopStep hguard⟩
    · exact ⟨hverify.handled hguard hhandled, hfinish.handled hguard hhandled⟩
  · exact htimely
  · rfl

/-- What the portal can answer in a state: refusals, acknowledgements, the status as it
is, and, to the finish request it is at, its outputs as they are. -/
inductive Answers (s : Portal) : Reply → Prop where
  | unread : Answers s .unread
  | refused (error : Bytes) : Answers s (.refused error)
  | accepted : Answers s .accepted
  | verifyStatus : Answers s (.verifyStatus s.vstate)
  | finished {polls : Nat} {r : Request} (hhttpd : s.httpd = some (polls, r))
      (hdone : s.fstate = .done) : Answers s (.finished s.qr s.request.code s.nonce s.verifyIp)

theorem answers_of_inputs_error {s : Portal} {reply : Reply}
    (h : reply = .unread ∨ ∃ error, reply = .refused error) : Answers s reply := by
  rcases h with rfl | ⟨error, rfl⟩
  · exact .unread
  · exact .refused error

theorem pollFinish_answers {s : Portal} {polls : Nat} {r : Request}
    (hhttpd : s.httpd = some (polls, r)) {reply : Reply}
    (h : (s.pollFinish polls r).1 = some reply) : Answers s reply := by
  unfold Portal.pollFinish at h
  cases hfstate : s.fstate with
  | done =>
      simp only [hfstate, Option.some.injEq] at h
      rw [← h]
      exact .finished hhttpd hfstate
  | failed =>
      simp only [hfstate, Option.some.injEq] at h
      rw [← h]
      exact .refused s.ferr
  | idle =>
      simp only [hfstate] at h
      by_cases hmore : polls + 1 < finishPolls
      · rw [if_pos hmore] at h
        cases h
      · rw [if_neg hmore] at h
        rw [← Option.some.inj h]
        exact .refused (ascii "timeout")
  | pending =>
      simp only [hfstate] at h
      by_cases hmore : polls + 1 < finishPolls
      · rw [if_pos hmore] at h
        cases h
      · rw [if_neg hmore] at h
        rw [← Option.some.inj h]
        exact .refused (ascii "timeout")

theorem serve_answers {s : Portal} {e : Event} {reply : Reply}
    (h : (s.serve hapQR e).1 = some reply) : Answers s reply := by
  cases hhttpd : s.httpd with
  | some busy =>
      obtain ⟨polls, r⟩ := busy
      cases e with
      | poll =>
          simp only [Portal.serve, hhttpd] at h
          exact pollFinish_answers hhttpd h
      | loop w => simp [Portal.serve] at h
      | verify body => simp [Portal.serve, hhttpd] at h
      | verifyStatus => simp [Portal.serve, hhttpd] at h
      | finish body => simp [Portal.serve, hhttpd] at h
      | reboot => simp [Portal.serve, hhttpd] at h
  | none =>
      cases e with
      | verify body =>
          simp only [Portal.serve, hhttpd, Portal.handleVerify] at h
          cases hinputs : verifyInputs body with
          | error refusal =>
              simp only [hinputs, Option.some.injEq] at h
              exact answers_of_inputs_error (h ▸ verifyInputs_error hinputs)
          | ok c =>
              simp only [hinputs, Option.some.injEq] at h
              rw [← h]
              exact .accepted
      | verifyStatus =>
          simp only [Portal.serve, hhttpd, Portal.handleVerifyStatus, Option.some.injEq] at h
          rw [← h]
          exact .verifyStatus
      | finish body =>
          simp only [Portal.serve, hhttpd, Portal.handleFinish] at h
          cases hinputs : finishInputs body with
          | error refusal =>
              simp only [hinputs, Option.some.injEq] at h
              exact answers_of_inputs_error (h ▸ finishInputs_error hinputs)
          | ok r => simp [hinputs] at h
      | reboot =>
          simp only [Portal.serve, hhttpd, Portal.handleReboot, Option.some.injEq] at h
          rw [← h]
          exact .accepted
      | loop w => simp [Portal.serve] at h
      | poll => simp [Portal.serve, hhttpd] at h

theorem verifyFresh_of_timely {events : List Event}
    (htimely : (Portal.machine hapQR nvs).Guarded Portal.Timely events) :
    VerifyFresh hapQR nvs events := by
  rintro pre e post rfl st s hreply hresult
  have hguard : (Portal.machine hapQR nvs).Guarded Portal.Timely pre := htimely.of_append
  obtain ⟨hverify, -⟩ := run_orders hguard
  cases serve_answers hreply with
  | verifyStatus =>
      refine ⟨s.verify, ?_, hverify.tested hresult⟩
      rcases hverify.last with hlast | ⟨hidle, -⟩
      · exact hlast
      · exact absurd hidle (by rcases hresult with h | h <;> simp [s, h])

theorem finishFresh_of_timely {events : List Event}
    (htimely : (Portal.machine hapQR nvs).Guarded Portal.Timely events) :
    FinishFresh hapQR nvs events := by
  rintro pre e post rfl qr code nonce ip s hreply
  have hguard : (Portal.machine hapQR nvs).Guarded Portal.Timely pre := htimely.of_append
  obtain ⟨-, hfinish⟩ := run_orders hguard
  cases serve_answers hreply with
  | @finished polls r hhttpd hdone =>
      obtain ⟨hqr, hholds⟩ := hfinish.done hdone
      have hrequest := hfinish.polled polls r hhttpd
      rw [hrequest] at hqr hholds
      exact ⟨polls, r, hhttpd, congrArg Request.code hrequest, hqr, hholds⟩

/-- The verify inputs change with a submission alone. -/
theorem serve_verify (s : Portal) (e : Event) :
    (s.submitsVerify e = none ∧ (s.serve hapQR e).2.verify = s.verify) ∨
      ∃ c, s.submitsVerify e = some c ∧ (s.serve hapQR e).2.verify = c := by
  rcases @serve_cases hapQR s e with ⟨w, rfl⟩ | hhandled
  · exact Or.inl ⟨rfl, (loopStep_requests w s).1⟩
  · rcases hhandled.verify with ⟨hnone, hverify, -⟩ | ⟨c, hsubmits, hverify, -⟩
    · exact Or.inl ⟨hnone, hverify⟩
    · exact Or.inr ⟨c, hsubmits, hverify⟩

/-- They are the credentials submitted last. -/
theorem LastSubmitted.eq_verify {events : List Event} {c : Credentials}
    (h : LastSubmitted hapQR nvs events c) :
    ((Portal.machine hapQR nvs).run events).verify = c := by
  induction events using List.reverseRecOn with
  | nil =>
      obtain ⟨before, e, after, heq, -⟩ := h
      simp at heq
  | append_singleton pre e ih =>
      obtain ⟨before, e₀, after, heq, hsubmits, hlast⟩ := h
      have hserve := @serve_verify hapQR ((Portal.machine hapQR nvs).run pre) e
      rw [StateMachine.run_concat]
      rcases StateMachine.concat_eq_append_cons heq with ⟨rfl, rfl⟩ | ⟨front, rfl⟩
      · rcases hserve with ⟨hnone, -⟩ | ⟨c', hc', hverify⟩
        · rw [hnone] at hsubmits
          cases hsubmits
        · rw [hsubmits] at hc'
          exact hverify.trans (Option.some.inj hc').symm
      · have hafter : after = front ++ [e] := by
          rw [List.append_assoc, List.append_right_inj, List.cons_append, List.cons.injEq] at heq
          exact heq.2.symm
        have hnone := hlast front e [] hafter
        rcases hserve with ⟨-, hverify⟩ | ⟨c', hc', -⟩
        · refine Eq.trans hverify (ih ⟨before, e₀, front, rfl, hsubmits, ?_⟩)
          intro mid e' rest hfront
          exact hlast mid e' (rest ++ [e]) (by simp [hafter, hfront])
        · rw [hnone] at hc'
          cases hc'

theorem LoopTask.underTest_eq_some {task : LoopTask} {c : Credentials}
    (h : task.underTest = some c) :
    (∃ fst, task = .verifying fst c) ∨ ∃ fst ip, task = .verified fst c ip := by
  cases task with
  | verifying fst c' => exact Or.inl ⟨fst, by rw [← Option.some.inj h]⟩
  | verified fst c' ip => exact Or.inr ⟨fst, ip, by rw [← Option.some.inj h]⟩
  | _ => cases h

theorem LoopTask.inHand_eq_some {task : LoopTask} {r : Request} (h : task.inHand = some r) :
    task = .finishing r ∨ ∃ job, task = .persisted r (.ok job) := by
  cases task with
  | finishing r' => exact Or.inl (by rw [← Option.some.inj h])
  | persisted r' job =>
      cases job with
      | error err => cases h
      | ok job => exact Or.inr ⟨job, by rw [← Option.some.inj h]⟩
  | _ => cases h

/-- A job that has read its credentials reports on them, whatever comes in meanwhile. -/
theorem underTest_reports {pre : List Event} {c : Credentials}
    (hloop : ((Portal.machine hapQR nvs).run pre).loop.underTest = some c) :
    ∃ post, let s := (Portal.machine hapQR nvs).run pre
      let s' := (Portal.machine hapQR nvs).run (pre ++ post)
      s'.testedWith = some c.wifiBegin ∧ (s'.vstate = .ok ∨ s'.vstate = .fail) ∧
        s'.verify = s.verify ∧ s'.httpd = s.httpd := by
  have hpublish : ∀ {front : List Event} {fst : FinishState} {ip : Option Bytes},
      ((Portal.machine hapQR nvs).run front).loop = .verified fst c ip →
      let s' := (Portal.machine hapQR nvs).run (front ++ [Event.loop {}])
      s'.testedWith = some c.wifiBegin ∧ (s'.vstate = .ok ∨ s'.vstate = .fail) := by
    intro front fst ip hverified
    have hstep : (Portal.machine hapQR nvs).run (front ++ [Event.loop {}]) = _ :=
      (StateMachine.run_concat _ _ _).trans (Portal.loopStep_verified hverified)
    simp only [hstep]
    refine ⟨trivial, ?_⟩
    cases ip
    · exact Or.inr rfl
    · exact Or.inl rfl
  have hrequests : ∀ front : List Event,
      ((Portal.machine hapQR nvs).run (front ++ [Event.loop {}])).verify =
          ((Portal.machine hapQR nvs).run front).verify ∧
        ((Portal.machine hapQR nvs).run (front ++ [Event.loop {}])).httpd =
          ((Portal.machine hapQR nvs).run front).httpd := by
    intro front
    rw [StateMachine.run_concat]
    obtain ⟨hverify, -, hhttpd⟩ :=
      @loopStep_requests hapQR {} ((Portal.machine hapQR nvs).run front)
    exact ⟨hverify, hhttpd⟩
  rcases LoopTask.underTest_eq_some hloop with ⟨fst, hphase⟩ | ⟨fst, ip, hphase⟩
  · have hverified : ((Portal.machine hapQR nvs).run (pre ++ [Event.loop {}])).loop =
        .verified fst c none := by
      rw [StateMachine.run_concat]
      exact congrArg Portal.loop (Portal.loopStep_verifying hphase)
    obtain ⟨htested, hresult⟩ := hpublish hverified
    refine ⟨[.loop {}, .loop {}], ?_⟩
    rw [List.append_cons]
    exact ⟨htested, hresult, (hrequests _).1.trans (hrequests pre).1,
      (hrequests _).2.trans (hrequests pre).2⟩
  · obtain ⟨htested, hresult⟩ := hpublish hphase
    exact ⟨[.loop {}], htested, hresult, (hrequests pre).1, (hrequests pre).2⟩

/-- Other credentials submitted behind the back of a test: its result answers for them. -/
theorem not_verifyFresh {pre : List Event} {e : Event} {c c' : Credentials}
    (hsubmits : ((Portal.machine hapQR nvs).run pre).submitsVerify e = some c)
    (hloop : ((Portal.machine hapQR nvs).run pre).loop.underTest = some c')
    (hother : c.wifiBegin ≠ c'.wifiBegin) :
    ∃ post, ¬VerifyFresh hapQR nvs (pre ++ e :: post) := by
  have hverify₁ : ((Portal.machine hapQR nvs).run (pre ++ [e])).verify = c :=
    (lastSubmitted_new hsubmits).eq_verify
  obtain ⟨body, rfl, hfree, hinputs⟩ := submitsVerify_eq_some hsubmits
  have hafter : (Portal.machine hapQR nvs).run (pre ++ [Event.verify body]) =
      { (Portal.machine hapQR nvs).run pre with verify := c, vstate := .testing } := by
    rw [StateMachine.run_concat]
    exact Portal.serve_verify_ok hfree hinputs
  have hloop₁ : ((Portal.machine hapQR nvs).run (pre ++ [Event.verify body])).loop.underTest =
      some c' := by
    rw [hafter]
    exact hloop
  have hfree₁ : ((Portal.machine hapQR nvs).run (pre ++ [Event.verify body])).httpd = none := by
    rw [hafter]
    exact hfree
  obtain ⟨post, htested, hresult, hverify, hhttpd⟩ := underTest_reports hloop₁
  refine ⟨post ++ [Event.verifyStatus], fun hfresh => ?_⟩
  rw [hfree₁] at hhttpd
  obtain ⟨c₂, hlast, hwith⟩ := hfresh (pre ++ [Event.verify body] ++ post) .verifyStatus []
    (by simp) _ (by simp only [Portal.serve, hhttpd, Portal.handleVerifyStatus]) hresult
  have hc₂ := hlast.eq_verify
  rw [hverify, hverify₁] at hc₂
  rw [htested, ← hc₂] at hwith
  exact hother (Option.some.inj hwith).symm

/-- Only the store's step ends with a request past HomeSpan's writes. -/
theorem loopStep_saved {w : World} {s : Portal} {r : Request}
    {job : Except Bytes (Bytes × Bytes)} (h : (s.loopStep hapQR w).loop = .persisted r job) :
    (s.loopStep hapQR w).nvs.wifi = some (r.cStr.ssid, r.cStr.pwd) ∧
      (s.loopStep hapQR w).nvs.pairingCode = some r.cStr.code := by
  unfold Portal.loopStep at h ⊢
  cases hphase : s.loop with
  | finishing r' =>
      simp only [hphase] at h ⊢
      obtain ⟨rfl, -⟩ := LoopTask.persisted.inj h
      unfold persist
      simp only
      split_ifs <;> exact ⟨rfl, rfl⟩
  | top => simp only [hphase] at h; split_ifs at h
  | snapped fst vst => simp only [hphase] at h; split_ifs at h
  | verifying fst c => simp only [hphase] at h; cases h
  | verified fst c ip => simp only [hphase] at h; cases h
  | checking fst => simp only [hphase] at h; split_ifs at h
  | persisted r' job' => cases job' <;> (simp only [hphase] at h; cases h)
  | exited => simp only [hphase] at h; cases h

/-- A request past HomeSpan's writes is the one HomeSpan holds. -/
theorem run_saved (events : List Event) :
    ∀ r job, ((Portal.machine hapQR nvs).run events).loop = .persisted r job →
      ((Portal.machine hapQR nvs).run events).nvs.wifi = some (r.cStr.ssid, r.cStr.pwd) ∧
        ((Portal.machine hapQR nvs).run events).nvs.pairingCode = some r.cStr.code := by
  apply (Portal.machine hapQR nvs).run_induction (P := fun _ s =>
    ∀ r job, s.loop = .persisted r job →
      s.nvs.wifi = some (r.cStr.ssid, r.cStr.pwd) ∧ s.nvs.pairingCode = some r.cStr.code)
  · intro r job hloop
    cases hloop
  · intro pre e ih r job hloop
    rcases @serve_cases hapQR ((Portal.machine hapQR nvs).run pre) e with ⟨w, rfl⟩ | hhandled
    · exact loopStep_saved hloop
    · change (((Portal.machine hapQR nvs).run pre).serve hapQR e).2.loop = _ at hloop
      change (((Portal.machine hapQR nvs).run pre).serve hapQR e).2.nvs.wifi = _ ∧
        (((Portal.machine hapQR nvs).run pre).serve hapQR e).2.nvs.pairingCode = _
      rw [hhandled.loop] at hloop
      rw [hhandled.nvs]
      exact ih r job hloop

theorem Nvs.Holds.eq_saved {held : Nvs} {r q : Request}
    (hwifi : held.wifi = some (r.cStr.ssid, r.cStr.pwd))
    (hcode : held.pairingCode = some r.cStr.code) (h : held.Holds q) : q.cStr = r.cStr := by
  obtain ⟨hssid, hpwd⟩ := Prod.mk.inj (Option.some.inj (h.wifi.symm.trans hwifi))
  have hcode' := Option.some.inj (h.pairingCode.symm.trans hcode)
  cases hq : q.cStr
  cases hr : r.cStr
  simp only [hq, hr] at hssid hpwd hcode'
  rw [hssid, hpwd, hcode']

/-- A job about to publish, while a request that the storage does not hold waits. -/
theorem not_finishFresh_of_persisted {pre : List Event} {r q : Request} {payload nonce : Bytes}
    {polls : Nat}
    (hloop : ((Portal.machine hapQR nvs).run pre).loop = .persisted r (.ok (payload, nonce)))
    (hhttpd : ((Portal.machine hapQR nvs).run pre).httpd = some (polls, q))
    (hnot : ¬((Portal.machine hapQR nvs).run pre).nvs.Holds q) :
    ¬FinishFresh hapQR nvs (pre ++ [Event.loop {}, .poll]) := by
  intro hfresh
  have hafter : (Portal.machine hapQR nvs).run (pre ++ [Event.loop {}]) =
      { (Portal.machine hapQR nvs).run pre with
        qr := payload, nonce := nonce, fstate := .done, loop := .top } := by
    rw [StateMachine.run_concat]
    exact Portal.loopStep_persisted_ok hloop
  obtain ⟨polls', q', hhttpd', -, -, hholds⟩ := hfresh (pre ++ [Event.loop {}]) .poll [] (by simp)
    _ _ _ _ (by rw [hafter]; simp only [Portal.serve, hhttpd, Portal.pollFinish]; rfl)
  rw [hafter] at hhttpd' hholds
  obtain ⟨-, rfl⟩ := Prod.mk.inj (Option.some.inj (hhttpd'.symm.trans hhttpd))
  exact hnot hholds

/-- Another request submitted behind the back of a job: the job answers it. -/
theorem not_finishFresh {pre : List Event} {e : Event} {q r : Request}
    (hsubmits : ((Portal.machine hapQR nvs).run pre).submitsFinish e = some q)
    (hloop : ((Portal.machine hapQR nvs).run pre).loop.inHand = some r)
    (hother : q.cStr ≠ r.cStr) : ∃ post, ¬FinishFresh hapQR nvs (pre ++ e :: post) := by
  obtain ⟨body, rfl, hfree, hinputs⟩ := submitsFinish_eq_some hsubmits
  have hafter : (Portal.machine hapQR nvs).run (pre ++ [Event.finish body]) =
      { (Portal.machine hapQR nvs).run pre with
        request := q, fstate := .pending, httpd := some (0, q) } := by
    rw [StateMachine.run_concat]
    exact Portal.serve_finish_ok hfree hinputs
  rcases LoopTask.inHand_eq_some hloop with hphase | ⟨job, hphase⟩
  · let saved := persist hapQR {} r ((Portal.machine hapQR nvs).run pre).nvs
    have hsaved : (Portal.machine hapQR nvs).run (pre ++ [Event.finish body, .loop {}]) =
        { (Portal.machine hapQR nvs).run pre with
          request := q, fstate := .pending, httpd := some (0, q)
          nvs := saved.1, loop := .persisted r saved.2 } := by
      rw [List.append_cons, StateMachine.run_concat, hafter]
      exact Portal.loopStep_finishing hphase
    refine ⟨[.loop {}, .loop {}, .poll], ?_⟩
    rw [List.append_cons, List.append_cons, List.append_assoc pre]
    apply not_finishFresh_of_persisted
    · rw [List.singleton_append, hsaved]
      rfl
    · rw [List.singleton_append, hsaved]
    · rw [List.singleton_append, hsaved]
      exact fun hholds => hother (hholds.eq_saved rfl rfl)
  · obtain ⟨hwifi, hcode⟩ := run_saved pre r _ hphase
    refine ⟨[.loop {}, .poll], ?_⟩
    rw [List.append_cons]
    apply not_finishFresh_of_persisted
    · rw [hafter]
      exact hphase
    · rw [hafter]
    · rw [hafter]
      exact fun hholds => hother (hholds.eq_saved hwifi hcode)

/-- A finish request of an open network. -/
def openForm (ssid : String) : Bytes :=
  ascii "ssid=" ++ ascii ssid ++ ascii "&code=10203040"

theorem finishInputs_openForm :
    finishInputs (some (openForm "Home")) =
      .ok { ssid := ascii "Home", code := ascii "10203040" } := by
  rfl

/-- The store's refusal of the setup code goes unseen: the job publishes as done. -/
theorem not_finishFresh_of_unstored {pre : List Event} {w : World} {r : Request}
    (hloop : ((Portal.machine hapQR nvs).run pre).loop = .finishing r)
    (hopen : w.storeOk = true) (hrefused : ¬w.codeStored = true)
    (hheld : ((Portal.machine hapQR nvs).run pre).nvs.setupCode ≠ some r.cStr.code) :
    ∃ post, ¬FinishFresh hapQR nvs (pre ++ .loop w :: post) := by
  let held := ((Portal.machine hapQR nvs).run pre).nvs
  obtain ⟨saved, payload, nonce, hpersist, hwifi, hpairing, hcode⟩ :
      ∃ saved payload nonce, persist hapQR w r held = (saved, .ok (payload, nonce)) ∧
        saved.wifi = some (r.cStr.ssid, r.cStr.pwd) ∧ saved.pairingCode = some r.cStr.code ∧
        saved.setupCode = held.setupCode := by
    unfold persist
    simp only
    rw [if_pos hopen, if_neg hrefused]
    exact ⟨_, _, _, rfl, rfl, rfl, rfl⟩
  have hnot : ∀ q, ¬saved.Holds q := by
    intro q hholds
    have hsetup := hholds.setupCode
    rw [hholds.eq_saved hwifi hpairing, hcode] at hsetup
    exact hheld hsetup
  have hafter : (Portal.machine hapQR nvs).run (pre ++ [Event.loop w]) =
      { (Portal.machine hapQR nvs).run pre with
        nvs := saved, loop := .persisted r (.ok (payload, nonce)) } := by
    rw [StateMachine.run_concat]
    refine (Portal.loopStep_finishing hloop).trans ?_
    rw [hpersist]
  cases hhttpd : ((Portal.machine hapQR nvs).run pre).httpd with
  | some busy =>
      -- the request being answered gets the answer
      obtain ⟨polls, q⟩ := busy
      refine ⟨[.loop {}, .poll], ?_⟩
      rw [List.append_cons]
      apply not_finishFresh_of_persisted
      · rw [hafter]
      · rw [hafter]
        exact hhttpd
      · rw [hafter]
        exact hnot q
  | none =>
      -- it has timed out: the next request gets the answer
      let q : Request := { ssid := ascii "Home", code := ascii "10203040" }
      have hafter' : (Portal.machine hapQR nvs).run
          (pre ++ [Event.loop w, .finish (some (openForm "Home"))]) =
          { (Portal.machine hapQR nvs).run pre with
            nvs := saved, loop := .persisted r (.ok (payload, nonce))
            request := q, fstate := .pending, httpd := some (0, q) } := by
        rw [List.append_cons, StateMachine.run_concat, hafter]
        exact Portal.serve_finish_ok hhttpd finishInputs_openForm
      refine ⟨[.finish (some (openForm "Home")), .loop {}, .poll], ?_⟩
      rw [List.append_cons, List.append_cons, List.append_assoc pre]
      apply not_finishFresh_of_persisted
      · rw [List.singleton_append, hafter']
      · rw [List.singleton_append, hafter']
      · rw [List.singleton_append, hafter']
        exact hnot q

/-- Every answer is that of the newest request in every run of timely events, and after
any other event the run can go on to an answer that is not. -/
theorem answers_fresh (hapQR : UInt32 → Bytes → UInt8 → Bytes) (nvs : Nvs) :
    (∀ events, (Portal.machine hapQR nvs).Guarded Portal.Timely events →
      VerifyFresh hapQR nvs events ∧ FinishFresh hapQR nvs events) ∧
    ∀ pre e, ¬((Portal.machine hapQR nvs).run pre).Timely e →
      ∃ post, ¬(VerifyFresh hapQR nvs (pre ++ e :: post) ∧
        FinishFresh hapQR nvs (pre ++ e :: post)) := by
  refine ⟨fun events htimely =>
    ⟨verifyFresh_of_timely htimely, finishFresh_of_timely htimely⟩, ?_⟩
  intro pre e huntimely
  by_contra hall
  push Not at hall
  apply huntimely
  refine ⟨?_, ?_, ?_⟩
  · intro c hsubmits c' hloop
    by_contra hother
    obtain ⟨post, hnot⟩ := not_verifyFresh hsubmits hloop hother
    exact hnot (hall post).1
  · intro q hsubmits r hloop
    by_contra hother
    obtain ⟨post, hnot⟩ := not_finishFresh hsubmits hloop hother
    exact hnot (hall post).2
  · rintro w r rfl hloop hopen
    by_contra hrefused
    rw [not_or] at hrefused
    obtain ⟨post, hnot⟩ := not_finishFresh_of_unstored hloop hopen hrefused.1 hrefused.2
    exact hnot (hall post).2

theorem timely_of_idle {s : Portal} (hunder : s.loop.underTest = none)
    (hinHand : s.loop.inHand = none) (e : Event) : s.Timely e where
  verify c _ c' hc' := by
    rw [hunder] at hc'
    cases hc'
  finish r _ r' hr' := by
    rw [hinHand] at hr'
    cases hr'
  stored w r _ hloop := by
    rw [hloop] at hinHand
    cases hinHand

theorem timely_loop {s : Portal} {w : World} (hstored : w.codeStored = true) :
    s.Timely (.loop w) where
  verify c hc := by cases hc
  finish r hr := by cases hr
  stored w' r he _ _ := by
    cases he
    exact Or.inl hstored

/-- A test that ends before the next request, and one that does not. -/
theorem answers_fresh_tested :
    let hapQR : UInt32 → Bytes → UInt8 → Bytes := fun _ _ _ => []
    let tested : List Event := [.verify (some (openForm "Home")), .loop {}, .loop {},
      .loop { connected := some (ascii "192.168.1.7") }, .loop {}, .verifyStatus]
    let retried : List Event := [.verify (some (openForm "Home")), .loop {}, .loop {}]
    (VerifyFresh hapQR {} tested ∧ FinishFresh hapQR {} tested) ∧
      ∃ post, ¬(VerifyFresh hapQR {} (retried ++ .verify (some (openForm "Attic")) :: post) ∧
        FinishFresh hapQR {} (retried ++ .verify (some (openForm "Attic")) :: post)) := by
  intro hapQR tested retried
  refine ⟨(answers_fresh hapQR {}).1 tested ?_,
    (answers_fresh hapQR {}).2 retried (.verify (some (openForm "Attic"))) ?_⟩
  · exact ((((((StateMachine.Guarded.nil _ _).concat (timely_of_idle rfl rfl _)).concat
      (timely_loop rfl)).concat (timely_loop rfl)).concat (timely_loop rfl)).concat
      (timely_loop rfl)).concat (timely_of_idle rfl rfl _)
  · intro htimely
    have hsame := htimely.verify { ssid := ascii "Attic" } rfl { ssid := ascii "Home" } rfl
    exact absurd hsame (by decide)

theorem poll_waits {s : Portal} {polls : Nat} {r : Request} (hhttpd : s.httpd = some (polls, r))
    (hpending : s.fstate = .pending) (hmore : polls + 1 < finishPolls) :
    (s.serve hapQR .poll).2 = { s with httpd := some (polls + 1, r) } := by
  simp only [Portal.serve, hhttpd, Portal.pollFinish, hpending, if_pos hmore]

theorem poll_times_out {s : Portal} {polls : Nat} {r : Request}
    (hhttpd : s.httpd = some (polls, r)) (hpending : s.fstate = .pending)
    (hlast : ¬polls + 1 < finishPolls) : (s.serve hapQR .poll).2 = { s with httpd := none } := by
  simp only [Portal.serve, hhttpd, Portal.pollFinish, hpending, if_neg hlast]

theorem run_polls {events : List Event} {polls : Nat} {r : Request}
    (hhttpd : ((Portal.machine hapQR nvs).run events).httpd = some (polls, r))
    (hpending : ((Portal.machine hapQR nvs).run events).fstate = .pending) {n : Nat}
    (hmore : polls + n < finishPolls) :
    (Portal.machine hapQR nvs).run (events ++ List.replicate n .poll) =
      { (Portal.machine hapQR nvs).run events with httpd := some (polls + n, r) } := by
  induction n with
  | zero => simp [← hhttpd]
  | succ n ih =>
      have hrun := ih (by omega)
      rw [List.replicate_succ', ← List.append_assoc, StateMachine.run_concat, hrun]
      exact poll_waits rfl hpending (by omega)

/-- Both stale answers are within reach: credentials retried during a test, and a finish
request retried after the wait for the first one timed out while its job was under way. -/
theorem stale_answers :
    ¬(∀ hapQR nvs events, VerifyFresh hapQR nvs events) ∧
      ¬∀ hapQR nvs events, FinishFresh hapQR nvs events := by
  let hapQR : UInt32 → Bytes → UInt8 → Bytes := fun _ _ _ => []
  refine ⟨fun hclaim => ?_, fun hclaim => ?_⟩
  · have hstale := @not_verifyFresh hapQR {}
      [.verify (some (openForm "Home")), .loop {}, .loop {}]
      (.verify (some (openForm "Attic"))) { ssid := ascii "Attic" } { ssid := ascii "Home" }
      rfl rfl (by decide)
    obtain ⟨post, hnot⟩ := hstale
    exact hnot (hclaim _ _ _)
  · let submitted : List Event := [.finish (some (openForm "Home")), .loop {}, .loop {}, .loop {}]
    let home : Request := { ssid := ascii "Home", code := ascii "10203040" }
    have hwaiting : (Portal.machine hapQR {}).run (submitted ++ List.replicate 599 .poll) =
        { (Portal.machine hapQR {}).run submitted with httpd := some (0 + 599, home) } :=
      run_polls rfl rfl (by decide)
    have htimedout : (Portal.machine hapQR {}).run
          (submitted ++ List.replicate 599 .poll ++ [Event.poll]) =
        { (Portal.machine hapQR {}).run submitted with httpd := none } := by
      rw [StateMachine.run_concat, hwaiting]
      exact poll_times_out rfl rfl (by decide)
    have hstale := @not_finishFresh hapQR {}
      (submitted ++ List.replicate 599 .poll ++ [Event.poll])
      (.finish (some (openForm "Attic"))) { ssid := ascii "Attic", code := ascii "10203040" } home
      (by rw [htimedout]; rfl) (by rw [htimedout]; rfl) (by decide)
    obtain ⟨post, hnot⟩ := hstale
    exact hnot (hclaim _ _ _)

end RfIrBlaster.Onboarding
