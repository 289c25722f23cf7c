/-
The dialogs of `learn.js` in one tab: the steps they show, the token each learn call takes,
and what the result of a call makes of them.
-/
import RfIrBlaster.WebLearn

namespace RfIrBlaster.WebLearn

inductive DialogStep where
  | listen
  | captured
  | fail
  | assign
deriving DecidableEq, Repr

/-- The `state` of one `open`, as far as the capture goes; `code` is null until there is one. -/
structure Dialog where
  step : DialogStep := .listen
  code : Json := .null
  reason : Json := .str (ascii "noisy")

/-- A page: the variables `active` and `seq` of the module, the dialogs it has opened, and for
each learn call the dialog that armed it with the token it took. -/
structure Tab where
  session : Session := {}
  active : Bool := false
  seq : Nat := 0
  dialogs : List Dialog := []
  arms : List (Nat × Nat) := []

/-- What the user does.  The buttons of a closed dialog work until its fade-out ends. -/
inductive DialogEvent where
  | open
  | close (dialog : Nat)
  | retry (dialog : Nat)
  | accept (dialog : Nat)
  | back (dialog : Nat)

/-- `FAIL[state.reason].retry`. -/
def retryOffered (reason : Json) : Bool :=
  match reason with
  | .str text => text ≠ ascii "rolling"
  | _ => true

namespace Tab

def setDialog (t : Tab) (d : Nat) (dlg : Dialog) : Tab :=
  { t with dialogs := t.dialogs.set d dlg }

/-- `arm`: a new token, and a learn call whose promise holds it. -/
def arm (t : Tab) (d : Nat) : Tab :=
  { t with
    seq := t.seq + 1
    session := t.session.step .start
    arms := t.arms ++ [(d, t.seq + 1)] }

/-- `setStep('listen')`. -/
def listen (t : Tab) (d : Nat) (dlg : Dialog) : Tab :=
  (t.setDialog d { dlg with step := .listen }).arm d

def openDialog (t : Tab) : Tab :=
  if t.active then t
  else { t with active := true, dialogs := t.dialogs ++ [({} : Dialog)] }.arm t.dialogs.length

/-- Closing while it listens stops the poll loops; the request it posts is one of the events
of the device. -/
def close (t : Tab) (dlg : Dialog) : Tab :=
  { t with
    active := false
    seq := t.seq + 1
    session := if dlg.step = .listen then t.session.step .cancel else t.session }

def dialogStep (t : Tab) : DialogEvent → Tab
  | .open => t.openDialog
  | .close d =>
      match t.dialogs[d]? with
      | none => t
      | some dlg => t.close dlg
  | .retry d =>
      match t.dialogs[d]? with
      | none => t
      | some dlg =>
          if dlg.step = .captured ∨ (dlg.step = .fail ∧ retryOffered dlg.reason = true) then
            t.listen d dlg
          else t
  | .accept d =>
      match t.dialogs[d]? with
      | none => t
      | some dlg => if dlg.step = .captured then t.setDialog d { dlg with step := .assign } else t
  | .back d =>
      match t.dialogs[d]? with
      | none => t
      | some dlg => if dlg.step = .assign then t.setDialog d { dlg with step := .captured } else t

/-- What `arm` does with the result of call `k`. -/
def settle (t : Tab) (k : Nat) (res : Json) : Tab :=
  match t.arms[k]? with
  | none => t
  | some (d, token) =>
      match t.dialogs[d]? with
      | none => t
      | some dlg =>
          if token ≠ t.seq ∨ dlg.step ≠ .listen then t
          else if okOf res = some true then
            t.setDialog d { dlg with code := res.get (ascii "code"), step := .captured }
          else t.setDialog d { dlg with reason := res.get (ascii "reason"), step := .fail }

/-- The answer to the request of call `k`, and the callback of its promise when it resolves. -/
def deliver (t : Tab) (k : Nat) (r : Response) : Tab :=
  let session := t.session.step (.response k r)
  match session.calls[k]? with
  | some (.resolved res) => { t with session := session }.settle k res
  | _ => { t with session := session }

end Tab

/-- The call waits for an answer of the device. -/
def Call.fetching : Call → Bool
  | .starting | .polling => true
  | _ => false

namespace Tab

/-- The tokens are dealt out in order. -/
structure Armed (t : Tab) : Prop where
  order : t.arms.Pairwise fun a b => a.2 < b.2
  recent : ∀ a ∈ t.arms, a.2 ≤ t.seq

/-- A dialog that offers a code got it from the last call it armed. -/
def Shows (fresh : Nat → Json → Prop) (t : Tab) : Prop :=
  ∀ d dlg, t.dialogs[d]? = some dlg → dlg.step = .captured ∨ dlg.step = .assign →
    ∃ k token, t.arms[k]? = some (d, token) ∧
      (∀ k' token', t.arms[k']? = some (d, token') → k' ≤ k) ∧ fresh k dlg.code

variable {t : Tab} {fresh : Nat → Json → Prop}

/-- The call with the current token is the last one armed. -/
theorem Armed.last (h : t.Armed) {k k' : Nat} {a a' : Nat × Nat} (hk : t.arms[k]? = some a)
    (hcurrent : a.2 = t.seq) (hk' : t.arms[k']? = some a') : k' ≤ k := by
  obtain ⟨hlt, rfl⟩ := List.getElem?_eq_some_iff.mp hk
  obtain ⟨hlt', rfl⟩ := List.getElem?_eq_some_iff.mp hk'
  by_contra hlater
  have hmore := List.pairwise_iff_getElem.mp h.order k k' hlt hlt' (Nat.lt_of_not_le hlater)
  have hbound := h.recent t.arms[k'] (List.getElem_mem hlt')
  omega

theorem Armed.arm (h : t.Armed) (d : Nat) : (t.arm d).Armed := by
  refine ⟨?_, ?_⟩
  · change (t.arms ++ [(d, t.seq + 1)]).Pairwise _
    rw [List.pairwise_append]
    refine ⟨h.order, List.pairwise_singleton _ _, fun a ha b hb => ?_⟩
    rw [List.mem_singleton.mp hb]
    exact Nat.lt_succ_of_le (h.recent a ha)
  · intro a ha
    rcases List.mem_append.mp ha with hold | hnew
    · exact Nat.le_trans (h.recent a hold) (Nat.le_succ _)
    · rw [List.mem_singleton.mp hnew]
      exact le_rfl

/-- A dialog that starts to listen again has nothing to show until its new call is through. -/
theorem Shows.arm {d : Nat} (h : t.Shows fresh)
    (hlisten : ∀ dlg, t.dialogs[d]? = some dlg → dlg.step = .listen) :
    (t.arm d).Shows fresh := by
  intro d' dlg hdlg hstep
  have hother : d ≠ d' := by
    rintro rfl
    rw [hlisten dlg hdlg] at hstep
    simp at hstep
  obtain ⟨k, token, hk, hlast, hfresh⟩ := h d' dlg hdlg hstep
  refine ⟨k, token, ?_, ?_, hfresh⟩
  · exact (List.getElem?_append_left (List.getElem?_eq_some_iff.mp hk).1).trans hk
  · intro k' token' hk'
    change (t.arms ++ [(d, t.seq + 1)])[k']? = some (d', token') at hk'
    rcases Nat.lt_trichotomy k' t.arms.length with hlt | rfl | hgt
    · rw [List.getElem?_append_left hlt] at hk'
      exact hlast k' token' hk'
    · rw [List.getElem?_concat_length, Option.some.injEq, Prod.mk.injEq] at hk'
      exact absurd hk'.1 hother
    · rw [List.getElem?_eq_none (by simp; omega)] at hk'
      cases hk'

theorem setDialog_get {d d' : Nat} {dlg dlg' : Dialog}
    (h : (t.setDialog d dlg).dialogs[d']? = some dlg') :
    (d = d' ∧ dlg = dlg') ∨ t.dialogs[d']? = some dlg' := by
  have hset : (t.dialogs.set d dlg)[d']? = some dlg' := h
  rw [List.getElem?_set] at hset
  split_ifs at hset with hd hlt
  · exact Or.inl ⟨hd, Option.some.inj hset⟩
  · exact Or.inr hset

theorem Shows.setDialog (h : t.Shows fresh) {d : Nat} {dlg : Dialog}
    (hnew : dlg.step = .captured ∨ dlg.step = .assign →
      ∃ k token, t.arms[k]? = some (d, token) ∧
        (∀ k' token', t.arms[k']? = some (d, token') → k' ≤ k) ∧ fresh k dlg.code) :
    (t.setDialog d dlg).Shows fresh := by
  intro d' dlg' hdlg hstep
  rcases setDialog_get hdlg with ⟨rfl, rfl⟩ | hold
  · exact hnew hstep
  · exact h d' dlg' hold hstep

theorem Armed.listen (h : t.Armed) (d : Nat) (dlg : Dialog) : (t.listen d dlg).Armed :=
  Armed.arm (t := t.setDialog d { dlg with step := .listen }) ⟨h.order, h.recent⟩ d

theorem Shows.listen (h : t.Shows fresh) {d : Nat} {dlg : Dialog}
    (hdlg : t.dialogs[d]? = some dlg) : (t.listen d dlg).Shows fresh := by
  have hset : (t.setDialog d { dlg with step := .listen }).dialogs[d]? =
      some { dlg with step := .listen } :=
    List.getElem?_set_self (List.getElem?_eq_some_iff.mp hdlg).1
  apply Shows.arm (h.setDialog (by simp))
  intro dlg' hdlg'
  rw [← Option.some.inj (hset.symm.trans hdlg')]

/-- A button of a dialog that is there: it listens again, offers its code or goes back to it. -/
theorem dialogStep_cases (t : Tab) (e : DialogEvent) :
    t.dialogStep e = t ∨ t.dialogStep e = t.openDialog ∨
      ∃ d dlg, t.dialogs[d]? = some dlg ∧
        (t.dialogStep e = t.close dlg ∨ t.dialogStep e = t.listen d dlg ∨
          ∃ step, (dlg.step = .captured ∨ dlg.step = .assign) ∧
            t.dialogStep e = t.setDialog d { dlg with step := step }) := by
  have hbutton : ∀ d : Nat, t.dialogs[d]? = none ∨ ∃ dlg, t.dialogs[d]? = some dlg := by
    intro d
    cases t.dialogs[d]? with
    | none => exact Or.inl rfl
    | some dlg => exact Or.inr ⟨dlg, rfl⟩
  cases e with
  | «open» => exact Or.inr (Or.inl rfl)
  | close d =>
      rcases hbutton d with hnone | ⟨dlg, hdlg⟩
      · exact Or.inl (by simp only [dialogStep, hnone])
      · exact Or.inr (Or.inr ⟨d, dlg, hdlg, Or.inl (by simp only [dialogStep, hdlg])⟩)
  | retry d =>
      rcases hbutton d with hnone | ⟨dlg, hdlg⟩
      · exact Or.inl (by simp only [dialogStep, hnone])
      · simp only [dialogStep, hdlg]
        split_ifs
        · exact Or.inr (Or.inr ⟨d, dlg, hdlg, Or.inr (Or.inl rfl)⟩)
        · exact Or.inl rfl
  | accept d =>
      rcases hbutton d with hnone | ⟨dlg, hdlg⟩
      · exact Or.inl (by simp only [dialogStep, hnone])
      · simp only [dialogStep, hdlg]
        split_ifs with hstep
        · exact Or.inr (Or.inr ⟨d, dlg, hdlg, Or.inr (Or.inr ⟨_, Or.inl hstep, rfl⟩)⟩)
        · exact Or.inl rfl
  | back d =>
      rcases hbutton d with hnone | ⟨dlg, hdlg⟩
      · exact Or.inl (by simp only [dialogStep, hnone])
      · simp only [dialogStep, hdlg]
        split_ifs with hstep
        · exact Or.inr (Or.inr ⟨d, dlg, hdlg, Or.inr (Or.inr ⟨_, Or.inr hstep, rfl⟩)⟩)
        · exact Or.inl rfl

theorem Armed.close (h : t.Armed) (dlg : Dialog) : (t.close dlg).Armed :=
  ⟨h.order, fun a ha => Nat.le_trans (h.recent a ha) (Nat.le_succ _)⟩

theorem Armed.openDialog (h : t.Armed) : t.openDialog.Armed := by
  unfold Tab.openDialog
  split_ifs
  · exact h
  · exact Armed.arm (t := { t with active := true, dialogs := t.dialogs ++ [({} : Dialog)] })
      ⟨h.order, h.recent⟩ _

theorem Shows.openDialog (h : t.Shows fresh) : t.openDialog.Shows fresh := by
  unfold Tab.openDialog
  split_ifs
  · exact h
  · have hnew : ∀ (d : Nat) (dlg : Dialog), (t.dialogs ++ [({} : Dialog)])[d]? = some dlg →
        t.dialogs[d]? = some dlg ∨ dlg.step = .listen := by
      intro d dlg hdlg
      rcases Nat.lt_trichotomy d t.dialogs.length with hlt | rfl | hgt
      · exact Or.inl (List.getElem?_append_left hlt ▸ hdlg)
      · rw [List.getElem?_concat_length] at hdlg
        exact Or.inr (Option.some.inj hdlg ▸ rfl)
      · rw [List.getElem?_eq_none (by simp; omega)] at hdlg
        cases hdlg
    apply Shows.arm
    · intro d dlg hdlg hstep
      rcases hnew d dlg hdlg with hold | hlisten
      · exact h d dlg hold hstep
      · rw [hlisten] at hstep
        simp at hstep
    · intro dlg hdlg
      rcases hnew _ dlg hdlg with hold | hlisten
      · rw [List.getElem?_eq_none le_rfl] at hold
        cases hold
      · exact hlisten

theorem Armed.dialogStep (h : t.Armed) (e : DialogEvent) : (t.dialogStep e).Armed := by
  rcases t.dialogStep_cases e with heq | heq | ⟨d, dlg, -, heq | heq | ⟨step, -, heq⟩⟩
  · rw [heq]
    exact h
  · rw [heq]
    exact h.openDialog
  · rw [heq]
    exact h.close dlg
  · rw [heq]
    exact h.listen d dlg
  · rw [heq]
    exact ⟨h.order, h.recent⟩

theorem Shows.dialogStep (h : t.Shows fresh) (e : DialogEvent) : (t.dialogStep e).Shows fresh := by
  rcases t.dialogStep_cases e with heq | heq | ⟨d, dlg, hdlg, heq | heq | ⟨step, hstep, heq⟩⟩
  · rw [heq]
    exact h
  · rw [heq]
    exact h.openDialog
  · rw [heq]
    exact h
  · rw [heq]
    exact h.listen hdlg
  · rw [heq]
    exact h.setDialog fun _ => h d dlg hdlg hstep

/-- A dialog event makes at most one call. -/
theorem dialogStep_calls (t : Tab) (e : DialogEvent) :
    (t.dialogStep e).session.calls = t.session.calls ∨
      (t.dialogStep e).session.calls = t.session.calls ++ [.starting] := by
  rcases t.dialogStep_cases e with heq | heq | ⟨d, dlg, hdlg, heq | heq | ⟨step, hstep, heq⟩⟩
  · exact Or.inl (by rw [heq])
  · rw [heq]
    unfold openDialog
    split_ifs
    · exact Or.inl rfl
    · exact Or.inr rfl
  · rw [heq]
    unfold Tab.close
    split_ifs
    · exact Or.inl rfl
    · exact Or.inl rfl
  · exact Or.inr (by rw [heq]; rfl)
  · exact Or.inl (by rw [heq]; rfl)

/-- The callback changes a dialog only for its last call, while it listens. -/
theorem settle_cases (t : Tab) (k : Nat) (res : Json) :
    t.settle k res = t ∨
      ∃ d token dlg dlg', t.arms[k]? = some (d, token) ∧ token = t.seq ∧
        t.settle k res = t.setDialog d dlg' ∧ t.dialogs[d]? = some dlg ∧
          ((okOf res = some true ∧ dlg'.code = res.get (ascii "code")) ∨ dlg'.step = .fail) := by
  unfold settle
  cases harm : t.arms[k]? with
  | none => exact Or.inl rfl
  | some a =>
      obtain ⟨d, token⟩ := a
      cases hdlg : t.dialogs[d]? with
      | none => exact Or.inl (by simp only [hdlg])
      | some dlg =>
          simp only [hdlg]
          split_ifs with hstale hok
          · exact Or.inl rfl
          · have hcurrent : token = t.seq := by
              by_contra hne
              exact hstale (Or.inl hne)
            exact Or.inr ⟨d, token, dlg, _, rfl, hcurrent, rfl, hdlg, Or.inl ⟨hok, rfl⟩⟩
          · have hcurrent : token = t.seq := by
              by_contra hne
              exact hstale (Or.inl hne)
            exact Or.inr ⟨d, token, dlg, _, rfl, hcurrent, rfl, hdlg, Or.inr rfl⟩

theorem Armed.settle (h : t.Armed) (k : Nat) (res : Json) : (t.settle k res).Armed := by
  rcases t.settle_cases k res with heq | ⟨d, token, dlg, dlg', -, -, heq, -⟩
  · rw [heq]
    exact h
  · rw [heq]
    exact ⟨h.order, h.recent⟩

theorem Shows.settle (h : t.Shows fresh) (harmed : t.Armed) {k : Nat} {res : Json}
    (hres : okOf res = some true → fresh k (res.get (ascii "code"))) :
    (t.settle k res).Shows fresh := by
  rcases t.settle_cases k res with heq | ⟨d, token, dlg, dlg', harm, hcurrent, heq, -, hcode⟩
  · rw [heq]
    exact h
  · rw [heq]
    apply h.setDialog
    intro hstep
    rcases hcode with ⟨hok, hcode⟩ | hfail
    · refine ⟨k, token, harm, fun k' token' hk' => harmed.last harm hcurrent hk', ?_⟩
      rw [hcode]
      exact hres hok
    · rw [hfail] at hstep
      simp at hstep

@[simp]
theorem settle_session (t : Tab) (k : Nat) (res : Json) :
    (t.settle k res).session = t.session := by
  rcases t.settle_cases k res with heq | ⟨d, token, dlg, dlg', -, -, heq, -⟩ <;> rw [heq]
  rfl

@[simp]
theorem deliver_session (t : Tab) (k : Nat) (r : Response) :
    (t.deliver k r).session = t.session.step (.response k r) := by
  simp only [deliver]
  split
  · exact settle_session _ _ _
  · rfl

theorem Armed.deliver (h : t.Armed) (k : Nat) (r : Response) : (t.deliver k r).Armed := by
  have hsession : ({ t with session := t.session.step (.response k r) } : Tab).Armed :=
    ⟨h.order, h.recent⟩
  simp only [Tab.deliver]
  split
  · exact hsession.settle k _
  · exact hsession

theorem Shows.deliver (h : t.Shows fresh) (harmed : t.Armed) {k : Nat} {r : Response}
    (hres : ∀ res, (t.session.step (.response k r)).calls[k]? = some (.resolved res) →
      okOf res = some true → fresh k (res.get (ascii "code"))) :
    (t.deliver k r).Shows fresh := by
  have hsession : ({ t with session := t.session.step (.response k r) } : Tab).Armed :=
    ⟨harmed.order, harmed.recent⟩
  simp only [Tab.deliver]
  split
  · rename_i res hresolved
    exact Shows.settle (t := { t with session := t.session.step (.response k r) }) h hsession
      (hres res hresolved)
  · exact h

end Tab

theorem fetching_iff {calls : List Call} {k : Nat} :
    (calls[k]?).any Call.fetching = true ↔
      calls[k]? = some .starting ∨ calls[k]? = some .polling := by
  cases hcall : calls[k]? with
  | none => simp
  | some call => cases call <;> simp [Call.fetching]

theorem setCall_self {s : Session} {k : Nat} (hlt : k < s.calls.length) (call : Call) :
    (s.setCall k call).calls[k]? = some call :=
  List.getElem?_set_self hlt

/-- What the answer to its start request makes of a call: only a refusal resolves it. -/
theorem start_response {s : Session} {k : Nat} (hcall : s.calls[k]? = some .starting)
    (r : Response) :
    (r = .unauthorized ∧ (s.step (.response k r)).calls[k]? = some .stopped) ∨
      (r = .failed ∧ (s.step (.response k r)).calls[k]? = some .rejected) ∨
      ∃ doc, r = .json doc ∧ ∀ res, (s.step (.response k r)).calls[k]? = some (.resolved res) →
        okOf res = some false := by
  obtain ⟨hlt, -⟩ := List.getElem?_eq_some_iff.mp hcall
  simp only [Session.step, hcall]
  cases r with
  | failed => exact Or.inr (Or.inl ⟨rfl, setCall_self hlt _⟩)
  | unauthorized => exact Or.inl ⟨rfl, setCall_self hlt _⟩
  | json doc =>
      refine Or.inr (Or.inr ⟨doc, rfl, fun res hres => ?_⟩)
      simp only [Session.startResponse] at hres
      split_ifs at hres with hok
      · rw [setCall_self (by exact hlt), Option.some.injEq, Call.resolved.injEq] at hres
        rw [← hres]
        exact hok
      · rw [Session.poll, setCall_self hlt] at hres
        split_ifs at hres <;> cases hres

/-- A poll resolves its call with the document it gets. -/
theorem poll_response {s : Session} {k : Nat} (hcall : s.calls[k]? = some .polling)
    {r : Response} {res : Json}
    (hres : (s.step (.response k r)).calls[k]? = some (.resolved res)) : r = .json res := by
  obtain ⟨hlt, -⟩ := List.getElem?_eq_some_iff.mp hcall
  simp only [Session.step, hcall] at hres
  cases r with
  | failed =>
      rw [Session.pollResponse, setCall_self hlt] at hres
      split_ifs at hres <;> cases hres
  | unauthorized =>
      rw [Session.pollResponse, setCall_self hlt] at hres
      cases hres
  | json doc =>
      simp only [Session.pollResponse] at hres
      split_ifs at hres
      · rw [setCall_self (by exact hlt), Option.some.injEq, Call.resolved.injEq] at hres
        rw [hres]
      · rw [setCall_self hlt] at hres
        cases hres
      · rw [setCall_self hlt] at hres
        cases hres

/-- The other calls do not notice. -/
theorem call_other {s : Session} {e : Event} {k j : Nat} (he : e.call = some k) (hj : j ≠ k) :
    (s.step e).calls[j]? = s.calls[j]? := by
  rcases step_call (s := s) he with hsame | ⟨call, call', -, -, hcalls⟩
  · rw [hsame]
  · rw [hcalls, List.getElem?_set_ne hj.symm]
end RfIrBlaster.WebLearn
