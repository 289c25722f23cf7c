/-
The configuration API with any number of clients: reads, writes based on what a
client last received, failed store writes and reboots in any order.
-/
import Mathlib.Logic.Function.Basic
import RfIrBlaster.ConfigApi

namespace RfIrBlaster

/-- A configuration a client received with its revision.  `boots` and `writes` only
record when it was served: in which boot, and after how many accepted POSTs of it. -/
structure View where
  config : Config
  rev : UInt32
  boots : Nat
  writes : Nat
deriving DecidableEq, Repr

structure WriteRequest where
  client : Nat
  base : View
  body : Bytes
deriving DecidableEq, Repr

/-- `writeConfig`: the revision the base came with, on an authenticated request. -/
def WriteRequest.post (q : WriteRequest) : HttpRequest :=
  { rev := some (Json.natText q.base.rev.toNat), body := q.body }

/-- The device, its clients and the messages under way. -/
structure Network (σ : Type) where
  api : ApiState σ
  boots : Nat := 0
  writes : Nat := 0
  views : Nat → Option View := fun _ => none
  requests : List WriteRequest := []
  responses : List (Nat × View) := []

inductive NetworkEvent where
  | get (client : Nat)
  | deliver (i : Nat)
  | send (client : Nat) (body : Bytes)
  | handle (i : Nat)
  | reboot
deriving DecidableEq, Repr

namespace Network

variable {σ : Type}

/-- What a response served now carries. -/
def viewNow (s : Network σ) : View :=
  { config := s.api.config, rev := s.api.rev, boots := s.boots, writes := s.writes }

def get (A : ArduinoJson) (client : Nat) (s : Network σ) : Network σ :=
  match handleGetConfig A {} s.api with
  | .served _ _ => { s with responses := s.responses ++ [(client, s.viewNow)] }
  | _ => s

def deliver (i : Nat) (s : Network σ) : Network σ :=
  match s.responses[i]? with
  | none => s
  | some (client, view) =>
      { s with
        views := Function.update s.views client (some view)
        responses := s.responses.eraseIdx i }

def send (client : Nat) (body : Bytes) (s : Network σ) : Network σ :=
  match s.views client with
  | none => s
  | some base =>
      { s with requests := s.requests ++ [{ client := client, base := base, body := body }] }

/-- The device after the POST `q`, `written` telling whether it was accepted. -/
def afterPost (s : Network σ) (api : ApiState σ) (written : Bool) : Network σ :=
  { s with api := api, writes := if written then s.writes + 1 else s.writes }

def handle (A : ArduinoJson) (S : BlobStore σ) (i : Nat) (s : Network σ) : Network σ :=
  match s.requests[i]? with
  | none => s
  | some q =>
      let res := handlePostConfig A S q.post s.api
      let after := s.afterPost res.2 res.1.accepted
      { after with
        requests := s.requests.eraseIdx i
        responses :=
          if res.1.accepted then s.responses ++ [(q.client, after.viewNow)] else s.responses }

def reboot (A : ArduinoJson) (S : BlobStore σ) (s : Network σ) : Network σ :=
  { s with api := boot A S s.api.store, boots := s.boots + 1, writes := 0 }

def step (A : ArduinoJson) (S : BlobStore σ) (s : Network σ) : NetworkEvent → Network σ
  | .get client => s.get A client
  | .deliver i => s.deliver i
  | .send client body => s.send client body
  | .handle i => s.handle A S i
  | .reboot => s.reboot A S

/-- Starts as a device just booted on the store. -/
def machine (A : ArduinoJson) (S : BlobStore σ) (store : σ) :
    StateMachine (Network σ) NetworkEvent where
  init := { api := boot A S store }
  step := step A S

/-- The revision after so many accepted POSTs of a boot. -/
def revAt (writes : Nat) : UInt32 :=
  UInt32.ofNat (1 + writes)

theorem revAt_succ (writes : Nat) : revAt writes + 1 = revAt (writes + 1) := by
  apply UInt32.toNat_inj.mp
  simp only [revAt, UInt32.toNat_add, UInt32.toNat_ofNat']
  change ((1 + writes) % 2 ^ 32 + 1) % 2 ^ 32 = (1 + (writes + 1)) % 2 ^ 32
  omega

/-- Within 2^32 accepted POSTs no revision comes back. -/
theorem revAt_inj {earlier now : Nat} (hle : earlier ≤ now) (hnear : now < earlier + 2 ^ 32)
    (h : revAt earlier = revAt now) : earlier = now := by
  have hmod := congrArg UInt32.toNat h
  simp only [revAt, UInt32.toNat_ofNat'] at hmod
  omega

/-- What the device's state says of a view: one of this boot carries the revision of
its count, and the present configuration if nothing was accepted since. -/
structure Accounts (s : Network σ) (view : View) : Prop where
  boots_le : view.boots ≤ s.boots
  same_boot : view.boots = s.boots →
    view.writes ≤ s.writes ∧ view.rev = revAt view.writes ∧
      (view.writes = s.writes → view.config = s.api.config)

/-- Every view anywhere, held or under way, is accounted for. -/
structure Consistent (s : Network σ) : Prop where
  rev : s.api.rev = revAt s.writes
  views : ∀ client view, s.views client = some view → s.Accounts view
  requests : ∀ q ∈ s.requests, s.Accounts q.base
  responses : ∀ r ∈ s.responses, s.Accounts r.2

theorem accounts_viewNow {s : Network σ} (hrev : s.api.rev = revAt s.writes) :
    s.Accounts s.viewNow :=
  ⟨Nat.le_refl _, fun _ => ⟨Nat.le_refl _, hrev, fun _ => rfl⟩⟩

/-- A step that keeps every old view accounted for and hands out only such views. -/
theorem Consistent.mono {s s' : Network σ} (hrev : s'.api.rev = revAt s'.writes)
    (haccounts : ∀ view, s.Accounts view → s'.Accounts view)
    (hviews : ∀ client view, s'.views client = some view → s.Accounts view)
    (hrequests : ∀ q ∈ s'.requests, s.Accounts q.base)
    (hresponses : ∀ r ∈ s'.responses, s.Accounts r.2 ∨ s'.Accounts r.2) : s'.Consistent where
  rev := hrev
  views client view hview := haccounts view (hviews client view hview)
  requests q hq := haccounts _ (hrequests q hq)
  responses r hr := (hresponses r hr).elim (haccounts _) id

theorem Consistent.get {A : ArduinoJson} {s : Network σ} (h : s.Consistent) (client : Nat) :
    (s.get A client).Consistent := by
  unfold Network.get
  cases handleGetConfig A {} s.api with
  | auth => exact h
  | encode => exact h
  | served text rev =>
      apply Consistent.mono (s := s)
      · exact h.rev
      · exact fun view haccounts => ⟨haccounts.boots_le, haccounts.same_boot⟩
      · exact h.views
      · exact h.requests
      · intro r hr
        left
        rcases List.mem_append.mp hr with hold | hnew
        · exact h.responses r hold
        · rw [List.mem_singleton.mp hnew]
          exact accounts_viewNow h.rev

theorem Consistent.deliver {s : Network σ} (h : s.Consistent) (i : Nat) :
    (s.deliver i).Consistent := by
  unfold Network.deliver
  cases hr : s.responses[i]? with
  | none => exact h
  | some r =>
      obtain ⟨client, received⟩ := r
      apply Consistent.mono (s := s)
      · exact h.rev
      · exact fun view haccounts => ⟨haccounts.boots_le, haccounts.same_boot⟩
      · intro other view hview
        change Function.update s.views client (some received) other = some view at hview
        by_cases hclient : other = client
        · rw [hclient, Function.update_self] at hview
          rw [← Option.some.inj hview]
          exact h.responses _ (List.mem_of_getElem? hr)
        · rw [Function.update_of_ne hclient] at hview
          exact h.views other view hview
      · exact h.requests
      · exact fun r hmem => Or.inl (h.responses r (List.mem_of_mem_eraseIdx hmem))

theorem Consistent.send {s : Network σ} (h : s.Consistent) (client : Nat) (body : Bytes) :
    (s.send client body).Consistent := by
  unfold Network.send
  cases hview : s.views client with
  | none => exact h
  | some base =>
      apply Consistent.mono (s := s)
      · exact h.rev
      · exact fun view haccounts => ⟨haccounts.boots_le, haccounts.same_boot⟩
      · exact h.views
      · intro q hq
        rcases List.mem_append.mp hq with hold | hnew
        · exact h.requests q hold
        · rw [List.mem_singleton.mp hnew]
          exact h.views client base hview
      · exact fun r hr => Or.inl (h.responses r hr)

/-- What a POST does to the device as the views see it: one more accepted write under
the next revision, or nothing. -/
theorem afterPost_spec {A : ArduinoJson} {S : BlobStore σ} {s : Network σ}
    (hrev : s.api.rev = revAt s.writes) (req : HttpRequest) :
    let res := handlePostConfig A S req s.api
    let after := s.afterPost res.2 res.1.accepted
    after.api.rev = revAt after.writes ∧ ∀ view, s.Accounts view → after.Accounts view := by
  intro res after
  rcases handlePostConfig_cases A S req s.api with hwritten | ⟨hrejected, hkept⟩
  · obtain ⟨incoming, -, -, -, -, -, -, -, heq⟩ := hwritten
    have hrevAfter : after.api.rev = s.api.rev + 1 := by
      change res.2.rev = _
      rw [show res = _ from heq]
    have hwrites : after.writes = s.writes + 1 := by
      change (if res.1.accepted then s.writes + 1 else s.writes) = _
      rw [show res = _ from heq]
      rfl
    refine ⟨by rw [hrevAfter, hwrites, hrev, revAt_succ], ?_⟩
    intro view haccounts
    refine ⟨haccounts.boots_le, ?_⟩
    intro hboots
    obtain ⟨hle, hviewRev, -⟩ := haccounts.same_boot hboots
    rw [hwrites]
    exact ⟨Nat.le_succ_of_le hle, hviewRev, fun hnow => absurd hle (by omega)⟩
  · have hwrites : after.writes = s.writes := by
      change (if res.1.accepted then s.writes + 1 else s.writes) = _
      rw [show res.1.accepted = false from hrejected]
      rfl
    have hapi : after.api.rev = s.api.rev ∧ after.api.config = s.api.config := by
      change res.2.rev = _ ∧ res.2.config = _
      rcases hkept with hsame | ⟨incoming, -, hstore⟩
      · rw [show res.2 = _ from hsame]
        exact ⟨rfl, rfl⟩
      · rw [show res.2 = _ from hstore]
        exact ⟨rfl, rfl⟩
    refine ⟨by rw [hapi.1, hwrites, hrev], ?_⟩
    intro view haccounts
    refine ⟨haccounts.boots_le, ?_⟩
    intro hboots
    rw [hwrites, hapi.2]
    exact haccounts.same_boot hboots

theorem handle_some {A : ArduinoJson} {S : BlobStore σ} {s : Network σ} {i : Nat}
    {q : WriteRequest} (hq : s.requests[i]? = some q) :
    (s.handle A S i).api = (handlePostConfig A S q.post s.api).2 ∧
      (s.handle A S i).requests = s.requests.eraseIdx i ∧
      (s.handle A S i).views = s.views := by
  unfold Network.handle
  rw [hq]
  exact ⟨rfl, rfl, rfl⟩

theorem Consistent.handle {A : ArduinoJson} {S : BlobStore σ} {s : Network σ}
    (h : s.Consistent) (i : Nat) : (s.handle A S i).Consistent := by
  unfold Network.handle
  cases hq : s.requests[i]? with
  | none => exact h
  | some q =>
      obtain ⟨hrev, haccounts⟩ := afterPost_spec (A := A) (S := S) h.rev q.post
      apply Consistent.mono (s := s)
      · exact hrev
      · intro view hview
        exact ⟨(haccounts view hview).boots_le, (haccounts view hview).same_boot⟩
      · exact h.views
      · exact fun other hother => h.requests other (List.mem_of_mem_eraseIdx hother)
      · intro r hr
        change r ∈ (if _ then _ else _ : List (Nat × View)) at hr
        split_ifs at hr
        · rcases List.mem_append.mp hr with hold | hnew
          · exact Or.inl (h.responses r hold)
          · right
            rw [List.mem_singleton.mp hnew]
            have hnow := accounts_viewNow hrev
            exact ⟨hnow.boots_le, hnow.same_boot⟩
        · exact Or.inl (h.responses r hr)

theorem Consistent.reboot {A : ArduinoJson} {S : BlobStore σ} {s : Network σ}
    (h : s.Consistent) : (s.reboot A S).Consistent := by
  apply Consistent.mono (s := s)
  · rfl
  · intro view hview
    have hle := hview.boots_le
    refine ⟨Nat.le_succ_of_le hle, ?_⟩
    intro hboots
    change view.boots = s.boots + 1 at hboots
    omega
  · exact h.views
  · exact h.requests
  · exact fun r hr => Or.inl (h.responses r hr)

theorem run_consistent (A : ArduinoJson) (S : BlobStore σ) (store : σ)
    (events : List NetworkEvent) : ((machine A S store).run events).Consistent := by
  apply StateMachine.run_induction (machine A S store) (P := fun _ s => s.Consistent)
  · refine ⟨rfl, ?_, ?_, ?_⟩
    · intro client view hview
      cases hview
    · intro q hq
      cases hq
    · intro r hr
      cases hr
  · intro _ event h
    cases event with
    | get client => exact h.get client
    | deliver i => exact h.deliver i
    | send client body => exact h.send client body
    | handle i => exact h.handle i
    | reboot => exact h.reboot

/-- A POST whose revision is the current one only if its base was served in this boot,
fewer than 2^32 accepted POSTs ago, never overwrites another configuration: it is
accepted on the configuration it was based on and answered with a conflict otherwise. -/
theorem fresh_write_never_lost (A : ArduinoJson) (S : BlobStore σ) (store : σ)
    (events : List NetworkEvent) (i : Nat) (q : WriteRequest)
    (hq : ((machine A S store).run events).requests[i]? = some q)
    (hfresh : q.base.rev = ((machine A S store).run events).api.rev →
      q.base.boots = ((machine A S store).run events).boots ∧
        ((machine A S store).run events).writes < q.base.writes + 2 ^ 32) :
    let s := (machine A S store).run events
    let res := handlePostConfig A S q.post s.api
    (res.1.accepted = true → s.api.config = q.base.config) ∧
      (s.api.config ≠ q.base.config → q.body.length ≤ maxBody →
        res.1 = .conflict s.api.rev) := by
  intro s res
  have hconsistent : s.Consistent := run_consistent A S store events
  have hbase : s.Accounts q.base := hconsistent.requests q (List.mem_of_getElem? hq)
  have hsent : queryRev q.post.rev = q.base.rev := strtoul_natText q.base.rev
  -- The revision decides: in one boot it stands for the number of accepted writes.
  have hcurrent : q.base.rev = s.api.rev → s.api.config = q.base.config := by
    intro hrev
    obtain ⟨hboots, hnear⟩ := hfresh hrev
    obtain ⟨hle, hcount, hconfig⟩ := hbase.same_boot hboots
    have hwrites : q.base.writes = s.writes := by
      apply revAt_inj hle hnear
      rw [← hcount, hrev, hconsistent.rev]
    exact (hconfig hwrites).symm
  constructor
  · intro haccepted
    rcases handlePostConfig_cases A S q.post s.api with hwritten | ⟨hrejected, -⟩
    · obtain ⟨incoming, -, -, -, hmatch, -⟩ := hwritten
      exact hcurrent (hsent.symm.trans hmatch)
    · exact absurd (haccepted.symm.trans hrejected) (by decide)
  · intro hsuperseded hsize
    have hother : queryRev q.post.rev ≠ s.api.rev := by
      rw [hsent]
      exact fun hrev => hsuperseded (hcurrent hrev)
    have hbody : readBody q.post = some q.body :=
      (if_neg (Nat.not_lt.mpr hsize)).trans rfl
    change (handlePostConfig A S q.post s.api).1 = _
    rw [stale_post_conflicts A S rfl rfl hbody hother]

def lampRequest : WriteRequest :=
  { client := 0
    base := { config := {}, rev := 1, boots := 0, writes := 0 }
    body := lampPost.body }

/-- The network after client 0 has read the configuration and posted its lamp. -/
def lampSent : Network (Option Bytes) :=
  (machine strictJson (memoryBlobStore 20480) none).run
    [.get 0, .deliver 0, .send 0 lampPost.body]

theorem fresh_write_never_lost_lamp :
    (handlePostConfig strictJson (memoryBlobStore 20480) lampRequest.post lampSent.api).1.accepted =
        true ∧
      lampSent.api.config = lampRequest.base.config := by
  have hsent : lampSent.requests[0]? = some lampRequest := by decide +kernel
  have hnear : lampRequest.base.boots = lampSent.boots ∧
      lampSent.writes < lampRequest.base.writes + 2 ^ 32 := by decide +kernel
  have haccepted : (handlePostConfig strictJson (memoryBlobStore 20480) lampRequest.post
      lampSent.api).1.accepted = true := by decide +kernel
  unfold lampSent at hsent hnear haccepted ⊢
  obtain ⟨hcurrent, -⟩ := fresh_write_never_lost strictJson (memoryBlobStore 20480) none
    [.get 0, .deliver 0, .send 0 lampPost.body] 0 lampRequest hsent fun _ => hnear
  exact ⟨haccepted, hcurrent haccepted⟩

def ledOffBody : Bytes :=
  (toJson strictJson { settings := { ledEnabled := false } }).getD []

/-- What client 1 read on the empty device. -/
def emptyView : View :=
  { config := {}, rev := 1, boots := 0, writes := 0 }

/-- Client 1 reads, then client 0 reads and posts its lamp. -/
def lampRace : List NetworkEvent :=
  [.get 1, .deliver 0, .get 0, .deliver 0, .send 0 lampPost.body]

/-- The lamp is accepted, the device restarts, and client 1 still posts its LED setting
on the empty configuration: the revision matches again and the lamp is overwritten. -/
theorem stale_write_after_reboot :
    let s := (machine strictJson (memoryBlobStore 20480) none).run
      (lampRace ++ [NetworkEvent.handle 0] ++ [NetworkEvent.reboot] ++
        [NetworkEvent.send 1 ledOffBody])
    ∃ q : WriteRequest, s.requests[0]? = some q ∧
      (handlePostConfig strictJson (memoryBlobStore 20480) q.post s.api).1.accepted = true ∧
      s.api.config ≠ q.base.config := by
  intro s
  obtain ⟨raced, hraced⟩ : ∃ raced,
      (machine strictJson (memoryBlobStore 20480) none).run lampRace = raced := ⟨_, rfl⟩
  have hqueue : raced.requests = [lampRequest] ∧ raced.views 1 = some emptyView ∧
      raced.api = emptyDevice := by
    rw [← hraced]
    decide +kernel
  obtain ⟨hrequests, hview, hdevice⟩ := hqueue
  obtain ⟨hpost, hdone, hviews⟩ := handle_some (A := strictJson) (S := memoryBlobStore 20480)
    (s := raced) (i := 0) (q := lampRequest) (by rw [hrequests]; rfl)
  obtain ⟨saved, hsaved⟩ : ∃ saved,
      raced.handle strictJson (memoryBlobStore 20480) 0 = saved := ⟨_, rfl⟩
  rw [hsaved, hdevice] at hpost
  rw [hsaved, hrequests] at hdone
  rw [hsaved] at hviews
  have hs : s = (saved.reboot strictJson (memoryBlobStore 20480)).send 1 ledOffBody := by
    change (machine strictJson (memoryBlobStore 20480) none).run _ = _
    rw [StateMachine.run_concat, StateMachine.run_concat, StateMachine.run_concat, hraced,
      ← hsaved]
    rfl
  have hsend : s.requests = [{ client := 1, base := emptyView, body := ledOffBody }] ∧
      s.api = boot strictJson (memoryBlobStore 20480) saved.api.store := by
    have hstale : (saved.reboot strictJson (memoryBlobStore 20480)).views 1 = some emptyView := by
      rw [← hview, ← hviews]
      rfl
    rw [hs]
    unfold Network.send
    rw [hstale]
    exact ⟨congrArg (· ++ _) hdone, rfl⟩
  obtain ⟨hqueued, hbooted⟩ := hsend
  -- The lamp survives the restart, the revision starts over.
  have haccepted : (handlePostConfig strictJson (memoryBlobStore 20480) lampRequest.post
      emptyDevice).1.accepted = true := by decide +kernel
  have hnames : BodyNamesDistinct strictJson lampRequest.post.body := by decide +kernel
  have hpersisted := (accepted_post_persisted_iff strictJson_lawful
    (memoryBlobStore_lawful 20480) haccepted).mpr hnames
  rw [← hpost] at hpersisted
  have hlamp : s.api.config.devices.length = 1 := by
    rw [hbooted, boot_config, hpersisted.2, hpost]
    decide +kernel
  let ledOff : WriteRequest := { client := 1, base := emptyView, body := ledOffBody }
  refine ⟨ledOff, by rw [hqueued]; rfl, ?_, ?_⟩
  · have hbody : readBody ledOff.post = some ledOffBody := by decide +kernel
    have hparse : fromJson strictJson ledOffBody =
        some { settings := { ledEnabled := false } } := by decide +kernel
    have hrev : queryRev ledOff.post.rev = s.api.rev := by
      rw [hbooted, boot_rev]
      decide +kernel
    have hstored : (save strictJson (memoryBlobStore 20480) s.api.store
        { settings := { ledEnabled := false } }).1 = true := by
      rw [memoryBlobStore_save _ _ _ none]
      decide +kernel
    exact fitting_post_accepted strictJson (memoryBlobStore 20480) rfl rfl hbody hrev hparse
      (by decide) hstored
  · intro hsame
    rw [hsame] at hlamp
    exact absurd hlamp (by decide)

end Network

end RfIrBlaster
