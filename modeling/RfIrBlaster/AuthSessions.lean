/-
Sessions and CSRF tokens over whole runs of the server: which login an accepted session
comes from, how long it lasts, and what a state-changing call needs.
-/
import RfIrBlaster.AuthRuns
import RfIrBlaster.PendingAction

namespace RfIrBlaster.Runtime

/-- The event signs a client in, with a session minted at `minted`. -/
def SignsIn (crypto : Crypto) (kdf : KeyDerivation) (s : AuthServer) (minted : Uptime) :
    AuthEvent → Prop
  | .login req now minted' =>
      minted' = minted ∧ (s.handleLogin crypto kdf req now minted').1.accepted = true
  | .setup req now minted' salt answers =>
      minted' = minted ∧
        (s.handleSetup crypto kdf req now minted' salt answers).1.accepted = true
  | _ => False

/-- The event asks for a CSRF token, which is bound to `binding`. -/
def FetchesToken (crypto : Crypto) (s : AuthServer) (binding : Bytes) : AuthEvent → Prop
  | .csrf req now _ => s.sessionBinding crypto req now = binding
  | _ => False

def AuthEvent.Restarts : AuthEvent → Prop
  | .boot _ => True
  | _ => False

/-- `events` has an event in which `found` holds of the server that meets it, and no restart
since. -/
def InThisBoot (M : StateMachine AuthRun AuthEvent) (found : AuthServer → AuthEvent → Prop)
    (events : List AuthEvent) : Prop :=
  ∃ pre e post, events = pre ++ e :: post ∧ (∀ e' ∈ post, ¬e'.Restarts) ∧
    found (M.run pre).server e

namespace InThisBoot

variable {M : StateMachine AuthRun AuthEvent} {found : AuthServer → AuthEvent → Prop}

theorem concat {events : List AuthEvent} (h : InThisBoot M found events) {e : AuthEvent}
    (hkeep : ¬e.Restarts) : InThisBoot M found (events ++ [e]) := by
  obtain ⟨pre, e', post, rfl, hpost, hfound⟩ := h
  refine ⟨pre, e', post ++ [e], by simp, ?_, hfound⟩
  intro e'' he''
  rw [List.mem_append, List.mem_singleton] at he''
  rcases he'' with he'' | rfl
  · exact hpost e'' he''
  · exact hkeep

theorem last {events : List AuthEvent} {e : AuthEvent} (h : found (M.run events).server e) :
    InThisBoot M found (events ++ [e]) :=
  ⟨events, e, [], rfl, by simp, h⟩

end InThisBoot

section Calls

variable (crypto : Crypto) (kdf : KeyDerivation) (flash : FlashLog AuthKey Bytes) (first : Start)

/-- What a call that MACed something comes from. -/
def Traced (events : List AuthEvent) : TokenCall → Prop
  | .mintSession user iat =>
      user = kUser ∧ ∃ minted, iat = nowMs minted ∧
        InThisBoot (AuthRun.machine crypto kdf flash first)
          (fun s e => SignsIn crypto kdf s minted e) events
  | .refreshSession _ _ => False
  | .mintCsrf binding _ =>
      InThisBoot (AuthRun.machine crypto kdf flash first)
        (fun s e => FetchesToken crypto s binding e) events

variable {crypto : Crypto} {kdf : KeyDerivation} {flash : FlashLog AuthKey Bytes} {first : Start}

theorem Traced.concat {events : List AuthEvent} {call : TokenCall}
    (h : Traced crypto kdf flash first events call) {e : AuthEvent} (hkeep : ¬e.Restarts) :
    Traced crypto kdf flash first (events ++ [e]) call := by
  cases call with
  | mintSession user iat =>
      obtain ⟨huser, minted, hiat, hin⟩ := h
      exact ⟨huser, minted, hiat, hin.concat hkeep⟩
  | refreshSession token now => exact h
  | mintCsrf binding rand =>
      unfold Traced at h ⊢
      exact h.concat hkeep

/-- A session an event gives out is traced to it. -/
theorem traced_minted {events : List AuthEvent} {e : AuthEvent} {answer : AuthAnswer}
    {minted : Uptime}
    (hsigns : answer.accepted = true → SignsIn crypto kdf
      ((AuthRun.machine crypto kdf flash first).run events).server minted e) :
    ∀ call ∈ answer.minted minted, Traced crypto kdf flash first (events ++ [e]) call := by
  intro call hcall
  rw [AuthAnswer.minted] at hcall
  split_ifs at hcall with haccepted
  · rw [List.mem_singleton] at hcall
    rw [hcall]
    exact ⟨rfl, minted, rfl, InThisBoot.last (hsigns haccepted)⟩
  · cases hcall

/-- Whatever this boot has MACed comes from a login, a setup or a fetched token. -/
theorem run_traced (events : List AuthEvent) :
    ∀ call ∈ ((AuthRun.machine crypto kdf flash first).run events).calls,
      Traced crypto kdf flash first events call := by
  refine (AuthRun.machine crypto kdf flash first).run_induction
    (P := fun events r => ∀ call ∈ r.calls, Traced crypto kdf flash first events call)
    (by simp [AuthRun.machine]) ?_ events
  intro events e ih call hcall
  cases e with
  | csrf req now rand =>
      rcases List.mem_append.mp hcall with hold | hnew
      · exact (ih call hold).concat id
      · rw [List.mem_singleton.mp hnew]
        unfold Traced
        exact InThisBoot.last rfl
  | login req now minted =>
      rcases List.mem_append.mp hcall with hold | hnew
      · exact (ih call hold).concat id
      · exact @traced_minted crypto kdf flash first events (.login req now minted) _ _
          (fun haccepted => ⟨rfl, haccepted⟩) call hnew
  | setup req now minted salt answers =>
      rcases List.mem_append.mp hcall with hold | hnew
      · exact (ih call hold).concat id
      · exact @traced_minted crypto kdf flash first events (.setup req now minted salt answers) _ _
          (fun haccepted => ⟨rfl, haccepted⟩) call hnew
  | logout req now => exact (ih call hcall).concat id
  | portal opened rand code nonce setupCode => exact (ih call hcall).concat id
  | otaPassword opened rand answer => exact (ih call hcall).concat id
  | boot b => cases hcall

end Calls

theorem nowMs_toNat (t : Uptime) : (nowMs t).toNat = t.us / 1000 := by
  have hfits := t.fits
  rw [nowMs, UInt64.toNat_ofNat', Nat.mod_eq_of_lt]
  omega

/-- No time the device can read is near the end of the clock. -/
theorem nowMs_fits (t : Uptime) : (nowMs t).toNat + kAbsoluteTimeoutMs.toNat < 2 ^ 64 := by
  have hfits := t.fits
  have htimeout : kAbsoluteTimeoutMs.toNat = 28800000 := rfl
  rw [nowMs_toNat]
  omega

theorem validUser_kUser : ValidUser kUser := by decide

/-- Fields minted at `minted` and never refreshed. -/
def mintedFields (minted : Uptime) : ParsedToken :=
  ⟨kUser, nowMs minted, nowMs minted + kAbsoluteTimeoutMs, nowMs minted + kIdleTimeoutMs⟩

theorem mintedFields_live (minted now : Uptime) :
    (¬(mintedFields minted).idleDeadline ≤ nowMs now ∧
        ¬(mintedFields minted).absExpiry ≤ nowMs now) ↔
      (nowMs now).toNat < (nowMs minted).toNat + kIdleTimeoutMs.toNat := by
  have hfits := nowMs_fits minted
  have habs : kAbsoluteTimeoutMs.toNat = 28800000 := rfl
  have hidle : kIdleTimeoutMs.toNat = 900000 := rfl
  unfold mintedFields
  rw [add_le_iff (by omega), add_le_iff (by omega)]
  omega

theorem verifySession_minted (crypto : Crypto) (secret : Bytes) (minted now : Uptime) :
    (verifySession crypto secret (mintSession crypto secret kUser (nowMs minted))
        (nowMs now)).valid = true ↔
      (nowMs now).toNat < (nowMs minted).toNat + kIdleTimeoutMs.toNat := by
  rw [← mintedFields_live, mintSession_eq crypto secret validUser_kUser,
    verifySession_mintRaw crypto secret validUser_kUser]
  simp [mintedFields]

/-- The MAC is ideal on what this boot has issued, and no cookie of the request carries a tag
that was not issued. -/
structure Unforged (crypto : Crypto) (r : AuthRun) (req : AuthRequest) : Prop where
  ideal : IdealMac crypto r.server.secret (issuedBy crypto r.server.secret r.calls)
  cookies : ∀ cookie ∈ req.cookies,
    BuiltFromKnown crypto r.server.secret (issuedBy crypto r.server.secret r.calls) cookie.2

theorem mem_of_cookieValue {req : AuthRequest} {name value : Bytes}
    (h : cookieValue req name = some value) : (name, value) ∈ req.cookies := by
  obtain ⟨hlookup, -⟩ := Option.filter_eq_some_iff.mp h
  obtain ⟨front, back, hcookies, -⟩ := List.lookup_eq_some_iff.mp hlookup
  rw [hcookies]
  exact List.mem_append_right _ List.mem_cons_self

/-- What an accepted session is: one of a login or setup of this boot, within the idle time. -/
structure LiveSession (crypto : Crypto) (kdf : KeyDerivation) (flash : FlashLog AuthKey Bytes)
    (first : Start) (events : List AuthEvent) (binding : Bytes) (now minted : Uptime) : Prop where
  signed_in : InThisBoot (AuthRun.machine crypto kdf flash first)
    (fun s e => SignsIn crypto kdf s minted e) events
  in_time : (nowMs now).toNat < (nowMs minted).toNat + kIdleTimeoutMs.toNat
  bound : binding = kUser ++ 124 :: decimal (nowMs minted)

section Traces

variable {crypto : Crypto} {kdf : KeyDerivation} {flash : FlashLog AuthKey Bytes} {first : Start}
  {events : List AuthEvent}

/-- An issued session was minted by a login or setup of this boot. -/
theorem issued_session_minted {secret : Bytes} {p : ParsedToken}
    (h : Issued.session p ∈ issuedBy crypto secret
      ((AuthRun.machine crypto kdf flash first).run events).calls) :
    ∃ minted, p = mintedFields minted ∧
      InThisBoot (AuthRun.machine crypto kdf flash first)
        (fun s e => SignsIn crypto kdf s minted e) events := by
  obtain ⟨call, hcall, hissue⟩ := List.mem_filterMap.mp h
  have htraced := run_traced events call hcall
  cases call with
  | mintSession user iat =>
      obtain ⟨rfl, minted, rfl, hin⟩ := htraced
      refine ⟨minted, ?_, hin⟩
      rw [TokenCall.issue, if_neg (by decide)] at hissue
      exact (Issued.session.inj (Option.some.inj hissue)).symm
  | refreshSession token now => exact absurd htraced id
  | mintCsrf binding rand => cases hissue

/-- What a token minted at `minted` verifies as, and binds to. -/
theorem verifySession_fields {crypto : Crypto} {secret sid : Bytes} {minted : Uptime}
    (hparse : parseToken crypto secret sid = some (mintedFields minted)) (now : Uptime) :
    (verifySession crypto secret sid (nowMs now)).binding =
        kUser ++ 124 :: decimal (nowMs minted) ∧
      ((verifySession crypto secret sid (nowMs now)).valid = true ↔
        (nowMs now).toNat < (nowMs minted).toNat + kIdleTimeoutMs.toNat) := by
  rw [verifySession, hparse, ← mintedFields_live]
  refine ⟨rfl, ?_⟩
  simp

/-- The token of an unforged request that is let in at some time: a login or setup of this
boot minted it. -/
theorem session_of_valid {req : AuthRequest} {now : Uptime}
    (hunforged : Unforged crypto ((AuthRun.machine crypto kdf flash first).run events) req)
    (hvalid : ((AuthRun.machine crypto kdf flash first).run events).server.sessionValid crypto req
      now = true) :
    ∃ sid minted,
      cookieValue req (sessionCookieName
        ((AuthRun.machine crypto kdf flash first).run events).server.secureCookies) = some sid ∧
      parseToken crypto ((AuthRun.machine crypto kdf flash first).run events).server.secret sid =
        some (mintedFields minted) ∧
      InThisBoot (AuthRun.machine crypto kdf flash first)
        (fun s e => SignsIn crypto kdf s minted e) events := by
  rw [AuthServer.sessionValid, Option.any_eq_true] at hvalid
  obtain ⟨result, hsession, hvalid⟩ := hvalid
  obtain ⟨sid, hsid, hverify⟩ := Option.map_eq_some_iff.mp hsession
  have hknown := hunforged.cookies _ (mem_of_cookieValue hsid)
  cases hparse : parseToken crypto
      ((AuthRun.machine crypto kdf flash first).run events).server.secret sid with
  | none =>
      rw [verifySession, hparse] at hverify
      rw [← hverify] at hvalid
      cases hvalid
  | some p =>
      obtain ⟨minted, rfl, hin⟩ :=
        issued_session_minted (parseToken_issued hunforged.ideal hknown hparse)
      exact ⟨sid, minted, hsid, hparse, hin⟩

/-- Any session that is let in was handed out by a login or setup of the same boot, less than
the idle time ago; while that lasts the request is bound to it, and to nothing after. -/
theorem session_bound {req : AuthRequest} {now : Uptime}
    (hunforged : Unforged crypto ((AuthRun.machine crypto kdf flash first).run events) req)
    (hvalid : ((AuthRun.machine crypto kdf flash first).run events).server.sessionValid crypto req
      now = true) :
    ∃ minted, LiveSession crypto kdf flash first events
        (((AuthRun.machine crypto kdf flash first).run events).server.sessionBinding crypto req now)
        now minted ∧
      ∀ later, ((AuthRun.machine crypto kdf flash first).run events).server.sessionBinding crypto
          req later =
        if (nowMs later).toNat < (nowMs minted).toNat + kIdleTimeoutMs.toNat then
          ((AuthRun.machine crypto kdf flash first).run events).server.sessionBinding crypto req now
        else [] := by
  obtain ⟨sid, minted, hsid, hparse, hin⟩ := session_of_valid hunforged hvalid
  have hbinding : ∀ t, ((AuthRun.machine crypto kdf flash first).run
      events).server.sessionBinding crypto req t =
        if (nowMs t).toNat < (nowMs minted).toNat + kIdleTimeoutMs.toNat then
          kUser ++ 124 :: decimal (nowMs minted)
        else [] := by
    intro t
    obtain ⟨hbinding, hlive⟩ := verifySession_fields hparse t
    rw [AuthServer.sessionBinding, AuthServer.session, hsid, Option.map_some]
    simp only [hbinding, hlive]
  have hlive : (nowMs now).toNat < (nowMs minted).toNat + kIdleTimeoutMs.toNat := by
    rw [AuthServer.sessionValid, AuthServer.session, hsid, Option.map_some,
      Option.any_some] at hvalid
    exact (verifySession_fields hparse now).2.mp hvalid
  refine ⟨minted, ⟨hin, hlive, ?_⟩, fun later => ?_⟩
  · rw [hbinding, if_pos hlive]
  · rw [hbinding later, hbinding now, if_pos hlive]

theorem session_traced {req : AuthRequest} {now : Uptime}
    (hunforged : Unforged crypto ((AuthRun.machine crypto kdf flash first).run events) req)
    (hvalid : ((AuthRun.machine crypto kdf flash first).run events).server.sessionValid crypto req
      now = true) :
    ∃ minted, LiveSession crypto kdf flash first events
      (((AuthRun.machine crypto kdf flash first).run events).server.sessionBinding crypto req now)
      now minted := by
  obtain ⟨minted, hlive, -⟩ := session_bound hunforged hvalid
  exact ⟨minted, hlive⟩

/-- The binding of an unforged request is none or that of a live session. -/
theorem sessionBinding_traced {req : AuthRequest} (now : Uptime)
    (hunforged : Unforged crypto ((AuthRun.machine crypto kdf flash first).run events) req) :
    ((AuthRun.machine crypto kdf flash first).run events).server.sessionBinding crypto req now =
        [] ∨
      ∃ minted, LiveSession crypto kdf flash first events
        (((AuthRun.machine crypto kdf flash first).run events).server.sessionBinding crypto req
          now) now minted := by
  cases hvalid : ((AuthRun.machine crypto kdf flash first).run events).server.sessionValid crypto
      req now with
  | true => exact Or.inr (session_traced hunforged hvalid)
  | false =>
      left
      rw [AuthServer.sessionValid] at hvalid
      rw [AuthServer.sessionBinding]
      cases hsession : ((AuthRun.machine crypto kdf flash first).run events).server.session crypto
          req now with
      | none => rfl
      | some result =>
          rw [hsession, Option.any_some] at hvalid
          simp [hvalid]

theorem idealMac_toy {secret : Bytes} {issued : List Issued}
    (hshort : ∀ i ∈ issued, i.message.length ≤ 31) : IdealMac toyCrypto secret issued :=
  fun i hi _ htag => toyCrypto_inj (hshort i hi) htag

/-- The first setup of a blank device, and the token fetched after it. -/
def firstSession : List AuthEvent :=
  [.csrf {} atBoot (zeros 16), .setup setupRequest atBoot atBoot (zeros 16) {}]

def sessionToken : Bytes :=
  mintSession toyCrypto (zeros 32) kUser (nowMs atBoot)

def sessionRequest : AuthRequest where
  cookies := [(ascii "__Host-SID", sessionToken)]

theorem sessionRequest_unforged :
    Unforged toyCrypto ((AuthRun.machine toyCrypto toyDerivation {} firstStart).run firstSession)
      sessionRequest where
  ideal := idealMac_toy (by decide +kernel)
  cookies := by
    intro cookie hcookie
    rw [List.mem_singleton.mp hcookie]
    have hissued : Issued.session (mintedFields atBoot) ∈ issuedBy toyCrypto
        ((AuthRun.machine toyCrypto toyDerivation {} firstStart).run firstSession).server.secret
        ((AuthRun.machine toyCrypto toyDerivation {} firstStart).run firstSession).calls := by
      decide +kernel
    exact builtFromKnown_token toyCrypto _ hissued

theorem plainBinding_minted (minted : Uptime) :
    PlainBinding (kUser ++ 124 :: decimal (nowMs minted)) :=
  Or.inr ⟨kUser, _, rfl, validUser_kUser, by decide, decimal_digits _⟩

theorem sessionBinding_plain {req : AuthRequest} (now : Uptime)
    (hunforged : Unforged crypto ((AuthRun.machine crypto kdf flash first).run events) req) :
    PlainBinding
      (((AuthRun.machine crypto kdf flash first).run events).server.sessionBinding crypto req
        now) := by
  rcases sessionBinding_traced now hunforged with hnone | ⟨minted, hlive⟩
  · exact Or.inl hnone
  · rw [hlive.bound]
    exact plainBinding_minted minted

end Traces

/-- The request of an event, of those that are requests. -/
def AuthEvent.request : AuthEvent → Option AuthRequest
  | .csrf req _ _ | .login req _ _ | .setup req _ _ _ _ | .logout req _ => some req
  | .portal _ _ _ _ _ | .otaPassword _ _ _ | .boot _ => none

/-- No request presents a forged cookie. -/
def NoForgery (crypto : Crypto) (r : AuthRun) (e : AuthEvent) : Prop :=
  ∀ req, e.request = some req → Unforged crypto r req

section Tokens

variable {crypto : Crypto} {kdf : KeyDerivation} {flash : FlashLog AuthKey Bytes} {first : Start}
  {events : List AuthEvent}

/-- In a run without forgeries every CSRF token is bound to no session or to a login. -/
theorem run_bindings_plain
    (hguard : (AuthRun.machine crypto kdf flash first).Guarded (NoForgery crypto) events) :
    ∀ binding rand, TokenCall.mintCsrf binding rand ∈
        ((AuthRun.machine crypto kdf flash first).run events).calls → PlainBinding binding := by
  refine (AuthRun.machine crypto kdf flash first).guarded_run_induction
    (P := fun _ r => ∀ binding rand, TokenCall.mintCsrf binding rand ∈ r.calls →
      PlainBinding binding) (by simp [AuthRun.machine]) ?_ events hguard
  intro events e hforgery ih binding rand hcall
  have hsession : ∀ (answer : AuthAnswer) minted,
      TokenCall.mintCsrf binding rand ∉ answer.minted minted := by
    intro answer minted
    rw [AuthAnswer.minted]
    split_ifs <;> simp
  cases e with
  | csrf req now rand' =>
      rcases List.mem_append.mp hcall with hold | hnew
      · exact ih binding rand hold
      · rw [(TokenCall.mintCsrf.inj (List.mem_singleton.mp hnew)).1]
        exact sessionBinding_plain now (hforgery req rfl)
  | login req now minted =>
      rcases List.mem_append.mp hcall with hold | hnew
      · exact ih binding rand hold
      · exact absurd hnew (hsession _ _)
  | setup req now minted salt answers =>
      rcases List.mem_append.mp hcall with hold | hnew
      · exact ih binding rand hold
      · exact absurd hnew (hsession _ _)
  | logout req now => exact ih binding rand hcall
  | portal opened rand' code nonce setupCode => exact ih binding rand hcall
  | otaPassword opened rand' answer => exact ih binding rand hcall
  | boot b => cases hcall

/-- A token that passes under a binding was fetched in this boot under the same binding. -/
theorem token_fetched
    (hguard : (AuthRun.machine crypto kdf flash first).Guarded (NoForgery crypto) events)
    {req : AuthRequest}
    (hunforged : Unforged crypto ((AuthRun.machine crypto kdf flash first).run events) req)
    {binding formTok : Bytes} (hplain : PlainBinding binding)
    (hverify : verifyCsrf crypto ((AuthRun.machine crypto kdf flash first).run events).server.secret
      binding (((AuthRun.machine crypto kdf flash first).run events).server.csrfCookieText req)
      formTok = true) :
    InThisBoot (AuthRun.machine crypto kdf flash first)
      (fun s e => FetchesToken crypto s binding e) events := by
  obtain ⟨hne, hsame⟩ :
      ((AuthRun.machine crypto kdf flash first).run events).server.csrfCookieText req ≠ [] ∧
        ((AuthRun.machine crypto kdf flash first).run events).server.csrfCookieText req =
          formTok := by
    unfold verifyCsrf at hverify
    split_ifs at hverify with hbad
    simpa [constantTimeEqual_iff] using hbad
  have hknown : BuiltFromKnown crypto
      ((AuthRun.machine crypto kdf flash first).run events).server.secret
      (issuedBy crypto ((AuthRun.machine crypto kdf flash first).run events).server.secret
        ((AuthRun.machine crypto kdf flash first).run events).calls)
      (((AuthRun.machine crypto kdf flash first).run events).server.csrfCookieText req) := by
    unfold AuthServer.csrfCookieText at hne ⊢
    cases hcookie : cookieValue req (csrfCookieName
        ((AuthRun.machine crypto kdf flash first).run events).server.secureCookies) with
    | none => rw [hcookie] at hne; exact absurd rfl hne
    | some value => exact hunforged.cookies _ (mem_of_cookieValue hcookie)
  rw [← hsame] at hverify
  obtain ⟨rand, binding', rand', hissued, -, -, hmessage⟩ :=
    verifyCsrf_issued hunforged.ideal hknown hverify
  obtain ⟨call, hcall, hissue⟩ := List.mem_filterMap.mp hissued
  cases call with
  | mintSession user iat =>
      rw [TokenCall.issue] at hissue
      split_ifs at hissue
      cases hissue
  | refreshSession token now => exact absurd (run_traced events _ hcall) id
  | mintCsrf binding'' rand'' =>
      obtain ⟨rfl, rfl⟩ := Issued.csrf.inj (Option.some.inj hissue)
      obtain ⟨rfl, -⟩ :=
        csrf_message_inj hplain (run_bindings_plain hguard _ _ hcall) hmessage
      exact run_traced events _ hcall

end Tokens

/-- The request of the configuration API as the authentication layer lets it through:
`requireSession` reads the clock at `now`, `requireCsrf` at `later`. -/
def AuthServer.apiRequest (crypto : Crypto) (s : AuthServer) (req : AuthRequest)
    (now later : Uptime) (http : HttpRequest) : HttpRequest :=
  { http with
    session := s.sessionValid crypto req now
    csrf := s.csrfValid crypto req req.xCsrfToken later }

/-- A write of the configuration that is accepted, a factory reset and a new OTA password. -/
def TakesEffect {σ : Type} (A : ArduinoJson) (S : BlobStore σ) (http : HttpRequest)
    (api : ApiState σ) : Prop :=
  (handlePostConfig A S http api).1.accepted = true ∨ (handleFactoryReset http).isSome = true ∨
    ∃ stored, (handleRegenOtaPassword http stored).isSome = true

theorem TakesEffect.checked {σ : Type} {A : ArduinoJson} {S : BlobStore σ} {http : HttpRequest}
    {api : ApiState σ} (h : TakesEffect A S http api) :
    http.session = true ∧ http.csrf = true := by
  rcases h with hpost | hreset | ⟨stored, hregen⟩
  · rcases handlePostConfig_cases A S http api with
      ⟨incoming, hsession, hcsrf, -⟩ | ⟨hrejected, -⟩
    · exact ⟨hsession, hcsrf⟩
    · rw [hrejected] at hpost
      cases hpost
  · unfold handleFactoryReset at hreset
    split_ifs at hreset with hchecked
    · simpa using hchecked
    · cases hreset
  · unfold handleRegenOtaPassword at hregen
    split_ifs at hregen with hchecked
    · simp only [Bool.and_eq_true] at hchecked
      exact hchecked.1
    · cases hregen

/-- Whatever changes the device through its API carries a session of a login of this boot
less than the idle time ago, and a CSRF token fetched in this boot: with the same session, or,
where its idle time runs out between the two checks, with none. -/
theorem effect_traced {σ : Type} (A : ArduinoJson) (S : BlobStore σ) (crypto : Crypto)
    (kdf : KeyDerivation) (flash : FlashLog AuthKey Bytes) (first : Start)
    (events : List AuthEvent) (req : AuthRequest) (now later : Uptime) (http : HttpRequest)
    (api : ApiState σ)
    (hguard : (AuthRun.machine crypto kdf flash first).Guarded (NoForgery crypto) events)
    (hunforged : Unforged crypto ((AuthRun.machine crypto kdf flash first).run events) req)
    (heffect : TakesEffect A S (((AuthRun.machine crypto kdf flash first).run
      events).server.apiRequest crypto req now later http) api) :
    ∃ minted,
      LiveSession crypto kdf flash first events
        (((AuthRun.machine crypto kdf flash first).run events).server.sessionBinding crypto req now)
        now minted ∧
      InThisBoot (AuthRun.machine crypto kdf flash first) (fun s e => FetchesToken crypto s
        (if (nowMs later).toNat < (nowMs minted).toNat + kIdleTimeoutMs.toNat then
          ((AuthRun.machine crypto kdf flash first).run events).server.sessionBinding crypto req now
        else []) e) events := by
  obtain ⟨hsession, hcsrf⟩ := heffect.checked
  obtain ⟨minted, hlive, hlater⟩ := session_bound hunforged hsession
  have hfetched := token_fetched hguard hunforged (sessionBinding_plain later hunforged) hcsrf
  rw [hlater later] at hfetched
  exact ⟨minted, hlive, hfetched⟩

/-- A reset of the page that was set up a moment ago. -/
def boundToken : Bytes :=
  mintCsrf toyCrypto (zeros 32) (kUser ++ 124 :: decimal 0) (zeros 16)

def resetRequest : AuthRequest where
  cookies := [(ascii "__Host-SID", sessionToken), (ascii "__Host-CSRF", boundToken)]
  xCsrfToken := boundToken

def resetSession : List AuthEvent :=
  firstSession ++ [.csrf sessionRequest atBoot (zeros 16)]

theorem resetSession_guarded :
    (AuthRun.machine toyCrypto toyDerivation {} firstStart).Guarded (NoForgery toyCrypto)
      resetSession := by
  have hfetch : NoForgery toyCrypto
      ((AuthRun.machine toyCrypto toyDerivation {} firstStart).run [])
      (.csrf {} atBoot (zeros 16)) := by
    rintro req ⟨⟩
    exact ⟨idealMac_toy (by decide +kernel), by simp⟩
  have hsetup : NoForgery toyCrypto
      ((AuthRun.machine toyCrypto toyDerivation {} firstStart).run
        [.csrf {} atBoot (zeros 16)])
      (.setup setupRequest atBoot atBoot (zeros 16) {}) := by
    rintro req ⟨⟩
    refine ⟨idealMac_toy (by decide +kernel), ?_⟩
    intro cookie hcookie
    rw [List.mem_singleton.mp hcookie]
    have hissued : Issued.csrf [] (zeros 16) ∈ issuedBy toyCrypto
        ((AuthRun.machine toyCrypto toyDerivation {} firstStart).run
          [.csrf {} atBoot (zeros 16)]).server.secret
        ((AuthRun.machine toyCrypto toyDerivation {} firstStart).run
          [.csrf {} atBoot (zeros 16)]).calls := by
      decide +kernel
    exact builtFromKnown_token toyCrypto _ hissued
  have hbind : NoForgery toyCrypto
      ((AuthRun.machine toyCrypto toyDerivation {} firstStart).run firstSession)
      (.csrf sessionRequest atBoot (zeros 16)) := by
    rintro req ⟨⟩
    exact sessionRequest_unforged
  have hnil := StateMachine.Guarded.nil (AuthRun.machine toyCrypto toyDerivation {} firstStart)
    (NoForgery toyCrypto)
  exact ((hnil.concat hfetch).concat hsetup).concat hbind

theorem resetRequest_unforged :
    Unforged toyCrypto ((AuthRun.machine toyCrypto toyDerivation {} firstStart).run resetSession)
      resetRequest where
  ideal := idealMac_toy (by decide +kernel)
  cookies := by
    have hsession : Issued.session (mintedFields atBoot) ∈ issuedBy toyCrypto
        ((AuthRun.machine toyCrypto toyDerivation {} firstStart).run resetSession).server.secret
        ((AuthRun.machine toyCrypto toyDerivation {} firstStart).run resetSession).calls := by
      decide +kernel
    have htoken : Issued.csrf (kUser ++ 124 :: decimal 0) (zeros 16) ∈ issuedBy toyCrypto
        ((AuthRun.machine toyCrypto toyDerivation {} firstStart).run resetSession).server.secret
        ((AuthRun.machine toyCrypto toyDerivation {} firstStart).run resetSession).calls := by
      decide +kernel
    intro cookie hcookie
    rcases List.mem_cons.mp hcookie with rfl | hcookie
    · exact builtFromKnown_token toyCrypto _ hsession
    · rw [List.mem_singleton.mp hcookie]
      exact builtFromKnown_token toyCrypto _ htoken

/-- The reset goes through, with the session and the token of that setup. -/
theorem effect_traced_reset :
    let s := ((AuthRun.machine toyCrypto toyDerivation {} firstStart).run resetSession).server
    ∃ minted,
      LiveSession toyCrypto toyDerivation {} firstStart resetSession
        (s.sessionBinding toyCrypto resetRequest atBoot) atBoot minted ∧
      InThisBoot (AuthRun.machine toyCrypto toyDerivation {} firstStart) (fun s' e =>
        FetchesToken toyCrypto s'
          (if (nowMs atBoot).toNat < (nowMs minted).toNat + kIdleTimeoutMs.toNat then
            s.sessionBinding toyCrypto resetRequest atBoot
          else []) e) resetSession :=
  effect_traced strictJson (memoryBlobStore 20480) toyCrypto toyDerivation {} firstStart
    resetSession resetRequest atBoot atBoot {} emptyDevice resetSession_guarded
    resetRequest_unforged (Or.inr (Or.inl (by decide +kernel)))

/-- The session an event hands out, and when it was minted. -/
def AuthEvent.session (crypto : Crypto) (kdf : KeyDerivation) (s : AuthServer) :
    AuthEvent → Option (Bytes × Uptime)
  | .login req now minted =>
      match (s.handleLogin crypto kdf req now minted).1 with
      | .signedIn token => some (token, minted)
      | _ => none
  | .setup req now minted salt answers =>
      match (s.handleSetup crypto kdf req now minted salt answers).1 with
      | .signedIn token => some (token, minted)
      | _ => none
  | _ => none

section Lifetime

variable {crypto : Crypto} {kdf : KeyDerivation}

theorem session_token {s : AuthServer} {e : AuthEvent} {token : Bytes} {minted : Uptime}
    (h : e.session crypto kdf s = some (token, minted)) :
    token = mintSession crypto s.secret kUser (nowMs minted) := by
  cases e with
  | login req now minted' =>
      rw [AuthEvent.session, AuthServer.handleLogin_eq] at h
      cases hattempt : s.loginAttempt crypto kdf req now with
      | none =>
          simp only [hattempt] at h
          split_ifs at h
      | some a =>
          simp only [hattempt] at h
          cases hreply : (handleLogin s.throttle a).2 with
          | locked retryMs => simp [hreply] at h
          | invalid => simp [hreply] at h
          | ok =>
              simp only [hreply, Option.some.injEq, Prod.mk.injEq] at h
              rw [← h.1, h.2]
  | setup req now minted' salt answers =>
      rw [AuthEvent.session] at h
      rcases @AuthServer.handleSetup_cases crypto kdf s req now minted' salt answers with
        ⟨body, -, ⟨-, hout⟩ | ⟨-, hout⟩⟩ | ⟨hrefused, -⟩
      · simp only [hout, Option.some.injEq, Prod.mk.injEq] at h
        rw [← h.1, h.2]
      · simp [hout] at h
      · cases hanswer : (s.handleSetup crypto kdf req now minted' salt answers).1 with
        | signedIn token' =>
            rw [hanswer] at hrefused
            cases hrefused
        | _ => simp [hanswer] at h
  | _ => cases h

/-- No event but a restart changes the secret or the settings. -/
theorem step_identity {r : AuthRun} {e : AuthEvent} (hkeep : ¬e.Restarts) :
    (r.step crypto kdf e).server.secret = r.server.secret ∧
      (r.step crypto kdf e).server.settings = r.server.settings := by
  cases e with
  | login req now minted =>
      dsimp only [AuthRun.step]
      rw [AuthServer.handleLogin_eq]
      split
      · exact ⟨rfl, rfl⟩
      · exact ⟨rfl, rfl⟩
  | setup req now minted salt answers =>
      dsimp only [AuthRun.step]
      rcases @AuthServer.handleSetup_cases crypto kdf r.server req now minted salt answers with
        ⟨body, -, ⟨-, hout⟩ | ⟨-, hout⟩⟩ | ⟨-, hout⟩
      · rw [hout]
        exact ⟨rfl, rfl⟩
      · rw [hout]
        exact ⟨rfl, rfl⟩
      · rw [hout]
        exact ⟨rfl, rfl⟩
  | boot b => exact absurd trivial hkeep
  | _ => exact ⟨rfl, rfl⟩

/-- Until a restart a session is let in for exactly the idle time after it was handed out:
no request makes it shorter, a logout neither, and none makes it longer. -/
theorem session_lives_idle_time (crypto : Crypto) (kdf : KeyDerivation)
    (flash : FlashLog AuthKey Bytes) (first : Start) (pre post : List AuthEvent) (e : AuthEvent)
    (token : Bytes) (minted : Uptime) (req : AuthRequest) (now : Uptime)
    (hgiven : e.session crypto kdf
      ((AuthRun.machine crypto kdf flash first).run pre).server = some (token, minted))
    (hkeep : ∀ e' ∈ post, ¬e'.Restarts)
    (hcookie : cookieValue req (sessionCookieName
      ((AuthRun.machine crypto kdf flash first).run pre).server.secureCookies) = some token) :
    ((AuthRun.machine crypto kdf flash first).run
        (pre ++ e :: post)).server.sessionValid crypto req now = true ↔
      (nowMs now).toNat < (nowMs minted).toNat + kIdleTimeoutMs.toNat := by
  have hfirst : ¬e.Restarts := by
    cases e with
    | boot b => cases hgiven
    | _ => exact id
  obtain ⟨hsecret, hsettings⟩ :=
    @StateMachine.run_prefix_rel _ _ (AuthRun.machine crypto kdf flash first)
      (fun a b => b.server.secret = a.server.secret ∧ b.server.settings = a.server.settings)
      (fun _ => ⟨rfl, rfl⟩) (fun _ _ _ hab hbc => ⟨hbc.1.trans hab.1, hbc.2.trans hab.2⟩)
      pre (e :: post) (by
        intro mid e' rest hsplit
        apply step_identity
        have hmem : e' ∈ e :: post := by simp [hsplit]
        rcases List.mem_cons.mp hmem with rfl | hmem
        · exact hfirst
        · exact hkeep e' hmem)
  have hsecure : ((AuthRun.machine crypto kdf flash first).run
      (pre ++ e :: post)).server.secureCookies =
        ((AuthRun.machine crypto kdf flash first).run pre).server.secureCookies := by
    rw [AuthServer.secureCookies, hsettings]
    rfl
  rw [AuthServer.sessionValid, AuthServer.session, hsecure, hcookie, Option.map_some,
    Option.any_some, hsecret, session_token hgiven]
  exact verifySession_minted crypto _ minted now

/-- Logged out, the session of the setup is still let in. -/
theorem session_lives_idle_time_logout :
    ((AuthRun.machine toyCrypto toyDerivation {} firstStart).run
      ([AuthEvent.csrf {} atBoot (zeros 16)] ++
        AuthEvent.setup setupRequest atBoot atBoot (zeros 16) {} ::
          [.logout resetRequest atBoot])).server.sessionValid toyCrypto sessionRequest atBoot =
      true := by
  refine (session_lives_idle_time toyCrypto toyDerivation {} firstStart
    [AuthEvent.csrf {} atBoot (zeros 16)] [AuthEvent.logout resetRequest atBoot]
    (.setup setupRequest atBoot atBoot (zeros 16) {}) sessionToken atBoot sessionRequest atBoot
    (by decide +kernel) ?_ (by decide +kernel)).mpr (by decide)
  intro e he
  rw [List.mem_singleton.mp he]
  exact id

end Lifetime

end RfIrBlaster.Runtime
