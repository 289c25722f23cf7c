/-
A browser at the device: which session it sends after the answers it was given, and when it
is let in.
-/
import RfIrBlaster.BrowserCookies
import RfIrBlaster.JsonText

namespace RfIrBlaster.Runtime

section Lengths

variable (crypto : Crypto) (secret : Bytes)

theorem length_decimal (n : UInt64) : (decimal n).length ≤ 20 := by
  have hroom : 2 ^ 64 ≤ 10 ^ (19 + 1) := by decide
  have hn : n.toNat < 2 ^ 64 := n.toNat_lt
  exact @Json.natText_length n.toNat 19 (Nat.lt_of_lt_of_le hn hroom)

theorem length_mintRaw (p : ParsedToken) :
    3 * (mintRaw crypto secret p).length ≤ 4 * p.user.length + 390 := by
  have hiat := length_decimal p.iat
  have habs := length_decimal p.absExpiry
  have hidle := length_decimal p.idleDeadline
  simp only [mintRaw, ParsedToken.payload, List.length_append, List.length_cons,
    base64urlEncode_length, crypto.mac_length]
  omega

/-- A session fits the buffer its cookie is read into. -/
theorem length_mintSession (iat : UInt64) : (mintSession crypto secret kUser iat).length < 320 := by
  have hraw := length_mintRaw crypto secret
    ⟨kUser, iat, iat + kAbsoluteTimeoutMs, iat + kIdleTimeoutMs⟩
  have huser : kUser.length = 5 := by decide
  dsimp only at hraw
  rw [huser] at hraw
  rw [mintSession_eq crypto secret validUser_kUser]
  exact Nat.lt_of_mul_lt_mul_left (Nat.lt_of_le_of_lt hraw (by decide : 4 * 5 + 390 < 3 * 320))

end Lengths

/-- The session a jar sends. -/
def Jar.session (jar : Jar) (scheme : Scheme) (secure : Bool) : Option Bytes :=
  cookieValue (jar.request scheme []) (sessionCookieName secure)

section Answers

variable {scheme : Scheme} {secure : Bool}

theorem sessionCookieName_ne_csrf : sessionCookieName secure ≠ csrfCookieName secure := by
  cases secure <;> decide

/-- A cleared session is sent no more. -/
theorem receive_clear (jar : Jar) (hscheme : secure = true → scheme = .https) :
    jar.receive scheme (clearSessionCookie secure) =
      jar.filter fun c => c.name ≠ sessionCookieName secure := by
  have hfree : 61 ∉ sessionCookieName secure ∧ 59 ∉ sessionCookieName secure := by
    cases secure <;> decide
  cases secure with
  | true =>
      obtain rfl := hscheme rfl
      obtain ⟨attrs, hattrs⟩ : ∃ attrs,
          ascii " Secure; HttpOnly; SameSite=Strict; Path=/; Max-Age=0" = attrs := ⟨_, rfl⟩
      have hpair := @receive_pair .https (sessionCookieName true) [] attrs jar hfree (by decide)
      have hanswer : clearSessionCookie true =
          sessionCookieName true ++ 61 :: ([] ++ 59 :: attrs) := by
        rw [← hattrs, clearSessionCookie, cookieAttrs]
        repeat rw [ascii_ofList]
        rfl
      rw [hanswer, hpair]
      rw [ascii_ofList] at hattrs
      have hsecure : hasAttribute (59 :: attrs) "secure" = true := by
        rw [← hattrs]
        decide +kernel
      have hpath : hasAttribute (59 :: attrs) "path=/" = true := by
        rw [← hattrs]
        decide +kernel
      have hage : hasAttribute (59 :: attrs) "max-age=0" = true := by
        rw [← hattrs]
        decide +kernel
      simp [hsecure, hpath, hage]
  | false =>
      obtain ⟨attrs, hattrs⟩ : ∃ attrs,
          ascii " HttpOnly; SameSite=Strict; Path=/; Max-Age=0" = attrs := ⟨_, rfl⟩
      have hpair := @receive_pair scheme (sessionCookieName false) [] attrs jar hfree (by decide)
      have hanswer : clearSessionCookie false =
          sessionCookieName false ++ 61 :: ([] ++ 59 :: attrs) := by
        rw [← hattrs, clearSessionCookie, cookieAttrs]
        repeat rw [ascii_ofList]
        rfl
      rw [hanswer, hpair]
      rw [ascii_ofList] at hattrs
      have hplain : (ascii "__Host-").isPrefixOf (sessionCookieName false) = false := by decide
      have hsecure : hasAttribute (59 :: attrs) "secure" = false := by
        rw [← hattrs]
        decide +kernel
      have hage : hasAttribute (59 :: attrs) "max-age=0" = true := by
        rw [← hattrs]
        decide +kernel
      simp [hplain, hsecure, hage]

theorem session_signedIn (hscheme : secure = true → scheme = .https) (jar : Jar) {token : Bytes}
    (hfree : 59 ∉ token) (hlength : token.length < 320) :
    (jar.meet scheme secure (.signedIn token)).session scheme secure = some token := by
  have hmeet := @receive_named scheme secure _ token jar (Or.inl rfl) hfree hscheme
  rw [Jar.meet, AuthAnswer.setCookie, Option.elim_some, sessionCookie, hmeet]
  unfold Jar.session cookieValue Jar.request
  rw [lookup_sent _ hscheme]
  simp [hlength]

theorem session_signedOut (hscheme : secure = true → scheme = .https) (jar : Jar) :
    (jar.meet scheme secure .signedOut).session scheme secure = none := by
  rw [Jar.meet, AuthAnswer.setCookie, Option.elim_some, receive_clear jar hscheme]
  unfold Jar.session cookieValue Jar.request Jar.sent
  rw [List.lookup_eq_none_iff.mpr]
  · rfl
  · intro cookie hcookie
    obtain ⟨c, hc, rfl⟩ := List.mem_map.mp hcookie
    have hname := (List.mem_filter.mp (List.mem_filter.mp hc).1).2
    simpa using Ne.symm (of_decide_eq_true hname)

theorem session_token_kept (hscheme : secure = true → scheme = .https) (jar : Jar)
    {token : Bytes} (hfree : 59 ∉ token) :
    (jar.meet scheme secure (.token token)).session scheme secure = jar.session scheme secure := by
  have hmeet := @receive_named scheme secure _ token jar (Or.inr rfl) hfree hscheme
  rw [Jar.meet, AuthAnswer.setCookie, Option.elim_some, csrfCookie, hmeet]
  unfold Jar.session cookieValue Jar.request
  rw [lookup_sent_cons _ sessionCookieName_ne_csrf,
    lookup_sent_filter _ sessionCookieName_ne_csrf]

end Answers

/-- The event with the cookies of a browser, where it is a request. -/
def AuthEvent.withCookies (cookies : List (Bytes × Bytes)) : AuthEvent → AuthEvent
  | .csrf req now rand => .csrf { req with cookies := cookies } now rand
  | .login req now minted => .login { req with cookies := cookies } now minted
  | .setup req now minted salt answers =>
      .setup { req with cookies := cookies } now minted salt answers
  | .logout req now => .logout { req with cookies := cookies } now
  | e => e

/-- What a request is answered, and the clock behind a session in it. -/
def AuthEvent.answer (crypto : Crypto) (kdf : KeyDerivation) (s : AuthServer) :
    AuthEvent → Option (AuthAnswer × Uptime)
  | .csrf req now rand => some (s.handleCsrf crypto req now rand, now)
  | .login req now minted => some ((s.handleLogin crypto kdf req now minted).1, minted)
  | .setup req now minted salt answers =>
      some ((s.handleSetup crypto kdf req now minted salt answers).1, minted)
  | .logout req now => some (s.handleLogout crypto req now, now)
  | .portal _ _ _ _ _ | .otaPassword _ _ _ | .boot _ => none

/-- Something the device meets: a request of the browser, or anything else. -/
inductive Doing where
  | own (e : AuthEvent)
  | other (e : AuthEvent)

def Doing.event : Doing → AuthEvent
  | .own e | .other e => e

/-- The device and the browser; `signedIn` records the sign-in of the browser that no sign-out
has followed. -/
structure Browsing where
  device : AuthRun
  jar : Jar := []
  signedIn : Option Uptime := none

/-- The record after an answer. -/
def signedInAfter (current : Option Uptime) : AuthAnswer × Uptime → Option Uptime
  | (.signedIn _, minted) => some minted
  | (.signedOut, _) => none
  | _ => current

namespace Browsing

section Run

variable (crypto : Crypto) (kdf : KeyDerivation) (scheme : Scheme)

def meet (b : Browsing) (answer : AuthAnswer × Uptime) : Browsing :=
  { b with
    jar := b.jar.meet scheme b.device.server.secureCookies answer.1
    signedIn := signedInAfter b.signedIn answer }

def step (b : Browsing) : Doing → Browsing
  | .own e =>
      let e := e.withCookies (b.jar.sent scheme)
      let met := (e.answer crypto kdf b.device.server).elim b (b.meet scheme)
      { met with device := b.device.step crypto kdf e }
  | .other e => { b with device := b.device.step crypto kdf e }

def machine (flash : FlashLog AuthKey Bytes) (first : Start) : StateMachine Browsing Doing where
  init := { device := (AuthRun.machine crypto kdf flash first).init }
  step := step crypto kdf scheme

end Run

/-- The server is that of the start, and the jar sends the session of the last sign-in. -/
structure Tracks (crypto : Crypto) (scheme : Scheme) (first : Start) (b : Browsing) : Prop where
  secret : b.device.server.secret = first.secret
  settings : b.device.server.settings = first.settings
  session : b.jar.session scheme first.settings.https =
    b.signedIn.map fun minted => mintSession crypto first.secret kUser (nowMs minted)

variable {crypto : Crypto} {kdf : KeyDerivation} {scheme : Scheme} {first : Start}

theorem restarts_withCookies {e : AuthEvent} {cookies : List (Bytes × Bytes)}
    (h : ¬e.Restarts) : ¬(e.withCookies cookies).Restarts := by
  cases e with
  | boot b => exact absurd trivial h
  | _ => exact id

/-- An answer without a cookie records nothing. -/
theorem signedInAfter_quiet {answer : AuthAnswer} {secure : Bool} (current : Option Uptime)
    (time : Uptime) (h : answer.setCookie secure = none) :
    signedInAfter current (answer, time) = current := by
  cases answer with
  | signedIn token => cases h
  | signedOut => cases h
  | _ => rfl

/-- Everything a request can be answered: a session, a token, a sign-out, or nothing that
touches a cookie. -/
theorem answer_cases {s : AuthServer} {e : AuthEvent} {answer : AuthAnswer} {time : Uptime}
    (h : e.answer crypto kdf s = some (answer, time)) :
    (∃ token, answer = .signedIn token ∧ e.session crypto kdf s = some (token, time)) ∨
      (∃ binding rand, answer = .token (mintCsrf crypto s.secret binding rand)) ∨
      answer = .signedOut ∨ ∀ secure, answer.setCookie secure = none := by
  cases e with
  | csrf req now rand =>
      obtain ⟨rfl, rfl⟩ := Prod.mk.inj (Option.some.inj h)
      exact Or.inr (Or.inl ⟨_, _, rfl⟩)
  | login req now minted =>
      obtain ⟨hlogin, rfl⟩ := Prod.mk.inj (Option.some.inj h)
      rw [AuthEvent.session, hlogin]
      rw [AuthServer.handleLogin_eq] at hlogin
      cases hattempt : s.loginAttempt crypto kdf req now with
      | none =>
          simp only [hattempt] at hlogin
          right; right; right
          rw [← hlogin]
          intro secure
          split_ifs <;> rfl
      | some a =>
          simp only [hattempt] at hlogin
          cases hreply : (handleLogin s.throttle a).2 with
          | ok =>
              left
              rw [hreply] at hlogin
              exact ⟨_, hlogin.symm, by rw [← hlogin]⟩
          | _ =>
              right; right; right
              rw [hreply] at hlogin
              rw [← hlogin]
              exact fun _ => rfl
  | setup req now minted salt answers =>
      obtain ⟨hsetup, rfl⟩ := Prod.mk.inj (Option.some.inj h)
      rw [AuthEvent.session, hsetup]
      unfold AuthServer.handleSetup at hsetup
      cases hbody : Http.readAuthBody req.body with
      | none =>
          rw [hbody] at hsetup
          right; right; right
          rw [← hsetup]
          exact fun _ => rfl
      | some body =>
          rw [hbody] at hsetup
          dsimp only at hsetup
          split_ifs at hsetup
          case neg =>
            left
            exact ⟨_, hsetup.symm, by rw [← hsetup]⟩
          all_goals
            right; right; right
            rw [← hsetup]
            exact fun _ => rfl
  | logout req now =>
      obtain ⟨hlogout, rfl⟩ := Prod.mk.inj (Option.some.inj h)
      right; right
      rw [← hlogout]
      unfold AuthServer.handleLogout
      dsimp only
      generalize (!s.checkCsrf crypto req (if Http.authMaxBody < req.body.contentLen then []
        else Http.buffer req.body) (s.sessionBinding crypto req now)) = refused
      cases refused with
      | true => exact Or.inr fun _ => rfl
      | false => exact Or.inl rfl
  | _ => cases h

/-- Every answer keeps the session in step with the record. -/
theorem Tracks.meet {b : Browsing} (h : b.Tracks crypto scheme first)
    (hscheme : first.settings.https = true → scheme = .https) {e : AuthEvent}
    {answer : AuthAnswer × Uptime} (hanswer : e.answer crypto kdf b.device.server = some answer) :
    (b.meet scheme answer).Tracks crypto scheme first := by
  refine ⟨h.secret, h.settings, ?_⟩
  have hsecure : b.device.server.secureCookies = first.settings.https := by
    rw [AuthServer.secureCookies, h.settings]
  obtain ⟨answer, time⟩ := answer
  unfold Browsing.meet
  rw [hsecure]
  dsimp only
  rcases answer_cases hanswer with ⟨token, rfl, hsession⟩ | ⟨binding, rand, rfl⟩ | rfl | hquiet
  · have htoken := session_token hsession
    rw [h.secret] at htoken
    have hfree : 59 ∉ token := by
      rw [htoken, mintSession_eq crypto first.secret validUser_kUser]
      exact notMem_token (by decide) (by decide) _ _
    have hlength : token.length < 320 := by
      rw [htoken]
      exact length_mintSession crypto first.secret _
    rw [session_signedIn hscheme b.jar hfree hlength, htoken]
    rfl
  · have hfree : 59 ∉ mintCsrf crypto b.device.server.secret binding rand :=
      notMem_token (by decide) (by decide) _ _
    rw [session_token_kept hscheme b.jar hfree]
    exact h.session
  · exact session_signedOut hscheme b.jar
  · rw [signedInAfter_quiet b.signedIn time (hquiet true), Jar.meet, hquiet, Option.elim_none]
    exact h.session

theorem Tracks.step {b : Browsing} (h : b.Tracks crypto scheme first)
    (hscheme : first.settings.https = true → scheme = .https) {d : Doing}
    (hkeep : ¬d.event.Restarts) : (b.step crypto kdf scheme d).Tracks crypto scheme first := by
  cases d with
  | other e =>
      obtain ⟨hsecret, hsettings⟩ := step_identity hkeep
      exact ⟨hsecret.trans h.secret, hsettings.trans h.settings, h.session⟩
  | own e =>
      obtain ⟨hsecret, hsettings⟩ := step_identity (restarts_withCookies hkeep)
      refine ⟨hsecret.trans h.secret, hsettings.trans h.settings, ?_⟩
      dsimp only [Browsing.step]
      cases hanswer : (e.withCookies (b.jar.sent scheme)).answer crypto kdf b.device.server with
      | none => exact h.session
      | some answer => exact (h.meet hscheme hanswer).session

theorem run_tracks (crypto : Crypto) (kdf : KeyDerivation) (scheme : Scheme)
    (flash : FlashLog AuthKey Bytes) (first : Start)
    (hscheme : first.settings.https = true → scheme = .https) (doings : List Doing)
    (hkeep : ∀ d ∈ doings, ¬d.event.Restarts) :
    ((machine crypto kdf scheme flash first).run doings).Tracks crypto scheme first := by
  refine (machine crypto kdf scheme flash first).run_induction
    (P := fun doings b => (∀ d ∈ doings, ¬d.event.Restarts) → b.Tracks crypto scheme first)
    (fun _ => ⟨rfl, rfl, rfl⟩) ?_ doings hkeep
  intro doings d ih hkeep
  have htracks := ih fun d' hd' => hkeep d' (List.mem_append_left _ hd')
  exact htracks.step hscheme (hkeep d (by simp))

/-- While it is used within one boot, whatever others do with the device meanwhile, a browser
is let in exactly when the last of its sign-ins and sign-outs that went through is a sign-in,
less than the idle time ago. -/
theorem browser_let_in (crypto : Crypto) (kdf : KeyDerivation) (scheme : Scheme)
    (flash : FlashLog AuthKey Bytes) (first : Start) (doings : List Doing) (token : Bytes)
    (now : Uptime) (hscheme : first.settings.https = true → scheme = .https)
    (hkeep : ∀ d ∈ doings, ¬d.event.Restarts) :
    ((machine crypto kdf scheme flash first).run doings).device.server.sessionValid crypto
        (((machine crypto kdf scheme flash first).run doings).jar.request scheme token) now =
          true ↔
      ∃ minted, ((machine crypto kdf scheme flash first).run doings).signedIn = some minted ∧
        (nowMs now).toNat < (nowMs minted).toNat + kIdleTimeoutMs.toNat := by
  have htracks := run_tracks crypto kdf scheme flash first hscheme doings hkeep
  have hcookie : cookieValue (((machine crypto kdf scheme flash first).run doings).jar.request
      scheme token) (sessionCookieName first.settings.https) =
        ((machine crypto kdf scheme flash first).run doings).signedIn.map fun minted =>
          mintSession crypto first.secret kUser (nowMs minted) :=
    htracks.session
  rw [AuthServer.sessionValid, AuthServer.session, AuthServer.secureCookies, htracks.settings,
    htracks.secret, hcookie]
  cases ((machine crypto kdf scheme flash first).run doings).signedIn with
  | none => simp
  | some minted =>
      rw [Option.map_some, Option.map_some, Option.any_some, verifySession_minted]
      simp

/-- The browser of the setup is let in, also after another client has asked for a logout. -/
theorem browser_let_in_setup :
    ((machine toyCrypto toyDerivation .https {} firstStart).run
      [.own (.csrf {} atBoot (zeros 16)), .own (.setup setupRequest atBoot atBoot (zeros 16) {}),
        .other (.logout {} atBoot)]).device.server.sessionValid toyCrypto
          (((machine toyCrypto toyDerivation .https {} firstStart).run
            [.own (.csrf {} atBoot (zeros 16)),
              .own (.setup setupRequest atBoot atBoot (zeros 16) {}),
              .other (.logout {} atBoot)]).jar.request .https []) atBoot = true :=
  (browser_let_in toyCrypto toyDerivation .https {} firstStart
    [.own (.csrf {} atBoot (zeros 16)), .own (.setup setupRequest atBoot atBoot (zeros 16) {}),
      .other (.logout {} atBoot)] [] atBoot (fun _ => rfl) (by
      intro d hd
      simp only [List.mem_cons, List.not_mem_nil, or_false] at hd
      rcases hd with rfl | rfl | rfl <;> exact id)).mpr ⟨atBoot, by decide +kernel, by decide⟩

end Browsing

end RfIrBlaster.Runtime
