/-
The authentication endpoints over whole histories of requests, restarts, power losses and
failing writes: which password lets in, and where it came from.
-/
import RfIrBlaster.StateMachine
import RfIrBlaster.WebAuth

namespace RfIrBlaster.Runtime

/-- A restart: the flash is erased first or keeps its durable writes and `kept` later ones. -/
structure Boot where
  erased : Bool := false
  kept : Nat := 0
  start : Start

/-- Everything that reads or writes the namespace.  The portal and `setup()` have handles of
their own, which may open or not. -/
inductive AuthEvent where
  | csrf (req : AuthRequest) (now : Uptime) (rand : FixedBytes 16)
  | login (req : AuthRequest) (now minted : Uptime)
  | setup (req : AuthRequest) (now minted : Uptime) (salt : FixedBytes 16)
      (answers : AuthServer.SetupAnswers)
  | logout (req : AuthRequest) (now : Uptime)
  | portal (opened : Bool) (rand : FixedBytes 9) (code : Bytes) (nonce setupCode : NvsAnswer)
  | otaPassword (opened : Bool) (rand : FixedBytes 16) (answer : NvsAnswer)
  | boot (b : Boot)

/-- `applyFinish`: a nonce if there is none, and the pairing code. -/
def AuthStore.portal (rand : FixedBytes 9) (code : Bytes) (nonce setupCode : NvsAnswer)
    (s : AuthStore) : AuthStore :=
  if !s.ok then s
  else
    let minted := if s.getNonce.isSome then s else (s.setNonce (makeNonce rand) nonce).2
    (minted.setSetupCode code setupCode).2

/-- What an attempt that passes the CSRF check brings to the throttle. -/
def AuthServer.loginAttempt (crypto : Crypto) (kdf : KeyDerivation) (s : AuthServer)
    (req : AuthRequest) (now : Uptime) : Option LoginAttempt :=
  match Http.readAuthBody req.body with
  | none => none
  | some body =>
      if s.checkCsrf crypto req body [] then
        some
          { key := s.clientKey req
            now := (nowMs now).toUInt32
            ok := s.store.getCredential.any fun record =>
              verifyPassword kdf (fieldText body "password") record }
      else none

/-- The server, with what this boot has MACed and the attempts it has answered, each with the
answer given: these two are a record only. -/
structure AuthRun where
  server : AuthServer
  calls : List TokenCall := []
  served : Served := []

/-- What an answer tells of an attempt at the throttle. -/
def AuthAnswer.reply : AuthAnswer → Option LoginReply
  | .locked retryMs => some (.locked retryMs)
  | .refused _ => some .invalid
  | .signedIn _ => some .ok
  | .token _ | .unreadable _ | .forbidden | .signedOut => none

/-- The session an answer gives out. -/
def AuthAnswer.minted (answer : AuthAnswer) (time : Uptime) : List TokenCall :=
  if answer.accepted then [.mintSession kUser (nowMs time)] else []

namespace AuthRun

section Step

variable (crypto : Crypto) (kdf : KeyDerivation)

def step (r : AuthRun) : AuthEvent → AuthRun
  | .csrf req now rand =>
      { r with calls := r.calls ++ [.mintCsrf (r.server.sessionBinding crypto req now) rand] }
  | .login req now minted =>
      let out := r.server.handleLogin crypto kdf req now minted
      { server := out.2
        calls := r.calls ++ out.1.minted minted
        served := r.served ++ ((r.server.loginAttempt crypto kdf req now).bind fun a =>
          out.1.reply.map fun reply => (a, reply)).toList }
  | .setup req now minted salt answers =>
      let out := r.server.handleSetup crypto kdf req now minted salt answers
      { r with server := out.2, calls := r.calls ++ out.1.minted minted }
  | .logout _ _ => r
  | .portal opened rand code nonce setupCode =>
      let store : AuthStore := { ok := opened, flash := r.server.store.flash }
      let flash := (store.portal rand code nonce setupCode).flash
      { r with server := { r.server with store := { r.server.store with flash := flash } } }
  | .otaPassword opened rand answer =>
      let store : AuthStore := { ok := opened, flash := r.server.store.flash }
      let flash := (store.setOtaPassword (makeOtaPassword rand) answer).2.flash
      { r with server := { r.server with store := { r.server.store with flash := flash } } }
  | .boot b =>
      let flash := if b.erased then {} else r.server.store.flash.lose b.kept
      { server := authBegin b.start flash }

/-- The server as it comes up first, on what the flash holds. -/
def machine (flash : FlashLog AuthKey Bytes) (first : Start) : StateMachine AuthRun AuthEvent where
  init := { server := authBegin first flash }
  step := step crypto kdf

end Step

end AuthRun

/-- What `handleSetup` has checked before it stores a password. -/
structure SetupChecked (crypto : Crypto) (s : AuthServer) (req : AuthRequest) (body : Bytes) :
    Prop where
  body_read : Http.readAuthBody req.body = some body
  csrf : s.checkCsrf crypto req body [] = true
  no_credential : s.store.hasCredential = false
  nonce : s.store.getNonce = some (fieldText body "nonce")
  nonce_ne : fieldText body "nonce" ≠ []
  password : 8 ≤ (fieldText body "password").length

section Credential

variable (kdf : KeyDerivation)

theorem notMem_deriveCredential (password salt : Bytes) (iterations : UInt32) :
    (0 : UInt8) ∉ deriveCredential kdf password salt iterations := by
  have hdecimal : (0 : UInt8) ∉ decimal iterations.toUInt64 := by
    intro h
    exact absurd (decimal_digits _ 0 h) (by decide)
  have hencoded : ∀ data, (0 : UInt8) ∉ base64urlEncode data := by
    intro data h
    exact absurd (base64urlEncode_bytes data 0 h) (by decide)
  have hprefix : (0 : UInt8) ∉ kPrefix := by decide
  simp [deriveCredential, hdecimal, hencoded, hprefix]

theorem cStr_deriveCredential (password salt : Bytes) (iterations : UInt32) :
    cStr (deriveCredential kdf password salt iterations) =
      deriveCredential kdf password salt iterations := by
  rw [cStr, List.takeWhile_eq_self_iff]
  intro c hc
  rw [decide_eq_true_eq]
  rintro rfl
  exact notMem_deriveCredential kdf password salt iterations hc

theorem deriveCredential_ne_nil (password salt : Bytes) (iterations : UInt32) :
    deriveCredential kdf password salt iterations ≠ [] := by
  simp [deriveCredential]

/-- A record lets in the passwords its key is derived from. -/
theorem verifyPassword_derived {salt : Bytes} (hsalt : salt ≠ []) {iterations : UInt32}
    (hiterations : iterations ≠ 0) (password candidate : Bytes) :
    verifyPassword kdf candidate (deriveCredential kdf password salt iterations) = true ↔
      kdf.pbkdf2HmacSha256 candidate salt iterations =
        kdf.pbkdf2HmacSha256 password salt iterations := by
  have hfields := recordFields_four.mpr ⟨rfl, (by decide : 36 ∉ kPrefix),
    notMem_decimal rfl iterations.toUInt64,
    notMem_of_decoded (base64urlDecode_encode salt),
    notMem_of_decoded (base64urlDecode_encode (kdf.pbkdf2HmacSha256 password salt iterations))⟩
  unfold verifyPassword deriveCredential
  simp only [hfields, parseIterations_decimal hiterations, base64urlDecode_encode]
  simp [hsalt, kdf.dk_length, kDerivedKeyLen, constantTimeEqual_iff]

end Credential

namespace AuthServer

variable {crypto : Crypto} {kdf : KeyDerivation} {s : AuthServer}

/-- The record a setup derives from the form. -/
def setupRecord (kdf : KeyDerivation) (body : Bytes) (salt : FixedBytes 16) : Bytes :=
  deriveCredential kdf (fieldText body "password") salt kPbkdf2DefaultIterations

/-- Everything a setup can do: with every check passed it tries to store the record, or it
leaves the server as it is. -/
theorem handleSetup_cases (req : AuthRequest) (now minted : Uptime) (salt : FixedBytes 16)
    (answers : SetupAnswers) :
    (∃ body, SetupChecked crypto s req body ∧
      (((s.store.setCredential (setupRecord kdf body salt) answers.cred).1 = true ∧
          s.handleSetup crypto kdf req now minted salt answers =
            (.signedIn (mintSession crypto s.secret kUser (nowMs minted)),
              { s with
                store := (s.store.setCredential (setupRecord kdf body salt)
                  answers.cred).2.clearNonce answers.nonce })) ∨
        ((s.store.setCredential (setupRecord kdf body salt) answers.cred).1 = false ∧
          s.handleSetup crypto kdf req now minted salt answers =
            (.refused "weak",
              { s with
                store := (s.store.setCredential (setupRecord kdf body salt)
                  answers.cred).2 })))) ∨
      ((s.handleSetup crypto kdf req now minted salt answers).1.accepted = false ∧
        (s.handleSetup crypto kdf req now minted salt answers).2 = s) := by
  unfold handleSetup
  cases hbody : Http.readAuthBody req.body with
  | none => exact Or.inr ⟨rfl, rfl⟩
  | some body =>
      cases hcsrf : s.checkCsrf crypto req body [] with
      | false => exact Or.inr ⟨by simp [hcsrf, AuthAnswer.accepted], by simp [hcsrf]⟩
      | true =>
          cases hallowed : setupAllowed s.store.hasCredential (fieldText body "nonce")
              (s.store.getNonce.getD []) 0 (nowMs now) with
          | false =>
              right
              simp [hcsrf, hallowed, AuthAnswer.accepted]
          | true =>
              by_cases hshort : (fieldText body "password").length < 8
              · right
                simp [hcsrf, hallowed, hshort, AuthAnswer.accepted]
              · left
                obtain ⟨hfresh, hne, hnonce⟩ := setupAllowed_iff.mp hallowed
                have hstored : s.store.getNonce = some (fieldText body "nonce") := by
                  cases hget : s.store.getNonce with
                  | none => simp [hget] at hne
                  | some stored => simp [hnonce, hget]
                have hrecord : (deriveCredential kdf (fieldText body "password") salt
                    kPbkdf2DefaultIterations).isEmpty = false := by
                  simpa using deriveCredential_ne_nil kdf (fieldText body "password") salt
                    kPbkdf2DefaultIterations
                refine ⟨body, ⟨hbody, hcsrf, hfresh, hstored, hnonce ▸ hne, by omega⟩, ?_⟩
                simp only [hcsrf, hallowed, hshort, hrecord, setupRecord, Bool.not_true,
                  Bool.false_eq_true, if_false]
                cases hwritten : (s.store.setCredential (deriveCredential kdf
                    (fieldText body "password") salt kPbkdf2DefaultIterations)
                    answers.cred).1 with
                | true => simp
                | false => simp

/-- With every check passed and the record stored, the setup is accepted. -/
theorem handleSetup_of_checked {req : AuthRequest} {body : Bytes}
    (h : SetupChecked crypto s req body) (now minted : Uptime) {salt : FixedBytes 16}
    {answers : SetupAnswers}
    (hwritten : (s.store.setCredential (setupRecord kdf body salt) answers.cred).1 = true) :
    (s.handleSetup crypto kdf req now minted salt answers).1.accepted = true := by
  have hallowed : setupAllowed s.store.hasCredential (fieldText body "nonce")
      (s.store.getNonce.getD []) 0 (nowMs now) = true := by
    rw [setupAllowed_iff, h.nonce]
    exact ⟨h.no_credential, h.nonce_ne, rfl⟩
  have hlong : ¬(fieldText body "password").length < 8 := Nat.not_lt.mpr h.password
  have hrecord : (deriveCredential kdf (fieldText body "password") salt
      kPbkdf2DefaultIterations).isEmpty = false := by
    simpa using deriveCredential_ne_nil kdf (fieldText body "password") salt
      kPbkdf2DefaultIterations
  rw [setupRecord] at hwritten
  unfold handleSetup
  simp [h.body_read, h.csrf, hallowed, hlong, hrecord, hwritten, AuthAnswer.accepted]

/-- A login is an attempt at the throttle, or is turned away before it. -/
theorem handleLogin_eq (req : AuthRequest) (now minted : Uptime) :
    s.handleLogin crypto kdf req now minted =
      match s.loginAttempt crypto kdf req now with
      | none =>
          (if Http.readAuthBody req.body = none then .unreadable "invalid" else .forbidden, s)
      | some a =>
          (match (Runtime.handleLogin s.throttle a).2 with
            | .locked retryMs => .locked retryMs
            | .invalid => .refused "invalid"
            | .ok => .signedIn (mintSession crypto s.secret kUser (nowMs minted)),
            { s with throttle := (Runtime.handleLogin s.throttle a).1 }) := by
  unfold handleLogin loginAttempt
  cases hbody : Http.readAuthBody req.body with
  | none => rfl
  | some body =>
      cases hcsrf : s.checkCsrf crypto req body [] with
      | false => simp [hcsrf]
      | true =>
          simp only [hcsrf, Bool.not_true, Bool.false_eq_true, if_false, if_true]
          unfold Runtime.handleLogin
          split_ifs <;> rfl

/-- An attempt is answered as the throttle says. -/
theorem handleLogin_reply {req : AuthRequest} {now : Uptime} {a : LoginAttempt}
    (h : s.loginAttempt crypto kdf req now = some a) (minted : Uptime) :
    (s.handleLogin crypto kdf req now minted).1.reply =
      some (Runtime.handleLogin s.throttle a).2 := by
  rw [handleLogin_eq, h]
  cases hreply : (Runtime.handleLogin s.throttle a).2 with
  | locked retryMs => simp [hreply, AuthAnswer.reply]
  | invalid => simp [hreply, AuthAnswer.reply]
  | ok => simp [hreply, AuthAnswer.reply]

theorem handleLogin_store (req : AuthRequest) (now minted : Uptime) :
    (s.handleLogin crypto kdf req now minted).2.store = s.store := by
  rw [handleLogin_eq]
  split <;> rfl

theorem handleSetup_ok (req : AuthRequest) (now minted : Uptime) (salt : FixedBytes 16)
    (answers : SetupAnswers) :
    (s.handleSetup crypto kdf req now minted salt answers).2.store.ok = s.store.ok := by
  rcases @handleSetup_cases crypto kdf s req now minted salt answers with
    ⟨body, -, ⟨-, hout⟩ | ⟨-, hout⟩⟩ | ⟨-, hout⟩
  · rw [hout]
    exact (AuthStore.clearNonce_ok _ _).trans (AuthStore.setStr_ok _ _ _ _)
  · rw [hout]
    exact AuthStore.setStr_ok _ _ _ _
  · rw [hout]

/-- The flash holds this credential for good. -/
def Owned (record : Bytes) (s : AuthServer) : Prop :=
  s.store.flash.Settled .cred (some record)

theorem Owned.readStr {record : Bytes} (h : s.Owned record) :
    s.store.getCredential = if s.store.ok then some record else none := by
  unfold AuthStore.getCredential AuthStore.readStr
  rw [FlashLog.Settled.read h]

/-- Once there is a credential every setup is refused, with the store open or not. -/
theorem Owned.handleSetup {record : Bytes} (h : s.Owned record) (hne : record ≠ [])
    (req : AuthRequest) (now minted : Uptime) (salt : FixedBytes 16) (answers : SetupAnswers) :
    (s.handleSetup crypto kdf req now minted salt answers).1.accepted = false ∧
      (s.handleSetup crypto kdf req now minted salt answers).2 = s := by
  rcases @handleSetup_cases crypto kdf s req now minted salt answers with
    ⟨body, hchecked, -⟩ | hrefused
  · have hcred := h.readStr
    have hfresh := hchecked.no_credential
    have hnonce := hchecked.nonce
    cases hok : s.store.ok with
    | false =>
        have hclosed : s.store.getNonce = none := by
          simp [AuthStore.getNonce, AuthStore.readStr, hok]
        rw [hclosed] at hnonce
        cases hnonce
    | true =>
        rw [hok, if_pos rfl] at hcred
        have hread : s.store.readStr .cred = some record := hcred
        have hpos := List.length_pos_of_ne_nil hne
        rw [AuthStore.hasCredential, hread, Option.any_some, decide_eq_false_iff_not] at hfresh
        omega
  · exact hrefused

/-- An accepted setup leaves its record for good. -/
theorem owned_of_accepted {req : AuthRequest} {now minted : Uptime} {salt : FixedBytes 16}
    {answers : SetupAnswers}
    (h : (s.handleSetup crypto kdf req now minted salt answers).1.accepted = true) :
    ∃ body, SetupChecked crypto s req body ∧
      (s.handleSetup crypto kdf req now minted salt answers).2.Owned
        (setupRecord kdf body salt) := by
  rcases @handleSetup_cases crypto kdf s req now minted salt answers with
    ⟨body, hchecked, ⟨hwritten, hout⟩ | ⟨-, hout⟩⟩ | ⟨hrefused, -⟩
  · refine ⟨body, hchecked, ?_⟩
    rw [hout]
    have hsettled := (AuthStore.setStr_settled hwritten).2
    rw [setupRecord, cStr_deriveCredential] at hsettled
    exact AuthStore.clearNonce_keeps hsettled (by decide) answers.nonce
  · rw [hout] at h
    cases h
  · rw [hrefused] at h
    cases h

theorem authBegin_owned {record : Bytes} {flash : FlashLog AuthKey Bytes}
    (h : flash.Settled .cred (some record)) (start : Start) :
    (authBegin start flash).Owned record := by
  unfold authBegin Owned
  dsimp only
  split_ifs
  · exact h
  · exact h
  · exact h
  · exact AuthStore.setStr_keeps h (by decide) _ _

end AuthServer

theorem AuthStore.portal_keeps {s : AuthStore} {record : Bytes}
    (h : s.flash.Settled .cred (some record)) (rand : FixedBytes 9) (code : Bytes)
    (nonce setupCode : NvsAnswer) :
    (s.portal rand code nonce setupCode).flash.Settled .cred (some record) := by
  unfold AuthStore.portal
  dsimp only
  split_ifs
  · exact h
  · exact setStr_keeps h (by decide) _ _
  · exact setStr_keeps (setStr_keeps h (by decide) _ _) (by decide) _ _

namespace AuthRun

variable {crypto : Crypto} {kdf : KeyDerivation}

/-- The event does not erase the flash. -/
def KeepsFlash : AuthEvent → Prop
  | .boot b => b.erased = false
  | _ => True

theorem step_owned {r : AuthRun} {record : Bytes} (h : r.server.Owned record)
    (hne : record ≠ []) {e : AuthEvent} (hkeep : KeepsFlash e) :
    (r.step crypto kdf e).server.Owned record := by
  cases e with
  | csrf req now rand => exact h
  | login req now minted =>
      unfold AuthServer.Owned
      dsimp only [step]
      rw [AuthServer.handleLogin_store]
      exact h
  | setup req now minted salt answers =>
      dsimp only [step]
      rw [(h.handleSetup hne req now minted salt answers).2]
      exact h
  | logout req now => exact h
  | portal opened rand code nonce setupCode =>
      exact AuthStore.portal_keeps (s := ⟨opened, r.server.store.flash⟩) h rand code nonce setupCode
  | otaPassword opened rand answer =>
      exact AuthStore.setStr_keeps (s := ⟨opened, r.server.store.flash⟩) h (by decide) _ answer
  | boot b =>
      have herased : b.erased = false := hkeep
      dsimp only [step]
      rw [herased, if_neg Bool.false_ne_true]
      exact AuthServer.authBegin_owned (FlashLog.Settled.lose h b.kept) b.start

/-- From an accepted setup on, until the flash is erased, the record is the credential. -/
theorem run_owned {flash : FlashLog AuthKey Bytes} {first : Start} {record : Bytes}
    {pre post : List AuthEvent} (hne : record ≠ [])
    (h : ((machine crypto kdf flash first).run pre).server.Owned record)
    (hkeep : ∀ e ∈ post, KeepsFlash e) :
    ((machine crypto kdf flash first).run (pre ++ post)).server.Owned record := by
  refine (machine crypto kdf flash first).run_prefix_rel
    (R := fun a b => a.server.Owned record → b.server.Owned record) (fun _ ha => ha)
    (fun _ _ _ hab hbc ha => hbc (hab ha)) ?_ h
  intro mid e rest hpost ha
  exact step_owned ha hne (hkeep e (by simp [hpost]))

end AuthRun

/-- A login is accepted for a readable, CSRF-checked form of a client that is not locked,
with a password the stored record verifies. -/
theorem AuthServer.handleLogin_accepted {crypto : Crypto} {kdf : KeyDerivation} {s : AuthServer}
    {req : AuthRequest} {now minted : Uptime} :
    (s.handleLogin crypto kdf req now minted).1.accepted = true ↔
      ∃ body, Http.readAuthBody req.body = some body ∧
        s.checkCsrf crypto req body [] = true ∧
        s.throttle.isLocked (s.clientKey req) (nowMs now).toUInt32 = false ∧
        ∃ record, s.store.getCredential = some record ∧
          verifyPassword kdf (fieldText body "password") record = true := by
  unfold handleLogin
  cases hbody : Http.readAuthBody req.body with
  | none => simp [AuthAnswer.accepted]
  | some body =>
      cases hcsrf : s.checkCsrf crypto req body [] with
      | false => simp [hcsrf, AuthAnswer.accepted]
      | true =>
          cases hlocked : s.throttle.isLocked (s.clientKey req) (nowMs now).toUInt32 with
          | true => simp [hcsrf, hlocked, AuthAnswer.accepted]
          | false =>
              cases hrecord : s.store.getCredential with
              | none => simp [hcsrf, hlocked, AuthAnswer.accepted]
              | some record =>
                  cases hverify : verifyPassword kdf (fieldText body "password") record with
                  | false => simp [hcsrf, hlocked, hverify, AuthAnswer.accepted]
                  | true => simp [hcsrf, hlocked, hverify, AuthAnswer.accepted]

/-- The password of `body`, hashed under `salt`, is the one that lets in, and no other is
ever stored. -/
structure PasswordStands (crypto : Crypto) (kdf : KeyDerivation) (s : AuthServer)
    (body salt : Bytes) : Prop where
  login_iff : ∀ req now minted,
    (s.handleLogin crypto kdf req now minted).1.accepted = true ↔
      s.store.ok = true ∧
      s.throttle.isLocked (s.clientKey req) (nowMs now).toUInt32 = false ∧
      ∃ form, Http.readAuthBody req.body = some form ∧
        s.checkCsrf crypto req form [] = true ∧
        kdf.pbkdf2HmacSha256 (fieldText form "password") salt kPbkdf2DefaultIterations =
          kdf.pbkdf2HmacSha256 (fieldText body "password") salt kPbkdf2DefaultIterations
  setup_refused : ∀ req now minted newSalt answers,
    (s.handleSetup crypto kdf req now minted newSalt answers).1.accepted = false ∧
      (s.handleSetup crypto kdf req now minted newSalt answers).2 = s

theorem AuthServer.Owned.passwordStands {crypto : Crypto} {kdf : KeyDerivation} {s : AuthServer}
    {body : Bytes} {salt : FixedBytes 16} (h : s.Owned (setupRecord kdf body salt)) :
    PasswordStands crypto kdf s body salt where
  login_iff := by
    intro req now minted
    have hsalt : salt.val ≠ [] := by
      intro hnil
      have hlength := salt.property
      rw [hnil] at hlength
      cases hlength
    rw [handleLogin_accepted, h.readStr]
    cases hok : s.store.ok with
    | false => simp
    | true =>
        constructor
        · rintro ⟨form, hform, hcsrf, hlocked, record, hrecord, hverify⟩
          rw [if_pos rfl] at hrecord
          obtain rfl := Option.some.inj hrecord
          refine ⟨rfl, hlocked, form, hform, hcsrf, ?_⟩
          exact (verifyPassword_derived kdf hsalt (by decide) _ _).mp hverify
        · rintro ⟨-, hlocked, form, hform, hcsrf, hkey⟩
          refine ⟨form, hform, hcsrf, hlocked, _, if_pos rfl, ?_⟩
          exact (verifyPassword_derived kdf hsalt (by decide) _ _).mpr hkey
  setup_refused := fun req now minted newSalt answers =>
    h.handleSetup (deriveCredential_ne_nil kdf _ _ _) req now minted newSalt answers

/-- From an accepted setup on, whatever is requested, however often the power fails and
whichever writes do, its password is the only one that lets in and no other can be set, until
the flash is erased. -/
theorem first_password_stands (crypto : Crypto) (kdf : KeyDerivation)
    (flash : FlashLog AuthKey Bytes) (first : Start) (pre post : List AuthEvent)
    (req : AuthRequest) (now minted : Uptime) (salt : FixedBytes 16)
    (answers : AuthServer.SetupAnswers)
    (haccepted : (((AuthRun.machine crypto kdf flash first).run pre).server.handleSetup crypto kdf
      req now minted salt answers).1.accepted = true)
    (hkeep : ∀ e ∈ post, AuthRun.KeepsFlash e) :
    ∃ body, Http.readAuthBody req.body = some body ∧
      8 ≤ (fieldText body "password").length ∧
      PasswordStands crypto kdf
        ((AuthRun.machine crypto kdf flash first).run
          (pre ++ .setup req now minted salt answers :: post)).server body salt := by
  obtain ⟨body, hchecked, howned⟩ := AuthServer.owned_of_accepted haccepted
  refine ⟨body, hchecked.body_read, hchecked.password, ?_⟩
  have hset : ((AuthRun.machine crypto kdf flash first).run
      (pre ++ [AuthEvent.setup req now minted salt answers])).server.Owned
        (AuthServer.setupRecord kdf body salt) := by
    rw [StateMachine.run_concat]
    exact howned
  have hlater := AuthRun.run_owned (deriveCredential_ne_nil kdf _ _ _) hset hkeep
  rw [List.append_assoc] at hlater
  exact hlater.passwordStands

/-- A derivation that keeps the first 32 bytes of the password. -/
def toyDerivation : KeyDerivation where
  pbkdf2HmacSha256 password _ _ := (password ++ List.replicate 32 0).take 32
  dk_length password _ _ := by simp

def zeros (n : Nat) : FixedBytes n :=
  ⟨List.replicate n 0, by simp⟩

/-- A server on a blank flash; its nonce is `AAAAAAAAAAAA`. -/
def firstStart : Start where
  settings := {}
  secret := zeros 32
  nonce := zeros 9

/-- The token `/api/csrf` gave out before the login. -/
def firstToken : Bytes :=
  mintCsrf toyCrypto (zeros 32) [] (zeros 16)

def setupBody : Bytes :=
  Form.formBody
    [("csrf".toList, firstToken.map fun b => Char.ofNat b.toNat),
      ("nonce".toList, "AAAAAAAAAAAA".toList), ("password".toList, "password".toList)]

def setupRequest : AuthRequest where
  cookies := [(ascii "__Host-CSRF", firstToken)]
  body := .ofBytes setupBody

theorem setupBody_password : fieldText setupBody "password" = ascii "password" := by
  rw [fieldText, setupBody, Form.formField_formBody]
  decide +kernel

theorem setupRequest_checked :
    SetupChecked toyCrypto (authBegin firstStart {}) setupRequest setupBody := by
  have hcsrf : fieldText setupBody "csrf" = firstToken := by
    rw [fieldText, setupBody, Form.formField_formBody]
    decide +kernel
  have hnonce : fieldText setupBody "nonce" = ascii "AAAAAAAAAAAA" := by
    rw [fieldText, setupBody, Form.formField_formBody]
    decide +kernel
  constructor
  · decide +kernel
  · rw [AuthServer.checkCsrf, hcsrf]
    decide +kernel
  · decide +kernel
  · rw [hnonce]
    decide +kernel
  · rw [hnonce]
    decide
  · rw [setupBody_password]
    decide

def atBoot : Uptime where
  us := 0
  fits := by decide

/-- The power fails right after the setup, and the device starts again. -/
theorem first_password_stands_power_loss :
    ∃ body, Http.readAuthBody setupRequest.body = some body ∧
      8 ≤ (fieldText body "password").length ∧
      PasswordStands toyCrypto toyDerivation
        ((AuthRun.machine toyCrypto toyDerivation {} firstStart).run
          ([] ++ .setup setupRequest atBoot atBoot (zeros 16) {} ::
            [.boot { start := firstStart }])).server body (zeros 16) := by
  refine first_password_stands toyCrypto toyDerivation {} firstStart []
    [.boot { start := firstStart }] setupRequest atBoot atBoot (zeros 16) {} ?_ ?_
  · exact AuthServer.handleSetup_of_checked setupRequest_checked _ _ (by decide +kernel)
  · simp [AuthRun.KeepsFlash]

section Provenance

variable (crypto : Crypto) (kdf : KeyDerivation) (first : Start)

/-- The random bytes an event draws for a nonce. -/
def AuthEvent.nonceBytes : AuthEvent → Option (FixedBytes 9)
  | .portal _ rand _ _ _ => some rand
  | .boot b => some b.start.nonce
  | _ => none

/-- The text is that of random bytes drawn at a start or by the portal. -/
def NonceDrawn (events : List AuthEvent) (text : Bytes) : Prop :=
  text = makeNonce first.nonce ∨
    ∃ e ∈ events, ∃ rand : FixedBytes 9, e.nonceBytes = some rand ∧ text = makeNonce rand

/-- A setup of the history, with every check passed and a drawn nonce, derived the record. -/
def PasswordSet (events : List AuthEvent) (record : Bytes) : Prop :=
  ∃ pre req now minted salt answers post body,
    events = pre ++ .setup req now minted salt answers :: post ∧
      SetupChecked crypto ((AuthRun.machine crypto kdf {} first).run pre).server req body ∧
      NonceDrawn first pre (fieldText body "nonce") ∧
      record = AuthServer.setupRecord kdf body salt

/-- What a write of the flash comes from. -/
structure Sourced (events : List AuthEvent) (w : AuthKey × Option Bytes) : Prop where
  cred : w.1 = .cred → ∀ record, w.2 = some record → PasswordSet crypto kdf first events record
  nonce : w.1 = .nonce → ∀ text, w.2 = some text → NonceDrawn first events text

variable {crypto : Crypto} {kdf : KeyDerivation} {first : Start}

theorem NonceDrawn.mono {events : List AuthEvent} {text : Bytes}
    (h : NonceDrawn first events text) (e : AuthEvent) : NonceDrawn first (events ++ [e]) text := by
  rcases h with h | ⟨e', he', h⟩
  · exact Or.inl h
  · exact Or.inr ⟨e', List.mem_append_left _ he', h⟩

theorem Sourced.mono {events : List AuthEvent} {w : AuthKey × Option Bytes}
    (h : Sourced crypto kdf first events w) (e : AuthEvent) :
    Sourced crypto kdf first (events ++ [e]) w where
  cred := by
    intro hkey record hrecord
    obtain ⟨pre, req, now, minted, salt, answers, post, body, rfl, hset⟩ :=
      h.cred hkey record hrecord
    exact ⟨pre, req, now, minted, salt, answers, post ++ [e], body, by simp, hset⟩
  nonce := fun hkey text htext => (h.nonce hkey text htext).mono e

theorem cStr_makeNonce (rand : Bytes) : cStr (makeNonce rand) = makeNonce rand := by
  rw [cStr, List.takeWhile_eq_self_iff]
  intro c hc
  rw [decide_eq_true_eq]
  rintro rfl
  exact absurd (base64urlEncode_bytes rand 0 hc) (by decide)

/-- A value under a key that is neither the credential nor the nonce. -/
theorem sourced_other {events : List AuthEvent} {key : AuthKey} (hcred : key ≠ .cred)
    (hnonce : key ≠ .nonce) (value : Option Bytes) :
    Sourced crypto kdf first events (key, value) where
  cred := fun hkey => absurd hkey hcred
  nonce := fun hkey => absurd hkey hnonce

theorem sourced_nonce {events : List AuthEvent} {rand : FixedBytes 9}
    (h : NonceDrawn first events (makeNonce rand)) :
    Sourced crypto kdf first events (.nonce, some (cStr (makeNonce rand))) where
  cred := fun hkey => by cases hkey
  nonce := by
    intro _ text htext
    rw [← Option.some.inj htext, cStr_makeNonce]
    exact h

/-- A set key keeps the writes sourced when its value is. -/
theorem setStr_sourced {events : List AuthEvent} {s : AuthStore} {key : AuthKey} {value : Bytes}
    (h : ∀ w ∈ s.flash.writes, Sourced crypto kdf first events w)
    (hvalue : Sourced crypto kdf first events (key, some (cStr value))) (answer : NvsAnswer) :
    ∀ w ∈ (s.setStr key value answer).2.flash.writes, Sourced crypto kdf first events w := by
  intro w hw
  rcases s.setStr_writes key value answer with hsame | hmore
  · exact h w (hsame ▸ hw)
  · rw [hmore, List.mem_append, List.mem_singleton] at hw
    rcases hw with hw | rfl
    · exact h w hw
    · exact hvalue

theorem clearNonce_sourced {events : List AuthEvent} {s : AuthStore}
    (h : ∀ w ∈ s.flash.writes, Sourced crypto kdf first events w) (answer : NvsAnswer) :
    ∀ w ∈ (s.clearNonce answer).flash.writes, Sourced crypto kdf first events w := by
  intro w hw
  rcases s.clearNonce_writes answer with hsame | hmore
  · exact h w (hsame ▸ hw)
  · rw [hmore, List.mem_append, List.mem_singleton] at hw
    rcases hw with hw | rfl
    · exact h w hw
    · exact ⟨fun hkey => (nomatch hkey), fun _ _ htext => (nomatch htext)⟩

theorem portal_sourced {events : List AuthEvent} {s : AuthStore} {rand : FixedBytes 9}
    (h : ∀ w ∈ s.flash.writes, Sourced crypto kdf first events w)
    (hnonce : NonceDrawn first events (makeNonce rand)) (code : Bytes)
    (nonce setupCode : NvsAnswer) :
    ∀ w ∈ (s.portal rand code nonce setupCode).flash.writes,
      Sourced crypto kdf first events w := by
  have hcode : ∀ text, Sourced crypto kdf first events (.setupCode, some (cStr text)) :=
    fun text => sourced_other (by decide) (by decide) _
  unfold AuthStore.portal AuthStore.setSetupCode AuthStore.setNonce
  dsimp only
  split_ifs
  · exact h
  · exact setStr_sourced h (hcode code) _
  · exact setStr_sourced (setStr_sourced h (sourced_nonce hnonce) _) (hcode code) _

theorem authBegin_sourced {events : List AuthEvent} {start : Start}
    {flash : FlashLog AuthKey Bytes} (h : ∀ w ∈ flash.writes, Sourced crypto kdf first events w)
    (hnonce : NonceDrawn first events (makeNonce start.nonce)) :
    ∀ w ∈ (authBegin start flash).store.flash.writes, Sourced crypto kdf first events w := by
  unfold authBegin
  dsimp only
  split_ifs
  · exact h
  · exact h
  · exact h
  · exact setStr_sourced h (sourced_nonce hnonce) _

/-- Every write of the flash keeps having a source as the history grows by one event. -/
theorem step_sourced {events : List AuthEvent} {e : AuthEvent}
    (h : ∀ w ∈ ((AuthRun.machine crypto kdf {} first).run events).server.store.flash.writes,
      Sourced crypto kdf first events w) :
    ∀ w ∈ (AuthRun.step crypto kdf ((AuthRun.machine crypto kdf {} first).run events)
        e).server.store.flash.writes, Sourced crypto kdf first (events ++ [e]) w := by
  have hold := fun w hw => (h w hw).mono e
  cases e with
  | csrf req now rand => exact hold
  | login req now minted =>
      dsimp only [AuthRun.step]
      rw [AuthServer.handleLogin_store]
      exact hold
  | setup req now minted salt answers =>
      dsimp only [AuthRun.step]
      have hrecord : ∀ body, SetupChecked crypto
          ((AuthRun.machine crypto kdf {} first).run events).server req body →
          Sourced crypto kdf first (events ++ [AuthEvent.setup req now minted salt answers])
            (.cred, some (cStr (AuthServer.setupRecord kdf body salt))) := by
        intro body hchecked
        have hread : ((AuthRun.machine crypto kdf {} first).run events).server.store.flash.read
            .nonce = some (fieldText body "nonce") := by
          have hget := hchecked.nonce
          rw [AuthStore.getNonce, AuthStore.readStr] at hget
          split_ifs at hget
          exact hget
        have hdrawn := (h _ (FlashLog.mem_of_read hread)).nonce rfl _ rfl
        refine ⟨fun _ record heq => ?_, fun hkey => by cases hkey⟩
        rw [AuthServer.setupRecord, cStr_deriveCredential] at heq
        exact ⟨events, req, now, minted, salt, answers, [], body, rfl, hchecked, hdrawn,
          (Option.some.inj heq).symm⟩
      rcases @AuthServer.handleSetup_cases crypto kdf
          ((AuthRun.machine crypto kdf {} first).run events).server req now minted salt answers with
        ⟨body, hchecked, ⟨-, hout⟩ | ⟨-, hout⟩⟩ | ⟨-, hout⟩
      · rw [hout]
        exact clearNonce_sourced (setStr_sourced hold (hrecord body hchecked) answers.cred) _
      · rw [hout]
        exact setStr_sourced hold (hrecord body hchecked) answers.cred
      · rw [hout]
        exact hold
  | logout req now => exact hold
  | portal opened rand code nonce setupCode =>
      have hdrawn : NonceDrawn first (events ++ [AuthEvent.portal opened rand code nonce setupCode])
          (makeNonce rand) :=
        Or.inr ⟨_, List.mem_append_right _ List.mem_cons_self, rand, rfl, rfl⟩
      exact portal_sourced (s := ⟨opened, _⟩) hold hdrawn code nonce setupCode
  | otaPassword opened rand answer =>
      have hpassword : Sourced crypto kdf first
          (events ++ [AuthEvent.otaPassword opened rand answer])
          (.otaPw, some (cStr (makeOtaPassword rand))) :=
        sourced_other (by decide) (by decide) _
      exact setStr_sourced (s := ⟨opened, _⟩) hold hpassword answer
  | boot b =>
      have hdrawn : NonceDrawn first (events ++ [AuthEvent.boot b]) (makeNonce b.start.nonce) :=
        Or.inr ⟨_, List.mem_append_right _ List.mem_cons_self, b.start.nonce, rfl, rfl⟩
      apply authBegin_sourced _ hdrawn
      intro w hw
      split_ifs at hw
      · cases hw
      · exact hold w (List.mem_of_mem_take hw)

/-- On a device that left the factory blank, any credential was set by a setup whose form
passed every check and named a nonce that the device had drawn before. -/
theorem credential_has_source (crypto : Crypto) (kdf : KeyDerivation) (first : Start)
    (events : List AuthEvent) (record : Bytes)
    (h : ((AuthRun.machine crypto kdf {} first).run events).server.store.getCredential =
      some record) :
    PasswordSet crypto kdf first events record := by
  have hall := (AuthRun.machine crypto kdf {} first).run_induction
    (P := fun events r => ∀ w ∈ r.server.store.flash.writes, Sourced crypto kdf first events w)
    (authBegin_sourced (by simp) (Or.inl rfl))
    (fun events e ih => @step_sourced crypto kdf first events e ih) events
  have hread : ((AuthRun.machine crypto kdf {} first).run events).server.store.flash.read .cred =
      some record := by
    rw [AuthStore.getCredential, AuthStore.readStr] at h
    split_ifs at h
    exact h
  exact (hall _ (FlashLog.mem_of_read hread)).cred rfl record rfl

/-- After the setup above: its own form is the source. -/
theorem credential_has_source_first :
    PasswordSet toyCrypto toyDerivation firstStart [.setup setupRequest atBoot atBoot (zeros 16) {}]
      (deriveCredential toyDerivation (ascii "password") (zeros 16) kPbkdf2DefaultIterations) := by
  apply credential_has_source
  obtain ⟨body, hchecked, howned⟩ := AuthServer.owned_of_accepted
    (@AuthServer.handleSetup_of_checked toyCrypto toyDerivation _ _ _ setupRequest_checked
      atBoot atBoot (zeros 16) {} (by decide +kernel))
  obtain rfl : body = setupBody :=
    Option.some.inj (hchecked.body_read.symm.trans setupRequest_checked.body_read)
  refine howned.readStr.trans ?_
  rw [AuthServer.handleSetup_ok, AuthServer.setupRecord, setupBody_password]
  rfl

end Provenance

end RfIrBlaster.Runtime
