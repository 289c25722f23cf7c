/-
The throttle behind the login endpoint: the requests of a boot act on it as a run of login
attempts, whatever else is requested between them.
-/
import RfIrBlaster.AuthSessions

namespace RfIrBlaster.Runtime

/-- The attempts this boot has looked at. -/
def AuthRun.attempts (r : AuthRun) : List LoginAttempt :=
  r.served.map Prod.fst

/-- The throttle and the answers are those of the attempts alone. -/
structure ThrottledAlone (r : AuthRun) : Prop where
  throttle : r.server.throttle = (loginMachine.run r.attempts).throttle
  served : r.served = (loginMachine.run r.attempts).served

theorem throttledAlone_attempt {r : AuthRun} (h : ThrottledAlone r) (a : LoginAttempt)
    (server : AuthServer) (hthrottle : server.throttle = (handleLogin r.server.throttle a).1)
    (calls : List TokenCall) :
    ThrottledAlone
      { server := server
        calls := calls
        served := r.served ++ [(a, (handleLogin r.server.throttle a).2)] } := by
  have hattempts : (r.served ++ [(a, (handleLogin r.server.throttle a).2)]).map Prod.fst =
      r.attempts ++ [a] := by
    rw [List.map_append]
    rfl
  constructor
  · unfold AuthRun.attempts
    rw [hattempts, StateMachine.run_concat, hthrottle, h.throttle]
    rfl
  · unfold AuthRun.attempts
    dsimp only
    rw [hattempts, StateMachine.run_concat, h.throttle]
    exact congrArg (· ++ [(a, (handleLogin (loginMachine.run r.attempts).throttle a).2)]) h.served

variable {crypto : Crypto} {kdf : KeyDerivation}

theorem ThrottledAlone.step {r : AuthRun} (h : ThrottledAlone r) (e : AuthEvent) :
    ThrottledAlone (r.step crypto kdf e) := by
  cases e with
  | login req now minted =>
      dsimp only [AuthRun.step]
      cases hattempt : r.server.loginAttempt crypto kdf req now with
      | none =>
          have hsame : (r.server.handleLogin crypto kdf req now minted).2 = r.server := by
            rw [AuthServer.handleLogin_eq, hattempt]
          rw [hsame, Option.bind_none, Option.toList_none, List.append_nil]
          exact ⟨h.throttle, h.served⟩
      | some a =>
          have hthrottle : (r.server.handleLogin crypto kdf req now minted).2.throttle =
              (handleLogin r.server.throttle a).1 := by
            rw [AuthServer.handleLogin_eq, hattempt]
          rw [Option.bind_some, AuthServer.handleLogin_reply hattempt, Option.map_some,
            Option.toList_some]
          exact throttledAlone_attempt h a _ hthrottle _
  | setup req now minted salt answers =>
      have hthrottle : (r.server.handleSetup crypto kdf req now minted salt answers).2.throttle =
          r.server.throttle := by
        rcases @AuthServer.handleSetup_cases crypto kdf r.server req now minted salt answers with
          ⟨body, -, ⟨-, hout⟩ | ⟨-, hout⟩⟩ | ⟨-, hout⟩
        · rw [hout]
        · rw [hout]
        · rw [hout]
      exact ⟨hthrottle.trans h.throttle, h.served⟩
  | boot b => exact ⟨rfl, rfl⟩
  | _ => exact ⟨h.throttle, h.served⟩

theorem run_throttledAlone (flash : FlashLog AuthKey Bytes) (first : Start)
    (events : List AuthEvent) :
    ThrottledAlone ((AuthRun.machine crypto kdf flash first).run events) :=
  (AuthRun.machine crypto kdf flash first).run_induction (P := fun _ r => ThrottledAlone r)
    ⟨rfl, rfl⟩ (fun _ e h => h.step e) events

/-- Whatever is requested between the logins of a boot, a client gets five wrong passwords
compared in a quarter of an hour without success, when the clock does not run past its wrap
and no more clients fail than the throttle has room for. -/
theorem password_guesses_bounded (crypto : Crypto) (kdf : KeyDerivation)
    (flash : FlashLog AuthKey Bytes) (first : Start) (events : List AuthEvent) (k : UInt32)
    (start : Nat)
    (hmono : ((AuthRun.machine crypto kdf flash first).run events).attempts.Pairwise
      fun a b => a.now ≤ b.now)
    (hfit : FitsClock ((AuthRun.machine crypto kdf flash first).run events).attempts)
    (hcard : (wrongKeys ((AuthRun.machine crypto kdf flash first).run
      events).attempts).toFinset.card ≤ kMaxTrackedClients)
    (hno : NoSuccessIn start
      (servedTo k ((AuthRun.machine crypto kdf flash first).run events).served)) :
    (wrongsIn start
      (servedTo k ((AuthRun.machine crypto kdf flash first).run events).served)).length ≤
        kMaxFailures.toNat := by
  have halone := @run_throttledAlone crypto kdf flash first events
  have hclient := congrArg ClientRun.served (loginRun_client hcard k)
  dsimp only at hclient
  rw [halone.served, hclient] at hno ⊢
  exact (clientRun_window (hmono.filter _)
    (fun a ha => hfit a (List.mem_of_mem_filter ha)) start hno).1

def guessBody : Bytes :=
  Form.formBody
    [("csrf".toList, firstToken.map fun b => Char.ofNat b.toNat),
      ("password".toList, "letmein".toList)]

def guessRequest : AuthRequest where
  cookies := [(ascii "__Host-CSRF", firstToken)]
  peer := .ipv4 0xC0A80007
  body := .ofBytes guessBody

/-- Six wrong passwords in a row: five are compared, the last meets the lock. -/
def guessing : List AuthEvent :=
  firstSession ++ List.replicate 6 (.login guessRequest atBoot atBoot)

theorem password_guesses_bounded_six :
    let r := (AuthRun.machine toyCrypto toyDerivation {} firstStart).run guessing
    r.attempts.length = 6 ∧ (wrongsIn 0 (servedTo 0xC0A80007 r.served)).length = 5 ∧
      (wrongsIn 0 (servedTo 0xC0A80007 r.served)).length ≤ kMaxFailures.toNat := by
  have hrun : servedTo 0xC0A80007
      ((AuthRun.machine toyCrypto toyDerivation {} firstStart).run guessing).served =
        List.replicate 5 (⟨0xC0A80007, 0, false⟩, .invalid) ++
          [(⟨0xC0A80007, 0, false⟩, .locked kLockoutMs)] ∧
      ((AuthRun.machine toyCrypto toyDerivation {} firstStart).run guessing).attempts =
        List.replicate 6 ⟨0xC0A80007, 0, false⟩ := by decide +kernel
  obtain ⟨hserved, hattempts⟩ := hrun
  refine ⟨by rw [hattempts]; rfl, by rw [hserved]; decide, ?_⟩
  refine password_guesses_bounded toyCrypto toyDerivation {} firstStart guessing 0xC0A80007 0
    (by rw [hattempts]; decide) (by rw [hattempts]; decide) (by rw [hattempts]; decide) ?_
  rw [hserved]
  simp [NoSuccessIn, List.replicate]

end RfIrBlaster.Runtime
