/-
Runs of `handleLogin`: how many wrong passwords of one client are looked at, and
how long a client stays locked.
-/
import RfIrBlaster.LoginThrottle
import Mathlib.Algebra.Ring.Nat

namespace RfIrBlaster.Runtime

/-- What reaches the throttle of a login request: `ok` says the password is the
stored one. -/
structure LoginAttempt where
  key : UInt32
  now : UInt32
  ok : Bool
deriving DecidableEq, Repr

inductive LoginReply where
  | locked (retryMs : UInt32)
  | invalid
  | ok
deriving DecidableEq, Repr

/-- The throttle's part in `handleLogin`. -/
def handleLogin (t : LoginThrottle) (a : LoginAttempt) : LoginThrottle × LoginReply :=
  if t.isLocked a.key a.now then (t, .locked (t.timeRemainingMs a.key a.now))
  else if !a.ok then (t.recordFailure a.key a.now, .invalid)
  else (t.recordSuccess a.key a.now, .ok)

abbrev Served := List (LoginAttempt × LoginReply)

/-- The throttle, and every attempt so far with its reply. -/
structure LoginRun where
  throttle : LoginThrottle := LoginThrottle.machine.init
  served : Served := []

def loginMachine : StateMachine LoginRun LoginAttempt where
  init := {}
  step r a :=
    { throttle := (handleLogin r.throttle a).1
      served := r.served ++ [(a, (handleLogin r.throttle a).2)] }

/-- `handleLogin` for one client, on its entry alone. -/
def clientLogin (e? : Option Entry) (a : LoginAttempt) : Option Entry × LoginReply :=
  if entryLocked e? a.now then (e?, .locked (entryRemaining e? a.now))
  else if !a.ok then (clientStep e? (.recordFailure a.key a.now), .invalid)
  else (clientStep e? (.recordSuccess a.key a.now), .ok)

structure ClientRun where
  entry : Option Entry := none
  served : Served := []

def clientLoginMachine : StateMachine ClientRun LoginAttempt where
  init := {}
  step r a :=
    { entry := (clientLogin r.entry a).1
      served := r.served ++ [(a, (clientLogin r.entry a).2)] }

/-- The attempts on a key, with their replies. -/
def servedTo (k : UInt32) (served : Served) : Served :=
  served.filter fun s => s.1.key = k

/-- The wrong passwords looked at since the last success, latest first. -/
def wrongsSince (served : Served) : List LoginAttempt :=
  ((served.reverse.takeWhile fun s => s.2 ≠ .ok).filter fun s => s.2 = .invalid).map Prod.fst

/-- A time in the half-open window of length `kLockoutMs` that starts at `start`. -/
def InWindow (start : Nat) (now : UInt32) : Prop :=
  start ≤ now.toNat ∧ now.toNat < start + kLockoutMs.toNat

instance (start : Nat) (now : UInt32) : Decidable (InWindow start now) :=
  inferInstanceAs (Decidable (_ ∧ _))

/-- The wrong passwords looked at in a window. -/
def wrongsIn (start : Nat) (served : Served) : Served :=
  served.filter fun s => s.2 = .invalid ∧ InWindow start s.1.now

def wrongKeys (attempts : List LoginAttempt) : List UInt32 :=
  (attempts.filter fun a => !a.ok).map LoginAttempt.key

/-- No lockout started by these attempts ends past the wrap of the clock. -/
def FitsClock (attempts : List LoginAttempt) : Prop :=
  ∀ a ∈ attempts, a.now.toNat + kLockoutMs.toNat ≤ 2 ^ 32 - 1

instance (attempts : List LoginAttempt) : Decidable (FitsClock attempts) :=
  inferInstanceAs (Decidable (∀ a ∈ attempts, _))

theorem wrongsSince_ok (served : Served) (a : LoginAttempt) :
    wrongsSince (served ++ [(a, .ok)]) = [] := by
  simp [wrongsSince]

theorem wrongsSince_invalid (served : Served) (a : LoginAttempt) :
    wrongsSince (served ++ [(a, .invalid)]) = a :: wrongsSince served := by
  simp [wrongsSince]

theorem wrongsSince_locked (served : Served) (a : LoginAttempt) (retryMs : UInt32) :
    wrongsSince (served ++ [(a, .locked retryMs)]) = wrongsSince served := by
  simp [wrongsSince]

/-- The three ways an attempt on a client's entry goes. -/
theorem clientLogin_cases (e? : Option Entry) (a : LoginAttempt) :
    (entryLocked e? a.now = true ∧
      clientLogin e? a = (e?, .locked (entryRemaining e? a.now))) ∨
    (entryLocked e? a.now = false ∧ a.ok = false ∧
      clientLogin e? a = (clientStep e? (.recordFailure a.key a.now), .invalid)) ∨
    (entryLocked e? a.now = false ∧ a.ok = true ∧
      clientLogin e? a = (clientStep e? (.recordSuccess a.key a.now), .ok)) := by
  unfold clientLogin
  cases hlocked : entryLocked e? a.now with
  | true => simp
  | false =>
      cases hok : a.ok with
      | true => simp
      | false => simp

namespace Entry

theorem kLockoutMs_toNat : kLockoutMs.toNat = 900000 :=
  rfl

/-- A failure while locked leaves the lockout and the count. -/
theorem fail_locked {e : Entry} {now : UInt32} (h : e.isLocked now = true) :
    (e.fail now).failures = e.failures ∧ (e.fail now).lockedUntil = e.lockedUntil := by
  rw [isLocked_eq, decide_eq_true_iff] at h
  simp [fail, h]

theorem succeed_locked {e : Entry} {now : UInt32} (h : e.isLocked now = true) :
    (e.succeed now).failures = e.failures ∧ (e.succeed now).lockedUntil = e.lockedUntil := by
  rw [isLocked_eq, decide_eq_true_iff] at h
  simp [succeed, h]

theorem succeed_unlocked {e : Entry} {now : UInt32} (h : e.isLocked now = false) :
    (e.succeed now).failures = 0 ∧ (e.succeed now).lockedUntil = 0 := by
  rw [isLocked_eq, decide_eq_false_iff_not] at h
  simp [succeed, h]

/-- The first failure after a lockout has run out. -/
theorem fail_expired {e : Entry} {now : UInt32} (h : e.isLocked now = false)
    (hset : e.lockedUntil ≠ 0) :
    (e.fail now).failures = 1 ∧ (e.fail now).lockedUntil = 0 := by
  rw [isLocked_eq, decide_eq_false_iff_not] at h
  have hpast : ¬now < e.lockedUntil := fun hlt => h ⟨hset, hlt⟩
  simp [fail, hset, hpast, kMaxFailures]

/-- A failure below the threshold counts. -/
theorem fail_counting {e : Entry} (now : UInt32) (hset : e.lockedUntil = 0)
    (hfew : e.failures.toNat < 4) :
    (e.fail now).failures.toNat = e.failures.toNat + 1 ∧ (e.fail now).lockedUntil = 0 := by
  have hroom : e.failures < 255 := UInt8.lt_iff_toNat_lt.mpr (by simp; omega)
  have hnext : (e.failures + 1).toNat = e.failures.toNat + 1 := by
    rw [UInt8.toNat_add]
    simp
    omega
  have hbelow : ¬kMaxFailures ≤ e.failures + 1 := by
    rw [UInt8.le_iff_toNat_le, hnext]
    simp [kMaxFailures]
    omega
  simp [fail, hset, hroom, hbelow, hnext]

/-- The failure that reaches the threshold locks. -/
theorem fail_fifth {e : Entry} (now : UInt32) (hset : e.lockedUntil = 0)
    (hfour : e.failures.toNat = 4) :
    (e.fail now).failures = 5 ∧ (e.fail now).lockedUntil = now + kLockoutMs := by
  have hfailures : e.failures = 4 := UInt8.toNat_inj.mp hfour
  simp [fail, hset, hfailures, kMaxFailures]

end Entry

/-- What the entry of a client says of the wrong passwords since its last
success: every fifth of them locks. -/
inductive LockState : Option Entry → List LoginAttempt → Prop
  | unseen : LockState none []
  | counting {e : Entry} {wrongs : List LoginAttempt} (hset : e.lockedUntil = 0)
      (hcount : e.failures.toNat = wrongs.length % 5)
      (hshort : wrongs = [] ∨ wrongs.length % 5 ≠ 0) : LockState (some e) wrongs
  | locked {e : Entry} {last : LoginAttempt} {rest : List LoginAttempt}
      (hfifth : (rest.length + 1) % 5 = 0) (hcount : e.failures.toNat = 5)
      (huntil : e.lockedUntil.toNat = last.now.toNat + kLockoutMs.toNat) :
      LockState (some e) (last :: rest)

/-- The last wrong password is a fifth one, less than `kLockoutMs` before `now`. -/
def LockedAt (wrongs : List LoginAttempt) (now : UInt32) : Prop :=
  ∃ last rest, wrongs = last :: rest ∧ (rest.length + 1) % 5 = 0 ∧
    now.toNat < last.now.toNat + kLockoutMs.toNat

theorem LockState.locked_iff {e? : Option Entry} {wrongs : List LoginAttempt}
    (h : LockState e? wrongs) (now : UInt32) :
    entryLocked e? now = true ↔ LockedAt wrongs now := by
  cases h with
  | unseen => simp [entryLocked, LockedAt]
  | @counting e _ hset hcount hshort =>
      have hopen : e.isLocked now = false := by simp [Entry.isLocked, hset]
      have hnot : ¬LockedAt wrongs now := by
        rintro ⟨last, rest, rfl, hfifth, -⟩
        rcases hshort with hnil | hmod
        · cases hnil
        · exact hmod hfifth
      simp [entryLocked, hopen, hnot]
  | @locked e last rest hfifth hcount huntil =>
      have hlock := Entry.isLocked_iff e now
      rw [huntil] at hlock
      have hat : LockedAt (last :: rest) now ↔
          now.toNat < last.now.toNat + kLockoutMs.toNat := by
        constructor
        · rintro ⟨last', rest', heq, -, hlt⟩
          rw [(List.cons.inj heq).1]
          exact hlt
        · exact fun hlt => ⟨last, rest, rfl, hfifth, hlt⟩
      rw [hat, ← hlock]
      rfl

/-- A wrong password that is looked at is one more. -/
theorem LockState.fail {e? : Option Entry} {wrongs : List LoginAttempt}
    (h : LockState e? wrongs) {a : LoginAttempt} (hopen : entryLocked e? a.now = false)
    (hfit : a.now.toNat + kLockoutMs.toNat ≤ 2 ^ 32 - 1) :
    LockState (clientStep e? (.recordFailure a.key a.now)) (a :: wrongs) := by
  have huntil : (a.now + kLockoutMs).toNat = a.now.toNat + kLockoutMs.toNat := by
    rw [UInt32.toNat_add, Nat.mod_eq_of_lt]
    omega
  cases h with
  | unseen =>
      obtain ⟨hcount, hset⟩ := Entry.fail_counting
        (e := Entry.fresh a.key a.now) a.now rfl (Nat.zero_lt_succ 3)
      exact .counting hset hcount (Or.inr (by simp))
  | @counting e _ hset hcount hshort =>
      by_cases hfour : e.failures.toNat = 4
      · obtain ⟨hfive, hlock⟩ := Entry.fail_fifth a.now hset hfour
        refine .locked (by omega) (by simp [hfive]) ?_
        simp only [Option.getD_some, hlock, huntil]
      · obtain ⟨hnext, hstill⟩ := Entry.fail_counting a.now hset (by omega)
        refine .counting hstill ?_ (Or.inr ?_)
        · simp only [Option.getD_some, hnext, List.length_cons]
          omega
        · rw [List.length_cons]
          omega
  | @locked e last rest hfifth hcount hlast =>
      have hset : e.lockedUntil ≠ 0 := by
        intro hzero
        rw [hzero, Entry.kLockoutMs_toNat] at hlast
        simp at hlast
      obtain ⟨hone, hclear⟩ := Entry.fail_expired hopen hset
      refine .counting hclear ?_ (Or.inr ?_)
      · simp only [Option.getD_some, hone, List.length_cons]
        rw [UInt8.toNat_one]
        omega
      · simp only [List.length_cons]
        omega

/-- A right password that is looked at clears the count. -/
theorem LockState.succeed {e? : Option Entry} {wrongs : List LoginAttempt}
    (h : LockState e? wrongs) {a : LoginAttempt} (hopen : entryLocked e? a.now = false) :
    LockState (clientStep e? (.recordSuccess a.key a.now)) [] := by
  cases e? with
  | none => exact .unseen
  | some e =>
      obtain ⟨hnone, hset⟩ := Entry.succeed_unlocked (e := e) hopen
      exact .counting hset (by simp [hnone]) (Or.inl rfl)

theorem clientRun_entry_concat (pre : List LoginAttempt) (a : LoginAttempt) :
    (clientLoginMachine.run (pre ++ [a])).entry =
      (clientLogin (clientLoginMachine.run pre).entry a).1 := by
  rw [StateMachine.run_concat]
  rfl

theorem clientRun_served_concat (pre : List LoginAttempt) (a : LoginAttempt) :
    (clientLoginMachine.run (pre ++ [a])).served =
      (clientLoginMachine.run pre).served ++
        [(a, (clientLogin (clientLoginMachine.run pre).entry a).2)] := by
  rw [StateMachine.run_concat]
  rfl

theorem FitsClock.of_concat {pre : List LoginAttempt} {a : LoginAttempt}
    (h : FitsClock (pre ++ [a])) : FitsClock pre :=
  fun b hb => h b (List.mem_append_left _ hb)

/-- Along a client's attempts its entry says what the wrong passwords were. -/
theorem clientRun_lockState {attempts : List LoginAttempt} (hfit : FitsClock attempts) :
    LockState (clientLoginMachine.run attempts).entry
      (wrongsSince (clientLoginMachine.run attempts).served) := by
  induction attempts using List.reverseRecOn with
  | nil => exact .unseen
  | append_singleton pre a ih =>
      have hpre := ih hfit.of_concat
      rw [clientRun_entry_concat, clientRun_served_concat]
      rcases clientLogin_cases (clientLoginMachine.run pre).entry a with
        ⟨hlocked, heq⟩ | ⟨hopen, -, heq⟩ | ⟨hopen, -, heq⟩
      · rw [heq, wrongsSince_locked]
        exact hpre
      · rw [heq, wrongsSince_invalid]
        exact hpre.fail hopen (hfit a (by simp))
      · rw [heq, wrongsSince_ok]
        exact hpre.succeed hopen

theorem clientRun_attempts (attempts : List LoginAttempt) :
    (clientLoginMachine.run attempts).served.map Prod.fst = attempts := by
  induction attempts using List.reverseRecOn with
  | nil => rfl
  | append_singleton pre a ih =>
      rw [clientRun_served_concat, List.map_append, ih]
      rfl

/-- No success in the window so far. -/
def NoSuccessIn (start : Nat) (served : Served) : Prop :=
  ∀ s ∈ served, InWindow start s.1.now → s.2 ≠ .ok

theorem wrongsIn_concat (start : Nat) (served : Served) (s : LoginAttempt × LoginReply) :
    wrongsIn start (served ++ [s]) =
      wrongsIn start served ++
        if s.2 = .invalid ∧ InWindow start s.1.now then [s] else [] := by
  rw [wrongsIn, List.filter_append, wrongsIn]
  by_cases hs : s.2 = .invalid ∧ InWindow start s.1.now
  · simp [hs]
  · simp [hs]

/-- While the window lasts, the entry counts at least the wrong passwords in it,
and a lockout outlasts it. -/
def CountsWindow (start : Nat) (e? : Option Entry) (served : Served) : Prop :=
  wrongsIn start served = [] ∨
    ∃ e, e? = some e ∧ (wrongsIn start served).length ≤ e.failures.toNat ∧
      (e.lockedUntil = 0 ∨ start + kLockoutMs.toNat ≤ e.lockedUntil.toNat)

/-- The count of the entry after a wrong password, read off the lock state. -/
theorem LockState.after_fail {e? : Option Entry} {a : LoginAttempt}
    {wrongs : List LoginAttempt} (h : LockState e? (a :: wrongs)) :
    ∃ e, e? = some e ∧ 1 ≤ e.failures.toNat ∧
      (e.lockedUntil = 0 ∨ e.lockedUntil.toNat = a.now.toNat + kLockoutMs.toNat) := by
  cases h with
  | @counting e _ hset hcount hshort =>
      refine ⟨e, rfl, ?_, Or.inl hset⟩
      rcases hshort with hnil | hmod
      · cases hnil
      · omega
  | @locked e _ _ hfifth hcount huntil => exact ⟨e, rfl, by omega, Or.inr huntil⟩

theorem LockState.failures_le {e : Entry} {wrongs : List LoginAttempt}
    (h : LockState (some e) wrongs) : e.failures.toNat ≤ 5 := by
  cases h with
  | counting hset hcount hshort => omega
  | locked hfifth hcount huntil => omega

/-- Below the threshold one more failure is one more in the count. -/
theorem LockState.fail_failures {e : Entry} {wrongs : List LoginAttempt}
    (h : LockState (some e) wrongs) (hset : e.lockedUntil = 0) (now : UInt32) :
    (e.fail now).failures.toNat = e.failures.toNat + 1 := by
  cases h with
  | counting _ hcount hshort =>
      by_cases hfour : e.failures.toNat = 4
      · rw [(Entry.fail_fifth now hset hfour).1, hfour]
        rfl
      · exact (Entry.fail_counting now hset (by omega)).1
  | locked hfifth hcount huntil =>
      rw [hset, Entry.kLockoutMs_toNat] at huntil
      simp at huntil

theorem wrongsIn_eq_nil_of_before {start : Nat} {served : Served} {a : LoginAttempt}
    (hmono : ∀ s ∈ served, s.1.now ≤ a.now) (hbefore : a.now.toNat < start) :
    wrongsIn start served = [] := by
  refine List.filter_eq_nil_iff.mpr fun s hs => ?_
  have hle := UInt32.le_iff_toNat_le.mp (hmono s hs)
  intro hwindow
  obtain ⟨-, hstart, -⟩ := of_decide_eq_true hwindow
  omega

/-- One attempt before the window ends. -/
theorem clientLogin_countsWindow {start : Nat} {e? : Option Entry} {served : Served}
    {a : LoginAttempt} (hstate : LockState e? (wrongsSince served))
    (h : CountsWindow start e? served) (hmono : ∀ s ∈ served, s.1.now ≤ a.now)
    (hend : a.now.toNat < start + kLockoutMs.toNat)
    (hfit : a.now.toNat + kLockoutMs.toNat ≤ 2 ^ 32 - 1)
    (hno : InWindow start a.now → (clientLogin e? a).2 ≠ .ok) :
    CountsWindow start (clientLogin e? a).1 (served ++ [(a, (clientLogin e? a).2)]) := by
  by_cases hwindow : InWindow start a.now
  · rcases clientLogin_cases e? a with ⟨-, heq⟩ | ⟨hopen, -, heq⟩ | ⟨-, -, heq⟩
    · have hsame : wrongsIn start (served ++ [(a, .locked (entryRemaining e? a.now))]) =
          wrongsIn start served := by
        simp [wrongsIn_concat]
      rw [heq]
      unfold CountsWindow
      rw [hsame]
      exact h
    · obtain ⟨e', he', hone, hlock⟩ := (hstate.fail hopen hfit).after_fail
      have houtlasts : e'.lockedUntil = 0 ∨
          start + kLockoutMs.toNat ≤ e'.lockedUntil.toNat := by
        rcases hlock with hzero | huntil
        · exact Or.inl hzero
        · have := hwindow.1
          exact Or.inr (by omega)
      rw [heq]
      refine Or.inr ⟨e', he', ?_, houtlasts⟩
      rw [wrongsIn_concat, if_pos ⟨rfl, hwindow⟩, List.length_append, List.length_singleton]
      rcases h with hnil | ⟨e, rfl, hcount, hclear⟩
      · rw [hnil]
        exact hone
      · -- an entry that is not locked now has no lockout that outlasts the window
        have hzero : e.lockedUntil = 0 := by
          rcases hclear with hzero | huntil
          · exact hzero
          · have hlocked := (Entry.isLocked_iff e a.now).mpr (by omega)
            rw [entryLocked, Option.elim, hlocked] at hopen
            cases hopen
        have hnext := hstate.fail_failures hzero a.now
        rw [← Option.some.inj he', Option.getD_some, hnext]
        omega
    · exact absurd (congrArg Prod.snd heq) (hno hwindow)
  · left
    have hbefore : a.now.toNat < start := by
      by_contra hge
      exact hwindow ⟨Nat.not_lt.mp hge, hend⟩
    rw [wrongsIn_concat, wrongsIn_eq_nil_of_before hmono hbefore]
    simp [hwindow]

/-- The window bound for one client. -/
theorem clientRun_window {attempts : List LoginAttempt}
    (hmono : attempts.Pairwise fun a b => a.now ≤ b.now) (hfit : FitsClock attempts)
    (start : Nat) (hno : NoSuccessIn start (clientLoginMachine.run attempts).served) :
    (wrongsIn start (clientLoginMachine.run attempts).served).length ≤ 5 ∧
      ((∀ a ∈ attempts, a.now.toNat < start + kLockoutMs.toNat) →
        CountsWindow start (clientLoginMachine.run attempts).entry
          (clientLoginMachine.run attempts).served) := by
  induction attempts using List.reverseRecOn with
  | nil => exact ⟨Nat.zero_le 5, fun _ => Or.inl rfl⟩
  | append_singleton pre a ih =>
      have hstate := clientRun_lockState hfit
      have hpreState := clientRun_lockState hfit.of_concat
      rw [clientRun_served_concat] at hno hstate
      rw [clientRun_entry_concat] at hstate
      rw [clientRun_served_concat, clientRun_entry_concat]
      obtain ⟨hpreMono, -, hlast⟩ := List.pairwise_append.mp hmono
      have hbefore : ∀ b ∈ pre, b.now ≤ a.now := fun b hb => hlast b hb a (by simp)
      have hserved : ∀ s ∈ (clientLoginMachine.run pre).served, s.1.now ≤ a.now := by
        intro s hs
        have hmem := List.mem_map_of_mem (f := Prod.fst) hs
        rw [clientRun_attempts] at hmem
        exact hbefore s.1 hmem
      obtain ⟨hle, hcounts⟩ := ih hpreMono hfit.of_concat
        fun s hs => hno s (List.mem_append_left _ hs)
      by_cases hend : a.now.toNat < start + kLockoutMs.toNat
      · have hpreEnd : ∀ b ∈ pre, b.now.toNat < start + kLockoutMs.toNat := fun b hb =>
          Nat.lt_of_le_of_lt (UInt32.le_iff_toNat_le.mp (hbefore b hb)) hend
        have hstep := clientLogin_countsWindow hpreState (hcounts hpreEnd) hserved hend
          (hfit a (by simp))
          (hno (a, (clientLogin (clientLoginMachine.run pre).entry a).2) (by simp))
        refine ⟨?_, fun _ => hstep⟩
        rcases hstep with hnil | ⟨e, he, hcount, -⟩
        · rw [hnil]
          exact Nat.zero_le 5
        · rw [he] at hstate
          exact hcount.trans hstate.failures_le
      · have hout : ¬InWindow start a.now := fun hwindow => hend hwindow.2
        refine ⟨?_, fun hall => absurd (hall a (by simp)) hend⟩
        rw [wrongsIn_concat, if_neg fun h => hout h.2, List.append_nil]
        exact hle

/-- Within the bound `handleLogin` is the client's own, and leaves the others. -/
theorem handleLogin_spec {t : LoginThrottle} {a : LoginAttempt} {keys : List UInt32}
    (h : t.Tracks keys) (hcard : keys.toFinset.card ≤ kMaxTrackedClients)
    (ha : a.ok = false → a.key ∈ keys) :
    (handleLogin t a).1.Tracks keys ∧
      (handleLogin t a).2 = (clientLogin (t.entryOf a.key) a).2 ∧
      ∀ k, (handleLogin t a).1.entryOf k =
        if k = a.key then (clientLogin (t.entryOf a.key) a).1 else t.entryOf k := by
  simp only [handleLogin, clientLogin, LoginThrottle.isLocked_eq,
    LoginThrottle.timeRemainingMs_eq]
  cases hlocked : entryLocked (t.entryOf a.key) a.now with
  | true => exact ⟨h, rfl, LoginThrottle.entryOf_untouched t a.key⟩
  | false =>
      cases hok : a.ok with
      | true =>
          have hstep := LoginThrottle.step_spec (.recordSuccess a.key a.now) h hcard
            (fun hfail => absurd hfail Bool.false_ne_true)
          exact ⟨hstep.1, rfl, hstep.2⟩
      | false =>
          have hstep := LoginThrottle.step_spec (.recordFailure a.key a.now) h hcard
            (fun _ => ha hok)
          exact ⟨hstep.1, rfl, hstep.2⟩

theorem mem_wrongKeys {attempts : List LoginAttempt} {a : LoginAttempt} (ha : a ∈ attempts)
    (hok : a.ok = false) : a.key ∈ wrongKeys attempts :=
  List.mem_map_of_mem (List.mem_filter.mpr ⟨ha, by simp [hok]⟩)

theorem loginRun_tracks {keys : List UInt32} (hcard : keys.toFinset.card ≤ kMaxTrackedClients)
    {attempts : List LoginAttempt} (hkeys : ∀ a ∈ attempts, a.ok = false → a.key ∈ keys) :
    (loginMachine.run attempts).throttle.Tracks keys := by
  induction attempts using List.reverseRecOn with
  | nil => exact LoginThrottle.tracks_init keys
  | append_singleton pre a ih =>
      have hpre := ih fun b hb => hkeys b (List.mem_append_left _ hb)
      rw [StateMachine.run_concat]
      exact (handleLogin_spec hpre hcard (hkeys a (by simp))).1

/-- A client's part of a run is the run of its own attempts. -/
theorem loginRun_client {attempts : List LoginAttempt}
    (hcard : (wrongKeys attempts).toFinset.card ≤ kMaxTrackedClients) (k : UInt32) :
    ClientRun.mk ((loginMachine.run attempts).throttle.entryOf k)
        (servedTo k (loginMachine.run attempts).served) =
      clientLoginMachine.run (attempts.filter fun a => a.key = k) := by
  apply StateMachine.run_component loginMachine clientLoginMachine LoginAttempt.key k
    (fun r => ClientRun.mk (r.throttle.entryOf k) (servedTo k r.served))
  · exact congrArg (fun e? => ClientRun.mk e? []) (LoginThrottle.entryOf_init k)
  · intro pre a post heq
    have htracks : (loginMachine.run pre).throttle.Tracks (wrongKeys attempts) :=
      loginRun_tracks hcard fun b hb => mem_wrongKeys (by simp [heq, hb])
    obtain ⟨-, hreply, hentry⟩ := handleLogin_spec htracks hcard
      (mem_wrongKeys (a := a) (by simp [heq]))
    have hserved : servedTo k (loginMachine.step (loginMachine.run pre) a).served =
        servedTo k (loginMachine.run pre).served ++
          if a.key = k then [(a, (handleLogin (loginMachine.run pre).throttle a).2)] else [] := by
      by_cases hkey : a.key = k
      · simp [servedTo, loginMachine, hkey]
      · simp [servedTo, loginMachine, hkey]
    have hstep : (loginMachine.step (loginMachine.run pre) a).throttle =
        (handleLogin (loginMachine.run pre).throttle a).1 := rfl
    simp only [hserved, hstep, hentry k, hreply]
    by_cases hkey : a.key = k
    · rw [if_pos hkey, if_pos hkey, if_pos hkey.symm, hkey]
      rfl
    · rw [if_neg hkey, if_neg hkey, if_neg fun h => hkey h.symm, List.append_nil]

/-- While it is locked, nothing recorded moves the end of a client's lockout. -/
theorem clientStep_locked {e : Entry} {op : ThrottleOp}
    (hbefore : op.now.toNat < e.lockedUntil.toNat) :
    ∃ e', clientStep (some e) op = some e' ∧ e'.lockedUntil = e.lockedUntil := by
  have hlocked := (Entry.isLocked_iff e op.now).mpr hbefore
  cases op with
  | isLocked k now => exact ⟨e, rfl, rfl⟩
  | timeRemainingMs k now => exact ⟨e, rfl, rfl⟩
  | recordFailure k now => exact ⟨e.fail now, rfl, (Entry.fail_locked hlocked).2⟩
  | recordSuccess k now => exact ⟨e.succeed now, rfl, (Entry.succeed_locked hlocked).2⟩

theorem lockout_kept {keys : List UInt32} (hcard : keys.toFinset.card ≤ kMaxTrackedClients)
    {ops : List ThrottleOp} (hkeys : ∀ op ∈ ops, op.isFailure = true → op.clientKey ∈ keys)
    {t : LoginThrottle} (h : t.Tracks keys) {k : UInt32} {e : Entry}
    (he : t.entryOf k = some e)
    (hbefore : ∀ op ∈ ops, op.clientKey = k → op.now.toNat < e.lockedUntil.toNat) :
    ∃ e', (ops.foldl LoginThrottle.step t).entryOf k = some e' ∧
      e'.lockedUntil = e.lockedUntil := by
  induction ops generalizing t e with
  | nil => exact ⟨e, he, rfl⟩
  | cons op ops ih =>
      obtain ⟨htracks, hentry⟩ := LoginThrottle.step_spec op h hcard (hkeys op (by simp))
      have hop : ∃ e', (t.step op).entryOf k = some e' ∧ e'.lockedUntil = e.lockedUntil := by
        rw [hentry k]
        by_cases hkey : op.clientKey = k
        · rw [if_pos hkey.symm, hkey, he]
          exact clientStep_locked (hbefore op (by simp) hkey)
        · rw [if_neg fun h => hkey h.symm]
          exact ⟨e, he, rfl⟩
      obtain ⟨e', he', hsame⟩ := hop
      rw [← hsame]
      rw [← hsame] at hbefore
      exact ih (fun op' hop' => hkeys op' (List.mem_cons_of_mem _ hop')) htracks he'
        fun op' hop' => hbefore op' (List.mem_cons_of_mem _ hop')

/-- What the throttle guarantees about a run of login attempts. -/
structure BruteForceBound (attempts : List LoginAttempt) : Prop where
  window : ∀ k start, NoSuccessIn start (servedTo k (loginMachine.run attempts).served) →
    (wrongsIn start (servedTo k (loginMachine.run attempts).served)).length ≤
      kMaxFailures.toNat
  locked_iff : ∀ k now, (loginMachine.run attempts).throttle.isLocked k now = true ↔
    LockedAt (wrongsSince (servedTo k (loginMachine.run attempts).served)) now
  lockout_exact : ∀ k last rest,
    wrongsSince (servedTo k (loginMachine.run attempts).served) = last :: rest →
    (rest.length + 1) % kMaxFailures.toNat = 0 →
    ∀ meanwhile : List ThrottleOp,
      (∀ op ∈ meanwhile, op.clientKey = k →
        op.now.toNat < last.now.toNat + kLockoutMs.toNat) →
      (wrongKeys attempts ++ failingKeys meanwhile).toFinset.card ≤ kMaxTrackedClients →
      ∀ now, (meanwhile.foldl LoginThrottle.step
          (loginMachine.run attempts).throttle).isLocked k now =
        decide (now.toNat < last.now.toNat + kLockoutMs.toNat)

/-- At each fifth wrong password the entry holds the end of the lockout. -/
theorem LockState.locked_entry {e? : Option Entry} {last : LoginAttempt}
    {rest : List LoginAttempt} (h : LockState e? (last :: rest))
    (hfifth : (rest.length + 1) % 5 = 0) :
    ∃ e, e? = some e ∧ e.lockedUntil.toNat = last.now.toNat + kLockoutMs.toNat := by
  cases h with
  | counting hset hcount hshort =>
      rcases hshort with hnil | hmod
      · cases hnil
      · exact absurd hfifth hmod
  | @locked e _ _ _ hcount huntil => exact ⟨e, rfl, huntil⟩

theorem loginRun_lockState {attempts : List LoginAttempt} (hfit : FitsClock attempts)
    (hcard : (wrongKeys attempts).toFinset.card ≤ kMaxTrackedClients) (k : UInt32) :
    LockState ((loginMachine.run attempts).throttle.entryOf k)
      (wrongsSince (servedTo k (loginMachine.run attempts).served)) := by
  have hown : FitsClock (attempts.filter fun a => a.key = k) :=
    fun a ha => hfit a (List.mem_of_mem_filter ha)
  have hstate := clientRun_lockState hown
  rw [← loginRun_client hcard k] at hstate
  exact hstate

theorem isLocked_of_lockedUntil {t : LoginThrottle} {k : UInt32} {e : Entry}
    (he : t.entryOf k = some e) (now : UInt32) :
    t.isLocked k now = decide (now.toNat < e.lockedUntil.toNat) := by
  rw [LoginThrottle.isLocked_eq, he, Bool.eq_iff_iff, decide_eq_true_iff]
  exact Entry.isLocked_iff e now

/-- With clocks that do not run backward or past the wrap, and at most sixteen
failing keys: five wrong passwords are looked at in a window without success,
and every fifth locks its key for `kLockoutMs`, neither more nor less. -/
theorem brute_force_bound (attempts : List LoginAttempt)
    (hmono : attempts.Pairwise fun a b => a.now ≤ b.now) (hfit : FitsClock attempts)
    (hcard : (wrongKeys attempts).toFinset.card ≤ kMaxTrackedClients) :
    BruteForceBound attempts where
  window := by
    intro k start hno
    have hserved := congrArg ClientRun.served (loginRun_client hcard k)
    dsimp only at hserved
    rw [hserved] at hno ⊢
    exact (clientRun_window (hmono.filter _)
      (fun a ha => hfit a (List.mem_of_mem_filter ha)) start hno).1
  locked_iff := by
    intro k now
    rw [LoginThrottle.isLocked_eq]
    exact (loginRun_lockState hfit hcard k).locked_iff now
  lockout_exact := by
    intro k last rest hwrongs hfifth meanwhile hbefore hcard' now
    have hstate := loginRun_lockState hfit hcard k
    rw [hwrongs] at hstate
    obtain ⟨e, he, huntil⟩ := hstate.locked_entry hfifth
    have htracks : (loginMachine.run attempts).throttle.Tracks
        (wrongKeys attempts ++ failingKeys meanwhile) :=
      loginRun_tracks hcard' fun a ha hok => List.mem_append_left _ (mem_wrongKeys ha hok)
    obtain ⟨e', he', hsame⟩ := lockout_kept hcard'
      (fun op hop hfail => List.mem_append_right _ (mem_failingKeys hop hfail)) htracks he
      (fun op hop hkey => by rw [huntil]; exact hbefore op hop hkey)
    rw [isLocked_of_lockedUntil he' now, hsame, huntil]

/-- Five wrong passwords within four seconds; a right one a minute later is refused. -/
theorem brute_force_bound_locked_out :
    let attempts : List LoginAttempt :=
      [⟨7, 1000, false⟩, ⟨7, 2000, false⟩, ⟨9, 2500, true⟩, ⟨7, 3000, false⟩,
        ⟨7, 4000, false⟩, ⟨7, 5000, false⟩, ⟨7, 65000, true⟩]
    BruteForceBound attempts ∧
      (⟨7, 65000, true⟩, .locked 840000) ∈ (loginMachine.run attempts).served ∧
      (loginMachine.run attempts).throttle.isLocked 7 905000 = false :=
  ⟨brute_force_bound _ (by decide) (by decide) (by decide), by decide, by decide⟩

end RfIrBlaster.Runtime
