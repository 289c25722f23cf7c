/-
The stored secrets (`auth_store.cpp`), who may set the first password (`setup_state.cpp`)
and the cookies (`security_headers.cpp`).
-/
import RfIrBlaster.ConfigJson
import RfIrBlaster.FlashLog
import RfIrBlaster.PasswordRecord

namespace RfIrBlaster.Runtime

/-- A buffer of `n` bytes, such as `esp_fill_random` fills. -/
abbrev FixedBytes (n : Nat) := { bytes : Bytes // bytes.length = n }

/-- The keys of the namespace `rfirauth`. -/
inductive AuthKey where
  | cred
  | nonce
  | setupCode
  | otaPw
deriving DecidableEq, Repr

/-- Whether the call that sets or erases a key goes through, and the commit after it. -/
structure NvsAnswer where
  set : Bool := true
  commit : Bool := true
deriving DecidableEq, Repr

/-- `ok` when the namespace is open. -/
structure AuthStore where
  ok : Bool := true
  flash : FlashLog AuthKey Bytes := {}

namespace AuthStore

def readStr (s : AuthStore) (key : AuthKey) : Option Bytes :=
  if s.ok then s.flash.read key else none

/-- The common body of the setters: `nvs_set_str` of a C string, then `nvs_commit`. -/
def setStr (key : AuthKey) (value : Bytes) (answer : NvsAnswer) (s : AuthStore) :
    Bool × AuthStore :=
  if !s.ok then (false, s)
  else if !answer.set then (false, s)
  else
    let written := s.flash.write key (some (cStr value))
    if !answer.commit then (false, { s with flash := written })
    else (true, { s with flash := written.commit })

/-- The length `nvs_get_str` reports counts the NUL. -/
def hasCredential (s : AuthStore) : Bool :=
  (s.readStr .cred).any fun record => 1 < record.length + 1

def getCredential (s : AuthStore) : Option Bytes :=
  s.readStr .cred

def setCredential (record : Bytes) (answer : NvsAnswer) (s : AuthStore) : Bool × AuthStore :=
  s.setStr .cred record answer

def getNonce (s : AuthStore) : Option Bytes :=
  s.readStr .nonce

def setNonce (nonce : Bytes) (answer : NvsAnswer) (s : AuthStore) : Bool × AuthStore :=
  s.setStr .nonce nonce answer

/-- Neither result is looked at. -/
def clearNonce (answer : NvsAnswer) (s : AuthStore) : AuthStore :=
  if !s.ok then s
  else
    let erased := if answer.set then s.flash.write .nonce none else s.flash
    { s with flash := if answer.commit then erased.commit else erased }

def setSetupCode (code : Bytes) (answer : NvsAnswer) (s : AuthStore) : Bool × AuthStore :=
  s.setStr .setupCode code answer

def getOtaPassword (s : AuthStore) : Option Bytes :=
  s.readStr .otaPw

def setOtaPassword (pw : Bytes) (answer : NvsAnswer) (s : AuthStore) : Bool × AuthStore :=
  s.setStr .otaPw pw answer

end AuthStore

def kHex : Bytes := ascii "0123456789abcdef"

def makeOtaPassword (rand : FixedBytes 16) : Bytes :=
  rand.val.flatMap fun b => [kHex.getD (b.toNat / 16) 0, kHex.getD (b.toNat % 16) 0]

def setupAllowed (credentialPresent : Bool) (providedNonce storedNonce : Bytes)
    (buttonWindowUntil now : UInt64) : Bool :=
  if credentialPresent then false
  else if !storedNonce.isEmpty && constantTimeEqual providedNonce storedNonce then true
  else decide (now < buttonWindowUntil)

def makeNonce (rand : Bytes) : Bytes :=
  base64urlEncode rand

def sessionCookieName (secure : Bool) : Bytes :=
  if secure then ascii "__Host-SID" else ascii "SID"

def csrfCookieName (secure : Bool) : Bytes :=
  if secure then ascii "__Host-CSRF" else ascii "CSRF"

def cookieAttrs (secure : Bool) : Bytes :=
  if secure then ascii "; Secure; HttpOnly; SameSite=Strict; Path=/"
  else ascii "; HttpOnly; SameSite=Strict; Path=/"

def sessionCookie (token : Bytes) (secure : Bool) : Bytes :=
  sessionCookieName secure ++ 61 :: (token ++ cookieAttrs secure)

def clearSessionCookie (secure : Bool) : Bytes :=
  sessionCookieName secure ++ 61 :: (cookieAttrs secure ++ ascii "; Max-Age=0")

def csrfCookie (token : Bytes) (secure : Bool) : Bytes :=
  csrfCookieName secure ++ 61 :: (token ++ cookieAttrs secure)

/-- With no window open, the nonce is the only way in, and only before there is a password. -/
theorem setupAllowed_iff {credentialPresent : Bool} {provided stored : Bytes} {now : UInt64} :
    setupAllowed credentialPresent provided stored 0 now = true ↔
      credentialPresent = false ∧ stored ≠ [] ∧ provided = stored := by
  have hwindow : ¬now < 0 := by simp
  unfold setupAllowed
  cases credentialPresent with
  | true => simp
  | false => simp [hwindow, constantTimeEqual_iff]

namespace AuthStore

variable {s : AuthStore} {key : AuthKey} {value : Bytes} {answer : NvsAnswer}

@[simp]
theorem setStr_ok (s : AuthStore) (key : AuthKey) (value : Bytes) (answer : NvsAnswer) :
    (s.setStr key value answer).2.ok = s.ok := by
  unfold setStr
  split_ifs <;> rfl

@[simp]
theorem clearNonce_ok (s : AuthStore) (answer : NvsAnswer) : (s.clearNonce answer).ok = s.ok := by
  unfold clearNonce
  split_ifs <;> rfl

/-- A write that goes through is durable. -/
theorem setStr_settled (h : (s.setStr key value answer).1 = true) :
    s.ok = true ∧
      (s.setStr key value answer).2.flash.Settled key (some (cStr value)) := by
  unfold setStr at h ⊢
  cases hok : s.ok with
  | false => simp [hok] at h
  | true =>
      cases hset : answer.set with
      | false => simp [hok, hset] at h
      | true =>
          cases hcommit : answer.commit with
          | false => simp [hok, hset, hcommit] at h
          | true =>
              have hsettled := (s.flash.write key (some (cStr value))).settled_commit key
              rw [FlashLog.read_write_self] at hsettled
              exact ⟨rfl, by simpa using hsettled⟩

/-- Setting one key keeps what the others are settled at. -/
theorem setStr_keeps {k : AuthKey} {v : Option Bytes} (h : s.flash.Settled k v)
    (hkey : key ≠ k) (value : Bytes) (answer : NvsAnswer) :
    (s.setStr key value answer).2.flash.Settled k v := by
  unfold setStr
  split_ifs
  · exact h
  · exact h
  · exact h.write_other hkey _
  · exact (h.write_other hkey _).commit

theorem clearNonce_keeps {k : AuthKey} {v : Option Bytes} (h : s.flash.Settled k v)
    (hkey : .nonce ≠ k) (answer : NvsAnswer) : (s.clearNonce answer).flash.Settled k v := by
  unfold clearNonce
  split_ifs
  · exact h
  · exact (h.write_other hkey _).commit
  · exact h.write_other hkey _
  · exact h.commit
  · exact h

/-- The writes of a call that sets a key: the old ones, and perhaps the new value. -/
theorem setStr_writes (s : AuthStore) (key : AuthKey) (value : Bytes) (answer : NvsAnswer) :
    (s.setStr key value answer).2.flash.writes = s.flash.writes ∨
      (s.setStr key value answer).2.flash.writes =
        s.flash.writes ++ [(key, some (cStr value))] := by
  unfold setStr
  split_ifs
  · exact Or.inl rfl
  · exact Or.inl rfl
  · exact Or.inr rfl
  · exact Or.inr rfl

theorem clearNonce_writes (s : AuthStore) (answer : NvsAnswer) :
    (s.clearNonce answer).flash.writes = s.flash.writes ∨
      (s.clearNonce answer).flash.writes = s.flash.writes ++ [(.nonce, none)] := by
  unfold clearNonce
  split_ifs
  · exact Or.inl rfl
  · exact Or.inr rfl
  · exact Or.inr rfl
  · exact Or.inl rfl
  · exact Or.inl rfl

end AuthStore

end RfIrBlaster.Runtime
