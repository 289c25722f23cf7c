/-
The onboarding portal: the handlers of its httpd task, one request at a time, and the
loop task of `run` with `applyVerify` and `applyFinish`, which read their inputs and
publish their results in lock sections of their own.
-/
import RfIrBlaster.ConfigJson
import RfIrBlaster.Encoding
import RfIrBlaster.StateMachine

namespace RfIrBlaster.Onboarding

def kBridgeCategory : UInt8 := 2
def kQrSetupId : Bytes := ascii "RFIR"
def maxBodyLen : Nat := 1024
def finishPolls : Nat := 600

def eightDigits (c : Bytes) : Bool :=
  c.length == 8 && c.all Json.isDigit

/-- The codes HAP forbids. -/
def isTrivialCode (c : Bytes) : Bool :=
  c ∈ [ascii "00000000", ascii "11111111", ascii "22222222", ascii "33333333",
    ascii "44444444", ascii "55555555", ascii "66666666", ascii "77777777",
    ascii "88888888", ascii "99999999", ascii "12345678", ascii "87654321"]

def validCode (c : Bytes) : Bool :=
  eightDigits c && !isTrivialCode c

def urlDecode : Bytes → Bytes
  | [] => []
  | c :: h :: l :: rest =>
      if c = 43 then 32 :: urlDecode (h :: l :: rest)
      else if c = 37 then
        match Json.hexValue h, Json.hexValue l with
        | some hi, some lo => UInt8.ofNat (hi * 16 + lo) :: urlDecode rest
        | _, _ => c :: urlDecode (h :: l :: rest)
      else c :: urlDecode (h :: l :: rest)
  | c :: rest => (if c = 43 then 32 else c) :: urlDecode rest

/-- The stretches between the ampersands; nothing follows a trailing one. -/
def segments : Bytes → List Bytes
  | [] => []
  | c :: rest =>
      if c = 38 then [] :: segments rest
      else
        match segments rest with
        | [] => [[c]]
        | first :: others => (c :: first) :: others

/-- The first field under the key; the source leaves its empty output as it is when
there is none. -/
def formField (body key : Bytes) : Bytes :=
  match (segments body).find? fun seg => urlDecode (seg.takeWhile (· ≠ 61)) = key with
  | some seg => urlDecode ((seg.dropWhile (· ≠ 61)).drop 1)
  | none => []

/-- `none` is a connection that breaks before the whole body is in. -/
def readBody (body : Option Bytes) : Option Bytes :=
  body.filter fun text => text.length ≤ maxBodyLen

structure Credentials where
  ssid : Bytes := []
  pwd : Bytes := []
deriving DecidableEq, Repr

/-- The inputs of a finish request. -/
structure Request where
  ssid : Bytes := []
  pwd : Bytes := []
  code : Bytes := []
deriving DecidableEq, Repr

inductive FinishState where
  | idle
  | pending
  | done
  | failed
deriving DecidableEq, Repr

inductive VerifyState where
  | idle
  | testing
  | ok
  | fail
deriving DecidableEq, Repr

/-- The JSON answers: `unread` is the 400, `refused` the `ok: false` with its error. -/
inductive Reply where
  | unread
  | refused (error : Bytes)
  | accepted
  | verifyStatus (state : VerifyState)
  | finished (qr code nonce ip : Bytes)
deriving DecidableEq, Repr

def credentialError (ssid pwd : Bytes) : Option Bytes :=
  if ssid = [] ∨ 32 < ssid.length then some (ascii "ssid")
  else if pwd ≠ [] ∧ (pwd.length < 8 ∨ 63 < pwd.length) then some (ascii "password")
  else none

def verifyInputs (body : Option Bytes) : Except Reply Credentials :=
  match readBody body with
  | none => .error .unread
  | some form =>
      let ssid := formField form (ascii "ssid")
      let pwd := formField form (ascii "password")
      match credentialError ssid pwd with
      | some error => .error (.refused error)
      | none => .ok { ssid := ssid, pwd := pwd }

def finishInputs (body : Option Bytes) : Except Reply Request :=
  match readBody body with
  | none => .error .unread
  | some form =>
      let ssid := formField form (ascii "ssid")
      let pwd := formField form (ascii "password")
      let code := formField form (ascii "code")
      match credentialError ssid pwd with
      | some error => .error (.refused error)
      | none =>
          if validCode code then .ok { ssid := ssid, pwd := pwd, code := code }
          else .error (.refused (ascii "code"))

/-- The arguments of `WiFi.begin`; the password of an open network is a null pointer. -/
structure WifiBegin where
  ssid : Bytes
  pwd : Option Bytes
deriving DecidableEq, Repr

def Credentials.wifiBegin (c : Credentials) : WifiBegin :=
  { ssid := cStr c.ssid, pwd := if c.pwd = [] then none else some (cStr c.pwd) }

/-- The inputs as every consumer of `applyFinish` takes them. -/
def Request.cStr (r : Request) : Request :=
  { ssid := RfIrBlaster.cStr r.ssid
    pwd := RfIrBlaster.cStr r.pwd
    code := RfIrBlaster.cStr r.code }

/-- What HomeSpan and the auth store hold. -/
structure Nvs where
  wifi : Option (Bytes × Bytes) := none
  pairingCode : Option Bytes := none
  nonce : Option Bytes := none
  setupCode : Option Bytes := none
deriving DecidableEq, Repr

/-- What one step of the loop task finds: whether the portal's time is over, the address
of a connection that came up, whether the store opens and takes its writes, and the random
bytes for a nonce. -/
structure World where
  expired : Bool := false
  connected : Option Bytes := none
  storeOk : Bool := true
  nonceStored : Bool := true
  codeStored : Bool := true
  rand : Bytes := []
deriving DecidableEq, Repr

/-- Where the loop task is in `run`.  `persisted` holds the error, or the QR payload and
the nonce. -/
inductive LoopTask where
  | top
  | snapped (fst : FinishState) (vst : VerifyState)
  | verifying (fst : FinishState) (c : Credentials)
  | verified (fst : FinishState) (c : Credentials) (ip : Option Bytes)
  | checking (fst : FinishState)
  | finishing (r : Request)
  | persisted (r : Request) (job : Except Bytes (Bytes × Bytes))
  | exited

/-- The globals of the portal, its storage and its two tasks.  `httpd` is a finish request
being answered, with the polls made for it; `testedWith` only records what `vstate` was
obtained with. -/
structure Portal where
  fstate : FinishState := .idle
  request : Request := {}
  qr : Bytes := []
  nonce : Bytes := []
  ferr : Bytes := []
  vstate : VerifyState := .idle
  verify : Credentials := {}
  verifyIp : Bytes := []
  reboot : Bool := false
  nvs : Nvs := {}
  loop : LoopTask := .top
  httpd : Option (Nat × Request) := none
  testedWith : Option WifiBegin := none

inductive Event where
  | verify (body : Option Bytes)
  | verifyStatus
  | finish (body : Option Bytes)
  | poll
  | reboot
  | loop (w : World)
deriving DecidableEq, Repr

namespace Portal

def handleVerify (body : Option Bytes) (s : Portal) : Option Reply × Portal :=
  match verifyInputs body with
  | .error reply => (some reply, s)
  | .ok c => (some .accepted, { s with verify := c, vstate := .testing })

def handleVerifyStatus (s : Portal) : Option Reply × Portal :=
  (some (.verifyStatus s.vstate), s)

/-- The head of `handleFinish`, up to its wait. -/
def handleFinish (body : Option Bytes) (s : Portal) : Option Reply × Portal :=
  match finishInputs body with
  | .error reply => (some reply, s)
  | .ok r => (none, { s with request := r, fstate := .pending, httpd := some (0, r) })

/-- One turn of the wait of `handleFinish`. -/
def pollFinish (polls : Nat) (r : Request) (s : Portal) : Option Reply × Portal :=
  match s.fstate with
  | .done =>
      (some (.finished s.qr s.request.code s.nonce s.verifyIp), { s with httpd := none })
  | .failed => (some (.refused s.ferr), { s with httpd := none })
  | .idle | .pending =>
      if polls + 1 < finishPolls then (none, { s with httpd := some (polls + 1, r) })
      else (some (.refused (ascii "timeout")), { s with httpd := none })

def handleReboot (s : Portal) : Option Reply × Portal :=
  (some .accepted, { s with reboot := true })

end Portal

section

variable (hapQR : UInt32 → Bytes → UInt8 → Bytes)

/-- `strtoul` of eight digits, then `HapQR::get`. -/
def qrOf (code : Bytes) : Bytes :=
  hapQR (UInt32.ofNat (Json.digitsValue code)) kQrSetupId kBridgeCategory

/-- The middle of `applyFinish`: HomeSpan's and the store's writes, and the QR.  The
results of the store's writes are not looked at. -/
def persist (w : World) (r : Request) (nvs : Nvs) : Nvs × Except Bytes (Bytes × Bytes) :=
  let saved :=
    { nvs with
      wifi := some (r.cStr.ssid, r.cStr.pwd)
      pairingCode := some r.cStr.code }
  if w.storeOk then
    let nonce := nvs.nonce.getD (Runtime.base64urlEncode w.rand)
    ({ saved with
        nonce := if w.nonceStored then some nonce else nvs.nonce
        setupCode := if w.codeStored then some r.cStr.code else nvs.setupCode },
      .ok (qrOf hapQR r.cStr.code, nonce))
  else (saved, .error (ascii "store"))

namespace Portal

/-- One step of the loop task, from one lock section or slow call to the next. -/
def loopStep (w : World) (s : Portal) : Portal :=
  match s.loop with
  | .top =>
      if s.reboot = true ∨ w.expired = true then { s with loop := .exited }
      else { s with loop := .snapped s.fstate s.vstate }
  | .snapped fst vst =>
      if vst = .testing then { s with loop := .verifying fst s.verify }
      else { s with loop := .checking fst }
  | .verifying fst c => { s with loop := .verified fst c w.connected }
  | .verified fst c ip =>
      { s with
        verifyIp := ip.getD []
        vstate := if ip.isSome then .ok else .fail
        testedWith := some c.wifiBegin
        loop := .checking fst }
  | .checking fst =>
      if fst = .pending then { s with loop := .finishing s.request }
      else { s with loop := .top }
  | .finishing r =>
      let (nvs, job) := persist hapQR w r s.nvs
      { s with nvs := nvs, loop := .persisted r job }
  | .persisted _ (.ok (payload, nonce)) =>
      { s with qr := payload, nonce := nonce, fstate := .done, loop := .top }
  | .persisted _ (.error err) => { s with ferr := err, fstate := .failed, loop := .top }
  | .exited => s

/-- The reply and the state after an event.  A request waits until the httpd task is
done with the one before. -/
def serve (s : Portal) (e : Event) : Option Reply × Portal :=
  match e, s.httpd with
  | .loop w, _ => (none, s.loopStep hapQR w)
  | .poll, some (polls, r) => s.pollFinish polls r
  | .poll, none => (none, s)
  | _, some _ => (none, s)
  | .verify body, none => s.handleVerify body
  | .verifyStatus, none => s.handleVerifyStatus
  | .finish body, none => s.handleFinish body
  | .reboot, none => s.handleReboot

/-- The portal at the start of `run`, on what the storage holds. -/
def machine (nvs : Nvs) : StateMachine Portal Event where
  init := { nvs := nvs }
  step s e := (s.serve hapQR e).2

end Portal

end

namespace Portal

variable {hapQR : UInt32 → Bytes → UInt8 → Bytes} {s : Portal}

theorem serve_verify_ok {body : Option Bytes} {c : Credentials} (hfree : s.httpd = none)
    (hinputs : verifyInputs body = .ok c) :
    (s.serve hapQR (.verify body)).2 = { s with verify := c, vstate := .testing } := by
  simp only [serve, hfree, handleVerify, hinputs]

theorem serve_finish_ok {body : Option Bytes} {r : Request} (hfree : s.httpd = none)
    (hinputs : finishInputs body = .ok r) :
    (s.serve hapQR (.finish body)).2 =
      { s with request := r, fstate := .pending, httpd := some (0, r) } := by
  simp only [serve, hfree, handleFinish, hinputs]

theorem loopStep_verifying {w : World} {fst : FinishState} {c : Credentials}
    (h : s.loop = .verifying fst c) :
    s.loopStep hapQR w = { s with loop := .verified fst c w.connected } := by
  simp only [loopStep, h]

theorem loopStep_verified {w : World} {fst : FinishState} {c : Credentials} {ip : Option Bytes}
    (h : s.loop = .verified fst c ip) :
    s.loopStep hapQR w =
      { s with
        verifyIp := ip.getD []
        vstate := if ip.isSome then .ok else .fail
        testedWith := some c.wifiBegin
        loop := .checking fst } := by
  simp only [loopStep, h]

theorem loopStep_finishing {w : World} {r : Request} (h : s.loop = .finishing r) :
    s.loopStep hapQR w =
      { s with
        nvs := (persist hapQR w r s.nvs).1
        loop := .persisted r (persist hapQR w r s.nvs).2 } := by
  simp only [loopStep, h]

theorem loopStep_persisted_ok {w : World} {r : Request} {payload nonce : Bytes}
    (h : s.loop = .persisted r (.ok (payload, nonce))) :
    s.loopStep hapQR w =
      { s with qr := payload, nonce := nonce, fstate := .done, loop := .top } := by
  simp only [loopStep, h]

end Portal

end RfIrBlaster.Onboarding
