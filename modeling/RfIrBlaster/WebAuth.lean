/-
`web_auth.cpp`: the handlers of the authentication endpoints, the session and CSRF checks
the other handlers call, and the gate in front of the pages.
-/
import RfIrBlaster.AuthStore
import RfIrBlaster.ClientKey
import RfIrBlaster.FormFields
import RfIrBlaster.LoginLockout
import RfIrBlaster.RequestBody
import RfIrBlaster.TokenKinds

namespace RfIrBlaster.Runtime

open Http (Transfer)

def kUser : Bytes := ascii "admin"
def kPbkdf2DefaultIterations : UInt32 := 150000

/-- `esp_timer_get_time()`, in microseconds since the boot. -/
structure Uptime where
  us : Nat
  fits : us < 2 ^ 63
deriving DecidableEq, Repr

def nowMs (t : Uptime) : UInt64 :=
  UInt64.ofNat (t.us / 1000)

/-- What `getpeername` gives. -/
inductive Peer where
  | ipv4 (address : UInt32)
  | ipv6 (bytes : FixedBytes 16)
  | unknown
deriving DecidableEq

/-- `IN6_IS_ADDR_V4MAPPED`, with the four bytes of the address. -/
def v4Mapped (bytes : FixedBytes 16) : Option Bytes :=
  if bytes.val.take 12 = List.replicate 10 0 ++ [255, 255] then some (bytes.val.drop 12)
  else none

/-- Four bytes, most significant first. -/
def bigEndian (bytes : Bytes) : UInt32 :=
  bytes.foldl (fun acc b => (acc <<< 8) ||| b.toUInt32) 0

def peerIpv4 : Peer → UInt32
  | .ipv4 address => address
  | .ipv6 bytes => ((v4Mapped bytes).map bigEndian).getD 0
  | .unknown => 0

/-- What the handlers read of a request. -/
structure AuthRequest where
  cookies : List (Bytes × Bytes) := []
  peer : Peer := .unknown
  xRealIp : Bytes := []
  xForwardedFor : Bytes := []
  xCsrfToken : Bytes := []
  body : Transfer := .ofBytes []

/-- `buf` has room for 319 characters and the NUL. -/
def cookieValue (req : AuthRequest) (name : Bytes) : Option Bytes :=
  (req.cookies.lookup name).filter fun value => value.length < 320

/-- What a handler answers.  `error` is the text beside `"ok":false`. -/
inductive AuthAnswer where
  | token (tok : Bytes)
  | unreadable (error : String)
  | forbidden
  | refused (error : String)
  | locked (retryMs : UInt32)
  | signedIn (session : Bytes)
  | signedOut
deriving DecidableEq, Repr

def AuthAnswer.response : AuthAnswer → Response
  | .token tok => { status := "200 OK", body := tok }
  | .unreadable error => errorResponse "400 Bad Request" error
  | .forbidden => errorResponse "403 Forbidden" "forbidden"
  | .refused error => errorResponse "200 OK" error
  | .locked retryMs =>
      { status := "200 OK"
        body := ascii "\x7b\"ok\":false,\"error\":\"locked\",\"retryMs\":" ++
          Json.natText retryMs.toNat ++ ascii "\x7d" }
  | .signedIn _ => { status := "200 OK", body := ascii "\x7b\"ok\":true\x7d" }
  | .signedOut => { status := "200 OK", body := ascii "\x7b\"ok\":true\x7d" }

/-- The `Set-Cookie` header of an answer. -/
def AuthAnswer.setCookie (secure : Bool) : AuthAnswer → Option Bytes
  | .token tok => some (csrfCookie tok secure)
  | .signedIn session => some (sessionCookie session secure)
  | .signedOut => some (clearSessionCookie secure)
  | .unreadable _ | .forbidden | .refused _ | .locked _ => none

def AuthAnswer.accepted : AuthAnswer → Bool
  | .signedIn _ => true
  | _ => false

/-- The globals of the layer; `settings` are those the web server was started with. -/
structure AuthServer where
  settings : Settings
  secret : Bytes
  store : AuthStore
  throttle : LoginThrottle := LoginThrottle.machine.init

/-- A text field of the form, empty when there is none. -/
def fieldText (body : Bytes) (key : String) : Bytes :=
  (Form.formField body (ascii key)).getD []

namespace AuthServer

def secureCookies (s : AuthServer) : Bool :=
  s.settings.https

def clientKey (s : AuthServer) (req : AuthRequest) : UInt32 :=
  deriveClientKey (peerIpv4 req.peer) s.settings.trustedProxy req.xRealIp req.xForwardedFor

section Crypto

variable (crypto : Crypto)

/-- The session cookie, read and verified. -/
def session (s : AuthServer) (req : AuthRequest) (now : Uptime) : Option SessionResult :=
  (cookieValue req (sessionCookieName s.secureCookies)).map fun sid =>
    verifySession crypto s.secret sid (nowMs now)

/-- Bound to the live session, or empty before a login. -/
def sessionBinding (s : AuthServer) (req : AuthRequest) (now : Uptime) : Bytes :=
  match s.session crypto req now with
  | none => []
  | some result => if result.valid then result.binding else []

def sessionValid (s : AuthServer) (req : AuthRequest) (now : Uptime) : Bool :=
  (s.session crypto req now).any SessionResult.valid

def csrfCookieText (s : AuthServer) (req : AuthRequest) : Bytes :=
  (cookieValue req (csrfCookieName s.secureCookies)).getD []

def checkCsrf (s : AuthServer) (req : AuthRequest) (body binding : Bytes) : Bool :=
  verifyCsrf crypto s.secret binding (s.csrfCookieText req) (fieldText body "csrf")

def csrfValid (s : AuthServer) (req : AuthRequest) (token : Bytes) (now : Uptime) : Bool :=
  verifyCsrf crypto s.secret (s.sessionBinding crypto req now) (s.csrfCookieText req) token

def handleCsrf (s : AuthServer) (req : AuthRequest) (now : Uptime) (rand : FixedBytes 16) :
    AuthAnswer :=
  .token (mintCsrf crypto s.secret (s.sessionBinding crypto req now) rand)

/-- The body is used as far as it came. -/
def handleLogout (s : AuthServer) (req : AuthRequest) (now : Uptime) : AuthAnswer :=
  let body := if Http.authMaxBody < req.body.contentLen then [] else Http.buffer req.body
  if !s.checkCsrf crypto req body (s.sessionBinding crypto req now) then .forbidden
  else .signedOut

variable (kdf : KeyDerivation)

/-- `now` is read before the password is checked, `minted` after it. -/
def handleLogin (s : AuthServer) (req : AuthRequest) (now minted : Uptime) :
    AuthAnswer × AuthServer :=
  match Http.readAuthBody req.body with
  | none => (.unreadable "invalid", s)
  | some body =>
      if !s.checkCsrf crypto req body [] then (.forbidden, s)
      else
        let now := (nowMs now).toUInt32
        let key := s.clientKey req
        if s.throttle.isLocked key now then (.locked (s.throttle.timeRemainingMs key now), s)
        else
          let ok := s.store.getCredential.any fun record =>
            verifyPassword kdf (fieldText body "password") record
          if !ok then
            (.refused "invalid", { s with throttle := s.throttle.recordFailure key now })
          else
            (.signedIn (mintSession crypto s.secret kUser (nowMs minted)),
              { s with throttle := s.throttle.recordSuccess key now })

/-- What storing the record and clearing the nonce meet. -/
structure SetupAnswers where
  cred : NvsAnswer := {}
  nonce : NvsAnswer := {}
deriving DecidableEq, Repr

def handleSetup (s : AuthServer) (req : AuthRequest) (now minted : Uptime)
    (salt : FixedBytes 16) (answers : SetupAnswers) : AuthAnswer × AuthServer :=
  match Http.readAuthBody req.body with
  | none => (.unreadable "nonce", s)
  | some body =>
      if !s.checkCsrf crypto req body [] then (.forbidden, s)
      else if !setupAllowed s.store.hasCredential (fieldText body "nonce")
          (s.store.getNonce.getD []) 0 (nowMs now) then (.refused "nonce", s)
      else if (fieldText body "password").length < 8 then (.refused "weak", s)
      else
        let record := deriveCredential kdf (fieldText body "password") salt kPbkdf2DefaultIterations
        if record.isEmpty then (.refused "weak", s)
        else
          let written := s.store.setCredential record answers.cred
          if !written.1 then (.refused "weak", { s with store := written.2 })
          else
            (.signedIn (mintSession crypto s.secret kUser (nowMs minted)),
              { s with store := written.2.clearNonce answers.nonce })

end Crypto

end AuthServer

/-- `gate`'s verdict on a path. -/
inductive GateResult where
  | allow
  | redirectSetup
  | redirectLogin
  | redirectDashboard
deriving DecidableEq, Repr

def endsWithHtml (path : Bytes) : Bool :=
  (ascii ".html").isSuffixOf path

def AuthServer.gate (crypto : Crypto) (s : AuthServer) (req : AuthRequest) (now : Uptime)
    (path : Bytes) : GateResult :=
  if !endsWithHtml path then .allow
  else if !s.store.hasCredential then
    if path = ascii "/setup.html" then .allow else .redirectSetup
  else if !s.sessionValid crypto req now then
    if path = ascii "/login.html" then .allow else .redirectLogin
  else if path = ascii "/login.html" ∨ path = ascii "/setup.html" then .redirectDashboard
  else .allow

/-- What a start of the web server draws and finds: the settings it runs with, whether the
namespace opens, and the answer of the store to a new nonce. -/
structure Start where
  settings : Settings
  secret : FixedBytes 32
  opened : Bool := true
  nonce : FixedBytes 9
  answer : NvsAnswer := {}

def authBegin (start : Start) (flash : FlashLog AuthKey Bytes) : AuthServer :=
  let store : AuthStore := { ok := start.opened, flash := flash }
  let store :=
    if !store.ok then store
    else if store.hasCredential then store
    else if store.getNonce.isSome then store
    else (store.setNonce (makeNonce start.nonce) start.answer).2
  { settings := start.settings, secret := start.secret, store := store }

end RfIrBlaster.Runtime
