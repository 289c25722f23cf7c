/-
The sockets `startListeners` opens, and where a client that follows a redirect
of `evaluate` arrives.
-/
import RfIrBlaster.RequestPolicy
import Mathlib.Tactic.Common

namespace RfIrBlaster.Runtime

/-- A socket the device accepts requests on. -/
structure Listener where
  scheme : Scheme
  port : UInt16
deriving DecidableEq, Repr

/-- `startListeners`: with HTTPS on, port 80 answers with redirects only. -/
def startListeners (settings : Settings) : List Listener :=
  if settings.https then [⟨.https, settings.listenPort⟩, ⟨.http, 80⟩]
  else [⟨.http, settings.listenPort⟩]

/-- A byte that ends the authority of a URL: `/`, `?` or `#`. -/
def endsAuthority (c : UInt8) : Bool :=
  c == 47 || c == 63 || c == 35

/-- A URL as a client reads it. -/
structure Url where
  scheme : Scheme
  authority : Bytes
  target : Bytes
deriving DecidableEq, Repr

def Scheme.defaultPort : Scheme → Nat
  | .http => 80
  | .https => 443

/-- The host and port of an authority: what follows any user part. -/
def hostPort (authority : Bytes) : Bytes :=
  authority.rtakeWhile (· ≠ 64)

/-- The port of an authority, after the last colon that is not inside the
brackets of an address literal. -/
def portOf (scheme : Scheme) (authority : Bytes) : Option Nat :=
  let tail := (hostPort authority).rtakeWhile (· ≠ 93)
  if 58 ∉ tail then some scheme.defaultPort
  else
    let digits := tail.rtakeWhile (· ≠ 58)
    if digits.isEmpty then some scheme.defaultPort
    else if digits.all isDigitByte then
      some (digits.foldl (fun value c => value * 10 + (c.toNat - 48)) 0)
    else none

def Url.port (url : Url) : Option Nat :=
  portOf url.scheme url.authority

/-- The URL whose text after `scheme://` is `rest`. -/
def readAuthority (scheme : Scheme) (rest : Bytes) : Url where
  scheme := scheme
  authority := rest.takeWhile (!endsAuthority ·)
  target := rest.dropWhile (!endsAuthority ·)

/-- How a client reads a `Location`. -/
def readLocation (location : Bytes) : Option Url :=
  if (schemeText .https).isPrefixOf location then
    some (readAuthority .https (location.drop (schemeText .https).length))
  else if (schemeText .http).isPrefixOf location then
    some (readAuthority .http (location.drop (schemeText .http).length))
  else none

/-- The request of the client of `req` that follows `url`. -/
def arrival (req : Request) (url : Url) : Request :=
  { req with transportScheme := url.scheme, host := hostPort url.authority,
             target := url.target }

/-- A redirect leads to a socket the device listens on, and is served there. -/
def RedirectsToListener (settings : Settings) (req : Request) : Prop :=
  (evaluate req settings).action = .redirect →
    ∃ url, readLocation (evaluate req settings).location = some url ∧
      (∃ listener ∈ startListeners settings,
        listener.scheme = url.scheme ∧ url.port = some listener.port.toNat) ∧
      (evaluate (arrival req url) settings).action = .serve

/-- HTTPS is off, or the request came over it with an acceptable host. -/
def NoRedirectDue (settings : Settings) (req : Request) : Prop :=
  settings.https = false ∨
    (req.transportScheme = .https ∧
      (settings.canonicalDomain = [] ∨
        hostEquals (hostOnly req.host) settings.canonicalDomain = true))

/-- The authority at the start of `text` names the port and the host the
settings ask for. -/
def NamesListener (settings : Settings) (text : Bytes) : Prop :=
  let authority := text.takeWhile (!endsAuthority ·)
  portOf .https authority = some settings.listenPort.toNat ∧
    (settings.canonicalDomain = [] ∨
      hostEquals (hostOnly (hostPort authority)) settings.canonicalDomain = true)

theorem readLocation_schemeText (scheme : Scheme) (rest : Bytes) :
    readLocation (schemeText scheme ++ rest) = some (readAuthority scheme rest) := by
  cases scheme <;> simp [readLocation, schemeText, ascii, List.isPrefixOf]

/-- Without a trusted proxy only HTTPS brings redirects about. -/
theorem redirect_iff_due {settings : Settings} (htrust : settings.trustedProxy = false)
    {req : Request} (hremote : req.isLoopback = false) :
    (evaluate req settings).action = .redirect ↔ ¬NoRedirectDue settings req := by
  rw [evaluate_redirect_iff, PlainRefused, HostMismatch, NoRedirectDue, htrust,
    effectiveScheme_untrusted]
  cases hon : settings.https with
  | false => simp
  | true =>
      cases hscheme : req.transportScheme with
      | http => simp [hremote]
      | https => simp [hremote]

theorem redirectScheme_untrusted {settings : Settings} (htrust : settings.trustedProxy = false)
    {req : Request} (hdue : ¬NoRedirectDue settings req) :
    redirectScheme req settings = .https := by
  have hon : settings.https = true := by
    by_contra hoff
    exact hdue (Or.inl (Bool.eq_false_iff.mpr hoff))
  unfold redirectScheme
  split_ifs with hplain
  · rfl
  · rw [htrust, effectiveScheme_untrusted]
    cases hscheme : req.transportScheme with
    | https => rfl
    | http =>
        refine absurd ⟨hon, ?_⟩ hplain
        rw [htrust, effectiveScheme_untrusted, hscheme]

/-- The location of a redirect that is due. -/
theorem location_untrusted {settings : Settings} (htrust : settings.trustedProxy = false)
    {req : Request} (hremote : req.isLoopback = false) (hdue : ¬NoRedirectDue settings req) :
    readLocation (evaluate req settings).location =
      some (readAuthority .https (redirectHost req settings ++ req.target)) := by
  have hredirect := (redirect_iff_due htrust hremote).mpr hdue
  rw [evaluate_location hredirect, redirectScheme_untrusted htrust hdue, List.append_assoc,
    readLocation_schemeText]

/-- A secure request is served when its host is acceptable. -/
theorem secure_serve_iff {settings : Settings} (htrust : settings.trustedProxy = false)
    (hon : settings.https = true) {req : Request} (hremote : req.isLoopback = false)
    (hsecure : req.transportScheme = .https) :
    (evaluate req settings).action = .serve ↔
      settings.canonicalDomain = [] ∨
        hostEquals (hostOnly req.host) settings.canonicalDomain = true := by
  have hplain : ¬PlainRefused req settings := by
    rintro ⟨-, hhttp⟩
    rw [htrust, effectiveScheme_untrusted, hsecure] at hhttp
    cases hhttp
  rw [evaluate_serve_iff, HostMismatch]
  simp only [hremote, hplain, hon, htrust]
  simp [or_iff_not_imp_left]

/-- The only secure socket is the one on `listenPort`. -/
theorem secure_listener_iff {settings : Settings} (hon : settings.https = true)
    (port : Option Nat) :
    (∃ listener ∈ startListeners settings,
        listener.scheme = .https ∧ port = some listener.port.toNat) ↔
      port = some settings.listenPort.toNat := by
  rw [startListeners, if_pos hon]
  simp

/-- Where a redirect leads, whatever the target. -/
theorem redirectsToListener_iff_names {settings : Settings}
    (htrust : settings.trustedProxy = false) {req : Request}
    (hremote : req.isLoopback = false) :
    RedirectsToListener settings req ↔
      NoRedirectDue settings req ∨
        NamesListener settings (redirectHost req settings ++ req.target) := by
  by_cases hdue : NoRedirectDue settings req
  · have hstay : (evaluate req settings).action ≠ .redirect :=
      fun hredirect => (redirect_iff_due htrust hremote).mp hredirect hdue
    simp [RedirectsToListener, hstay, hdue]
  · have hon : settings.https = true := by
      by_contra hoff
      exact hdue (Or.inl (Bool.eq_false_iff.mpr hoff))
    have hredirect := (redirect_iff_due htrust hremote).mpr hdue
    have hserved : ∀ url : Url, url.scheme = .https →
        ((evaluate (arrival req url) settings).action = .serve ↔
          settings.canonicalDomain = [] ∨
            hostEquals (hostOnly (hostPort url.authority)) settings.canonicalDomain = true) :=
      fun _ hscheme => secure_serve_iff htrust hon hremote hscheme
    rw [RedirectsToListener, location_untrusted htrust hremote hdue]
    simp only [hredirect, hdue, Option.some.injEq, exists_eq_left', forall_const, false_or]
    rw [hserved _ rfl, NamesListener]
    exact and_congr_left' (secure_listener_iff hon _)

/-- The target starts a path, a query or a fragment, or is empty. -/
def StartsPath (target : Bytes) : Prop :=
  ∀ c ∈ target.head?, endsAuthority c = true

theorem takeWhile_append_startsPath (host : Bytes) {target : Bytes}
    (htarget : StartsPath target) :
    (host ++ target).takeWhile (!endsAuthority ·) = host.takeWhile (!endsAuthority ·) := by
  induction host with
  | nil =>
      cases target with
      | nil => rfl
      | cons c cs =>
          have hend := htarget c (by simp)
          simp [hend]
  | cons c cs ih => rw [List.cons_append, List.takeWhile_cons, List.takeWhile_cons, ih]

theorem mem_of_mem_rtakeWhile {p : UInt8 → Bool} {s : Bytes} {c : UInt8}
    (h : c ∈ s.rtakeWhile p) : c ∈ s :=
  (List.rtakeWhile_suffix p s).subset h

/-- An authority without a colon has the default port. -/
theorem portOf_no_colon (scheme : Scheme) {authority : Bytes} (h : 58 ∉ authority) :
    portOf scheme authority = some scheme.defaultPort :=
  if_pos fun hmem => h (mem_of_mem_rtakeWhile (mem_of_mem_rtakeWhile hmem))

/-- A byte the validator lets through in a host is none a URL gives a meaning. -/
theorem isHostByte_not_special {c : UInt8} (h : isHostByte c = true) :
    c ≠ 58 ∧ c ≠ 64 ∧ endsAuthority c = false := by
  refine ⟨?_, ?_, ?_⟩
  · rintro rfl
    exact absurd h (by decide)
  · rintro rfl
    exact absurd h (by decide)
  · by_contra hend
    simp only [endsAuthority, Bool.or_eq_true, beq_iff_eq, Bool.not_eq_false] at hend
    rcases hend with (rfl | rfl) | rfl <;> exact absurd h (by decide)

theorem colon_notMem_redirectHost {settings : Settings} (hdomain : DomainAccepted settings)
    (req : Request) : 58 ∉ redirectHost req settings := by
  rw [← hostOnly_redirectHost hdomain]
  exact colon_notMem_hostOnly _

/-- With a path after it, the host of a redirect is the whole authority, or
there is no canonical domain to match. -/
theorem authority_matches {settings : Settings} (hdomain : DomainAccepted settings)
    (req : Request) :
    settings.canonicalDomain = [] ∨
      hostEquals (hostOnly (hostPort
        ((redirectHost req settings).takeWhile (!endsAuthority ·))))
        settings.canonicalDomain = true := by
  rcases hdomain with hnil | hvalid
  · exact Or.inl hnil
  · right
    have hset : settings.canonicalDomain ≠ [] := by
      intro hnil
      rw [hnil] at hvalid
      cases hvalid
    have hbytes := fun c hc => isHostByte_not_special (isValidHostOrIp_bytes hvalid c hc)
    have hhost : redirectHost req settings = settings.canonicalDomain := by
      simp [redirectHost, hset]
    have hauthority : settings.canonicalDomain.takeWhile (!endsAuthority ·) =
        settings.canonicalDomain :=
      List.takeWhile_eq_self_iff.mpr fun c hc => by simp [(hbytes c hc).2.2]
    have hport : hostPort settings.canonicalDomain = settings.canonicalDomain :=
      List.rtakeWhile_eq_self_iff.mpr fun c hc => by simp [(hbytes c hc).2.1]
    rw [hhost, hauthority, hport, hostOnly_eq_self fun hmem => (hbytes 58 hmem).1 rfl]
    exact hostEquals_self _

/-- A location with a path after its host names port 443. -/
theorem namesListener_iff_default {settings : Settings} (hdomain : DomainAccepted settings)
    {req : Request} (htarget : StartsPath req.target) :
    NamesListener settings (redirectHost req settings ++ req.target) ↔
      settings.listenPort = 443 := by
  have hcolon : 58 ∉ (redirectHost req settings).takeWhile (!endsAuthority ·) :=
    fun hmem => colon_notMem_redirectHost hdomain req
      ((List.takeWhile_prefix _).subset hmem)
  unfold NamesListener
  simp only [takeWhile_append_startsPath _ htarget, portOf_no_colon _ hcolon]
  constructor
  · rintro ⟨hport, -⟩
    exact UInt16.toNat_inj.mp (Option.some.inj hport).symm
  · intro hport
    exact ⟨by rw [hport]; rfl, authority_matches hdomain req⟩

theorem domainAccepted_of_validate {cfg : Config} (h : validate cfg = .ok) :
    DomainAccepted cfg.settings := by
  have hset := validate_settings h
  unfold validateSettings at hset
  split_ifs at hset with hzero hreserved hempty hlong hbad
  · exact Or.inl (List.isEmpty_iff.mp hempty)
  · exact Or.inr (by simpa using hbad)

/-- With no trusted proxy, a redirect leads to a listener exactly when none is
due or the authority names `listenPort`; where a path follows the host, that
is when `listenPort` is the port a location leaves out. -/
theorem redirects_to_listener_iff (cfg : Config) (hvalid : validate cfg = .ok)
    (htrust : cfg.settings.trustedProxy = false) (req : Request)
    (hremote : req.isLoopback = false) :
    (RedirectsToListener cfg.settings req ↔
      NoRedirectDue cfg.settings req ∨
        NamesListener cfg.settings (redirectHost req cfg.settings ++ req.target)) ∧
      (StartsPath req.target →
        (RedirectsToListener cfg.settings req ↔
          NoRedirectDue cfg.settings req ∨ cfg.settings.listenPort = 443)) := by
  have hiff := redirectsToListener_iff_names htrust hremote
  refine ⟨hiff, ?_⟩
  intro htarget
  rw [hiff, namesListener_iff_default (domainAccepted_of_validate hvalid) htarget]

theorem redirects_to_listener_default_port :
    RedirectsToListener {} { host := ascii "rf.local", target := ascii "/login.html" } := by
  have hpath : StartsPath (ascii "/login.html") := by
    simp [StartsPath, ascii, endsAuthority]
  exact ((redirects_to_listener_iff {} (by decide) rfl
    { host := ascii "rf.local", target := ascii "/login.html" } rfl).2 hpath).mpr (Or.inr rfl)

/-- HTTPS on port 8443: the plain request is sent to port 443, where nothing
listens. -/
theorem redirect_misses_listener :
    validate { settings := { listenPort := 8443 } } = .ok ∧
      ¬RedirectsToListener { listenPort := 8443 }
        { host := ascii "rf.local", target := ascii "/login.html" } := by
  refine ⟨by decide, ?_⟩
  intro h
  obtain ⟨url, hurl, ⟨listener, hlistener, hscheme, hport⟩, -⟩ := h (by decide)
  have hread : readLocation (ascii "https://rf.local/login.html") = some url := hurl
  cases hread
  simp only [startListeners, if_true, List.mem_cons, List.not_mem_nil, or_false] at hlistener
  rcases hlistener with rfl | rfl
  · exact absurd hport (by decide)
  · cases hscheme

end RfIrBlaster.Runtime
