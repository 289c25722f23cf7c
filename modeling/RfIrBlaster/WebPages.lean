/-
`web_server.cpp`: what the catch-all handler answers with, and the requests a browser makes
that follows its redirects.
-/
import RfIrBlaster.AuthSessions

namespace RfIrBlaster.Runtime

/-- An entry of the generated asset table. -/
structure Asset where
  path : Bytes
  contentType : Bytes
  data : Bytes
  gzipped : Bool
  immutable : Bool
deriving DecidableEq, Repr

/-- What the catch-all handler reads of a request. -/
structure PageRequest where
  auth : AuthRequest := {}
  host : Bytes := []
  xForwardedProto : Bytes := []
  uri : Bytes := []

/-- The two answers of `IN6_IS_ADDR_LOOPBACK` and the mapped loopback network. -/
def peerIsLoopback : Peer → Bool
  | .ipv4 address => address >>> 24 == 127
  | .ipv6 bytes =>
      if bytes.val = List.replicate 15 0 ++ [1] then true
      else (v4Mapped bytes).any fun mapped => mapped.head? == some 127
  | .unknown => false

def pathOf (uri : Bytes) : Bytes :=
  let path := uri.takeWhile (· ≠ 63)
  if path = ascii "/" then ascii "/dashboard.html" else path

def findAsset (assets : List Asset) (path : Bytes) : Option Asset :=
  assets.find? fun a => path = a.path

inductive PageAnswer where
  | moved (location : Bytes)
  | forbidden
  | found (location : Bytes)
  | notFound
  | asset (a : Asset) (https : Bool)
deriving DecidableEq, Repr

def hstsHeader : Bytes := ascii "max-age=31536000"

def staticSecurityHeaders : List (Bytes × Bytes) :=
  [(ascii "X-Content-Type-Options", ascii "nosniff"), (ascii "X-Frame-Options", ascii "DENY"),
    (ascii "Referrer-Policy", ascii "no-referrer"),
    (ascii "Content-Security-Policy",
      ascii "default-src 'self'; frame-ancestors 'none'; form-action 'self'; " ++
        ascii "base-uri 'none'; object-src 'none'")]

def kCacheNoStore : Bytes := ascii "no-store"
def kCacheImmutable : Bytes := ascii "public, max-age=31536000, immutable"

/-- The headers of an answer. -/
def PageAnswer.headers : PageAnswer → List (Bytes × Bytes)
  | .moved location => [(ascii "Location", location)]
  | .forbidden => []
  | .found location => [(ascii "Location", location), (ascii "Cache-Control", kCacheNoStore)]
  | .notFound => []
  | .asset a https =>
      (if a.gzipped then [(ascii "Content-Encoding", ascii "gzip")] else []) ++
        staticSecurityHeaders ++
        [(ascii "Cache-Control", if a.immutable then kCacheImmutable else kCacheNoStore)] ++
        (if https then [(ascii "Strict-Transport-Security", hstsHeader)] else [])

/-- The request as the policy sees it. -/
def PageRequest.policy (req : PageRequest) (scheme : Scheme) : Request where
  transportScheme := scheme
  forwardedProto := req.xForwardedProto
  host := req.host
  target := req.uri
  isLoopback := peerIsLoopback req.auth.peer

/-- Where `gate` sends a page it does not allow. -/
def GateResult.location : GateResult → Option Bytes
  | .allow => none
  | .redirectSetup => some (ascii "/setup.html")
  | .redirectLogin => some (ascii "/login.html")
  | .redirectDashboard => some (ascii "/dashboard.html")

section Handle

variable (crypto : Crypto) (assets : List Asset)

/-- The part of `handle` behind the policy. -/
def AuthServer.servePage (s : AuthServer) (scheme : Scheme) (req : PageRequest) (now : Uptime) :
    PageAnswer :=
  match (s.gate crypto req.auth now (pathOf req.uri)).location with
  | some location => .found location
  | none =>
      match findAsset assets (pathOf req.uri) with
      | none => .notFound
      | some a => .asset a (scheme == .https)

def AuthServer.handle (s : AuthServer) (scheme : Scheme) (req : PageRequest) (now : Uptime) :
    PageAnswer :=
  let d := evaluate (req.policy scheme) s.settings
  match d.action with
  | .redirect => .moved d.location
  | .reject => .forbidden
  | .serve => s.servePage crypto assets scheme req now

end Handle

/-- A request and the server that answers it. -/
structure Visit where
  server : AuthServer
  scheme : Scheme
  req : PageRequest
  now : Uptime

/-- What the gate tells apart: nothing is set up, or the client is signed out or in. -/
inductive Standing where
  | fresh
  | signedOut
  | signedIn
deriving DecidableEq, Repr

/-- The page a client is sent to. -/
def Standing.home : Standing → Bytes
  | .fresh => ascii "/setup.html"
  | .signedOut => ascii "/login.html"
  | .signedIn => ascii "/dashboard.html"

namespace Visit

variable (crypto : Crypto) (assets : List Asset)

def answer (v : Visit) : PageAnswer :=
  v.server.handle crypto assets v.scheme v.req v.now

def standing (v : Visit) : Standing :=
  if !v.server.store.hasCredential then .fresh
  else if !v.server.sessionValid crypto v.req.auth v.now then .signedOut
  else .signedIn

/-- `next` follows the redirect `v` was answered with, under the same settings.  A relative
location keeps the scheme, the host and the peer. -/
structure Follows (v next : Visit) : Prop where
  settings : next.server.settings = v.server.settings
  arrives :
    (∃ location, v.answer crypto assets = .moved location ∧
      FollowsUp v.server.settings (v.req.policy v.scheme) (next.req.policy next.scheme)) ∨
    (∃ location, v.answer crypto assets = .found location ∧
      next.req.policy next.scheme = { v.req.policy v.scheme with target := location })

/-- `next` follows the 301 that `v` was answered with, and comes in as plain text, as it does
where something on the way ends TLS and is not believed. -/
structure ReturnsPlain (v next : Visit) : Prop where
  settings : next.server.settings = v.server.settings
  plain : effectiveScheme (next.req.policy next.scheme) v.server.settings.trustedProxy = .http
  host : next.req.host = redirectHost (v.req.policy v.scheme) v.server.settings
  target : next.req.uri = v.req.uri
  peer : peerIsLoopback next.req.auth.peer = peerIsLoopback v.req.auth.peer

/-- How often the client's standing changes along the visits. -/
def turns : List Visit → Nat
  | v :: next :: rest =>
      (if v.standing crypto = next.standing crypto then 0 else 1) + turns (next :: rest)
  | _ => 0

/-- How many redirects may come while the standing stays. -/
def redirectsLeft (v : Visit) : Nat :=
  match v.answer crypto assets with
  | .moved _ => 2
  | .found _ => 1
  | _ => 0

end Visit

section Redirects

variable {crypto : Crypto} {assets : List Asset}

/-- The policy looks at the target only to name it in a location. -/
theorem evaluate_target (req : Request) (target : Bytes) (settings : Settings) :
    (evaluate { req with target := target } settings).action = (evaluate req settings).action := by
  unfold evaluate effectiveScheme
  dsimp only
  split_ifs <;> rfl

theorem answer_served {v : Visit}
    (h : (evaluate (v.req.policy v.scheme) v.server.settings).action = .serve) :
    v.answer crypto assets = v.server.servePage crypto assets v.scheme v.req v.now := by
  rw [Visit.answer, AuthServer.handle, h]

theorem served_of_found {v : Visit} {location : Bytes}
    (h : v.answer crypto assets = .found location) :
    (evaluate (v.req.policy v.scheme) v.server.settings).action = .serve ∧
      (v.server.gate crypto v.req.auth v.now (pathOf v.req.uri)).location = some location := by
  unfold Visit.answer AuthServer.handle at h
  dsimp only at h
  split at h
  · cases h
  · cases h
  · next haction =>
    refine ⟨haction, ?_⟩
    unfold AuthServer.servePage at h
    split at h
    · next loc hloc =>
      rw [hloc]
      exact congrArg some (PageAnswer.found.inj h)
    · split at h
      · cases h
      · cases h

theorem gate_location {v : Visit} {path location : Bytes}
    (h : (v.server.gate crypto v.req.auth v.now path).location = some location) :
    location = (v.standing crypto).home := by
  unfold AuthServer.gate at h
  unfold Visit.standing
  split_ifs at h ⊢ <;>
    first
    | exact (Option.some.inj h).symm
    | cases h

/-- The page a client is sent to is one it may see. -/
theorem gate_home (v : Visit) :
    v.server.gate crypto v.req.auth v.now (v.standing crypto).home = .allow := by
  have hhtml : ∀ s : Standing, (!endsWithHtml s.home) = false := by
    intro s
    cases s <;> decide
  unfold AuthServer.gate
  rw [hhtml, if_neg Bool.false_ne_true]
  unfold Visit.standing
  split_ifs with hfresh hsetup hsession hlogin hpages
  · rfl
  · exact absurd rfl hsetup
  · rfl
  · exact absurd rfl hlogin
  · exact absurd hpages (by decide)
  · rfl

theorem pathOf_home (s : Standing) : pathOf s.home = s.home := by
  cases s <;> decide

/-- A redirect leads to a request the policy serves. -/
theorem Visit.Follows.served {v next : Visit} (hdomain : DomainAccepted v.server.settings)
    (h : v.Follows crypto assets next) :
    (evaluate (next.req.policy next.scheme) next.server.settings).action = .serve := by
  rw [h.settings]
  rcases h.arrives with ⟨location, -, hfollow⟩ | ⟨location, hfound, hsame⟩
  · exact hfollow.served hdomain
  · rw [hsame, evaluate_target]
    exact (served_of_found hfound).1

theorem redirectsLeft_served {v : Visit}
    (h : (evaluate (v.req.policy v.scheme) v.server.settings).action = .serve) :
    v.redirectsLeft crypto assets ≤ 1 := by
  unfold Visit.redirectsLeft
  rw [answer_served h]
  unfold AuthServer.servePage
  cases (v.server.gate crypto v.req.auth v.now (pathOf v.req.uri)).location with
  | some location => exact le_rfl
  | none => cases findAsset assets (pathOf v.req.uri) <;> exact Nat.zero_le 1

/-- A page the gate allows is no redirect. -/
theorem redirectsLeft_allowed {v : Visit}
    (h : (evaluate (v.req.policy v.scheme) v.server.settings).action = .serve)
    (hgate : v.server.gate crypto v.req.auth v.now (pathOf v.req.uri) = .allow) :
    v.redirectsLeft crypto assets = 0 := by
  unfold Visit.redirectsLeft
  rw [answer_served h, AuthServer.servePage, hgate]
  dsimp only [GateResult.location]
  cases findAsset assets (pathOf v.req.uri) <;> rfl

/-- A client sent on by the gate is sent on again only when its standing has changed. -/
theorem redirectsLeft_step {v next : Visit} (hdomain : DomainAccepted v.server.settings)
    (h : v.Follows crypto assets next) :
    next.redirectsLeft crypto assets + 1 ≤
      v.redirectsLeft crypto assets +
        (if v.standing crypto = next.standing crypto then 0 else 1) := by
  have hserved := h.served hdomain
  have hnext := @redirectsLeft_served crypto assets next hserved
  rcases h.arrives with ⟨location, hmoved, -⟩ | ⟨location, hfound, hsame⟩
  · have hleft : v.redirectsLeft crypto assets = 2 := by
      rw [Visit.redirectsLeft, hmoved]
    omega
  · have hleft : v.redirectsLeft crypto assets = 1 := by
      rw [Visit.redirectsLeft, hfound]
    split_ifs with hstanding
    · have hlocation := gate_location (served_of_found hfound).2
      have huri : next.req.uri = (next.standing crypto).home := by
        rw [← hstanding, ← hlocation]
        exact congrArg Request.target hsame
      have hgate : next.server.gate crypto next.req.auth next.now (pathOf next.req.uri) =
          .allow := by
        rw [huri, pathOf_home]
        exact gate_home next
      rw [redirectsLeft_allowed hserved hgate]
      omega
    · omega

/-- A client that follows redirects makes at most two more requests than its standing changes
meanwhile. -/
theorem follows_short {v : Visit} {chain : List Visit} (hdomain : DomainAccepted v.server.settings)
    (h : List.IsChain (Visit.Follows crypto assets) (v :: chain)) :
    chain.length ≤ 2 + Visit.turns crypto (v :: chain) := by
  suffices hleft : chain.length ≤
      v.redirectsLeft crypto assets + Visit.turns crypto (v :: chain) by
    have hmost : v.redirectsLeft crypto assets ≤ 2 := by
      unfold Visit.redirectsLeft
      split <;> omega
    omega
  induction chain generalizing v with
  | nil => simp
  | cons next rest ih =>
      obtain ⟨hfirst, hrest⟩ := List.isChain_cons_cons.mp h
      have hnext := ih (by rw [hfirst.settings]; exact hdomain) hrest
      have hstep := redirectsLeft_step hdomain hfirst
      rw [Visit.turns, List.length_cons]
      omega

theorem answer_moved_iff {v : Visit} {location : Bytes} :
    v.answer crypto assets = .moved location ↔
      evaluate (v.req.policy v.scheme) v.server.settings = ⟨.redirect, location⟩ := by
  rw [Visit.answer, AuthServer.handle]
  obtain ⟨action, target⟩ := evaluate (v.req.policy v.scheme) v.server.settings
  cases action with
  | redirect => simp
  | reject => simp
  | serve =>
      simp only [Decision.mk.injEq, reduceCtorEq, false_and, iff_false]
      unfold AuthServer.servePage
      cases (v.server.gate crypto v.req.auth v.now (pathOf v.req.uri)).location with
      | some home => simp
      | none => cases findAsset assets (pathOf v.req.uri) <;> simp

/-- A 301 that is followed in plain text is answered with the same 301. -/
theorem Visit.ReturnsPlain.moved {v next : Visit} (hon : v.server.settings.https = true)
    {location : Bytes} (hmoved : v.answer crypto assets = .moved location)
    (h : v.ReturnsPlain next) : next.answer crypto assets = .moved location := by
  rw [answer_moved_iff] at hmoved ⊢
  rw [h.settings, ← hmoved]
  exact evaluate_again hon (by rw [hmoved]) h.plain h.host h.target h.peer

theorem returns_forever {v : Visit} {chain : List Visit} (hon : v.server.settings.https = true)
    {location : Bytes} (hmoved : v.answer crypto assets = .moved location)
    (h : List.IsChain Visit.ReturnsPlain (v :: chain)) :
    ∀ u ∈ chain, u.answer crypto assets = .moved location := by
  induction chain generalizing v with
  | nil => simp
  | cons next rest ih =>
      obtain ⟨hfirst, hrest⟩ := List.isChain_cons_cons.mp h
      have hnext := hfirst.moved hon hmoved
      intro u hu
      rcases List.mem_cons.mp hu with rfl | hu
      · exact hnext
      · exact ih (by rw [hfirst.settings]; exact hon) hnext hrest u hu

/-- A client whose requests arrive as the redirects name them makes at most two more than its
standing changes meanwhile; one whose requests come in as plain text, with HTTPS on, is sent
to the same place for ever. -/
theorem redirects_end (crypto : Crypto) (assets : List Asset) (v : Visit)
    (hdomain : DomainAccepted v.server.settings) :
    (∀ chain, List.IsChain (Visit.Follows crypto assets) (v :: chain) →
      chain.length ≤ 2 + Visit.turns crypto (v :: chain)) ∧
    (v.server.settings.https = true → ∀ location, v.answer crypto assets = .moved location →
      ∀ chain, List.IsChain Visit.ReturnsPlain (v :: chain) →
        ∀ u ∈ chain, u.answer crypto assets = .moved location) :=
  ⟨fun _ h => follows_short hdomain h, fun hon _ hmoved _ h => returns_forever hon hmoved h⟩

/-- A device at `rf.local`, before and after its setup. -/
def domainStart : Start :=
  { firstStart with settings := { canonicalDomain := ascii "rf.local" } }

def freshServer : AuthServer :=
  authBegin domainStart {}

def ownedServer : AuthServer :=
  { freshServer with
    store :=
      (freshServer.store.setCredential
        (deriveCredential toyDerivation (ascii "password") (zeros 16) 1) {}).2 }

def addressVisit : Visit :=
  ⟨freshServer, .http, { host := ascii "10.0.0.7", uri := ascii "/" }, atBoot⟩

def domainVisit : Visit :=
  ⟨freshServer, .https, { host := ascii "rf.local", uri := ascii "/" }, atBoot⟩

def setupVisit : Visit :=
  ⟨ownedServer, .https, { host := ascii "rf.local", uri := ascii "/setup.html" }, atBoot⟩

def loginVisit : Visit :=
  ⟨ownedServer, .https, { host := ascii "rf.local", uri := ascii "/login.html" }, atBoot⟩

/-- The domain again, behind a proxy that ends TLS. -/
def proxiedVisit : Visit :=
  ⟨freshServer, .http, { host := ascii "rf.local", uri := ascii "/" }, atBoot⟩

/-- Three redirects: from the address to the domain, from there to the setup, and from the
setup, done meanwhile in another window, to the login.  Behind the proxy the first of them
comes again and again. -/
theorem redirects_end_setup :
    List.IsChain (Visit.Follows toyCrypto [])
        [addressVisit, domainVisit, setupVisit, loginVisit] ∧
      [domainVisit, setupVisit, loginVisit].length ≤
        2 + Visit.turns toyCrypto [addressVisit, domainVisit, setupVisit, loginVisit] ∧
      ∀ u ∈ [proxiedVisit, proxiedVisit],
        u.answer toyCrypto [] = .moved (ascii "https://rf.local/") := by
  have hdomain : DomainAccepted addressVisit.server.settings := Or.inr (by decide +kernel)
  have hmoved : addressVisit.Follows toyCrypto [] domainVisit :=
    ⟨by decide +kernel, Or.inl ⟨ascii "https://rf.local/", by decide +kernel,
      { redirected := by decide +kernel, arrives := by decide +kernel
        target := by decide +kernel, peer := by decide +kernel }⟩⟩
  have hfresh : domainVisit.Follows toyCrypto [] setupVisit :=
    ⟨by decide +kernel, Or.inr ⟨ascii "/setup.html", by decide +kernel, by decide +kernel⟩⟩
  have howned : setupVisit.Follows toyCrypto [] loginVisit :=
    ⟨by decide +kernel, Or.inr ⟨ascii "/login.html", by decide +kernel, by decide +kernel⟩⟩
  have hchain : List.IsChain (Visit.Follows toyCrypto [])
      [addressVisit, domainVisit, setupVisit, loginVisit] := by
    simpa using ⟨hmoved, hfresh, howned⟩
  have hproxied : addressVisit.ReturnsPlain proxiedVisit :=
    ⟨by decide +kernel, by decide +kernel, by decide +kernel, rfl, rfl⟩
  have hagain : proxiedVisit.ReturnsPlain proxiedVisit :=
    ⟨rfl, by decide +kernel, by decide +kernel, rfl, rfl⟩
  have hloop : List.IsChain Visit.ReturnsPlain [addressVisit, proxiedVisit, proxiedVisit] := by
    simpa using ⟨hproxied, hagain⟩
  obtain ⟨hends, hreturns⟩ := redirects_end toyCrypto [] addressVisit hdomain
  exact ⟨hchain, hends _ hchain, hreturns (by decide +kernel) _ (by decide +kernel) _ hloop⟩

end Redirects

section Pages

variable {crypto : Crypto} {assets : List Asset}

/-- What a request has shown that is answered with the page `a`. -/
structure PageAllowed (crypto : Crypto) (s : AuthServer) (scheme : Scheme) (req : PageRequest)
    (now : Uptime) (a : Asset) (https : Bool) : Prop where
  path : a.path = pathOf req.uri
  hsts : https = (scheme == .https)
  policy : (evaluate (req.policy scheme) s.settings).action = .serve
  gate : s.gate crypto req.auth now a.path = .allow

theorem pageAllowed {s : AuthServer} {scheme : Scheme} {req : PageRequest} {now : Uptime}
    {a : Asset} {https : Bool} (h : s.handle crypto assets scheme req now = .asset a https) :
    PageAllowed crypto s scheme req now a https := by
  unfold AuthServer.handle at h
  dsimp only at h
  split at h
  · cases h
  · cases h
  · next haction =>
    unfold AuthServer.servePage at h
    split at h
    · cases h
    · next hgate =>
      split at h
      · cases h
      · next asset hfind =>
        obtain ⟨rfl, rfl⟩ := PageAnswer.asset.inj h
        have hpath : pathOf req.uri = asset.path := by
          simpa using List.find?_some hfind
        rw [hpath] at hgate
        refine ⟨hpath.symm, rfl, haction, ?_⟩
        revert hgate
        cases s.gate crypto req.auth now asset.path <;> simp [GateResult.location]

/-- HSTS is told over TLS only. -/
theorem hsts_over_tls {s : AuthServer} {scheme : Scheme} {req : PageRequest} {now : Uptime}
    {value : Bytes} (h : (ascii "Strict-Transport-Security", value) ∈
      (s.handle crypto assets scheme req now).headers) : scheme = .https := by
  have hname : ascii "Strict-Transport-Security" ∈
      (s.handle crypto assets scheme req now).headers.map Prod.fst :=
    List.mem_map.mpr ⟨_, h, rfl⟩
  cases hanswer : s.handle crypto assets scheme req now with
  | moved location =>
      rw [hanswer] at hname
      simp only [PageAnswer.headers, List.map_cons, List.map_nil] at hname
      exact absurd hname (by decide)
  | forbidden =>
      rw [hanswer] at hname
      cases hname
  | found location =>
      rw [hanswer] at hname
      simp only [PageAnswer.headers, List.map_cons, List.map_nil] at hname
      exact absurd hname (by decide)
  | notFound =>
      rw [hanswer] at hname
      cases hname
  | asset a https =>
      have hhttps := (pageAllowed hanswer).hsts
      cases https with
      | true => simpa using hhttps
      | false =>
          rw [hanswer] at hname
          have hnames : (PageAnswer.asset a false).headers.map Prod.fst =
              (if a.gzipped then [ascii "Content-Encoding"] else []) ++
                staticSecurityHeaders.map Prod.fst ++ [ascii "Cache-Control"] := by
            simp only [PageAnswer.headers, Bool.false_eq_true, if_false, List.append_nil,
              List.map_append, List.map_cons, List.map_nil]
            cases a.gzipped <;> rfl
          rw [hnames] at hname
          cases hgzipped : a.gzipped with
          | true =>
              rw [hgzipped] at hname
              exact absurd hname (by decide +kernel)
          | false =>
              rw [hgzipped] at hname
              exact absurd hname (by decide +kernel)

/-- The pages that are shown without a session. -/
def Unauthenticated (path : Bytes) : Prop :=
  path = ascii "/setup.html" ∨ path = ascii "/login.html"

instance (path : Bytes) : Decidable (Unauthenticated path) :=
  inferInstanceAs (Decidable (_ ∨ _))

theorem gate_allow_session {s : AuthServer} {req : AuthRequest} {now : Uptime} {path : Bytes}
    (h : s.gate crypto req now path = .allow) (hhtml : endsWithHtml path = true)
    (hpath : ¬Unauthenticated path) :
    s.store.hasCredential = true ∧ s.sessionValid crypto req now = true := by
  obtain ⟨hsetup, hlogin⟩ := not_or.mp hpath
  unfold AuthServer.gate at h
  rw [hhtml, if_neg hsetup, if_neg hlogin] at h
  split_ifs at h with hfalse hcred hsession
  · exact absurd hfalse (by decide)
  · simpa using And.intro hcred hsession

def dashboard : Asset where
  path := ascii "/dashboard.html"
  contentType := ascii "text/html; charset=utf-8"
  data := []
  gzipped := true
  immutable := false

def dashboardRequest : PageRequest where
  auth := sessionRequest
  host := ascii "10.0.0.7"
  uri := ascii "/?from=setup"

end Pages

end RfIrBlaster.Runtime
