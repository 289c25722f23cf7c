/-
`runtime::evaluate`: which requests to the configuration web are served and
which are redirected, for the HTTPS, proxy and canonical-host settings.
-/
import RfIrBlaster.ConfigValidate
import Mathlib.Data.List.DropRight
import Mathlib.Data.List.TakeWhile
import Mathlib.Tactic.SplitIfs

namespace RfIrBlaster.Runtime

inductive Scheme where
  | http
  | https
deriving DecidableEq, Repr

inductive Action where
  | serve
  | redirect
  | reject
deriving DecidableEq, Repr

structure Decision where
  action : Action
  location : Bytes := []
deriving DecidableEq, Repr

/-- A request reduced to what the policy needs. -/
structure Request where
  transportScheme : Scheme := .http
  forwardedProto : Bytes := []
  host : Bytes := []
  target : Bytes := []
  isLoopback : Bool := false
deriving DecidableEq, Repr

def lower (c : UInt8) : UInt8 :=
  if 65 ≤ c ∧ c ≤ 90 then c - 65 + 97 else c

/-- Host header without any `:port` suffix. -/
def hostOnly (h : Bytes) : Bytes :=
  h.takeWhile (· ≠ 58)

/-- The length adjustment of `hostEquals`: one trailing dot is ignored. -/
def dropDot (h : Bytes) : Bytes :=
  if h.getLast? = some 46 then h.dropLast else h

def hostEquals (a b : Bytes) : Bool :=
  decide ((dropDot a).length = (dropDot b).length) &&
    ((dropDot a).zip (dropDot b)).all fun p => lower p.1 == lower p.2

def isBlank (c : UInt8) : Bool :=
  c == 32 || c == 9

/-- From the first to the last byte that is no blank. -/
def trimBlanks (s : Bytes) : Bytes :=
  (s.dropWhile isBlank).rdropWhile isBlank

/-- `X-Forwarded-Proto` counts behind a trusted proxy only. -/
def effectiveScheme (req : Request) (trustedProxy : Bool) : Scheme :=
  if !trustedProxy || req.forwardedProto.isEmpty then req.transportScheme
  else
    let tok := req.forwardedProto.takeWhile (· ≠ 44)
    if tok.all isBlank then req.transportScheme
    else if (trimBlanks tok).map lower = ascii "https" then .https
    else .http

/-- The first scheme a proxy lists, without the blanks around it. -/
def forwardedToken (proto : Bytes) : Bytes :=
  trimBlanks (proto.takeWhile (· ≠ 44))

theorem trimBlanks_eq_nil {s : Bytes} : trimBlanks s = [] ↔ s.all isBlank = true := by
  rw [trimBlanks, List.rdropWhile_eq_nil_iff, List.all_eq_true]
  constructor
  · intro h
    by_contra hsome
    have hne : s.dropWhile isBlank ≠ [] := by
      rw [ne_eq, List.dropWhile_eq_nil_iff]
      exact hsome
    -- the first byte that is left is no blank
    have hhead := List.dropWhile_get_zero_not isBlank s (List.length_pos_iff.mpr hne)
    exact hhead (h _ (List.get_mem _ _))
  · intro h c hc
    rw [List.dropWhile_eq_nil_iff.mpr h] at hc
    cases hc

/-- A trusted proxy that names a scheme is believed, whatever the transport is; every other
request has the scheme it came by. -/
theorem effectiveScheme_eq (req : Request) (trustedProxy : Bool) :
    effectiveScheme req trustedProxy =
      if trustedProxy = true ∧ forwardedToken req.forwardedProto ≠ [] then
        if (forwardedToken req.forwardedProto).map lower = ascii "https" then .https else .http
      else req.transportScheme := by
  have hblank : forwardedToken req.forwardedProto = [] ↔
      (req.forwardedProto.takeWhile (· ≠ 44)).all isBlank = true := trimBlanks_eq_nil
  unfold effectiveScheme
  cases htrusted : trustedProxy with
  | false => simp
  | true =>
      cases hproto : req.forwardedProto with
      | nil => simp [forwardedToken, trimBlanks]
      | cons c rest =>
          rw [hproto] at hblank
          by_cases hall : ((c :: rest).takeWhile (· ≠ 44)).all isBlank = true
          · rw [if_neg (by simp), if_pos hall, if_neg (by simp [hblank.mpr hall])]
          · have hnamed : true = true ∧ forwardedToken (c :: rest) ≠ [] :=
              ⟨rfl, fun hnil => hall (hblank.mp hnil)⟩
            rw [if_neg (by simp), if_neg hall, if_pos hnamed]
            rfl

/-- HTTPS came by itself or is the word of a trusted proxy. -/
theorem https_of_effectiveScheme {req : Request} {trustedProxy : Bool}
    (h : effectiveScheme req trustedProxy = .https) :
    req.transportScheme = .https ∨
      trustedProxy = true ∧ (forwardedToken req.forwardedProto).map lower = ascii "https" := by
  rw [effectiveScheme_eq] at h
  split_ifs at h with hforwarded hhttps
  · exact Or.inr ⟨hforwarded.1, hhttps⟩
  · exact Or.inl h

def schemeText : Scheme → Bytes
  | .http => ascii "http://"
  | .https => ascii "https://"

def evaluate (req : Request) (settings : Settings) : Decision :=
  if req.isLoopback then ⟨.serve, []⟩
  else
    let eff := effectiveScheme req settings.trustedProxy
    let host := hostOnly req.host
    let canonicalActive := settings.https || settings.trustedProxy
    if settings.https && eff = .http then
      let h := if settings.canonicalDomain.isEmpty then host else settings.canonicalDomain
      ⟨.redirect, schemeText .https ++ h ++ req.target⟩
    else if canonicalActive && !settings.canonicalDomain.isEmpty &&
        !hostEquals host settings.canonicalDomain then
      ⟨.redirect, schemeText eff ++ settings.canonicalDomain ++ req.target⟩
    else ⟨.serve, []⟩

@[simp]
theorem evaluate_loopback {req : Request} (h : req.isLoopback = true)
    (settings : Settings) : evaluate req settings = ⟨.serve, []⟩ := by
  rw [evaluate, if_pos h]

/-- The host a redirect of `req` names. -/
def redirectHost (req : Request) (settings : Settings) : Bytes :=
  if settings.canonicalDomain.isEmpty then hostOnly req.host
  else settings.canonicalDomain

/-- The first reason to redirect: plain text while HTTPS is on. -/
def PlainRefused (req : Request) (settings : Settings) : Prop :=
  settings.https = true ∧ effectiveScheme req settings.trustedProxy = .http

/-- The other reason: a host that is not the canonical one. -/
def HostMismatch (req : Request) (settings : Settings) : Prop :=
  (settings.https = true ∨ settings.trustedProxy = true) ∧
    settings.canonicalDomain ≠ [] ∧
    hostEquals (hostOnly req.host) settings.canonicalDomain = false

instance (req : Request) (settings : Settings) :
    Decidable (PlainRefused req settings) :=
  inferInstanceAs (Decidable (_ ∧ _))

instance (req : Request) (settings : Settings) :
    Decidable (HostMismatch req settings) :=
  inferInstanceAs (Decidable (_ ∧ _))

/-- The scheme a redirect of `req` names. -/
def redirectScheme (req : Request) (settings : Settings) : Scheme :=
  if PlainRefused req settings then .https
  else effectiveScheme req settings.trustedProxy

/-- What `evaluate` decides for a peer that is not this machine. -/
theorem evaluate_remote {req : Request} (h : req.isLoopback = false)
    (settings : Settings) :
    evaluate req settings =
      if PlainRefused req settings ∨ HostMismatch req settings then
        ⟨.redirect, schemeText (redirectScheme req settings) ++
          redirectHost req settings ++ req.target⟩
      else ⟨.serve, []⟩ := by
  rw [evaluate, if_neg (by simp [h])]
  by_cases hplain : PlainRefused req settings
  · have hon : (settings.https && effectiveScheme req settings.trustedProxy = .http) = true := by
      simp [hplain.1, hplain.2]
    rw [if_pos (Or.inl hplain)]
    simp only [hon, if_true, redirectScheme, if_pos hplain, redirectHost]
  · have hoff : ¬(settings.https && effectiveScheme req settings.trustedProxy = .http) = true := by
      simpa [PlainRefused] using hplain
    simp only [hoff, hplain, redirectScheme, if_false, false_or]
    by_cases hhost : HostMismatch req settings
    · rw [if_pos hhost]
      obtain ⟨hactive, hset, hneq⟩ := hhost
      have hredirect : ((settings.https || settings.trustedProxy) &&
          !settings.canonicalDomain.isEmpty &&
          !hostEquals (hostOnly req.host) settings.canonicalDomain) = true := by
        simp [hactive, hset, hneq]
      simp only [hredirect, if_true]
      simp [redirectHost, hset]
    · have hserve : ¬((settings.https || settings.trustedProxy) &&
          !settings.canonicalDomain.isEmpty &&
          !hostEquals (hostOnly req.host) settings.canonicalDomain) = true := by
        simpa [HostMismatch, and_assoc] using hhost
      simp only [hserve, hhost, if_false]
      simp

/-- A redirect happens to remote peers only, for one of the two reasons. -/
theorem evaluate_redirect_iff (req : Request) (settings : Settings) :
    (evaluate req settings).action = .redirect ↔
      req.isLoopback = false ∧
        (PlainRefused req settings ∨ HostMismatch req settings) := by
  cases hloop : req.isLoopback with
  | true => simp [hloop]
  | false =>
      rw [evaluate_remote hloop]
      split_ifs with hreason <;> simp [hreason]

theorem evaluate_serve_iff (req : Request) (settings : Settings) :
    (evaluate req settings).action = .serve ↔
      req.isLoopback = true ∨
        (¬PlainRefused req settings ∧ ¬HostMismatch req settings) := by
  cases hloop : req.isLoopback with
  | true => simp [hloop]
  | false =>
      rw [evaluate_remote hloop]
      split_ifs with hreason
      · simpa [or_iff_not_imp_left] using hreason
      · simpa [not_or] using hreason

theorem evaluate_location {req : Request} {settings : Settings}
    (h : (evaluate req settings).action = .redirect) :
    (evaluate req settings).location =
      schemeText (redirectScheme req settings) ++ redirectHost req settings ++
        req.target := by
  obtain ⟨hloop, hreason⟩ := (evaluate_redirect_iff req settings).mp h
  rw [evaluate_remote hloop, if_pos hreason]

@[simp]
theorem hostEquals_self (h : Bytes) : hostEquals h h = true := by
  have hzip : ∀ l : Bytes, (l.zip l).all (fun p => lower p.1 == lower p.2) = true := by
    intro l
    induction l with
    | nil => rfl
    | cons c cs ih => simp [ih]
  simp [hostEquals, hzip]

theorem hostOnly_eq_self {h : Bytes} (hcolon : 58 ∉ h) : hostOnly h = h := by
  refine List.takeWhile_eq_self_iff.mpr fun c hc => ?_
  exact decide_eq_true fun heq => hcolon (heq ▸ hc)

theorem colon_notMem_hostOnly (h : Bytes) : 58 ∉ hostOnly h := by
  intro hmem
  have hne := List.mem_takeWhile_imp hmem
  simp at hne

/-- A host the validator lets through keeps its text as a `Host` header. -/
theorem colon_notMem_of_isValidHostOrIp {h : Bytes} (hvalid : isValidHostOrIp h = true) :
    58 ∉ h := by
  intro hmem
  have hbyte := isValidHostOrIp_bytes hvalid 58 hmem
  exact absurd hbyte (by decide)

/-- The canonical domain is unset or one the validator accepts. -/
def DomainAccepted (settings : Settings) : Prop :=
  settings.canonicalDomain = [] ∨ isValidHostOrIp settings.canonicalDomain = true

theorem hostOnly_redirectHost {settings : Settings} (hdomain : DomainAccepted settings)
    (req : Request) : hostOnly (redirectHost req settings) = redirectHost req settings := by
  apply hostOnly_eq_self
  unfold redirectHost
  split_ifs with hempty
  · exact colon_notMem_hostOnly req.host
  · rcases hdomain with hnil | hvalid
    · simp [hnil] at hempty
    · exact colon_notMem_of_isValidHostOrIp hvalid

/-- The host a redirect names is the canonical one, where there is one. -/
theorem redirectHost_matches {settings : Settings} (hdomain : DomainAccepted settings)
    {req follow : Request} (hhost : follow.host = redirectHost req settings) :
    ¬HostMismatch follow settings := by
  rintro ⟨-, hset, hneq⟩
  rw [hhost, hostOnly_redirectHost hdomain] at hneq
  simp [redirectHost, hset] at hneq

/-- No redirect names a scheme that is refused. -/
theorem redirectScheme_accepted {req follow : Request} {settings : Settings}
    (hscheme : effectiveScheme follow settings.trustedProxy = redirectScheme req settings) :
    ¬PlainRefused follow settings := by
  rintro ⟨hon, hhttp⟩
  rw [hscheme, redirectScheme] at hhttp
  split_ifs at hhttp with hplain
  exact hplain ⟨hon, hhttp⟩

/-- A scheme text and what follows it are read back from a URL. -/
theorem schemeText_append_inj {s s' : Scheme} {rest rest' : Bytes}
    (h : schemeText s ++ rest = schemeText s' ++ rest') : s = s' ∧ rest = rest' := by
  cases s <;> cases s' <;> simp [schemeText, ascii] at h <;> simp [h]

theorem effectiveScheme_untrusted (req : Request) :
    effectiveScheme req false = req.transportScheme := by
  simp [effectiveScheme_eq]

/-- `follow` is the request a client makes after `req` was redirected: the
location is its scheme, its host and the target, and the peer is the same. -/
structure FollowsUp (settings : Settings) (req follow : Request) : Prop where
  redirected : (evaluate req settings).action = .redirect
  arrives : (evaluate req settings).location =
    schemeText (effectiveScheme follow settings.trustedProxy) ++ follow.host ++ follow.target
  target : follow.target = req.target
  peer : follow.isLoopback = req.isLoopback

/-- Following a redirect arrives at a request that is served. -/
theorem FollowsUp.served {settings : Settings} (hdomain : DomainAccepted settings)
    {req follow : Request} (h : FollowsUp settings req follow) :
    (evaluate follow settings).action = .serve := by
  have hlocation := evaluate_location h.redirected
  rw [h.arrives, List.append_assoc, List.append_assoc] at hlocation
  obtain ⟨hscheme, hrest⟩ := schemeText_append_inj hlocation
  rw [h.target] at hrest
  have hhost := List.append_cancel_right hrest
  exact (evaluate_serve_iff follow settings).mpr
    (Or.inr ⟨redirectScheme_accepted hscheme, redirectHost_matches hdomain hhost⟩)

/-- While HTTPS is on, a redirected request that comes in as plain text again is sent to the
same place again. -/
theorem evaluate_again {settings : Settings} (hon : settings.https = true) {req again : Request}
    (hredirect : (evaluate req settings).action = .redirect)
    (hplain : effectiveScheme again settings.trustedProxy = .http)
    (hhost : again.host = redirectHost req settings) (htarget : again.target = req.target)
    (hpeer : again.isLoopback = req.isLoopback) :
    evaluate again settings = evaluate req settings := by
  obtain ⟨hremote, hreason⟩ := (evaluate_redirect_iff req settings).mp hredirect
  have hscheme : redirectScheme req settings = .https := by
    rw [redirectScheme]
    split_ifs with hrefused
    · rfl
    · cases heff : effectiveScheme req settings.trustedProxy with
      | https => rfl
      | http => exact absurd ⟨hon, heff⟩ hrefused
  have hsame : redirectHost again settings = redirectHost req settings := by
    rw [redirectHost, hhost]
    unfold redirectHost
    split_ifs
    · exact hostOnly_eq_self (colon_notMem_hostOnly req.host)
    · rfl
  rw [evaluate_remote hremote, if_pos hreason, evaluate_remote (hpeer.trans hremote),
    if_pos (Or.inl ⟨hon, hplain⟩), hscheme, hsame, htarget]
  rw [redirectScheme, if_pos ⟨hon, hplain⟩]

/-- What the policy promises of one request. -/
structure PolicyConverges (settings : Settings) (req : Request) : Prop where
  never_plain : req.isLoopback = false →
    effectiveScheme req settings.trustedProxy = .http → settings.https = true →
      (evaluate req settings).action ≠ .serve
  location : (evaluate req settings).action = .redirect →
    ∃ scheme host, (evaluate req settings).location =
      schemeText scheme ++ host ++ req.target ∧
      ∀ follow : Request, follow.host = host → follow.target = req.target →
        follow.isLoopback = req.isLoopback →
        effectiveScheme follow settings.trustedProxy = scheme →
          (evaluate follow settings).action = .serve
  one_redirect : ∀ chain, List.IsChain (FollowsUp settings) (req :: chain) →
    chain.length ≤ 1
  unspoofed : settings.trustedProxy = false → ∀ proto,
    evaluate { req with forwardedProto := proto } settings = evaluate req settings

/-- A chain stops at the first request it reaches. -/
theorem redirect_chain_short {settings : Settings} (hdomain : DomainAccepted settings)
    {req : Request} {chain : List Request}
    (h : List.IsChain (FollowsUp settings) (req :: chain)) : chain.length ≤ 1 := by
  match chain, h with
  | [], _ => simp
  | [_], _ => simp
  | follow :: next :: rest, h =>
      obtain ⟨hfirst, htail⟩ := List.isChain_cons_cons.mp h
      obtain ⟨hsecond, -⟩ := List.isChain_cons_cons.mp htail
      have hserved := hfirst.served hdomain
      rw [hsecond.redirected] at hserved
      cases hserved

/-- Untrusted, the forwarded scheme has no part in the decision. -/
theorem evaluate_forwardedProto {settings : Settings} (h : settings.trustedProxy = false)
    (req : Request) (proto : Bytes) :
    evaluate { req with forwardedProto := proto } settings = evaluate req settings := by
  simp only [evaluate, h, effectiveScheme_untrusted]

/-- Plain text is never served while HTTPS is on, a redirect is followed once,
and only a trusted proxy can speak for the scheme. -/
theorem policy_converges (settings : Settings) (hdomain : DomainAccepted settings)
    (req : Request) : PolicyConverges settings req where
  never_plain := by
    intro hloop hhttp hon hserve
    rcases (evaluate_serve_iff req settings).mp hserve with htrue | ⟨hplain, -⟩
    · rw [hloop] at htrue
      cases htrue
    · exact hplain ⟨hon, hhttp⟩
  location := by
    intro hredirect
    refine ⟨redirectScheme req settings, redirectHost req settings,
      evaluate_location hredirect, ?_⟩
    intro follow hhost _ _ hscheme
    exact (evaluate_serve_iff follow settings).mpr
      (Or.inr ⟨redirectScheme_accepted hscheme, redirectHost_matches hdomain hhost⟩)
  one_redirect := fun _ hchain => redirect_chain_short hdomain hchain
  unspoofed := fun htrust proto => evaluate_forwardedProto htrust req proto

/-- A proxied device with a domain written in capitals and a trailing dot: the
plain request is redirected once. -/
theorem policy_converges_proxied :
    ∃ settings : Settings, ∃ req follow : Request,
      isValidHostOrIp settings.canonicalDomain = true ∧ FollowsUp settings req follow ∧
        PolicyConverges settings req ∧ (evaluate follow settings).action = .serve := by
  let settings : Settings :=
    { https := false, trustedProxy := true, canonicalDomain := ascii "RF.local." }
  let req : Request :=
    { forwardedProto := ascii " HTTPS, http", host := ascii "10.0.0.7:8443",
      target := ascii "/settings?x=1" }
  let follow : Request := { req with host := ascii "RF.local." }
  have hvalid : isValidHostOrIp settings.canonicalDomain = true := by decide
  exact ⟨settings, req, follow, hvalid,
    { redirected := by decide, arrives := by decide, target := rfl, peer := rfl },
    policy_converges settings (Or.inr hvalid) req, by decide⟩

end RfIrBlaster.Runtime
