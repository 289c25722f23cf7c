/-
The browser's side of the tokens: its cookies for the device, and `csrf` and `postCsrf` of
`data.js`, with other tabs of the same browser at work in between.
-/
import RfIrBlaster.AuthSessions
import RfIrBlaster.Base64url

namespace RfIrBlaster.Runtime

/-- A stored cookie; all of them are for the whole host. -/
structure Cookie where
  name : Bytes
  value : Bytes
  secure : Bool
deriving DecidableEq, Repr

abbrev Jar := List Cookie

/-- The attributes behind the first pair of a `Set-Cookie` header. -/
def cookieAttributes (header : Bytes) : List Bytes :=
  ((header.dropWhile (· ≠ 59)).splitOn 59).map fun a => (trimBlanks a).map lower

def hasAttribute (header : Bytes) (text : String) : Bool :=
  (cookieAttributes header).contains (ascii text)

/-- A `Set-Cookie` header is met.  A `__Host-` cookie must be secure and for the root path, and
a secure one must come over HTTPS; `Max-Age=0` takes the cookie away. -/
def Jar.receive (jar : Jar) (scheme : Scheme) (header : Bytes) : Jar :=
  let pair := header.takeWhile (· ≠ 59)
  let name := pair.takeWhile (· ≠ 61)
  let value := (pair.dropWhile (· ≠ 61)).drop 1
  let secure := hasAttribute header "secure"
  if secure && scheme == .http then jar
  else if (ascii "__Host-").isPrefixOf name && !(secure && hasAttribute header "path=/") then jar
  else
    let others := jar.filter fun c => c.name ≠ name
    if hasAttribute header "max-age=0" then others else ⟨name, value, secure⟩ :: others

/-- The cookies of a request. -/
def Jar.sent (jar : Jar) (scheme : Scheme) : List (Bytes × Bytes) :=
  (jar.filter fun c => !c.secure || scheme == .https).map fun c => (c.name, c.value)

/-- What an answer does to the cookies. -/
def Jar.meet (jar : Jar) (scheme : Scheme) (secureCookies : Bool) (answer : AuthAnswer) : Jar :=
  (answer.setCookie secureCookies).elim jar (jar.receive scheme)

/-- What a row of answers does to them, those of other tabs and of other calls of the page. -/
def Jar.meetAll (jar : Jar) (scheme : Scheme) (secureCookies : Bool) (answers : List AuthAnswer) :
    Jar :=
  answers.foldl (fun jar answer => jar.meet scheme secureCookies answer) jar

/-- A request of the page, apart from its body. -/
def Jar.request (jar : Jar) (scheme : Scheme) (token : Bytes) : AuthRequest where
  cookies := jar.sent scheme
  xCsrfToken := token

section Cookies

variable {scheme : Scheme} {secure : Bool} {name value attrs : Bytes}

theorem takeWhile_notMem {sep : UInt8} {xs rest : Bytes} (h : sep ∉ xs) :
    (xs ++ sep :: rest).takeWhile (· ≠ sep) = xs ∧
      (xs ++ sep :: rest).dropWhile (· ≠ sep) = sep :: rest := by
  have hall : ∀ c ∈ xs, (fun c : UInt8 => decide (c ≠ sep)) c = true := by
    intro c hc
    exact decide_eq_true fun heq => h (heq ▸ hc)
  constructor
  · rw [List.takeWhile_append_of_pos hall]
    simp
  · rw [List.dropWhile_append_of_pos hall]
    simp

/-- The parts of a header whose name and value are free of the separators. -/
theorem receive_pair (jar : Jar) (hname : 61 ∉ name ∧ 59 ∉ name) (hvalue : 59 ∉ value) :
    jar.receive scheme (name ++ 61 :: (value ++ 59 :: attrs)) =
      if hasAttribute (59 :: attrs) "secure" && scheme == .http then jar
      else if (ascii "__Host-").isPrefixOf name &&
          !(hasAttribute (59 :: attrs) "secure" && hasAttribute (59 :: attrs) "path=/") then jar
      else if hasAttribute (59 :: attrs) "max-age=0" then jar.filter fun c => c.name ≠ name
      else ⟨name, value, hasAttribute (59 :: attrs) "secure"⟩ ::
        jar.filter fun c => c.name ≠ name := by
  have hpair : 59 ∉ name ++ 61 :: value := by
    simp [hname.2, hvalue]
  have hsplit : name ++ 61 :: (value ++ 59 :: attrs) = (name ++ 61 :: value) ++ 59 :: attrs := by
    simp
  obtain ⟨htake, hdrop⟩ := @takeWhile_notMem 59 _ attrs hpair
  obtain ⟨hkey, hrest⟩ := @takeWhile_notMem 61 _ value hname.1
  have hattr : ∀ text, hasAttribute (name ++ 61 :: (value ++ 59 :: attrs)) text =
      hasAttribute (59 :: attrs) text := by
    intro text
    rw [hasAttribute, hasAttribute, cookieAttributes, cookieAttributes, hsplit, hdrop]
    simp
  unfold Jar.receive
  simp only [hattr]
  rw [hsplit, htake, hkey, hrest]
  rfl

/-- What the browser was given under a name it sends back, where the scheme lets it. -/
theorem lookup_sent (jar : Jar) (h : secure = true → scheme = .https) :
    (Jar.sent (⟨name, value, secure⟩ :: jar) scheme).lookup name = some value := by
  have hkept : (!secure || scheme == .https) = true := by
    cases secure with
    | false => rfl
    | true => simp [h rfl]
  simp [Jar.sent, hkept]

/-- Cookies of other names stay. -/
theorem lookup_sent_filter (jar : Jar) {other : Bytes} (h : other ≠ name) :
    (Jar.sent (jar.filter fun c => c.name ≠ name) scheme).lookup other =
      (Jar.sent jar scheme).lookup other := by
  induction jar with
  | nil => rfl
  | cons c rest ih =>
      unfold Jar.sent at ih ⊢
      by_cases hname : c.name = name
      · have hother : (other == c.name) = false := by
          rw [hname]
          exact beq_false_of_ne h
        simp only [List.filter_cons, hname, ne_eq, not_true, decide_false, Bool.false_eq_true,
          if_false]
        rw [ih]
        split_ifs
        · rw [List.map_cons, List.lookup_cons, hname, beq_false_of_ne h]
        · rfl
      · simp only [List.filter_cons, hname, ne_eq, not_false_iff, decide_true, if_true]
        split_ifs
        · rw [List.map_cons, List.map_cons, List.lookup_cons, List.lookup_cons, ih]
        · exact ih

theorem lookup_sent_cons (jar : Jar) {other : Bytes} (h : other ≠ name) :
    (Jar.sent (⟨name, value, secure⟩ :: jar) scheme).lookup other =
      (Jar.sent jar scheme).lookup other := by
  unfold Jar.sent
  rw [List.filter_cons]
  split_ifs
  · rw [List.map_cons, List.lookup_cons, beq_false_of_ne h]
  · rfl

/-- A header leaves the cookies of other names. -/
theorem lookup_receive_other (jar : Jar) (hname : 61 ∉ name ∧ 59 ∉ name) (rest : Bytes)
    {other : Bytes} (h : other ≠ name) :
    (Jar.sent (jar.receive scheme (name ++ 61 :: rest)) scheme).lookup other =
      (Jar.sent jar scheme).lookup other := by
  have hall : ∀ c ∈ name, (fun c : UInt8 => decide (c ≠ 59)) c = true := by
    intro c hc
    exact decide_eq_true fun heq => hname.2 (heq ▸ hc)
  have hpair : (name ++ 61 :: rest).takeWhile (· ≠ 59) =
      name ++ 61 :: rest.takeWhile (· ≠ 59) := by
    rw [List.takeWhile_append_of_pos hall]
    rfl
  have hkey : ((name ++ 61 :: rest).takeWhile (· ≠ 59)).takeWhile (· ≠ 61) = name := by
    rw [hpair]
    exact (takeWhile_notMem hname.1).1
  unfold Jar.receive
  dsimp only
  rw [hkey]
  split_ifs
  · rfl
  · rfl
  · exact lookup_sent_filter jar h
  · rw [lookup_sent_cons _ h, lookup_sent_filter jar h]

/-- Of the answers of the device only a token changes the cookie of the tokens. -/
theorem lookup_meet_csrf (jar : Jar) {answer : AuthAnswer}
    (htoken : ∀ token, answer ≠ .token token) :
    (Jar.sent (jar.meet scheme secure answer) scheme).lookup (csrfCookieName secure) =
      (Jar.sent jar scheme).lookup (csrfCookieName secure) := by
  have hfree : 61 ∉ sessionCookieName secure ∧ 59 ∉ sessionCookieName secure := by
    cases secure <;> decide
  have hother : csrfCookieName secure ≠ sessionCookieName secure := by
    cases secure <;> decide
  cases answer with
  | token token => exact absurd rfl (htoken token)
  | signedIn session => exact lookup_receive_other jar hfree _ hother
  | signedOut => exact lookup_receive_other jar hfree _ hother
  | _ => rfl

theorem lookup_meetAll_csrf (jar : Jar) {answers : List AuthAnswer}
    (htoken : ∀ token, AuthAnswer.token token ∉ answers) :
    (Jar.sent (jar.meetAll scheme secure answers) scheme).lookup (csrfCookieName secure) =
      (Jar.sent jar scheme).lookup (csrfCookieName secure) := by
  induction answers generalizing jar with
  | nil => rfl
  | cons answer rest ih =>
      have hhead : ∀ token, answer ≠ .token token := by
        rintro token rfl
        exact htoken token List.mem_cons_self
      have hrest := ih (jar.meet scheme secure answer) fun token hmem =>
        htoken token (List.mem_cons_of_mem _ hmem)
      exact hrest.trans (lookup_meet_csrf jar hhead)

/-- A token the browser stores without a change, in a name of the device. -/
theorem receive_named (jar : Jar)
    (hname : name = sessionCookieName secure ∨ name = csrfCookieName secure)
    (hvalue : 59 ∉ value) (hscheme : secure = true → scheme = .https) :
    jar.receive scheme (name ++ 61 :: (value ++ cookieAttrs secure)) =
      ⟨name, value, secure⟩ :: jar.filter fun c => c.name ≠ name := by
  have hfree : 61 ∉ name ∧ 59 ∉ name := by
    rcases hname with rfl | rfl <;> cases secure <;> decide
  cases secure with
  | true =>
      obtain rfl := hscheme rfl
      have hattrs : cookieAttrs true =
          59 :: ascii " Secure; HttpOnly; SameSite=Strict; Path=/" := rfl
      rw [ascii_ofList] at hattrs
      rw [hattrs, receive_pair jar hfree hvalue, ← hattrs]
      have hsecure : hasAttribute (cookieAttrs true) "secure" = true := by
        rw [hattrs]
        decide +kernel
      have hpath : hasAttribute (cookieAttrs true) "path=/" = true := by
        rw [hattrs]
        decide +kernel
      have hage : hasAttribute (cookieAttrs true) "max-age=0" = false := by
        rw [hattrs]
        decide +kernel
      simp [hsecure, hpath, hage]
  | false =>
      have hplain : (ascii "__Host-").isPrefixOf name = false := by
        rcases hname with rfl | rfl <;> decide
      have hattrs : cookieAttrs false = 59 :: ascii " HttpOnly; SameSite=Strict; Path=/" := rfl
      rw [ascii_ofList] at hattrs
      rw [hattrs, receive_pair jar hfree hvalue, ← hattrs]
      have hsecure : hasAttribute (cookieAttrs false) "secure" = false := by
        rw [hattrs]
        decide +kernel
      have hage : hasAttribute (cookieAttrs false) "max-age=0" = false := by
        rw [hattrs]
        decide +kernel
      simp [hplain, hsecure, hage]

end Cookies

section Tokens

variable (crypto : Crypto) (secret : Bytes)

theorem notMem_token {c : UInt8} (hbyte : ¬IsBase64url c) (hdot : c ≠ 46)
    (data data' : Bytes) : c ∉ base64urlEncode data ++ 46 :: base64urlEncode data' := by
  rw [List.mem_append, List.mem_cons]
  rintro (hmem | hmem | hmem)
  · exact notMem_base64urlEncode hbyte data hmem
  · exact hdot hmem
  · exact notMem_base64urlEncode hbyte data' hmem

theorem length_mintCsrf (binding : Bytes) (rand : FixedBytes 16) :
    (mintCsrf crypto secret binding rand).length = 66 := by
  have hrand := rand.property
  simp only [mintCsrf, csrfMac, List.length_append, List.length_cons, base64urlEncode_length,
    crypto.mac_length, hrand]

/-- A token verifies under the binding it was minted for, and no other text does in its place. -/
theorem verifyCsrf_minted (binding cookieTok : Bytes) (rand : FixedBytes 16) :
    verifyCsrf crypto secret binding cookieTok (mintCsrf crypto secret binding rand) = true ↔
      cookieTok = mintCsrf crypto secret binding rand := by
  constructor
  · intro h
    unfold verifyCsrf at h
    split_ifs at h with hbad
    simp only [Bool.not_eq_true', not_or, Bool.not_eq_false] at hbad
    exact constantTimeEqual_iff.mp hbad.2
  · intro h
    have hne : (mintCsrf crypto secret binding rand).isEmpty = false := by
      rw [List.isEmpty_eq_false_iff]
      exact List.ne_nil_of_length_pos (by rw [length_mintCsrf]; decide)
    have hsame := constantTimeEqual_iff.mpr (Eq.refl (mintCsrf crypto secret binding rand))
    have hparse : parseCsrf (mintCsrf crypto secret binding rand) =
        some (rand.val, csrfMac crypto secret binding rand) := by
      simp [parseCsrf, mintCsrf, csrfMac, splitDot_encoded, base64urlDecode_encode,
        crypto.mac_length]
    rw [h, verifyCsrf, if_neg (by simp [hne, hsame]), hparse]
    exact constantTimeEqual_iff.mpr rfl

end Tokens

/-- What a state-changing call of the page is answered with. -/
inductive Post where
  | unauthorized
  | forbidden
  | served
deriving DecidableEq, Repr

/-- A request for a token: when it arrives, and the random bytes drawn for it. -/
structure Fetch where
  now : Uptime
  rand : FixedBytes 16

/-- One turn of `postCsrf`: the fetch, where one is made, what other tabs do to the cookies
before it and between it and the call, and when session and token of the call are checked. -/
structure Turn where
  before : Jar → Jar
  fetch : Fetch
  between : Jar → Jar
  now : Uptime
  later : Uptime

section Page

variable (crypto : Crypto) (s : AuthServer) (scheme : Scheme)

/-- `requireSession`, then `requireCsrf`. -/
def AuthServer.post (req : AuthRequest) (now later : Uptime) : Post :=
  if !s.sessionValid crypto req now then .unauthorized
  else if !s.csrfValid crypto req req.xCsrfToken later then .forbidden
  else .served

/-- `csrf`; an empty text is no cached token. -/
def csrf (cached : Bytes) (jar : Jar) (f : Fetch) : Bytes × Jar :=
  if cached ≠ [] then (cached, jar)
  else
    let answer := s.handleCsrf crypto (jar.request scheme []) f.now f.rand
    (answer.response.body, jar.meet scheme s.secureCookies answer)

/-- A token is at hand and the call is made. -/
def attempt (cached : Bytes) (jar : Jar) (t : Turn) : Post × Jar :=
  let (token, jar) := csrf crypto s scheme cached (t.before jar) t.fetch
  let jar := t.between jar
  (s.post crypto (jar.request scheme token) t.now t.later, jar)

/-- `postCsrf`: a call that is forbidden is made once more, with a fresh token. -/
def postCsrf (cached : Bytes) (jar : Jar) (first second : Turn) : Post :=
  let (answer, jar) := attempt crypto s scheme cached jar first
  if answer = .forbidden then (attempt crypto s scheme [] jar second).1 else answer

end Page

section Retry

variable {crypto : Crypto} {s : AuthServer} {scheme : Scheme}

theorem nowMs_mono {t t' : Uptime} (h : t.us ≤ t'.us) : nowMs t ≤ nowMs t' := by
  rw [UInt64.le_iff_toNat_le, nowMs_toNat, nowMs_toNat]
  exact Nat.div_le_div_right h

/-- A session that is valid later was valid before, with the same binding. -/
theorem session_earlier {req req' : AuthRequest} {t t' : Uptime}
    (hsid : cookieValue req (sessionCookieName s.secureCookies) =
      cookieValue req' (sessionCookieName s.secureCookies))
    (htime : t.us ≤ t'.us) (hvalid : s.sessionValid crypto req' t' = true) :
    s.sessionValid crypto req t = true ∧
      s.sessionBinding crypto req t = s.sessionBinding crypto req' t' := by
  have hle := nowMs_mono htime
  unfold AuthServer.sessionValid AuthServer.session at hvalid ⊢
  unfold AuthServer.sessionBinding AuthServer.session
  rw [hsid]
  cases hcookie : cookieValue req' (sessionCookieName s.secureCookies) with
  | none =>
      rw [hcookie] at hvalid
      cases hvalid
  | some sid =>
      rw [hcookie] at hvalid
      simp only [Option.map_some, Option.any_some] at hvalid ⊢
      unfold verifySession at hvalid ⊢
      cases hparse : parseToken crypto s.secret sid with
      | none =>
          rw [hparse] at hvalid
          cases hvalid
      | some p =>
          rw [hparse] at hvalid
          simp only [Bool.and_eq_true, Bool.not_eq_true', decide_eq_false_iff_not] at hvalid ⊢
          have hidle : ¬p.idleDeadline ≤ nowMs t := fun h => hvalid.1 (UInt64.le_trans h hle)
          have habs : ¬p.absExpiry ≤ nowMs t := fun h => hvalid.2 (UInt64.le_trans h hle)
          simp [hidle, habs, hvalid.1, hvalid.2]

/-- The token of a fetch, and the cookies after it. -/
theorem csrf_fetched (hscheme : s.secureCookies = true → scheme = .https) (jar : Jar) (f : Fetch) :
    csrf crypto s scheme [] jar f =
      (mintCsrf crypto s.secret (s.sessionBinding crypto (jar.request scheme []) f.now) f.rand,
        ⟨csrfCookieName s.secureCookies,
          mintCsrf crypto s.secret (s.sessionBinding crypto (jar.request scheme []) f.now) f.rand,
          s.secureCookies⟩ :: jar.filter fun c => c.name ≠ csrfCookieName s.secureCookies) := by
  have hfree : 59 ∉ mintCsrf crypto s.secret
      (s.sessionBinding crypto (jar.request scheme []) f.now) f.rand :=
    notMem_token (by decide) (by decide) _ _
  have hmeet := @receive_named scheme s.secureCookies _ _ jar (Or.inr rfl) hfree hscheme
  rw [csrf, if_neg (by simp)]
  exact congrArg _ hmeet

/-- A token fetched leaves the session cookie as it was. -/
theorem session_fetched (hscheme : s.secureCookies = true → scheme = .https) (jar : Jar)
    (f : Fetch) :
    cookieValue ((csrf crypto s scheme [] jar f).2.request scheme [])
        (sessionCookieName s.secureCookies) =
      cookieValue (jar.request scheme []) (sessionCookieName s.secureCookies) := by
  have hother : sessionCookieName s.secureCookies ≠ csrfCookieName s.secureCookies := by
    cases s.secureCookies <;> decide
  rw [csrf_fetched hscheme]
  unfold cookieValue Jar.request
  rw [lookup_sent_cons _ hother, lookup_sent_filter _ hother]

/-- The token fetched is the one its cookie carries. -/
theorem csrfCookieText_fetched (hscheme : s.secureCookies = true → scheme = .https) (jar : Jar)
    (f : Fetch) :
    s.csrfCookieText ((csrf crypto s scheme [] jar f).2.request scheme []) =
      (csrf crypto s scheme [] jar f).1 := by
  have hshort : (mintCsrf crypto s.secret (s.sessionBinding crypto (jar.request scheme []) f.now)
      f.rand).length < 320 := by
    rw [length_mintCsrf]
    decide
  rw [csrf_fetched hscheme]
  generalize mintCsrf crypto s.secret (s.sessionBinding crypto (jar.request scheme []) f.now)
    f.rand = token at *
  unfold AuthServer.csrfCookieText cookieValue Jar.request
  rw [lookup_sent _ hscheme, Option.filter_some, if_pos (decide_eq_true hshort), Option.getD_some]

/-- The token check of a retry, when its session lives on and is not replaced. -/
theorem retry_served (hscheme : s.secureCookies = true → scheme = .https) {t : Turn}
    (htimes : t.fetch.now.us ≤ t.now.us ∧ t.now.us ≤ t.later.us)
    (hsid : ∀ jar : Jar, cookieValue ((t.between jar).request scheme [])
      (sessionCookieName s.secureCookies) =
        cookieValue (jar.request scheme []) (sessionCookieName s.secureCookies)) (jar : Jar)
    (hlive : s.sessionValid crypto ((attempt crypto s scheme [] jar t).2.request scheme [])
      t.later = true) :
    (attempt crypto s scheme [] jar t).1 =
      if s.csrfCookieText ((attempt crypto s scheme [] jar t).2.request scheme []) =
          (csrf crypto s scheme [] (t.before jar) t.fetch).1 then .served
      else .forbidden := by
  have hcookie : cookieValue ((t.before jar).request scheme [])
        (sessionCookieName s.secureCookies) =
      cookieValue ((attempt crypto s scheme [] jar t).2.request scheme [])
        (sessionCookieName s.secureCookies) :=
    ((hsid _).trans (session_fetched hscheme _ t.fetch)).symm
  obtain ⟨-, hbinding⟩ := session_earlier hcookie (htimes.1.trans htimes.2) hlive
  obtain ⟨hnow, -⟩ := session_earlier (Eq.refl (cookieValue
    ((attempt crypto s scheme [] jar t).2.request scheme [])
    (sessionCookieName s.secureCookies))) htimes.2 hlive
  have htoken : (csrf crypto s scheme [] (t.before jar) t.fetch).1 =
      mintCsrf crypto s.secret (s.sessionBinding crypto
        ((attempt crypto s scheme [] jar t).2.request scheme []) t.later) t.fetch.rand := by
    rw [csrf_fetched hscheme, hbinding]
  have hcheck : s.csrfValid crypto ((attempt crypto s scheme [] jar t).2.request scheme [])
      (csrf crypto s scheme [] (t.before jar) t.fetch).1 t.later = true ↔
        s.csrfCookieText ((attempt crypto s scheme [] jar t).2.request scheme []) =
          (csrf crypto s scheme [] (t.before jar) t.fetch).1 := by
    unfold AuthServer.csrfValid
    rw [htoken]
    exact verifyCsrf_minted crypto s.secret _ _ t.fetch.rand
  change s.post crypto ((attempt crypto s scheme [] jar t).2.request scheme
    (csrf crypto s scheme [] (t.before jar) t.fetch).1) t.now t.later = _
  unfold AuthServer.post
  rw [show s.sessionValid crypto ((attempt crypto s scheme [] jar t).2.request scheme
    (csrf crypto s scheme [] (t.before jar) t.fetch).1) t.now = true from hnow]
  by_cases hsame : s.csrfCookieText ((attempt crypto s scheme [] jar t).2.request scheme []) =
      (csrf crypto s scheme [] (t.before jar) t.fetch).1
  · rw [if_pos hsame]
    have hpass := hcheck.mpr hsame
    simp only [Bool.not_true, Bool.false_eq_true, if_false]
    refine if_neg ?_
    rw [Bool.not_eq_true', Bool.not_eq_false]
    exact hpass
  · rw [if_neg hsame]
    have hfail := mt hcheck.mp hsame
    simp only [Bool.not_true, Bool.false_eq_true, if_false]
    refine if_pos ?_
    rw [Bool.not_eq_true', ← Bool.not_eq_true]
    exact hfail

/-- Whatever token the page has cached and whatever happens in other tabs and to the device
before: a call that is forbidden is made once more, and is then forbidden exactly when the cookie
is no longer that of its own fetch, as long as the session is alive and not replaced in that
time.  Of what the device may answer to other calls meanwhile, only a token changes it. -/
theorem csrf_retry_exact (crypto : Crypto) (s : AuthServer) (scheme : Scheme) (cached : Bytes)
    (jar : Jar) (first second : Turn) (hscheme : s.secureCookies = true → scheme = .https)
    (htimes : second.fetch.now.us ≤ second.now.us ∧ second.now.us ≤ second.later.us)
    (hsid : ∀ jar : Jar, cookieValue ((second.between jar).request scheme [])
      (sessionCookieName s.secureCookies) =
        cookieValue (jar.request scheme []) (sessionCookieName s.secureCookies))
    (hlive : s.sessionValid crypto ((attempt crypto s scheme []
      (attempt crypto s scheme cached jar first).2 second).2.request scheme [])
        second.later = true) :
    (postCsrf crypto s scheme cached jar first second = .forbidden ↔
      (attempt crypto s scheme cached jar first).1 = .forbidden ∧
        s.csrfCookieText ((attempt crypto s scheme []
          (attempt crypto s scheme cached jar first).2 second).2.request scheme []) ≠
            (csrf crypto s scheme [] (second.before (attempt crypto s scheme cached jar first).2)
              second.fetch).1) ∧
    ∀ answers : List AuthAnswer,
      (∀ jar, second.between jar = jar.meetAll scheme s.secureCookies answers) →
        postCsrf crypto s scheme cached jar first second = .forbidden →
          ∃ token, AuthAnswer.token token ∈ answers := by
  have hretry := retry_served hscheme htimes hsid _ hlive
  have hexact : postCsrf crypto s scheme cached jar first second = .forbidden ↔
      (attempt crypto s scheme cached jar first).1 = .forbidden ∧
        s.csrfCookieText ((attempt crypto s scheme []
          (attempt crypto s scheme cached jar first).2 second).2.request scheme []) ≠
            (csrf crypto s scheme [] (second.before (attempt crypto s scheme cached jar first).2)
              second.fetch).1 := by
    unfold postCsrf
    dsimp only
    split_ifs with hfirst
    · rw [hretry]
      split_ifs with hsame
      · simp [hsame]
      · simp [hsame, hfirst]
    · simp [hfirst]
  refine ⟨hexact, ?_⟩
  intro answers hbetween hforbidden
  by_contra hnone
  have hchanged := (hexact.mp hforbidden).2
  rw [← csrfCookieText_fetched hscheme] at hchanged
  refine hchanged ?_
  unfold attempt AuthServer.csrfCookieText cookieValue Jar.request
  dsimp only
  rw [hbetween, lookup_meetAll_csrf _ fun token hmem => hnone ⟨token, hmem⟩]

/-- The device of the first setup, and a token another tab fetches from it. -/
def setUpServer : AuthServer :=
  ((AuthRun.machine toyCrypto toyDerivation {} firstStart).run firstSession).server

def otherTab (jar : Jar) : Jar :=
  (csrf toyCrypto setUpServer .https [] jar ⟨atBoot, ⟨List.replicate 16 1, rfl⟩⟩).2

def turnAtBoot (between : Jar → Jar) : Turn where
  before := id
  fetch := ⟨atBoot, zeros 16⟩
  between := between
  now := atBoot
  later := atBoot

def setUpJar : Jar :=
  [⟨ascii "__Host-SID", sessionToken, true⟩]

theorem setUpServer_https : setUpServer.secureCookies = true → Scheme.https = .https :=
  fun _ => rfl

/-- A stale token, and then a token another tab fetches in between: forbidden twice. -/
theorem csrf_retry_exact_tabs :
    postCsrf toyCrypto setUpServer .https (ascii "stale") setUpJar (turnAtBoot id)
      (turnAtBoot otherTab) = .forbidden := by
  have hsid : ∀ jar : Jar, cookieValue (((turnAtBoot otherTab).between jar).request .https [])
      (sessionCookieName setUpServer.secureCookies) =
        cookieValue (jar.request .https []) (sessionCookieName setUpServer.secureCookies) := by
    intro jar
    dsimp only [turnAtBoot, otherTab]
    exact session_fetched setUpServer_https jar _
  refine (csrf_retry_exact toyCrypto setUpServer .https (ascii "stale") setUpJar (turnAtBoot id)
    (turnAtBoot otherTab) setUpServer_https ⟨Nat.le_refl _, Nat.le_refl _⟩ hsid ?_).1.mpr ?_
  · decide +kernel
  · exact ⟨by decide +kernel, by decide +kernel⟩

end Retry

end RfIrBlaster.Runtime
