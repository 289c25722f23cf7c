/-
CSRF tokens, and why they and the session tokens, MACed under one secret, cannot
be taken for each other.
-/
import RfIrBlaster.Base64url
import RfIrBlaster.SessionToken

namespace RfIrBlaster.Runtime

def csrfMac (crypto : Crypto) (secret binding rand : Bytes) : Bytes :=
  crypto.hmacSha256 secret (binding ++ 33 :: rand)

def mintCsrf (crypto : Crypto) (secret binding rand : Bytes) : Bytes :=
  base64urlEncode rand ++ 46 :: base64urlEncode (csrfMac crypto secret binding rand)

/-- The signed part of a token, decoded, and its MAC. -/
def parseCsrf (token : Bytes) : Option (Bytes × Bytes) := do
  let (part1, part2) ← splitDot token
  let rand ← base64urlDecode part1
  let sig ← base64urlDecode part2
  if sig.length ≠ 32 then none else some (rand, sig)

def verifyCsrf (crypto : Crypto) (secret binding cookieTok formTok : Bytes) : Bool :=
  if cookieTok.isEmpty ∨ !constantTimeEqual cookieTok formTok then false
  else
    match parseCsrf cookieTok with
    | none => false
    | some (rand, sig) => constantTimeEqual (csrfMac crypto secret binding rand) sig

/-- The calls that MAC a message under the secret. -/
inductive TokenCall where
  | mintSession (user : Bytes) (iat : UInt64)
  | refreshSession (token : Bytes) (now : UInt64)
  | mintCsrf (binding rand : Bytes)
deriving DecidableEq, Repr

/-- What a token was issued for. -/
inductive Issued where
  | session (p : ParsedToken)
  | csrf (binding rand : Bytes)
deriving DecidableEq, Repr

namespace Issued

/-- The message under the MAC. -/
def message : Issued → Bytes
  | session p => base64urlEncode p.payload
  | csrf binding rand => binding ++ 33 :: rand

def tag (crypto : Crypto) (secret : Bytes) (i : Issued) : Bytes :=
  crypto.hmacSha256 secret i.message

def token (crypto : Crypto) (secret : Bytes) : Issued → Bytes
  | session p => mintRaw crypto secret p
  | csrf binding rand => Runtime.mintCsrf crypto secret binding rand

end Issued

namespace TokenCall

/-- What a call returns. -/
def result (crypto : Crypto) (secret : Bytes) : TokenCall → Bytes
  | mintSession user iat => Runtime.mintSession crypto secret user iat
  | refreshSession token now => Runtime.refreshSession crypto secret token now
  | mintCsrf binding rand => Runtime.mintCsrf crypto secret binding rand

/-- What a call issues: a refused one MACs nothing. -/
def issue (crypto : Crypto) (secret : Bytes) : TokenCall → Option Issued
  | mintSession user iat =>
      if user.isEmpty ∨ 124 ∈ user then none
      else some (.session ⟨user, iat, iat + kAbsoluteTimeoutMs, iat + kIdleTimeoutMs⟩)
  | refreshSession token now =>
      match parseToken crypto secret token with
      | none => none
      | some p =>
          if p.absExpiry ≤ now ∨ p.idleDeadline ≤ now then none
          else some (.session { p with idleDeadline := now + kIdleTimeoutMs })
  | mintCsrf binding rand => some (.csrf binding rand)

/-- A call returns the token of what it issues, or nothing. -/
theorem result_eq (crypto : Crypto) (secret : Bytes) (call : TokenCall) :
    call.result crypto secret =
      ((call.issue crypto secret).map (Issued.token crypto secret)).getD [] := by
  cases call with
  | mintSession user iat =>
      rw [result, issue, Runtime.mintSession]
      split_ifs <;> rfl
  | refreshSession token now =>
      rw [result, issue, Runtime.refreshSession]
      cases parseToken crypto secret token with
      | none => rfl
      | some p =>
          dsimp only
          split_ifs <;> rfl
  | mintCsrf binding rand => rfl

end TokenCall

/-- Everything MACed under the secret by a sequence of calls. -/
def issuedBy (crypto : Crypto) (secret : Bytes) (calls : List TokenCall) : List Issued :=
  calls.filterMap fun call => call.issue crypto secret

/-- The MAC as an ideal one: no message but its own has the tag of a message
that was MACed. -/
def IdealMac (crypto : Crypto) (secret : Bytes) (issued : List Issued) : Prop :=
  ∀ i ∈ issued, ∀ message, crypto.hmacSha256 secret message = i.tag crypto secret →
    message = i.message

/-- The tag a token carries, if it carries 32 bytes. -/
def carriedTag (token : Bytes) : Option Bytes := do
  let (_, part2) ← splitDot token
  let sig ← base64urlDecode part2
  if sig.length ≠ 32 then none else some sig

/-- The tag of the token, if any, is one of those issued. -/
def BuiltFromKnown (crypto : Crypto) (secret : Bytes) (issued : List Issued) (token : Bytes) :
    Prop :=
  ∀ sig, carriedTag token = some sig → ∃ i ∈ issued, i.tag crypto secret = sig

/-- The bindings of the device: none, or a session's `user|iat`. -/
def PlainBinding (binding : Bytes) : Prop :=
  binding = [] ∨ ∃ user digits, binding = user ++ 124 :: digits ∧ ValidUser user ∧
    user.head? ≠ some 33 ∧ ∀ c ∈ digits, Json.isDigit c = true

/-- The user of an accepted payload is one a token can be minted for. -/
theorem parsePayload_user {raw : Bytes} {p : ParsedToken} (h : parsePayload raw = some p) :
    ValidUser p.user := by
  unfold parsePayload at h
  split at h
  · rename_i user iat absExpiry idleDeadline hsplit
    split_ifs at h with hempty
    simp only [Option.bind_eq_bind, Option.bind_eq_some_iff] at h
    obtain ⟨_, -, _, -, _, -, hp⟩ := h
    rw [← Option.some.inj hp]
    refine ⟨fun hnil => hempty (List.isEmpty_iff.mpr hnil), ?_⟩
    exact notMem_of_mem_splitOn (s := raw) (by rw [hsplit]; exact List.mem_cons_self)
  · cases h

/-- What an accepted session token carries. -/
theorem parseToken_eq_some {crypto : Crypto} {secret token : Bytes} {p : ParsedToken}
    (h : parseToken crypto secret token = some p) :
    ∃ part1 raw, carriedTag token = some (crypto.hmacSha256 secret part1) ∧
      base64urlDecode part1 = some raw ∧ parsePayload raw = some p := by
  simp only [parseToken, Option.bind_eq_bind, Option.bind_eq_some_iff] at h
  obtain ⟨⟨part1, part2⟩, hsplit, sig, hsig, h⟩ := h
  dsimp only at hsig h
  split_ifs at h with hlen hmac
  obtain ⟨raw, hraw, hp⟩ := Option.bind_eq_some_iff.mp h
  rw [Bool.not_eq_true', Bool.not_eq_false, constantTimeEqual_iff] at hmac
  refine ⟨part1, raw, ?_, hraw, hp⟩
  simp [carriedTag, hsplit, hsig, hlen, hmac]

/-- What an accepted CSRF token carries. -/
theorem verifyCsrf_eq_true {crypto : Crypto} {secret binding token formTok : Bytes}
    (h : verifyCsrf crypto secret binding token formTok = true) :
    ∃ rand, parseCsrf token = some (rand, csrfMac crypto secret binding rand) ∧
      carriedTag token = some (csrfMac crypto secret binding rand) := by
  unfold verifyCsrf at h
  split_ifs at h
  cases hparse : parseCsrf token with
  | none => simp [hparse] at h
  | some parts =>
      obtain ⟨rand, sig⟩ := parts
      simp only [hparse] at h
      rw [constantTimeEqual_iff] at h
      refine ⟨rand, by rw [h], ?_⟩
      simp only [parseCsrf, Option.bind_eq_bind, Option.bind_eq_some_iff] at hparse
      obtain ⟨⟨part1, part2⟩, hsplit, rand', -, sig', hsig, hpair⟩ := hparse
      dsimp only at hsig hpair
      split_ifs at hpair with hlen
      have hsame : sig' = sig := congrArg Prod.snd (Option.some.inj hpair)
      rw [hsame] at hsig hlen
      simp [carriedTag, hsplit, hsig, hlen, h]

theorem csrf_message_not_encoded {binding rand part1 raw : Bytes}
    (h : base64urlDecode part1 = some raw) : part1 ≠ binding ++ 33 :: rand := by
  intro heq
  have hbyte := base64urlDecode_bytes h 33 (by simp [heq])
  exact absurd hbyte (by decide)

theorem issued_session_user {crypto : Crypto} {secret : Bytes} {calls : List TokenCall}
    {p : ParsedToken} (h : Issued.session p ∈ issuedBy crypto secret calls) :
    ValidUser p.user := by
  obtain ⟨call, -, hissue⟩ := List.mem_filterMap.mp h
  cases call with
  | mintSession user iat =>
      rw [TokenCall.issue] at hissue
      split_ifs at hissue with hbad
      rw [not_or] at hbad
      rw [← Issued.session.inj (Option.some.inj hissue)]
      exact ⟨fun hnil => hbad.1 (List.isEmpty_iff.mpr hnil), hbad.2⟩
  | refreshSession token now =>
      rw [TokenCall.issue] at hissue
      cases hparse : parseToken crypto secret token with
      | none => simp [hparse] at hissue
      | some q =>
          simp only [hparse] at hissue
          split_ifs at hissue
          obtain ⟨_, _, -, -, hpayload⟩ := parseToken_eq_some hparse
          have huser : ValidUser q.user := parsePayload_user hpayload
          rw [← Issued.session.inj (Option.some.inj hissue)]
          exact huser
  | mintCsrf binding rand => cases hissue

/-- A text with a known tag that is base64url text belongs to a session. -/
theorem session_of_known_tag {crypto : Crypto} {secret : Bytes} {calls : List TokenCall}
    (hideal : IdealMac crypto secret (issuedBy crypto secret calls)) {part1 raw : Bytes}
    (hraw : base64urlDecode part1 = some raw) {i : Issued}
    (hi : i ∈ issuedBy crypto secret calls)
    (htag : i.tag crypto secret = crypto.hmacSha256 secret part1) :
    ∃ q, i = .session q ∧ parsePayload raw = some q := by
  have hmessage := hideal i hi part1 htag.symm
  cases i with
  | csrf binding rand => exact absurd hmessage (csrf_message_not_encoded hraw)
  | session q =>
      refine ⟨q, rfl, ?_⟩
      rw [hmessage, Issued.message, base64urlDecode_encode] at hraw
      rw [← Option.some.inj hraw]
      exact parsePayload_payload (issued_session_user hi)

/-- An authentic session token says what an issued one says. -/
theorem parseToken_issued {crypto : Crypto} {secret : Bytes} {calls : List TokenCall}
    (hideal : IdealMac crypto secret (issuedBy crypto secret calls)) {token : Bytes}
    (hknown : BuiltFromKnown crypto secret (issuedBy crypto secret calls) token)
    {p : ParsedToken} (h : parseToken crypto secret token = some p) :
    Issued.session p ∈ issuedBy crypto secret calls := by
  obtain ⟨part1, raw, hcarried, hraw, hpayload⟩ := parseToken_eq_some h
  obtain ⟨i, hi, htag⟩ := hknown _ hcarried
  obtain ⟨q, rfl, hq⟩ := session_of_known_tag hideal hraw hi htag
  rw [hpayload] at hq
  rw [Option.some.inj hq]
  exact hi

/-- Texts that are equal up to the first separator are equal up to it and after it. -/
theorem append_sep_inj {sep : UInt8} {a b rest rest' : Bytes} (ha : sep ∉ a) (hb : sep ∉ b)
    (h : a ++ sep :: rest = b ++ sep :: rest') : a = b ∧ rest = rest' := by
  induction a generalizing b with
  | nil =>
      cases b with
      | nil => exact ⟨rfl, (List.cons.inj h).2⟩
      | cons c cs => exact absurd (List.cons.inj h).1 fun heq => hb (by simp [heq])
  | cons c cs ih =>
      cases b with
      | nil => exact absurd (List.cons.inj h).1 fun heq => ha (by simp [heq])
      | cons d ds =>
          obtain ⟨hhead, htail⟩ := List.cons.inj h
          obtain ⟨hcs, hrest⟩ := ih (fun hmem => ha (List.mem_cons_of_mem _ hmem))
            (fun hmem => hb (List.mem_cons_of_mem _ hmem)) htail
          exact ⟨by rw [hhead, hcs], hrest⟩

/-- A message that starts with a separator is of no session's binding. -/
theorem user_ne_sep {user rest rest' : Bytes} (huser : ValidUser user)
    (hhead : user.head? ≠ some 33) : 33 :: rest ≠ user ++ rest' := by
  intro heq
  cases user with
  | nil => exact huser.1 rfl
  | cons c cs =>
      rw [List.cons_append] at heq
      exact hhead (by rw [← (List.cons.inj heq).1]; rfl)

/-- With the bindings of the device a CSRF message is read in one way only. -/
theorem csrf_message_inj {binding binding' rand rand' : Bytes} (hb : PlainBinding binding)
    (hb' : PlainBinding binding')
    (h : binding ++ 33 :: rand = binding' ++ 33 :: rand') :
    binding = binding' ∧ rand = rand' := by
  rcases hb with rfl | ⟨user, digits, rfl, huser, hhead, hdigits⟩
  · rcases hb' with rfl | ⟨user', digits', rfl, huser', hhead', -⟩
    · exact ⟨rfl, (List.cons.inj h).2⟩
    · rw [List.append_assoc] at h
      exact absurd h (user_ne_sep huser' hhead')
  · rcases hb' with rfl | ⟨user', digits', rfl, huser', hhead', hdigits'⟩
    · rw [List.append_assoc] at h
      exact absurd h.symm (user_ne_sep huser hhead)
    · -- the first bar ends the user, the first mark after it the digits
      rw [List.append_assoc, List.append_assoc, List.cons_append, List.cons_append] at h
      obtain ⟨rfl, hrest⟩ := append_sep_inj huser.2 huser'.2 h
      obtain ⟨rfl, hrand⟩ := append_sep_inj (notMem_of_digits rfl hdigits)
        (notMem_of_digits rfl hdigits') hrest
      exact ⟨rfl, hrand⟩

/-- What a token built from known tags can pass for. -/
structure NotSpliced (crypto : Crypto) (secret : Bytes) (issued : List Issued) (token : Bytes) :
    Prop where
  authentic : ∀ p, parseToken crypto secret token = some p → Issued.session p ∈ issued
  session : ∀ now, (verifySession crypto secret token now).valid = true ∨
      refreshSession crypto secret token now ≠ [] →
    ∃ p, parseToken crypto secret token = some p ∧ Issued.session p ∈ issued
  csrf : ∀ binding, verifyCsrf crypto secret binding token token = true →
    ∃ sig, carriedTag token = some sig ∧
      (∃ binding' rand', Issued.csrf binding' rand' ∈ issued ∧
        (Issued.csrf binding' rand').tag crypto secret = sig) ∧
      ∀ p, Issued.session p ∈ issued → (Issued.session p).tag crypto secret ≠ sig
  csrf_same : ∀ binding, verifyCsrf crypto secret binding token token = true →
    PlainBinding binding → (∀ binding' rand', Issued.csrf binding' rand' ∈ issued →
      PlainBinding binding') →
    ∃ rand sig, parseCsrf token = some (rand, sig) ∧ Issued.csrf binding rand ∈ issued

/-- The tag of an accepted CSRF token is that of an issued one with the same message. -/
theorem verifyCsrf_issued {crypto : Crypto} {secret : Bytes} {calls : List TokenCall}
    (hideal : IdealMac crypto secret (issuedBy crypto secret calls)) {token binding : Bytes}
    (hknown : BuiltFromKnown crypto secret (issuedBy crypto secret calls) token)
    (h : verifyCsrf crypto secret binding token token = true) :
    ∃ rand binding' rand', Issued.csrf binding' rand' ∈ issuedBy crypto secret calls ∧
      parseCsrf token = some (rand, csrfMac crypto secret binding rand) ∧
      carriedTag token = some (csrfMac crypto secret binding rand) ∧
      binding ++ 33 :: rand = binding' ++ 33 :: rand' := by
  obtain ⟨rand, hparse, hcarried⟩ := verifyCsrf_eq_true h
  obtain ⟨i, hi, htag⟩ := hknown _ hcarried
  have hmessage := hideal i hi _ htag.symm
  cases i with
  | session q =>
      exact absurd hmessage.symm (csrf_message_not_encoded (base64urlDecode_encode q.payload))
  | csrf binding' rand' => exact ⟨rand, binding', rand', hi, hparse, hcarried, hmessage⟩

/-- Under one secret and an ideal MAC no token passes for one of another kind, of
another session, or of another binding. -/
theorem token_kinds_not_spliced (crypto : Crypto) (secret : Bytes) (calls : List TokenCall)
    (hideal : IdealMac crypto secret (issuedBy crypto secret calls)) (token : Bytes)
    (hknown : BuiltFromKnown crypto secret (issuedBy crypto secret calls) token) :
    NotSpliced crypto secret (issuedBy crypto secret calls) token where
  authentic := fun _ hparse => parseToken_issued hideal hknown hparse
  session := by
    intro now haccepted
    cases hparse : parseToken crypto secret token with
    | none => simp [verifySession, refreshSession, hparse] at haccepted
    | some p => exact ⟨p, rfl, parseToken_issued hideal hknown hparse⟩
  csrf := by
    intro binding hverify
    obtain ⟨rand, binding', rand', hi, -, hcarried, hmessage⟩ :=
      verifyCsrf_issued hideal hknown hverify
    refine ⟨_, hcarried, ⟨binding', rand', hi, ?_⟩, ?_⟩
    · rw [Issued.tag, Issued.message, ← hmessage]
      rfl
    · intro p hp htag
      have hsession := hideal _ hp _ htag.symm
      exact csrf_message_not_encoded (base64urlDecode_encode p.payload) hsession.symm
  csrf_same := by
    intro binding hverify hplain hall
    obtain ⟨rand, binding', rand', hi, hparse, -, hmessage⟩ :=
      verifyCsrf_issued hideal hknown hverify
    obtain ⟨rfl, rfl⟩ := csrf_message_inj hplain (hall binding' rand' hi) hmessage
    exact ⟨rand, _, hparse, hi⟩

theorem carriedTag_token (crypto : Crypto) (secret : Bytes) (i : Issued) :
    carriedTag (i.token crypto secret) = some (i.tag crypto secret) := by
  cases i with
  | session p =>
      simp [carriedTag, Issued.token, mintRaw, Issued.tag, Issued.message,
        splitDot_encoded, base64urlDecode_encode, crypto.mac_length]
  | csrf binding rand =>
      simp [carriedTag, Issued.token, mintCsrf, Issued.tag, Issued.message, csrfMac,
        splitDot_encoded, base64urlDecode_encode, crypto.mac_length]

/-- Every issued token is built from known tags. -/
theorem builtFromKnown_token (crypto : Crypto) (secret : Bytes) {issued : List Issued}
    {i : Issued} (hi : i ∈ issued) :
    BuiltFromKnown crypto secret issued (i.token crypto secret) := by
  intro sig hsig
  rw [carriedTag_token] at hsig
  exact ⟨i, hi, Option.some.inj hsig⟩

/-- The toy digest tells a short text from every other. -/
theorem toyCrypto_inj {key m m' : Bytes} (hshort : m.length ≤ 31)
    (h : toyCrypto.hmacSha256 key m' = toyCrypto.hmacSha256 key m) : m' = m := by
  have hcons := List.cons.inj h
  have hlen : min m'.length 255 = min m.length 255 := by
    have hbyte := congrArg UInt8.toNat hcons.1
    rw [UInt8.toNat_ofNat', UInt8.toNat_ofNat', Nat.mod_eq_of_lt (by omega),
      Nat.mod_eq_of_lt (by omega)] at hbyte
    exact hbyte
  have hsame : m'.length = m.length := by omega
  have hfront := congrArg (List.take m.length) hcons.2
  rw [List.take_take, List.take_take, Nat.min_eq_left hshort, List.take_left' hsame,
    List.take_left' rfl] at hfront
  exact hfront

/-- A login and a CSRF token of that session: each passes for what it is only. -/
theorem token_kinds_not_spliced_login :
    let calls : List TokenCall := [.mintSession (ascii "a") 0, .mintCsrf (ascii "a|0") [7, 33]]
    let token := mintCsrf toyCrypto [] (ascii "a|0") [7, 33]
    NotSpliced toyCrypto [] (issuedBy toyCrypto [] calls) token ∧
      verifyCsrf toyCrypto [] (ascii "a|0") token token = true ∧
      parseToken toyCrypto [] token = none := by
  have hshort : ∀ i ∈ issuedBy toyCrypto []
      [.mintSession (ascii "a") 0, .mintCsrf (ascii "a|0") [7, 33]],
      i.message.length ≤ 31 := by decide +kernel
  have hissued : Issued.csrf (ascii "a|0") [7, 33] ∈ issuedBy toyCrypto []
      [.mintSession (ascii "a") 0, .mintCsrf (ascii "a|0") [7, 33]] := by decide +kernel
  exact ⟨token_kinds_not_spliced toyCrypto [] _
      (fun i hi _ h => toyCrypto_inj (hshort i hi) h) _
      (builtFromKnown_token toyCrypto [] hissued),
    by decide +kernel, by decide +kernel⟩

end RfIrBlaster.Runtime
