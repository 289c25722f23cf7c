/-
Session tokens: a user and three times in decimal, base64url, and a MAC over the
encoded text; and how long a chain of refreshed tokens lives.
-/
import RfIrBlaster.Encoding
import RfIrBlaster.JsonText

namespace RfIrBlaster.Runtime

def kIdleTimeoutMs : UInt64 := 900000
def kAbsoluteTimeoutMs : UInt64 := 28800000

/-- `std::to_string`. -/
def decimal (n : UInt64) : Bytes :=
  Json.natText n.toNat

/-- What a session token says. -/
structure ParsedToken where
  user : Bytes
  iat : UInt64
  absExpiry : UInt64
  idleDeadline : UInt64
deriving DecidableEq, Repr

namespace ParsedToken

def payload (p : ParsedToken) : Bytes :=
  p.user ++ 124 :: (decimal p.iat ++ 124 :: (decimal p.absExpiry ++ 124 ::
    decimal p.idleDeadline))

def binding (p : ParsedToken) : Bytes :=
  p.user ++ 124 :: decimal p.iat

end ParsedToken

/-- `mintRaw`, its four fields in one record. -/
def mintRaw (crypto : Crypto) (secret : Bytes) (p : ParsedToken) : Bytes :=
  let part1 := base64urlEncode p.payload
  part1 ++ 46 :: base64urlEncode (crypto.hmacSha256 secret part1)

/-- The loop of `parseUint64`. -/
def parseUint64Loop : Bytes → UInt64 → Option UInt64
  | [], v => some v
  | c :: cs, v =>
      if c < 48 ∨ 57 < c then none
      else
        let nv := v * 10 + (c - 48).toUInt64
        if nv < v then none else parseUint64Loop cs nv

def parseUint64 (s : Bytes) : Option UInt64 :=
  if s.isEmpty ∨ 20 < s.length then none else parseUint64Loop s 0

/-- The two parts of a token with exactly one dot. -/
def splitDot (token : Bytes) : Option (Bytes × Bytes) :=
  match token.dropWhile (· ≠ 46) with
  | [] => none
  | _ :: part2 => if 46 ∈ part2 then none else some (token.takeWhile (· ≠ 46), part2)

/-- The four fields of an authenticated payload. -/
def parsePayload (raw : Bytes) : Option ParsedToken :=
  match raw.splitOn 124 with
  | [user, iat, absExpiry, idleDeadline] =>
      if user.isEmpty then none
      else do
        let iat ← parseUint64 iat
        let absExpiry ← parseUint64 absExpiry
        let idleDeadline ← parseUint64 idleDeadline
        some { user, iat, absExpiry, idleDeadline }
  | _ => none

/-- The MAC is checked over the encoded text before any field is decoded. -/
def parseToken (crypto : Crypto) (secret token : Bytes) : Option ParsedToken := do
  let (part1, part2) ← splitDot token
  let sig ← base64urlDecode part2
  if sig.length ≠ 32 then none
  else if !constantTimeEqual (crypto.hmacSha256 secret part1) sig then none
  else
    let raw ← base64urlDecode part1
    parsePayload raw

structure SessionResult where
  valid : Bool := false
  user : Bytes := []
  binding : Bytes := []
  expiredIdle : Bool := false
  expiredAbsolute : Bool := false
deriving DecidableEq, Repr

def mintSession (crypto : Crypto) (secret user : Bytes) (iat : UInt64) : Bytes :=
  if user.isEmpty ∨ 124 ∈ user then []
  else mintRaw crypto secret ⟨user, iat, iat + kAbsoluteTimeoutMs, iat + kIdleTimeoutMs⟩

def verifySession (crypto : Crypto) (secret token : Bytes) (now : UInt64) : SessionResult :=
  match parseToken crypto secret token with
  | none => {}
  | some p =>
      let expiredIdle := decide (p.idleDeadline ≤ now)
      let expiredAbsolute := decide (p.absExpiry ≤ now)
      { user := p.user
        binding := p.binding
        expiredIdle := expiredIdle
        expiredAbsolute := expiredAbsolute
        valid := !expiredIdle && !expiredAbsolute }

def refreshSession (crypto : Crypto) (secret token : Bytes) (now : UInt64) : Bytes :=
  match parseToken crypto secret token with
  | none => []
  | some p =>
      if p.absExpiry ≤ now ∨ p.idleDeadline ≤ now then []
      else mintRaw crypto secret { p with idleDeadline := now + kIdleTimeoutMs }

theorem decimal_digits (n : UInt64) : ∀ c ∈ decimal n, Json.isDigit c = true :=
  Json.natTextAux_digits _ _

theorem notMem_of_digits {c : UInt8} (hc : Json.isDigit c = false) {s : Bytes}
    (h : ∀ d ∈ s, Json.isDigit d = true) : c ∉ s := by
  intro hmem
  rw [h c hmem] at hc
  cases hc

theorem notMem_decimal {c : UInt8} (h : Json.isDigit c = false) (n : UInt64) : c ∉ decimal n :=
  notMem_of_digits h (decimal_digits n)

theorem le_digitsFold (ds : Bytes) (n : Nat) :
    n ≤ ds.foldl (fun n c => n * 10 + (c.toNat - 48)) n := by
  induction ds generalizing n with
  | nil => exact Nat.le_refl n
  | cons c cs ih =>
      calc n ≤ n * 10 + (c.toNat - 48) := by omega
        _ ≤ _ := ih _

theorem toNat_digit {c : UInt8} (h : 48 ≤ c.toNat) : (c - 48).toUInt64.toNat = c.toNat - 48 := by
  have hle : (48 : UInt8) ≤ c := UInt8.le_iff_toNat_le.mpr h
  rw [UInt8.toNat_toUInt64, UInt8.toNat_sub_of_le _ _ hle]
  rfl

/-- The parser reads digits as `digitsValue` does while they fit. -/
theorem parseUint64Loop_digits {ds : Bytes} (hdigits : ∀ c ∈ ds, Json.isDigit c = true)
    {v : UInt64} {n : UInt64}
    (hvalue : ds.foldl (fun n c => n * 10 + (c.toNat - 48)) v.toNat = n.toNat) :
    parseUint64Loop ds v = some n := by
  induction ds generalizing v with
  | nil => exact congrArg some (UInt64.toNat_inj.mp hvalue)
  | cons c cs ih =>
      obtain ⟨hlow, hhigh⟩ := (Json.isDigit_iff c).mp (hdigits c List.mem_cons_self)
      have hdigit := toNat_digit hlow
      have hbound := le_digitsFold cs (v.toNat * 10 + (c.toNat - 48))
      rw [List.foldl_cons] at hvalue
      rw [hvalue] at hbound
      have hn := n.toNat_lt
      have hnext : (v * 10 + (c - 48).toUInt64).toNat = v.toNat * 10 + (c.toNat - 48) := by
        rw [UInt64.toNat_add, UInt64.toNat_mul, hdigit]
        have hten : (10 : UInt64).toNat = 10 := rfl
        rw [hten, Nat.mod_eq_of_lt (a := v.toNat * 10) (by omega), Nat.mod_eq_of_lt (by omega)]
      have hrange : ¬(c < 48 ∨ 57 < c) := by
        simp only [UInt8.lt_iff_toNat_lt, UInt8.reduceToNat]
        omega
      have hgrows : ¬v * 10 + (c - 48).toUInt64 < v := by
        rw [UInt64.lt_iff_toNat_lt, hnext]
        omega
      rw [parseUint64Loop, if_neg hrange]
      dsimp only
      rw [if_neg hgrows]
      apply ih fun c' hc' => hdigits c' (List.mem_cons_of_mem _ hc')
      rw [hnext]
      exact hvalue

/-- A printed number is read back. -/
theorem parseUint64_decimal (n : UInt64) : parseUint64 (decimal n) = some n := by
  have hlen : (decimal n).length ≤ 20 := by
    apply Json.natText_length (k := 19)
    have := n.toNat_lt
    omega
  rw [parseUint64, if_neg]
  · exact parseUint64Loop_digits (decimal_digits n) (Json.natText_value n.toNat)
  · rintro (hempty | hlong)
    · exact Json.natText_ne_nil _ (List.isEmpty_iff.mp hempty)
    · omega

/-- A user as `mintSession` takes one. -/
def ValidUser (user : Bytes) : Prop :=
  user ≠ [] ∧ 124 ∉ user

instance (user : Bytes) : Decidable (ValidUser user) :=
  inferInstanceAs (Decidable (_ ∧ _))

/-- No field of a split text holds the separator. -/
theorem notMem_of_mem_splitOn {sep : UInt8} {s field : Bytes} (h : field ∈ s.splitOn sep) :
    sep ∉ field := by
  induction s generalizing field with
  | nil =>
      rw [List.splitOn_nil, List.mem_singleton] at h
      simp [h]
  | cons c cs ih =>
      rw [List.splitOn_cons_eq_if_modifyHead] at h
      split_ifs at h with hsep
      · rcases List.mem_cons.mp h with rfl | hrest
        · exact List.not_mem_nil
        · exact ih hrest
      · obtain ⟨head, tail, hsplit⟩ := List.exists_cons_of_ne_nil (List.splitOn_ne_nil sep cs)
        rw [hsplit, List.modifyHead_cons] at h
        rw [hsplit] at ih
        rcases List.mem_cons.mp h with rfl | hrest
        · intro hmem
          rcases List.mem_cons.mp hmem with heq | hhead
          · exact hsep (by simp [heq])
          · exact ih List.mem_cons_self hhead
        · exact ih (List.mem_cons_of_mem _ hrest)

/-- The fields of a payload are read back. -/
theorem parsePayload_payload {p : ParsedToken} (h : ValidUser p.user) :
    parsePayload p.payload = some p := by
  have hbar : ∀ n, 124 ∉ decimal n := notMem_decimal (by decide)
  have hsplit : p.payload.splitOn 124 =
      [p.user, decimal p.iat, decimal p.absExpiry, decimal p.idleDeadline] := by
    rw [ParsedToken.payload, List.splitOn_append_cons_self_of_not_mem h.2,
      List.splitOn_append_cons_self_of_not_mem (hbar _),
      List.splitOn_append_cons_self_of_not_mem (hbar _), List.splitOn_eq_singleton (hbar _)]
  rw [parsePayload, hsplit]
  simp [h.1, parseUint64_decimal]

theorem notMem_base64urlEncode {c : UInt8} (h : ¬IsBase64url c) (data : Bytes) :
    c ∉ base64urlEncode data :=
  fun hmem => h (base64urlEncode_bytes data c hmem)

theorem splitDot_append {part1 part2 : Bytes} (h1 : 46 ∉ part1) (h2 : 46 ∉ part2) :
    splitDot (part1 ++ 46 :: part2) = some (part1, part2) := by
  have hall : ∀ c ∈ part1, (fun c : UInt8 => decide (c ≠ 46)) c = true := by
    intro c hc
    exact decide_eq_true fun heq => h1 (heq ▸ hc)
  rw [splitDot, List.dropWhile_append_of_pos hall, List.takeWhile_append_of_pos hall]
  simp [h2]

/-- The dot of a token stands between its two encoded parts and nowhere else. -/
theorem splitDot_encoded (data data' : Bytes) :
    splitDot (base64urlEncode data ++ 46 :: base64urlEncode data') =
      some (base64urlEncode data, base64urlEncode data') :=
  splitDot_append (notMem_base64urlEncode (by decide) data)
    (notMem_base64urlEncode (by decide) data')

/-- A minted token is authentic and says what it was minted from. -/
theorem parseToken_mintRaw (crypto : Crypto) (secret : Bytes) {p : ParsedToken}
    (h : ValidUser p.user) : parseToken crypto secret (mintRaw crypto secret p) = some p := by
  have hmac := constantTimeEqual_iff.mpr
    (Eq.refl (crypto.hmacSha256 secret (base64urlEncode p.payload)))
  simp [parseToken, mintRaw, splitDot_encoded, base64urlDecode_encode, crypto.mac_length, hmac,
    parsePayload_payload h]

theorem mintRaw_ne_nil (crypto : Crypto) (secret : Bytes) (p : ParsedToken) :
    mintRaw crypto secret p ≠ [] := by
  simp [mintRaw]

theorem verifySession_mintRaw (crypto : Crypto) (secret : Bytes) {p : ParsedToken}
    (h : ValidUser p.user) (now : UInt64) :
    verifySession crypto secret (mintRaw crypto secret p) now =
      { user := p.user
        binding := p.binding
        expiredIdle := decide (p.idleDeadline ≤ now)
        expiredAbsolute := decide (p.absExpiry ≤ now)
        valid := !decide (p.idleDeadline ≤ now) && !decide (p.absExpiry ≤ now) } := by
  rw [verifySession, parseToken_mintRaw crypto secret h]

theorem refreshSession_mintRaw (crypto : Crypto) (secret : Bytes) {p : ParsedToken}
    (h : ValidUser p.user) (now : UInt64) :
    refreshSession crypto secret (mintRaw crypto secret p) now =
      if p.absExpiry ≤ now ∨ p.idleDeadline ≤ now then []
      else mintRaw crypto secret { p with idleDeadline := now + kIdleTimeoutMs } := by
  rw [refreshSession, parseToken_mintRaw crypto secret h]

theorem mintSession_eq (crypto : Crypto) (secret : Bytes) {user : Bytes} (h : ValidUser user)
    (iat : UInt64) :
    mintSession crypto secret user iat =
      mintRaw crypto secret ⟨user, iat, iat + kAbsoluteTimeoutMs, iat + kIdleTimeoutMs⟩ := by
  rw [mintSession, if_neg]
  rintro (hempty | hbar)
  · exact h.1 (List.isEmpty_iff.mp hempty)
  · exact h.2 hbar

/-- `token` comes of a login at `iat` and a non-empty refresh at each of `nows`. -/
inductive RefreshChain (crypto : Crypto) (secret user : Bytes) (iat : UInt64) :
    List UInt64 → Bytes → Prop
  | minted : RefreshChain crypto secret user iat [] (mintSession crypto secret user iat)
  | refreshed {nows : List UInt64} {token : Bytes} (now : UInt64)
      (earlier : RefreshChain crypto secret user iat nows token)
      (alive : refreshSession crypto secret token now ≠ [])
      (fits : now.toNat + kIdleTimeoutMs.toNat < 2 ^ 64) :
      RefreshChain crypto secret user iat (nows ++ [now])
        (refreshSession crypto secret token now)

/-- The fields of the token after refreshes at `nows`. -/
def chainFields (user : Bytes) (iat : UInt64) (nows : List UInt64) : ParsedToken :=
  ⟨user, iat, iat + kAbsoluteTimeoutMs, nows.getLast?.getD iat + kIdleTimeoutMs⟩

/-- A refresh slides the idle deadline and nothing else. -/
theorem RefreshChain.token_eq {crypto : Crypto} {secret user : Bytes} {iat : UInt64}
    {nows : List UInt64} {token : Bytes} (huser : ValidUser user)
    (h : RefreshChain crypto secret user iat nows token) :
    token = mintRaw crypto secret (chainFields user iat nows) := by
  induction h with
  | minted => exact mintSession_eq crypto secret huser iat
  | @refreshed nows token now earlier alive fits ih =>
      rw [ih, refreshSession_mintRaw crypto secret (p := chainFields user iat nows) huser]
        at alive ⊢
      split_ifs at alive ⊢ with hexpired
      · exact absurd rfl alive
      · simp [chainFields]

theorem RefreshChain.last_fits {crypto : Crypto} {secret user : Bytes} {iat : UInt64}
    {nows : List UInt64} {token : Bytes}
    (hiat : iat.toNat + kAbsoluteTimeoutMs.toNat < 2 ^ 64)
    (h : RefreshChain crypto secret user iat nows token) :
    (nows.getLast?.getD iat).toNat + kIdleTimeoutMs.toNat < 2 ^ 64 := by
  cases h with
  | minted =>
      have hidle : kIdleTimeoutMs.toNat ≤ kAbsoluteTimeoutMs.toNat := by decide
      have hlast : ([] : List UInt64).getLast?.getD iat = iat := rfl
      rw [hlast]
      omega
  | refreshed now earlier alive fits => simpa using fits

/-- What a token says about its session at any time: it is last seen at `lastSeen`. -/
structure SessionLife (crypto : Crypto) (secret user token : Bytes) (iat lastSeen now : UInt64) :
    Prop where
  same_user : (verifySession crypto secret token now).user = user
  same_binding : (verifySession crypto secret token now).binding = user ++ 124 :: decimal iat
  absolute_iff : (verifySession crypto secret token now).expiredAbsolute = true ↔
    iat.toNat + kAbsoluteTimeoutMs.toNat ≤ now.toNat
  idle_iff : (verifySession crypto secret token now).expiredIdle = true ↔
    lastSeen.toNat + kIdleTimeoutMs.toNat ≤ now.toNat
  valid_iff : (verifySession crypto secret token now).valid = true ↔
    (verifySession crypto secret token now).expiredAbsolute = false ∧
      (verifySession crypto secret token now).expiredIdle = false
  refresh_empty : refreshSession crypto secret token now = [] ↔
    (verifySession crypto secret token now).expiredAbsolute = true ∨
      (verifySession crypto secret token now).expiredIdle = true
  capped : (verifySession crypto secret token now).valid = true →
    now.toNat < iat.toNat + kAbsoluteTimeoutMs.toNat

theorem add_le_iff {a b now : UInt64} (h : a.toNat + b.toNat < 2 ^ 64) :
    a + b ≤ now ↔ a.toNat + b.toNat ≤ now.toNat := by
  rw [UInt64.le_iff_toNat_le, UInt64.toNat_add, Nat.mod_eq_of_lt h]

theorem sessionLife_mintRaw (crypto : Crypto) (secret : Bytes) {user : Bytes}
    (huser : ValidUser user) {iat lastSeen : UInt64}
    (hiat : iat.toNat + kAbsoluteTimeoutMs.toNat < 2 ^ 64)
    (hlast : lastSeen.toNat + kIdleTimeoutMs.toNat < 2 ^ 64) (now : UInt64) :
    SessionLife crypto secret user
      (mintRaw crypto secret
        ⟨user, iat, iat + kAbsoluteTimeoutMs, lastSeen + kIdleTimeoutMs⟩)
      iat lastSeen now := by
  have hverify := verifySession_mintRaw crypto secret
    (p := ⟨user, iat, iat + kAbsoluteTimeoutMs, lastSeen + kIdleTimeoutMs⟩) huser now
  have hrefresh := refreshSession_mintRaw crypto secret
    (p := ⟨user, iat, iat + kAbsoluteTimeoutMs, lastSeen + kIdleTimeoutMs⟩) huser now
  constructor
  · rw [hverify]
  · rw [hverify]
    rfl
  · rw [hverify, decide_eq_true_iff, add_le_iff hiat]
  · rw [hverify, decide_eq_true_iff, add_le_iff hlast]
  · rw [hverify]
    simp [and_comm]
  · rw [hrefresh, hverify]
    simp only [decide_eq_true_iff]
    split_ifs with hexpired
    · exact iff_of_true rfl hexpired
    · exact iff_of_false (mintRaw_ne_nil _ _ _) hexpired
  · rw [hverify]
    intro hvalid
    simp only [Bool.and_eq_true, Bool.not_eq_true', decide_eq_false_iff_not] at hvalid
    rw [add_le_iff hiat] at hvalid
    exact Nat.lt_of_not_le hvalid.2

/-- However often a session is refreshed, it keeps its user and binding, goes idle
`kIdleTimeoutMs` after its last refresh and ends `kAbsoluteTimeoutMs` after the login. -/
theorem session_lifetime (crypto : Crypto) (secret user : Bytes) (iat : UInt64)
    (huser : ValidUser user) (hiat : iat.toNat + kAbsoluteTimeoutMs.toNat < 2 ^ 64)
    {nows : List UInt64} {token : Bytes}
    (hchain : RefreshChain crypto secret user iat nows token) (now : UInt64) :
    SessionLife crypto secret user token iat (nows.getLast?.getD iat) now := by
  rw [hchain.token_eq huser]
  exact sessionLife_mintRaw crypto secret huser hiat (hchain.last_fits hiat) now

/-- A digest of 32 bytes that tells short texts apart: the length, then the text. -/
def toyCrypto : Crypto where
  hmacSha256 _ data :=
    (UInt8.ofNat (min data.length 255) :: (data ++ List.replicate 32 0)).take 32
  mac_length _ data := by simp

/-- A login at 5 s, refreshed after ten minutes: idle a quarter of an hour later. -/
theorem session_lifetime_refreshed_once :
    let token := mintSession toyCrypto [] (ascii "admin") 5000
    let refreshed := refreshSession toyCrypto [] token 605000
    SessionLife toyCrypto [] (ascii "admin") refreshed 5000 605000 1505000 ∧
      (verifySession toyCrypto [] refreshed 1504999).valid = true ∧
      (verifySession toyCrypto [] refreshed 1505000).expiredIdle = true := by
  have halive : refreshSession toyCrypto [] (mintSession toyCrypto [] (ascii "admin") 5000)
      605000 ≠ [] := by decide +kernel
  exact ⟨session_lifetime toyCrypto [] (ascii "admin") 5000 (by decide) (by decide)
    (.refreshed 605000 .minted halive (by decide)) 1505000, by decide +kernel,
    by decide +kernel⟩

end RfIrBlaster.Runtime
