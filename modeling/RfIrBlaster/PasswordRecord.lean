/-
`password.cpp`: credential records, and exactly which records a password verifies against.
-/
import RfIrBlaster.Base64url
import RfIrBlaster.SessionToken

namespace RfIrBlaster.Runtime

/-- What the records need of the device's crypto: a key of `kDerivedKeyLen` bytes from a
password, a salt and an iteration count. -/
structure KeyDerivation where
  pbkdf2HmacSha256 : Bytes → Bytes → UInt32 → Bytes
  dk_length : ∀ password salt iterations,
    (pbkdf2HmacSha256 password salt iterations).length = 32

def kPrefix : Bytes := ascii "pbkdf2_sha256"
def kDerivedKeyLen : Nat := 32

def deriveCredential (crypto : KeyDerivation) (password salt : Bytes) (iterations : UInt32) :
    Bytes :=
  kPrefix ++ 36 :: (decimal iterations.toUInt64 ++ 36 :: (base64urlEncode salt ++ 36 ::
    base64urlEncode (crypto.pbkdf2HmacSha256 password salt iterations)))

/-- The loop of `parseIterations`. -/
def parseIterationsLoop : Bytes → UInt64 → Option UInt64
  | [], v => some v
  | c :: cs, v =>
      if c < 48 ∨ 57 < c then none
      else
        let v := v * 10 + (c - 48).toUInt64
        if 0xFFFFFFFF < v then none else parseIterationsLoop cs v

def parseIterations (s : Bytes) : Option UInt32 :=
  if s.isEmpty ∨ 10 < s.length then none
  else
    match parseIterationsLoop s 0 with
    | none => none
    | some v => if v = 0 then none else some v.toUInt32

/-- The splitting loop of `verifyPassword`: the fields ended so far and the one at hand.
A fourth `$` ends it. -/
def recordFields : Bytes → List Bytes → Bytes → Option (List Bytes)
  | [], front, field => some (front ++ [field])
  | c :: cs, front, field =>
      if c = 36 then
        if 3 < front.length + 1 then none else recordFields cs (front ++ [field]) []
      else recordFields cs front (field ++ [c])

def verifyPassword (crypto : KeyDerivation) (password record : Bytes) : Bool :=
  match recordFields record [] [] with
  | some [tag, count, saltText, dkText] =>
      if tag ≠ kPrefix then false
      else
        match parseIterations count, base64urlDecode saltText, base64urlDecode dkText with
        | some iterations, some salt, some dk =>
            if salt.isEmpty ∨ dk.length ≠ kDerivedKeyLen then false
            else constantTimeEqual (crypto.pbkdf2HmacSha256 password salt iterations) dk
        | _, _, _ => false
  | _ => false

/-- One more digit behind a value of 32 bits does not wrap 64. -/
theorem toNat_next_digit {v : UInt64} {c : UInt8} (hv : v.toNat < 2 ^ 32)
    (hdigit : 48 ≤ c.toNat ∧ c.toNat ≤ 57) :
    (v * 10 + (c - 48).toUInt64).toNat = v.toNat * 10 + (c.toNat - 48) := by
  have hvalue := toNat_digit hdigit.1
  have hten : (10 : UInt64).toNat = 10 := rfl
  rw [UInt64.toNat_add, UInt64.toNat_mul, hvalue, hten,
    Nat.mod_eq_of_lt (a := v.toNat * 10) (by omega), Nat.mod_eq_of_lt (by omega)]

/-- The loop reads digits while their value fits 32 bits. -/
theorem parseIterationsLoop_iff {ds : Bytes} {v n : UInt64} (hv : v.toNat < 2 ^ 32) :
    parseIterationsLoop ds v = some n ↔
      (∀ c ∈ ds, Json.isDigit c = true) ∧ n.toNat < 2 ^ 32 ∧
        ds.foldl (fun n c => n * 10 + (c.toNat - 48)) v.toNat = n.toNat := by
  induction ds generalizing v with
  | nil =>
      rw [parseIterationsLoop, Option.some.injEq, List.foldl_nil, UInt64.toNat_inj]
      constructor
      · rintro rfl
        exact ⟨by simp, hv, rfl⟩
      · exact fun h => h.2.2
  | cons c cs ih =>
      rw [parseIterationsLoop, List.foldl_cons, List.forall_mem_cons]
      by_cases hrange : c < 48 ∨ 57 < c
      · rw [if_pos hrange]
        constructor
        · intro h
          cases h
        · rintro ⟨⟨hdigit, -⟩, -⟩
          have hbounds := (Json.isDigit_iff c).mp hdigit
          simp only [UInt8.lt_iff_toNat_lt, UInt8.reduceToNat] at hrange
          omega
      · rw [if_neg hrange]
        simp only [UInt8.lt_iff_toNat_lt, UInt8.reduceToNat, not_or, Nat.not_lt] at hrange
        have hdigit : Json.isDigit c = true := (Json.isDigit_iff c).mpr hrange
        have hnext := toNat_next_digit hv hrange
        simp only
        by_cases hover : 0xFFFFFFFF < v * 10 + (c - 48).toUInt64
        · rw [if_pos hover]
          have hbig : 2 ^ 32 ≤ v.toNat * 10 + (c.toNat - 48) := by
            rw [UInt64.lt_iff_toNat_lt, hnext] at hover
            exact hover
          constructor
          · intro h
            cases h
          · rintro ⟨-, hsmall, hvalue⟩
            have hbound := le_digitsFold cs (v.toNat * 10 + (c.toNat - 48))
            omega
        · rw [if_neg hover]
          have hsmall : (v * 10 + (c - 48).toUInt64).toNat < 2 ^ 32 := by
            rw [UInt64.not_lt, UInt64.le_iff_toNat_le] at hover
            exact Nat.lt_succ_of_le hover
          rw [ih hsmall, hnext]
          simp [hdigit]

/-- One to ten decimal digits of a value from 1 to `2 ^ 32 - 1`. -/
structure IterationText (s : Bytes) : Prop where
  length : 1 ≤ s.length ∧ s.length ≤ 10
  digits : ∀ c ∈ s, Json.isDigit c = true
  value : 1 ≤ Json.digitsValue s ∧ Json.digitsValue s < 2 ^ 32

theorem parseIterations_iff {s : Bytes} {n : UInt32} :
    parseIterations s = some n ↔ IterationText s ∧ n = UInt32.ofNat (Json.digitsValue s) := by
  have hzero : (0 : UInt64).toNat < 2 ^ 32 := by decide
  have hloop : ∀ v, parseIterationsLoop s 0 = some v ↔
      (∀ c ∈ s, Json.isDigit c = true) ∧ v.toNat < 2 ^ 32 ∧ Json.digitsValue s = v.toNat :=
    fun v => parseIterationsLoop_iff hzero
  unfold parseIterations
  split_ifs with hlength
  · constructor
    · intro h
      cases h
    · rintro ⟨htext, -⟩
      have hbounds := htext.length
      rcases hlength with hempty | hlong
      · rw [List.isEmpty_iff.mp hempty] at hbounds
        exact absurd hbounds.1 (by decide)
      · omega
  · have hbounds : 1 ≤ s.length ∧ s.length ≤ 10 := by
      rw [not_or, List.isEmpty_iff, ← List.length_eq_zero_iff] at hlength
      omega
    cases hv : parseIterationsLoop s 0 with
    | none =>
        constructor
        · intro h
          cases h
        · rintro ⟨htext, -⟩
          have hsome := (hloop (UInt64.ofNat (Json.digitsValue s))).mpr
            ⟨htext.digits, ?_, ?_⟩
          · rw [hv] at hsome
            cases hsome
          all_goals
            have hvalue := htext.value.2
            rw [UInt64.toNat_ofNat']
            omega
    | some v =>
        obtain ⟨hdigits, hsmall, hvalue⟩ := (hloop v).mp hv
        have hnarrow : v.toUInt32 = UInt32.ofNat (Json.digitsValue s) := by
          rw [hvalue]
          rfl
        simp only
        split_ifs with hnone
        · constructor
          · intro h
            cases h
          · rintro ⟨htext, -⟩
            have hone := htext.value.1
            rw [hvalue, hnone] at hone
            exact absurd hone (by decide)
        · have hpos : 1 ≤ v.toNat := by
            rw [Nat.one_le_iff_ne_zero]
            exact fun hz => hnone (UInt64.toNat_inj.mp hz)
          rw [Option.some.injEq, hnarrow, eq_comm]
          exact ⟨fun h => ⟨⟨hbounds, hdigits, by omega⟩, h⟩, fun h => h.2⟩

theorem modifyHead_nil_append (fields : List Bytes) :
    fields.modifyHead (([] : Bytes) ++ ·) = fields := by
  cases fields <;> rfl

/-- The loop splits at every `$`, up to three. -/
theorem recordFields_eq (cs : Bytes) {front : List Bytes} (field : Bytes)
    (hfront : front.length ≤ 3) :
    recordFields cs front field =
      let fields := front ++ (cs.splitOn 36).modifyHead (field ++ ·)
      if fields.length ≤ 4 then some fields else none := by
  induction cs generalizing front field with
  | nil =>
      have hroom : (front ++ [field]).length ≤ 4 := by
        rw [List.length_append, List.length_singleton]
        omega
      simp only [recordFields, List.splitOn_nil, List.modifyHead_cons, List.append_nil]
      rw [if_pos hroom]
  | cons c cs ih =>
      have hpos : 0 < (cs.splitOn 36).length :=
        List.length_pos_of_ne_nil (List.splitOn_ne_nil 36 cs)
      by_cases hsep : c = 36
      · have hsplit : (c :: cs).splitOn 36 = [] :: cs.splitOn 36 := by
          simp [List.splitOn_cons_eq_if_modifyHead, hsep]
        rw [recordFields, if_pos hsep, hsplit]
        by_cases hfull : 3 < front.length + 1
        · rw [if_pos hfull, if_neg]
          simp only [List.modifyHead_cons, List.length_append, List.length_cons]
          omega
        · have hroom : (front ++ [field]).length ≤ 3 := by
            simpa using Nat.le_of_not_lt hfull
          rw [if_neg hfull, ih [] hroom, modifyHead_nil_append]
          simp
      · have hsplit : (c :: cs).splitOn 36 = (cs.splitOn 36).modifyHead (c :: ·) := by
          simp [List.splitOn_cons_eq_if_modifyHead, hsep]
        rw [recordFields, if_neg hsep, hsplit, ih (field ++ [c]) hfront]
        simp [List.modifyHead_modifyHead, Function.comp_def]

/-- A record of four fields is its fields joined. -/
theorem recordFields_four {record tag count saltText dkText : Bytes} :
    recordFields record [] [] = some [tag, count, saltText, dkText] ↔
      record = tag ++ 36 :: (count ++ 36 :: (saltText ++ 36 :: dkText)) ∧
        36 ∉ tag ∧ 36 ∉ count ∧ 36 ∉ saltText ∧ 36 ∉ dkText := by
  have hfields : recordFields record [] [] =
      if (record.splitOn 36).length ≤ 4 then some (record.splitOn 36) else none := by
    rw [@recordFields_eq record [] [] (Nat.zero_le 3), modifyHead_nil_append]
    rfl
  have hjoined : recordFields record [] [] = some [tag, count, saltText, dkText] ↔
      record.splitOn 36 = [tag, count, saltText, dkText] := by
    rw [hfields]
    constructor
    · intro h
      split_ifs at h
      exact Option.some.inj h
    · intro h
      rw [h]
      rfl
  rw [hjoined]
  constructor
  · intro hsplit
    have hjoin := @List.intercalate_splitOn _ record _ _ (36 : UInt8)
    have hnone : ∀ field ∈ record.splitOn 36, 36 ∉ field := fun _ => notMem_of_mem_splitOn
    rw [hsplit] at hjoin hnone
    refine ⟨?_, ?_⟩
    · rw [← hjoin]
      simp [List.intercalate]
    · simpa using hnone
  · rintro ⟨rfl, htag, hcount, hsalt, hdk⟩
    rw [List.splitOn_append_cons_self_of_not_mem htag,
      List.splitOn_append_cons_self_of_not_mem hcount,
      List.splitOn_append_cons_self_of_not_mem hsalt, List.splitOn_eq_singleton hdk]

theorem notMem_of_decoded {s out : Bytes} (h : base64urlDecode s = some out) : 36 ∉ s := by
  intro hmem
  exact absurd (base64urlDecode_bytes h 36 hmem) (by decide)

/-- The text of a nonzero count is read back. -/
theorem parseIterations_decimal {iterations : UInt32} (h : iterations ≠ 0) :
    parseIterations (decimal iterations.toUInt64) = some iterations := by
  have hvalue : Json.digitsValue (decimal iterations.toUInt64) = iterations.toNat := by
    rw [decimal, Json.natText_value, UInt32.toNat_toUInt64]
  have hsmall := iterations.toNat_lt
  rw [parseIterations_iff, hvalue]
  refine ⟨⟨⟨?_, ?_⟩, decimal_digits _, ?_, ?_⟩, ?_⟩
  · exact List.length_pos_of_ne_nil (Json.natText_ne_nil _)
  · refine @Json.natText_length _ 9 ?_
    rw [UInt32.toNat_toUInt64]
    omega
  · rw [hvalue, Nat.one_le_iff_ne_zero]
    exact fun hz => h (UInt32.toNat_inj.mp hz)
  · rw [hvalue]
    exact hsmall
  · rw [UInt32.ofNat_toNat]

/-- The records a password verifies against. -/
theorem verifyPassword_iff (crypto : KeyDerivation) (password record : Bytes) :
    verifyPassword crypto password record = true ↔
      ∃ count saltText dkText salt,
        record = kPrefix ++ 36 :: (count ++ 36 :: (saltText ++ 36 :: dkText)) ∧
        IterationText count ∧ base64urlDecode saltText = some salt ∧ salt ≠ [] ∧
        base64urlDecode dkText = some (crypto.pbkdf2HmacSha256 password salt
          (UInt32.ofNat (Json.digitsValue count))) := by
  have hprefix : 36 ∉ kPrefix := by decide
  constructor
  · intro h
    unfold verifyPassword at h
    split at h
    · next tag count saltText dkText hfields =>
      obtain ⟨hrecord, -⟩ := recordFields_four.mp hfields
      split_ifs at h with htag
      split at h
      · next iterations salt dk hcount hsalt hdk =>
        split_ifs at h with hbad
        rw [not_or, List.isEmpty_iff, not_not] at hbad
        obtain ⟨htext, rfl⟩ := parseIterations_iff.mp hcount
        rw [not_not] at htag
        rw [htag] at hrecord
        refine ⟨count, saltText, dkText, salt, hrecord, htext, hsalt, hbad.1, ?_⟩
        rw [hdk, constantTimeEqual_iff.mp h]
      · cases h
    · cases h
  · rintro ⟨count, saltText, dkText, salt, hrecord, htext, hsalt, hne, hdk⟩
    have hfields := recordFields_four.mpr ⟨hrecord, hprefix, notMem_of_digits rfl htext.digits,
      notMem_of_decoded hsalt, notMem_of_decoded hdk⟩
    have hcount := parseIterations_iff.mpr ⟨htext, rfl⟩
    have hok : ¬(salt.isEmpty = true ∨ (crypto.pbkdf2HmacSha256 password salt
        (UInt32.ofNat (Json.digitsValue count))).length ≠ kDerivedKeyLen) := by
      rw [not_or, List.isEmpty_iff, not_not]
      exact ⟨hne, crypto.dk_length _ _ _⟩
    unfold verifyPassword
    simp only [hfields, hcount, hsalt, hdk, ne_eq, not_true_eq_false, if_false]
    rw [if_neg hok]
    exact constantTimeEqual_iff.mpr rfl

/-- A record verifies exactly the passwords that derive its key, and the records of no other
shape verify none. -/
theorem verifyPassword_exact (crypto : KeyDerivation) :
    (∀ password candidate salt iterations, salt ≠ [] → iterations ≠ 0 →
      (verifyPassword crypto candidate (deriveCredential crypto password salt iterations) = true ↔
        crypto.pbkdf2HmacSha256 candidate salt iterations =
          crypto.pbkdf2HmacSha256 password salt iterations)) ∧
    ∀ password record,
      (verifyPassword crypto password record = true ↔
        ∃ count saltText dkText salt,
          record = kPrefix ++ 36 :: (count ++ 36 :: (saltText ++ 36 :: dkText)) ∧
          record.count 36 = 3 ∧
          IterationText count ∧ base64urlDecode saltText = some salt ∧ salt ≠ [] ∧
          base64urlDecode dkText = some (crypto.pbkdf2HmacSha256 password salt
            (UInt32.ofNat (Json.digitsValue count)))) := by
  refine ⟨fun password candidate salt iterations hsalt hiterations => ?_, fun password record => ?_⟩
  · have hcount := parseIterations_decimal hiterations
    have hfields := recordFields_four.mpr ⟨rfl, (by decide : 36 ∉ kPrefix),
      notMem_decimal rfl iterations.toUInt64,
      notMem_of_decoded (base64urlDecode_encode salt),
      notMem_of_decoded (base64urlDecode_encode
        (crypto.pbkdf2HmacSha256 password salt iterations))⟩
    have hok : ¬(salt.isEmpty = true ∨
        (crypto.pbkdf2HmacSha256 password salt iterations).length ≠ kDerivedKeyLen) := by
      rw [not_or, List.isEmpty_iff, not_not]
      exact ⟨hsalt, crypto.dk_length _ _ _⟩
    unfold verifyPassword deriveCredential
    simp only [hfields, hcount, base64urlDecode_encode, ne_eq, not_true_eq_false, if_false]
    rw [if_neg hok, constantTimeEqual_iff]
  · rw [verifyPassword_iff]
    constructor
    · rintro ⟨count, saltText, dkText, salt, hrecord, htext, hsalt, hne, hdk⟩
      have hdigits : 36 ∉ count := notMem_of_digits rfl htext.digits
      have hcount : record.count 36 = 3 := by
        rw [hrecord]
        simp only [List.count_append, List.count_cons_self,
          List.count_eq_zero_of_not_mem (by decide : (36 : UInt8) ∉ kPrefix),
          List.count_eq_zero_of_not_mem hdigits,
          List.count_eq_zero_of_not_mem (notMem_of_decoded hsalt),
          List.count_eq_zero_of_not_mem (notMem_of_decoded hdk)]
      exact ⟨count, saltText, dkText, salt, hrecord, hcount, htext, hsalt, hne, hdk⟩
    · rintro ⟨count, saltText, dkText, salt, hrecord, -, htext, hsalt, hne, hdk⟩
      exact ⟨count, saltText, dkText, salt, hrecord, htext, hsalt, hne, hdk⟩

/-- The published key of `password` under `salt` and one iteration. -/
def vectorKey : Bytes :=
  [18, 15, 182, 207, 252, 248, 179, 44, 67, 231, 34, 82, 86, 196, 248, 55,
   168, 101, 72, 201, 44, 204, 53, 72, 8, 5, 152, 124, 183, 11, 225, 123]

/-- A derivation that knows the one published vector. -/
def vectorDerivation : KeyDerivation where
  pbkdf2HmacSha256 password salt iterations :=
    if password = ascii "password" ∧ salt = ascii "salt" ∧ iterations = 1 then vectorKey
    else List.replicate 32 0
  dk_length password salt iterations := by
    split_ifs
    · rfl
    · rfl

/-- Leading zeros of the count do not matter to the published vector. -/
theorem verifyPassword_exact_vector :
    verifyPassword vectorDerivation (ascii "password")
      (ascii "pbkdf2_sha256$0001$c2FsdA$Eg-2z_z4syxD5yJSVsT4N6hlSMkszDVICAWYfLcL4Xs") = true := by
  refine ((verifyPassword_exact vectorDerivation).2 _ _).mpr
    ⟨ascii "0001", ascii "c2FsdA", ascii "Eg-2z_z4syxD5yJSVsT4N6hlSMkszDVICAWYfLcL4Xs",
      ascii "salt", ?_⟩
  refine ⟨by decide, by decide, ⟨by decide, by decide +kernel, by decide⟩, by decide, by decide, ?_⟩
  decide

end RfIrBlaster.Runtime
