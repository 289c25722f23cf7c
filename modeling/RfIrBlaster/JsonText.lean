/-
JSON texts: a serializer, a parser with a container ceiling, and the round trip
between them.  The parser keeps the last value of a repeated key.
-/
import RfIrBlaster.Json
import Mathlib.Data.List.TakeWhile

namespace Json

def digit (d : Nat) : UInt8 :=
  UInt8.ofNat (48 + d)

def isDigit (c : UInt8) : Bool :=
  48 ≤ c && c ≤ 57

def natTextAux : Nat → Nat → List UInt8
  | 0, n => [digit (n % 10)]
  | fuel + 1, n =>
      if n < 10 then [digit n] else natTextAux fuel (n / 10) ++ [digit (n % 10)]

/-- Decimal digits, most significant first. -/
def natText (n : Nat) : List UInt8 :=
  natTextAux n n

def intText : Int → List UInt8
  | .ofNat n => natText n
  | .negSucc n => 45 :: natText (n + 1)

def hexDigit (d : Nat) : UInt8 :=
  if d < 10 then UInt8.ofNat (48 + d) else UInt8.ofNat (87 + d)

/-- The short escapes, byte first. -/
def shortEscapes : List (UInt8 × UInt8) :=
  [(34, 34), (92, 92), (8, 98), (12, 102), (10, 110), (13, 114), (9, 116)]

def escape (c : UInt8) : List UInt8 :=
  match shortEscapes.lookup c with
  | some e => [92, e]
  | none =>
      if c < 32 then [92, 117, 48, 48, hexDigit (c.toNat / 16), hexDigit (c.toNat % 16)]
      else [c]

def stringText (s : List UInt8) : List UInt8 :=
  34 :: (s.flatMap escape ++ [34])

mutual
def serialize : Json → List UInt8
  | .null => [110, 117, 108, 108]
  | .bool true => [116, 114, 117, 101]
  | .bool false => [102, 97, 108, 115, 101]
  | .int n => intText n
  | .float text => text
  | .str s => stringText s
  | .arr [] => [91, 93]
  | .arr (x :: xs) => 91 :: (serialize x ++ serializeElements xs)
  | .obj [] => [123, 125]
  | .obj ((k, v) :: ms) => 123 :: (stringText k ++ 58 :: (serialize v ++ serializeMembers ms))

/-- The rest of an array after its first element. -/
def serializeElements : List Json → List UInt8
  | [] => [93]
  | x :: xs => 44 :: (serialize x ++ serializeElements xs)

def serializeMembers : List (List UInt8 × Json) → List UInt8
  | [] => [125]
  | (k, v) :: ms => 44 :: (stringText k ++ 58 :: (serialize v ++ serializeMembers ms))
end

def isSpace (c : UInt8) : Bool :=
  c == 32 || c == 9 || c == 10 || c == 13

def skipSpace (input : List UInt8) : List UInt8 :=
  input.dropWhile isSpace

/-- The input after the next token, when that token is `c`. -/
def expect (c : UInt8) (input : List UInt8) : Option (List UInt8) :=
  match skipSpace input with
  | [] => none
  | d :: rest => if d = c then some rest else none

def hexValue (c : UInt8) : Option Nat :=
  if 48 ≤ c ∧ c ≤ 57 then some (c.toNat - 48)
  else if 97 ≤ c ∧ c ≤ 102 then some (c.toNat - 87)
  else if 65 ≤ c ∧ c ≤ 70 then some (c.toNat - 55)
  else none

def utf8 (cp : Nat) : List UInt8 :=
  if cp < 0x80 then [UInt8.ofNat cp]
  else if cp < 0x800 then [UInt8.ofNat (0xC0 + cp / 64), UInt8.ofNat (0x80 + cp % 64)]
  else if cp < 0x10000 then
    [UInt8.ofNat (0xE0 + cp / 4096), UInt8.ofNat (0x80 + cp / 64 % 64),
      UInt8.ofNat (0x80 + cp % 64)]
  else
    [UInt8.ofNat (0xF0 + cp / 262144), UInt8.ofNat (0x80 + cp / 4096 % 64),
      UInt8.ofNat (0x80 + cp / 64 % 64), UInt8.ofNat (0x80 + cp % 64)]

/-- One UTF-16 unit: a high surrogate is kept for the low one that follows. -/
def decodeUnit (high unit : Nat) : Nat × List UInt8 :=
  if 0xD800 ≤ unit ∧ unit < 0xDC00 then (unit - 0xD800, [])
  else if 0xDC00 ≤ unit ∧ unit < 0xE000 then
    (high, utf8 (0x10000 + high * 1024 + (unit - 0xDC00)))
  else (high, utf8 unit)

inductive StringMode where
  | plain
  | escape
  | unicode (digits value : Nat)

def unescape (c : UInt8) : Option UInt8 :=
  if c = 47 then some 47 else (shortEscapes.find? fun e => e.2 == c).map Prod.fst

/-- A string after its opening quote, one byte a step. -/
def scanString : List UInt8 → StringMode → Nat → List UInt8 →
    Option (List UInt8 × List UInt8)
  | [], _, _, _ => none
  | c :: cs, .plain, high, acc =>
      if c = 34 then some (acc, cs)
      else if c = 92 then scanString cs .escape high acc
      else if c < 32 then none
      else scanString cs .plain high (acc ++ [c])
  | c :: cs, .escape, high, acc =>
      if c = 117 then scanString cs (.unicode 4 0) high acc
      else
        match unescape c with
        | none => none
        | some b => scanString cs .plain high (acc ++ [b])
  | c :: cs, .unicode digits value, high, acc =>
      match hexValue c with
      | none => none
      | some d =>
          if digits ≤ 1 then
            scanString cs .plain (decodeUnit high (value * 16 + d)).1
              (acc ++ (decodeUnit high (value * 16 + d)).2)
          else scanString cs (.unicode (digits - 1) (value * 16 + d)) high acc

def parseString (input : List UInt8) : Option (List UInt8 × List UInt8) :=
  scanString input .plain 0 []

def isNumberByte (c : UInt8) : Bool :=
  isDigit c || c == 43 || c == 45 || c == 46 || c == 101 || c == 69

def digitsValue (ds : List UInt8) : Nat :=
  ds.foldl (fun n c => n * 10 + (c.toNat - 48)) 0

def isDigits (token : List UInt8) : Bool :=
  !token.isEmpty && token.all isDigit

def dropDigits (token : List UInt8) : Option (List UInt8) :=
  if (token.takeWhile isDigit).isEmpty then none else some (token.dropWhile isDigit)

def dropFraction : List UInt8 → Option (List UInt8)
  | [] => some []
  | c :: cs => if c = 46 then dropDigits cs else some (c :: cs)

def dropExponent : List UInt8 → Option (List UInt8)
  | [] => some []
  | c :: cs =>
      if c ≠ 101 ∧ c ≠ 69 then some (c :: cs)
      else if cs.head? = some 43 ∨ cs.head? = some 45 then dropDigits cs.tail
      else dropDigits cs

def isDecimal (token : List UInt8) : Bool :=
  ((dropDigits token).bind fun r => (dropFraction r).bind dropExponent) == some []

/-- A number token; leading zeros are accepted. -/
def numberOf (token : List UInt8) : Option Json :=
  if isDigits token then some (.int (digitsValue token))
  else if token.head? = some 45 ∧ isDigits token.tail then
    some (.int (-(digitsValue token.tail : Int)))
  else if isDecimal (if token.head? = some 45 then token.tail else token) then
    some (.float token)
  else none

def parseScalar (input : List UInt8) : Option (Json × List UInt8) :=
  if [110, 117, 108, 108].isPrefixOf input then some (.null, input.drop 4)
  else if [116, 114, 117, 101].isPrefixOf input then some (.bool true, input.drop 4)
  else if [102, 97, 108, 115, 101].isPrefixOf input then some (.bool false, input.drop 5)
  else (numberOf (input.takeWhile isNumberByte)).map fun n =>
    (n, input.dropWhile isNumberByte)

mutual
/-- One value and the input after it; `limit` containers may still be opened. -/
def parseValue : Nat → Nat → List UInt8 → Option (Json × List UInt8)
  | 0, _, _ => none
  | fuel + 1, limit, input =>
      match skipSpace input with
      | [] => none
      | c :: rest =>
          if c = 123 then
            if limit = 0 then none
            else
              match skipSpace rest with
              | [] => none
              | d :: rest' =>
                  if d = 125 then some (.obj [], rest')
                  else parseMembers fuel (limit - 1) (d :: rest') []
          else if c = 91 then
            if limit = 0 then none
            else
              match skipSpace rest with
              | [] => none
              | d :: rest' =>
                  if d = 93 then some (.arr [], rest')
                  else parseElements fuel (limit - 1) (d :: rest') []
          else if c = 34 then (parseString rest).map fun r => (.str r.1, r.2)
          else parseScalar (c :: rest)

/-- The elements of an array up to its end, after those in `acc`. -/
def parseElements : Nat → Nat → List UInt8 → List Json → Option (Json × List UInt8)
  | 0, _, _, _ => none
  | fuel + 1, limit, input, acc =>
      (parseValue fuel limit input).bind fun r =>
        match skipSpace r.2 with
        | [] => none
        | c :: rest =>
            if c = 44 then parseElements fuel limit rest (acc ++ [r.1])
            else if c = 93 then some (.arr (acc ++ [r.1]), rest)
            else none

def parseMembers : Nat → Nat → List UInt8 → List (List UInt8 × Json) →
    Option (Json × List UInt8)
  | 0, _, _, _ => none
  | fuel + 1, limit, input, acc =>
      (expect 34 input).bind fun quoted =>
        (parseString quoted).bind fun key =>
          (expect 58 key.2).bind fun value =>
            (parseValue fuel limit value).bind fun r =>
              match skipSpace r.2 with
              | [] => none
              | c :: rest =>
                  if c = 44 then parseMembers fuel limit rest (setMember key.1 r.1 acc)
                  else if c = 125 then some (.obj (setMember key.1 r.1 acc), rest)
                  else none
end

/-- A whole text; `limit` is the most containers that may be nested. -/
def parse (limit : Nat) (input : List UInt8) : Option Json :=
  match parseValue (2 * input.length + 2) limit input with
  | none => none
  | some (doc, rest) => if (skipSpace rest).isEmpty then some doc else none

theorem digit_toNat {d : Nat} (h : d < 10) : (digit d).toNat = 48 + d := by
  unfold digit
  rw [UInt8.toNat_ofNat_of_lt' (by simp only [UInt8.size]; omega)]

theorem isDigit_iff (c : UInt8) : isDigit c = true ↔ 48 ≤ c.toNat ∧ c.toNat ≤ 57 := by
  simp [isDigit, UInt8.le_iff_toNat_le]

theorem isDigit_digit {d : Nat} (h : d < 10) : isDigit (digit d) = true := by
  rw [isDigit_iff, digit_toNat h]
  omega

theorem natTextAux_digits (fuel n : Nat) : ∀ c ∈ natTextAux fuel n, isDigit c = true := by
  induction fuel generalizing n with
  | zero =>
      intro c hc
      rw [List.mem_singleton.mp hc]
      exact isDigit_digit (Nat.mod_lt n (by decide))
  | succ fuel ih =>
      intro c hc
      rw [natTextAux] at hc
      by_cases hsmall : n < 10
      · rw [if_pos hsmall] at hc
        rw [List.mem_singleton.mp hc]
        exact isDigit_digit hsmall
      · rw [if_neg hsmall] at hc
        rcases List.mem_append.mp hc with hc | hc
        · exact ih (n / 10) c hc
        · rw [List.mem_singleton.mp hc]
          exact isDigit_digit (Nat.mod_lt n (by decide))

theorem natTextAux_value {fuel n : Nat} (h : n < 10 ^ (fuel + 1)) :
    digitsValue (natTextAux fuel n) = n := by
  induction fuel generalizing n with
  | zero =>
      have hmod : n % 10 = n := Nat.mod_eq_of_lt (by simpa using h)
      simp only [natTextAux, digitsValue, List.foldl_cons, List.foldl_nil, hmod]
      rw [digit_toNat (by simpa using h)]
      omega
  | succ fuel ih =>
      rw [natTextAux]
      by_cases hsmall : n < 10
      · rw [if_pos hsmall]
        simp only [digitsValue, List.foldl_cons, List.foldl_nil]
        rw [digit_toNat hsmall]
        omega
      · rw [if_neg hsmall]
        have hdiv : n / 10 < 10 ^ (fuel + 1) := by
          rw [Nat.div_lt_iff_lt_mul (by decide)]
          rw [Nat.pow_succ] at h
          exact h
        have hhigh := ih hdiv
        simp only [digitsValue] at hhigh
        simp only [digitsValue, List.foldl_append, List.foldl_cons, List.foldl_nil, hhigh]
        rw [digit_toNat (Nat.mod_lt n (by decide))]
        omega

theorem natText_value (n : Nat) : digitsValue (natText n) = n := by
  apply natTextAux_value
  calc n < 2 ^ n := Nat.lt_two_pow_self
    _ ≤ 10 ^ n := Nat.pow_le_pow_left (by decide) n
    _ ≤ 10 ^ (n + 1) := Nat.pow_le_pow_right (by decide) (Nat.le_succ n)

theorem natTextAux_length {fuel n k : Nat} (h : n < 10 ^ (k + 1)) :
    (natTextAux fuel n).length ≤ k + 1 := by
  induction fuel generalizing n k with
  | zero => simp [natTextAux]
  | succ fuel ih =>
      rw [natTextAux]
      by_cases hsmall : n < 10
      · rw [if_pos hsmall]
        simp
      · rw [if_neg hsmall, List.length_append, List.length_singleton]
        cases k with
        | zero => exact absurd (by simpa using h) hsmall
        | succ k =>
            rw [Nat.pow_succ] at h
            exact Nat.succ_le_succ (ih ((Nat.div_lt_iff_lt_mul (by decide)).mpr h))

/-- A number below `10 ^ (k + 1)` has at most `k + 1` digits. -/
theorem natText_length {n k : Nat} (h : n < 10 ^ (k + 1)) : (natText n).length ≤ k + 1 :=
  natTextAux_length h

theorem natText_ne_nil (n : Nat) : natText n ≠ [] := by
  unfold natText
  cases n with
  | zero => simp [natTextAux]
  | succ n =>
      rw [natTextAux]
      by_cases hsmall : n + 1 < 10
      · simp [hsmall]
      · simp [hsmall]

theorem natText_head (n : Nat) : ∃ d ds, natText n = d :: ds ∧ isDigit d = true := by
  obtain ⟨d, ds, hcons⟩ := List.exists_cons_of_ne_nil (natText_ne_nil n)
  refine ⟨d, ds, hcons, natTextAux_digits n n d ?_⟩
  change d ∈ natText n
  rw [hcons]
  exact List.mem_cons_self

/-- A text that a number token does not run into. -/
def Delimited (rest : List UInt8) : Prop :=
  ∀ c ∈ rest.head?, isNumberByte c = false

theorem isNumberByte_of_isDigit {c : UInt8} (h : isDigit c = true) : isNumberByte c = true := by
  simp [isNumberByte, h]

/-- A token ends where the number bytes do. -/
theorem takeWhile_append_delimited {token rest : List UInt8}
    (htoken : ∀ c ∈ token, isDigit c = true) (hrest : Delimited rest) :
    (token ++ rest).takeWhile isNumberByte = token ∧
      (token ++ rest).dropWhile isNumberByte = rest := by
  have hall : ∀ c ∈ token, isNumberByte c = true :=
    fun c hc => isNumberByte_of_isDigit (htoken c hc)
  rw [List.takeWhile_append_of_pos hall, List.dropWhile_append_of_pos hall]
  cases rest with
  | nil => simp
  | cons c cs =>
      have hc : isNumberByte c = false := hrest c rfl
      simp [hc]

theorem skipSpace_cons {c : UInt8} (h : isSpace c = false) (cs : List UInt8) :
    skipSpace (c :: cs) = c :: cs := by
  simp [skipSpace, h]

theorem expect_cons {c : UInt8} (h : isSpace c = false) (cs : List UInt8) :
    expect c (c :: cs) = some cs := by
  simp [expect, skipSpace_cons h]

theorem parseScalar_natText (n : Nat) {rest : List UInt8} (hrest : Delimited rest) :
    parseScalar (natText n ++ rest) = some (.int n, rest) := by
  have hdigits : ∀ c ∈ natText n, isDigit c = true := natTextAux_digits n n
  obtain ⟨htake, hdrop⟩ := takeWhile_append_delimited hdigits hrest
  have htoken : isDigits (natText n) = true := by
    simp only [isDigits, Bool.and_eq_true, Bool.not_eq_true', List.isEmpty_eq_false_iff,
      List.all_eq_true]
    exact ⟨natText_ne_nil n, hdigits⟩
  have hnumber : numberOf (natText n) = some (.int n) := by
    unfold numberOf
    rw [if_pos htoken, natText_value]
  obtain ⟨d, ds, hcons, hdigit⟩ := natText_head n
  have hd := (isDigit_iff d).mp hdigit
  have hletter : ∀ letter : UInt8, 57 < letter.toNat → ∀ word,
      (letter :: word).isPrefixOf (natText n ++ rest) = false := by
    intro letter hbig word
    have hne : (letter == d) = false := by
      rw [beq_eq_false_iff_ne]
      rintro rfl
      omega
    simp [hcons, List.isPrefixOf, hne]
  unfold parseScalar
  rw [hletter 110 (by decide), hletter 116 (by decide), hletter 102 (by decide), htake, hdrop,
    hnumber]
  rfl

theorem hexValue_hexDigit : ∀ d < 16, hexValue (hexDigit d) = some d := by
  decide

theorem shortEscapes_unescape : ∀ e ∈ shortEscapes, unescape e.2 = some e.1 ∧ e.2 ≠ 117 := by
  simp [shortEscapes, unescape]

/-- The escape of a control byte by its code is read back as that byte. -/
theorem scanString_control {c : UInt8} (hcontrol : c < 32) (rest acc : List UInt8) (high : Nat) :
    scanString (92 :: 117 :: 48 :: 48 :: hexDigit (c.toNat / 16) :: hexDigit (c.toNat % 16) :: rest)
      .plain high acc = scanString rest .plain high (acc ++ [c]) := by
  have hlt : c.toNat < 32 := UInt8.lt_iff_toNat_lt.mp hcontrol
  have hzero : hexValue 48 = some 0 := by decide
  have hhigh := hexValue_hexDigit (c.toNat / 16) (by omega)
  have hlow := hexValue_hexDigit (c.toNat % 16) (by omega)
  have hunit : decodeUnit high (c.toNat / 16 * 16 + c.toNat % 16) = (high, [c]) := by
    have hsum : c.toNat / 16 * 16 + c.toNat % 16 = c.toNat := by omega
    rw [hsum]
    unfold decodeUnit utf8
    rw [if_neg (by omega), if_neg (by omega), if_pos (by omega), UInt8.ofNat_toNat]
  simp [scanString, hzero, hhigh, hlow, hunit]

/-- An escaped byte is read back as that byte. -/
theorem scanString_escape (c : UInt8) (rest acc : List UInt8) (high : Nat) :
    scanString (escape c ++ rest) .plain high acc = scanString rest .plain high (acc ++ [c]) := by
  unfold escape
  cases hshort : shortEscapes.lookup c with
  | some e =>
      have hmem : (c, e) ∈ shortEscapes := by
        obtain ⟨l, r, heq, -⟩ := List.lookup_eq_some_iff.mp hshort
        rw [heq]
        simp
      obtain ⟨hback, hne⟩ := shortEscapes_unescape (c, e) hmem
      simp [scanString, hback, hne]
  | none =>
      by_cases hcontrol : c < 32
      · simp only [if_pos hcontrol]
        exact scanString_control hcontrol rest acc high
      · have hquote : c ≠ 34 := by
          rintro rfl
          cases hshort
        have hslash : c ≠ 92 := by
          rintro rfl
          cases hshort
        simp [scanString, hcontrol, hquote, hslash]

theorem parseString_stringText (s rest : List UInt8) :
    parseString (s.flatMap escape ++ 34 :: rest) = some (s, rest) := by
  have hscan : ∀ acc, scanString (s.flatMap escape ++ 34 :: rest) .plain 0 acc =
      some (acc ++ s, rest) := by
    induction s with
    | nil =>
        intro acc
        simp [scanString]
    | cons c cs ih =>
        intro acc
        rw [List.flatMap_cons, List.append_assoc, scanString_escape, ih]
        simp
  unfold parseString
  rw [hscan, List.nil_append]

mutual
/-- Parser calls a document takes. -/
def calls : Json → Nat
  | .arr xs => 1 + callsElements xs
  | .obj ms => 1 + callsMembers ms
  | _ => 1

def callsElements : List Json → Nat
  | [] => 0
  | x :: xs => 1 + calls x + callsElements xs

def callsMembers : List (List UInt8 × Json) → Nat
  | [] => 0
  | (_, v) :: ms => 1 + calls v + callsMembers ms
end

/-- What the round trip says of one document. -/
def ParsesBack (doc : Json) : Prop :=
  ∀ fuel limit rest, calls doc ≤ fuel → doc.depth ≤ limit → Delimited rest →
    parseValue fuel limit (serialize doc ++ rest) = some (doc, rest)

theorem delimited_cons {c : UInt8} (h : isNumberByte c = false) (cs : List UInt8) :
    Delimited (c :: cs) := by
  intro d hd
  rw [List.head?_cons, Option.mem_some_iff] at hd
  rw [← hd]
  exact h

theorem serializeElements_delimited (xs : List Json) (rest : List UInt8) :
    Delimited (serializeElements xs ++ rest) := by
  cases xs with
  | nil => exact delimited_cons (by decide) rest
  | cons x xs => exact delimited_cons (by decide) _

theorem serializeMembers_delimited (ms : List (List UInt8 × Json)) (rest : List UInt8) :
    Delimited (serializeMembers ms ++ rest) := by
  cases ms with
  | nil => exact delimited_cons (by decide) rest
  | cons m ms => exact delimited_cons (by decide) _

theorem parseElements_serialize {x : Json} {xs : List Json} (hx : ParsesBack x)
    (hxs : ∀ y ∈ xs, ParsesBack y) {fuel limit : Nat} {rest : List UInt8} (acc : List Json)
    (hfuel : callsElements (x :: xs) ≤ fuel) (hdepth : depthElements (x :: xs) ≤ limit) :
    parseElements fuel limit (serialize x ++ (serializeElements xs ++ rest)) acc =
      some (.arr (acc ++ x :: xs), rest) := by
  induction xs generalizing x fuel acc with
  | nil =>
      rw [callsElements, callsElements] at hfuel
      rw [depthElements, Nat.max_le] at hdepth
      obtain ⟨fuel, rfl⟩ : ∃ k, fuel = k + 1 := ⟨fuel - 1, by omega⟩
      have hvalue := hx fuel limit (serializeElements [] ++ rest) (by omega) hdepth.1
        (serializeElements_delimited [] rest)
      rw [parseElements, hvalue]
      rfl
  | cons y ys ih =>
      rw [callsElements] at hfuel
      rw [depthElements, Nat.max_le] at hdepth
      obtain ⟨fuel, rfl⟩ : ∃ k, fuel = k + 1 := ⟨fuel - 1, by omega⟩
      have hvalue := hx fuel limit (serializeElements (y :: ys) ++ rest) (by omega) hdepth.1
        (serializeElements_delimited (y :: ys) rest)
      have hrest : parseElements fuel limit
          (serialize y ++ (serializeElements ys ++ rest)) (acc ++ [x]) =
          some (.arr ((acc ++ [x]) ++ y :: ys), rest) :=
        ih (hxs y List.mem_cons_self) (fun z hz => hxs z (List.mem_cons_of_mem y hz))
          (acc ++ [x]) (by omega) hdepth.2
      rw [parseElements, hvalue]
      simp only [serializeElements, List.cons_append, List.append_assoc, Option.bind_some]
      rw [skipSpace_cons (by decide)]
      simp only [if_true]
      rw [hrest]
      simp

/-- A new member is read and appended; what follows decides how the object goes on. -/
theorem parseMembers_step {k : List UInt8} {v : Json} (hv : ParsesBack v)
    (ms : List (List UInt8 × Json)) {fuel limit : Nat} (rest : List UInt8)
    {acc : List (List UInt8 × Json)} (hfresh : k ∉ acc.map Prod.fst)
    (hfuel : calls v ≤ fuel) (hdepth : v.depth ≤ limit) :
    parseMembers (fuel + 1) limit
        (stringText k ++ 58 :: (serialize v ++ (serializeMembers ms ++ rest))) acc =
      match skipSpace (serializeMembers ms ++ rest) with
      | [] => none
      | c :: rest =>
          if c = 44 then parseMembers fuel limit rest (acc ++ [(k, v)])
          else if c = 125 then some (.obj (acc ++ [(k, v)]), rest)
          else none := by
  have hvalue := hv fuel limit (serializeMembers ms ++ rest) hfuel hdepth
    (serializeMembers_delimited ms rest)
  have hquote : stringText k ++ 58 :: (serialize v ++ (serializeMembers ms ++ rest)) =
      34 :: (k.flatMap escape ++ 34 :: 58 :: (serialize v ++ (serializeMembers ms ++ rest))) := by
    simp [stringText]
  rw [parseMembers, hquote, expect_cons (by decide), Option.bind_some,
    parseString_stringText, Option.bind_some, expect_cons (by decide), Option.bind_some,
    hvalue, Option.bind_some, setMember_of_not_mem hfresh]

theorem parseMembers_serialize {k : List UInt8} {v : Json} {ms : List (List UInt8 × Json)}
    (hv : ParsesBack v) (hms : ∀ m ∈ ms, ParsesBack m.2) {fuel limit : Nat}
    {rest : List UInt8} {acc : List (List UInt8 × Json)}
    (hkeys : ((acc ++ (k, v) :: ms).map Prod.fst).Nodup)
    (hfuel : callsMembers ((k, v) :: ms) ≤ fuel)
    (hdepth : depthMembers ((k, v) :: ms) ≤ limit) :
    parseMembers fuel limit
        (stringText k ++ 58 :: (serialize v ++ (serializeMembers ms ++ rest))) acc =
      some (.obj (acc ++ (k, v) :: ms), rest) := by
  induction ms generalizing k v fuel acc with
  | nil =>
      have hfresh : k ∉ acc.map Prod.fst := by
        simp only [List.map_append, List.map_cons, List.nodup_append] at hkeys
        exact fun hmem => hkeys.2.2 k hmem k (by simp) rfl
      rw [callsMembers] at hfuel
      rw [depthMembers, Nat.max_le] at hdepth
      obtain ⟨fuel, rfl⟩ : ∃ n, fuel = n + 1 := ⟨fuel - 1, by omega⟩
      rw [parseMembers_step hv [] rest hfresh (by omega) hdepth.1]
      rfl
  | cons m ms ih =>
      obtain ⟨k', v'⟩ := m
      have hfresh : k ∉ acc.map Prod.fst := by
        simp only [List.map_append, List.map_cons, List.nodup_append] at hkeys
        exact fun hmem => hkeys.2.2 k hmem k (by simp) rfl
      rw [callsMembers] at hfuel
      rw [depthMembers, Nat.max_le] at hdepth
      obtain ⟨fuel, rfl⟩ : ∃ n, fuel = n + 1 := ⟨fuel - 1, by omega⟩
      have hassoc : acc ++ (k, v) :: (k', v') :: ms = (acc ++ [(k, v)]) ++ (k', v') :: ms := by
        simp
      rw [hassoc] at hkeys
      have hv' : ParsesBack v' := hms (k', v') List.mem_cons_self
      have hrest : parseMembers fuel limit
          (stringText k' ++ 58 :: (serialize v' ++ (serializeMembers ms ++ rest)))
          (acc ++ [(k, v)]) = some (.obj ((acc ++ [(k, v)]) ++ (k', v') :: ms), rest) :=
        ih hv' (fun m hm => hms m (List.mem_cons_of_mem _ hm)) hkeys (by omega) hdepth.2
      rw [parseMembers_step hv _ rest hfresh (by omega) hdepth.1]
      simp only [serializeMembers, List.cons_append, List.append_assoc]
      rw [skipSpace_cons (by decide)]
      simp only [if_true]
      rw [hassoc]
      exact hrest

/-- No text of a document starts with white space, or with a closing bracket. -/
theorem serialize_head {doc : Json} (h : doc.Plain) :
    ∃ c cs, serialize doc = c :: cs ∧ isSpace c = false ∧ c ≠ 93 := by
  cases h with
  | null => exact ⟨_, _, rfl, by decide, by decide⟩
  | bool b => cases b <;> exact ⟨_, _, rfl, by decide, by decide⟩
  | @int n hn =>
      obtain ⟨d, ds, hcons, hdigit⟩ := natText_head n
      have hd := (isDigit_iff d).mp hdigit
      refine ⟨d, ds, hcons, ?_, ?_⟩
      · simp only [isSpace, Bool.or_eq_false_iff, beq_eq_false_iff_ne]
        refine ⟨⟨⟨?_, ?_⟩, ?_⟩, ?_⟩ <;> rintro rfl <;> exact absurd hd (by decide)
      · rintro rfl
        exact absurd hd (by decide)
  | str s => exact ⟨_, _, rfl, by decide, by decide⟩
  | @arr xs hxs => cases xs <;> exact ⟨_, _, rfl, by decide, by decide⟩
  | @obj ms hkeys hms => cases ms <;> exact ⟨_, _, rfl, by decide, by decide⟩

theorem parseScalar_word {word : List UInt8} {doc : Json} {fuel limit : Nat}
    {c : UInt8} {cs : List UInt8} (hword : word = c :: cs)
    (hspace : isSpace c = false) (hobj : c ≠ 123) (harr : c ≠ 91) (hstr : c ≠ 34)
    {rest : List UInt8} (hscalar : parseScalar (word ++ rest) = some (doc, rest)) :
    parseValue (fuel + 1) limit (word ++ rest) = some (doc, rest) := by
  rw [hword, List.cons_append] at hscalar ⊢
  rw [parseValue, skipSpace_cons hspace]
  simp only [if_neg hobj, if_neg harr, if_neg hstr]
  exact hscalar

/-- Every document takes at least the call that reads it. -/
theorem parsesBack_of_succ {doc : Json}
    (h : ∀ fuel limit rest, calls doc ≤ fuel + 1 → doc.depth ≤ limit → Delimited rest →
      parseValue (fuel + 1) limit (serialize doc ++ rest) = some (doc, rest)) :
    ParsesBack doc := by
  intro fuel limit rest hfuel
  have hcalls : 1 ≤ calls doc := by
    cases doc <;> simp [calls]
  obtain ⟨fuel, rfl⟩ : ∃ n, fuel = n + 1 := ⟨fuel - 1, by omega⟩
  exact h fuel limit rest hfuel

theorem parsesBack_null : ParsesBack .null := by
  apply parsesBack_of_succ
  intro fuel limit rest _ _ _
  exact parseScalar_word rfl (by decide) (by decide) (by decide) (by decide) rfl

theorem parsesBack_bool (b : Bool) : ParsesBack (.bool b) := by
  apply parsesBack_of_succ
  intro fuel limit rest _ _ _
  cases b with
  | true => exact parseScalar_word rfl (by decide) (by decide) (by decide) (by decide) rfl
  | false => exact parseScalar_word rfl (by decide) (by decide) (by decide) (by decide) rfl

theorem parsesBack_int {n : Nat} (h : (Json.int n).Plain) : ParsesBack (.int n) := by
  apply parsesBack_of_succ
  intro fuel limit rest _ _ hrest
  obtain ⟨d, ds, hcons, hdigit⟩ := natText_head n
  have hd := (isDigit_iff d).mp hdigit
  have hne : ∀ c : UInt8, 57 < c.toNat ∨ c.toNat < 48 → d ≠ c := by
    rintro c hc rfl
    omega
  obtain ⟨e, es, hhead, hspace, -⟩ := serialize_head h
  obtain ⟨rfl, -⟩ : d = e ∧ ds = es := by
    have heq : d :: ds = e :: es := hcons.symm.trans hhead
    simpa using heq
  exact parseScalar_word hcons hspace (hne 123 (by decide)) (hne 91 (by decide))
    (hne 34 (by decide)) (parseScalar_natText n hrest)

theorem parsesBack_str (s : List UInt8) : ParsesBack (.str s) := by
  apply parsesBack_of_succ
  intro fuel limit rest _ _ _
  have htext : serialize (.str s) ++ rest = 34 :: (s.flatMap escape ++ 34 :: rest) := by
    simp [serialize, stringText]
  rw [htext, parseValue, skipSpace_cons (by decide)]
  change (parseString _).map _ = _
  rw [parseString_stringText]
  rfl

theorem parsesBack_arr {xs : List Json} (hplain : ∀ x ∈ xs, x.Plain)
    (hxs : ∀ x ∈ xs, ParsesBack x) : ParsesBack (.arr xs) := by
  apply parsesBack_of_succ
  intro fuel limit rest hfuel hdepth hrest
  rw [calls] at hfuel
  rw [depth] at hdepth
  have hlimit : limit ≠ 0 := by omega
  cases xs with
  | nil =>
      change parseValue (fuel + 1) limit (91 :: 93 :: rest) = _
      rw [parseValue, skipSpace_cons (by decide)]
      simp [hlimit, skipSpace_cons (c := 93) (by decide)]
  | cons x xs =>
      obtain ⟨c, cs, hhead, hspace, hclose⟩ := serialize_head (hplain x List.mem_cons_self)
      have helements : parseElements fuel (limit - 1)
          (serialize x ++ (serializeElements xs ++ rest)) [] = some (.arr (x :: xs), rest) :=
        parseElements_serialize (hxs x List.mem_cons_self)
          (fun y hy => hxs y (List.mem_cons_of_mem x hy)) [] (by omega) (by omega)
      simp only [serialize, List.cons_append, List.append_assoc]
      rw [hhead, List.cons_append] at helements ⊢
      rw [parseValue, skipSpace_cons (by decide)]
      simp only [skipSpace_cons hspace, if_neg hlimit, if_neg hclose]
      exact helements

theorem parsesBack_obj {ms : List (List UInt8 × Json)} (hkeys : (ms.map Prod.fst).Nodup)
    (hms : ∀ m ∈ ms, ParsesBack m.2) : ParsesBack (.obj ms) := by
  apply parsesBack_of_succ
  intro fuel limit rest hfuel hdepth hrest
  rw [calls] at hfuel
  rw [depth] at hdepth
  have hlimit : limit ≠ 0 := by omega
  cases ms with
  | nil =>
      change parseValue (fuel + 1) limit (123 :: 125 :: rest) = _
      rw [parseValue, skipSpace_cons (by decide)]
      simp [hlimit, skipSpace_cons (c := 125) (by decide)]
  | cons m ms =>
      obtain ⟨k, v⟩ := m
      have hv : ParsesBack v := hms (k, v) List.mem_cons_self
      have hmembers : parseMembers fuel (limit - 1)
          (stringText k ++ 58 :: (serialize v ++ (serializeMembers ms ++ rest))) [] =
          some (.obj ((k, v) :: ms), rest) :=
        parseMembers_serialize hv (fun m hm => hms m (List.mem_cons_of_mem _ hm))
          (by simpa using hkeys) (by omega) (by omega)
      have htext : serialize (.obj ((k, v) :: ms)) ++ rest =
          123 :: (stringText k ++ 58 :: (serialize v ++ (serializeMembers ms ++ rest))) := by
        simp [serialize]
      obtain ⟨cs, hquote⟩ : ∃ cs, stringText k ++
          58 :: (serialize v ++ (serializeMembers ms ++ rest)) = 34 :: cs := ⟨_, rfl⟩
      rw [htext]
      rw [hquote] at hmembers ⊢
      rw [parseValue, skipSpace_cons (by decide)]
      simp only [skipSpace_cons (c := 34) (by decide), if_neg hlimit, if_true]
      rw [if_neg (by decide)]
      exact hmembers

/-- The parser inverts the serializer on plain documents. -/
theorem Plain.parsesBack {doc : Json} (h : doc.Plain) : ParsesBack doc := by
  induction doc using Json.induction with
  | hnull => exact parsesBack_null
  | hbool b => exact parsesBack_bool b
  | hint n =>
      cases h with
      | int hn => exact parsesBack_int (.int hn)
  | hfloat t => cases h
  | hstr s => exact parsesBack_str s
  | harr xs ih =>
      cases h with
      | arr hxs => exact parsesBack_arr hxs fun x hx => ih x hx (hxs x hx)
  | hobj ms ih =>
      cases h with
      | obj hkeys hms => exact parsesBack_obj hkeys fun m hm => ih m hm (hms m hm)

theorem callsElements_le {xs : List Json}
    (h : ∀ x ∈ xs, calls x ≤ 2 * (serialize x).length) :
    callsElements xs + 2 ≤ 2 * (serializeElements xs).length := by
  induction xs with
  | nil => exact le_rfl
  | cons x xs ih =>
      have hx := h x List.mem_cons_self
      have hxs := ih fun y hy => h y (List.mem_cons_of_mem x hy)
      simp only [callsElements, serializeElements, List.length_cons, List.length_append]
      omega

theorem callsMembers_le {ms : List (List UInt8 × Json)}
    (h : ∀ m ∈ ms, calls m.2 ≤ 2 * (serialize m.2).length) :
    callsMembers ms + 2 ≤ 2 * (serializeMembers ms).length := by
  induction ms with
  | nil => exact le_rfl
  | cons m ms ih =>
      obtain ⟨k, v⟩ := m
      have hv : calls v ≤ 2 * (serialize v).length := h (k, v) List.mem_cons_self
      have hms := ih fun m hm => h m (List.mem_cons_of_mem _ hm)
      simp only [callsMembers, serializeMembers, List.length_cons, List.length_append]
      omega

theorem serialize_pos {doc : Json} (h : doc.Plain) : 0 < (serialize doc).length := by
  obtain ⟨c, cs, hhead, -⟩ := serialize_head h
  simp [hhead]

/-- Twice the length of a text is fuel enough to read it. -/
theorem calls_le {doc : Json} (h : doc.Plain) : calls doc ≤ 2 * (serialize doc).length := by
  have hpos := serialize_pos h
  induction doc using Json.induction with
  | hnull => simp only [calls]; omega
  | hbool b => simp only [calls]; omega
  | hint n => simp only [calls]; omega
  | hfloat t => cases h
  | hstr s => simp only [calls]; omega
  | harr xs ih =>
      cases h with
      | arr hxs =>
          have hall : ∀ x ∈ xs, calls x ≤ 2 * (serialize x).length :=
            fun x hx => ih x hx (hxs x hx) (serialize_pos (hxs x hx))
          cases xs with
          | nil => simp [calls, callsElements, serialize]
          | cons x xs =>
              have hx := hall x List.mem_cons_self
              have hrest := callsElements_le fun y hy => hall y (List.mem_cons_of_mem x hy)
              simp only [calls, callsElements, serialize, List.length_cons, List.length_append]
              omega
  | hobj ms ih =>
      cases h with
      | obj hkeys hms =>
          have hall : ∀ m ∈ ms, calls m.2 ≤ 2 * (serialize m.2).length :=
            fun m hm => ih m hm (hms m hm) (serialize_pos (hms m hm))
          cases ms with
          | nil => simp [calls, callsMembers, serialize]
          | cons m ms =>
              obtain ⟨k, v⟩ := m
              have hv : calls v ≤ 2 * (serialize v).length := hall (k, v) List.mem_cons_self
              have hrest := callsMembers_le fun m hm => hall m (List.mem_cons_of_mem _ hm)
              simp only [calls, callsMembers, serialize, List.length_cons, List.length_append]
              omega

theorem depthElements_le_length {xs : List Json} (h : ∀ x ∈ xs, x.depth ≤ (serialize x).length) :
    depthElements xs ≤ (serializeElements xs).length := by
  induction xs with
  | nil => exact Nat.zero_le _
  | cons x xs ih =>
      have hx := h x List.mem_cons_self
      have hxs := ih fun y hy => h y (List.mem_cons_of_mem x hy)
      simp only [depthElements, serializeElements, List.length_cons, List.length_append]
      omega

theorem depthMembers_le_length {ms : List (List UInt8 × Json)}
    (h : ∀ m ∈ ms, m.2.depth ≤ (serialize m.2).length) :
    depthMembers ms ≤ (serializeMembers ms).length := by
  induction ms with
  | nil => exact Nat.zero_le _
  | cons m ms ih =>
      obtain ⟨k, v⟩ := m
      have hv : v.depth ≤ (serialize v).length := h (k, v) List.mem_cons_self
      have hms := ih fun m hm => h m (List.mem_cons_of_mem _ hm)
      simp only [depthMembers, serializeMembers, List.length_cons, List.length_append]
      omega

/-- A text is at least as long as its document is deep. -/
theorem depth_le_length (doc : Json) : doc.depth ≤ (serialize doc).length := by
  induction doc using Json.induction with
  | hnull => exact Nat.zero_le _
  | hbool b => exact Nat.zero_le _
  | hint n => exact Nat.zero_le _
  | hfloat t => exact Nat.zero_le _
  | hstr s => exact Nat.zero_le _
  | harr xs ih =>
      cases xs with
      | nil => simp [depth, depthElements, serialize]
      | cons x xs =>
          have hx := ih x List.mem_cons_self
          have hrest := depthElements_le_length fun y hy => ih y (List.mem_cons_of_mem x hy)
          simp only [depth, depthElements, serialize, List.length_cons, List.length_append]
          omega
  | hobj ms ih =>
      cases ms with
      | nil => simp [depth, depthMembers, serialize]
      | cons m ms =>
          obtain ⟨k, v⟩ := m
          have hv : v.depth ≤ (serialize v).length := ih (k, v) List.mem_cons_self
          have hrest := depthMembers_le_length fun m hm => ih m (List.mem_cons_of_mem _ hm)
          simp only [depth, depthMembers, serialize, List.length_cons, List.length_append]
          omega

/-- The round trip: a plain document within the ceiling is parsed back. -/
theorem parse_serialize {doc : Json} (h : doc.Plain) {limit : Nat} (hdepth : doc.depth ≤ limit) :
    parse limit (serialize doc) = some doc := by
  have hcalls := calls_le h
  have hvalue := h.parsesBack (2 * (serialize doc).length + 2) limit [] (by omega) hdepth
    (by intro c hc; cases hc)
  rw [List.append_nil] at hvalue
  unfold parse
  rw [hvalue]
  rfl

/-- What a successful parse says: the ceiling was kept, and no key repeats. -/
def Bounded (limit : Nat) (doc : Json) : Prop :=
  doc.depth ≤ limit ∧ doc.Distinct

theorem numberOf_bounded {token : List UInt8} {doc : Json} (limit : Nat)
    (h : numberOf token = some doc) : Bounded limit doc := by
  unfold numberOf at h
  by_cases hint : isDigits token = true
  · rw [if_pos hint, Option.some.injEq] at h
    exact h ▸ ⟨Nat.zero_le _, .int _⟩
  · rw [if_neg hint] at h
    by_cases hneg : token.head? = some 45 ∧ isDigits token.tail = true
    · rw [if_pos hneg, Option.some.injEq] at h
      exact h ▸ ⟨Nat.zero_le _, .int _⟩
    · rw [if_neg hneg] at h
      by_cases hdecimal : isDecimal (if token.head? = some 45 then token.tail else token) = true
      · rw [if_pos hdecimal, Option.some.injEq] at h
        exact h ▸ ⟨Nat.zero_le _, .float _⟩
      · rw [if_neg hdecimal] at h
        cases h

theorem parseScalar_bounded {input rest : List UInt8} {doc : Json} (limit : Nat)
    (h : parseScalar input = some (doc, rest)) : Bounded limit doc := by
  unfold parseScalar at h
  split_ifs at h
  · cases h
    exact ⟨Nat.zero_le _, .null⟩
  · cases h
    exact ⟨Nat.zero_le _, .bool true⟩
  · cases h
    exact ⟨Nat.zero_le _, .bool false⟩
  · obtain ⟨n, hn, heq⟩ := Option.map_eq_some_iff.mp h
    cases heq
    exact numberOf_bounded limit hn

/-- One level of the parser: what holds of the values it reads at this fuel. -/
def ReadsBounded (fuel : Nat) : Prop :=
  ∀ limit input doc rest, parseValue fuel limit input = some (doc, rest) → Bounded limit doc

theorem parseElements_bounded {fuel : Nat} (hread : ∀ k < fuel, ReadsBounded k)
    {limit : Nat} {input rest : List UInt8} {acc : List Json} {doc : Json}
    (hacc : ∀ x ∈ acc, Bounded limit x)
    (h : parseElements fuel limit input acc = some (doc, rest)) : Bounded (limit + 1) doc := by
  induction fuel generalizing input acc with
  | zero => cases h
  | succ fuel ih =>
      rw [parseElements] at h
      obtain ⟨⟨x, after⟩, hx, h⟩ := Option.bind_eq_some_iff.mp h
      have hacc' : ∀ y ∈ acc ++ [x], Bounded limit y := by
        intro y hy
        rcases List.mem_append.mp hy with hy | hy
        · exact hacc y hy
        · rw [List.mem_singleton.mp hy]
          exact hread fuel (Nat.lt_succ_self fuel) limit input x after hx
      cases hskip : skipSpace after with
      | nil => simp [hskip] at h
      | cons c tail =>
          simp only [hskip] at h
          split_ifs at h
          · exact ih (fun k hk => hread k (Nat.lt_succ_of_lt hk)) hacc' h
          · cases h
            refine ⟨?_, .arr fun y hy => (hacc' y hy).2⟩
            rw [depth, Nat.add_comm]
            exact Nat.succ_le_succ ((depthElements_le_iff _ _).mpr fun y hy => (hacc' y hy).1)

theorem parseMembers_bounded {fuel : Nat} (hread : ∀ k < fuel, ReadsBounded k)
    {limit : Nat} {input rest : List UInt8} {acc : List (List UInt8 × Json)} {doc : Json}
    (hkeys : (acc.map Prod.fst).Nodup) (hacc : ∀ m ∈ acc, Bounded limit m.2)
    (h : parseMembers fuel limit input acc = some (doc, rest)) : Bounded (limit + 1) doc := by
  induction fuel generalizing input acc with
  | zero => cases h
  | succ fuel ih =>
      rw [parseMembers] at h
      obtain ⟨quoted, -, h⟩ := Option.bind_eq_some_iff.mp h
      obtain ⟨key, -, h⟩ := Option.bind_eq_some_iff.mp h
      obtain ⟨value, -, h⟩ := Option.bind_eq_some_iff.mp h
      obtain ⟨⟨v, after⟩, hv, h⟩ := Option.bind_eq_some_iff.mp h
      have hkeys' : ((setMember key.1 v acc).map Prod.fst).Nodup := setMember_keys_nodup hkeys
      have hacc' : ∀ m ∈ setMember key.1 v acc, Bounded limit m.2 := by
        intro m hm
        rcases mem_setMember hm with hnew | hold
        · rw [hnew]
          exact hread fuel (Nat.lt_succ_self fuel) limit value v after hv
        · exact hacc m hold
      cases hskip : skipSpace after with
      | nil => simp [hskip] at h
      | cons c tail =>
          simp only [hskip] at h
          split_ifs at h
          · exact ih (fun k hk => hread k (Nat.lt_succ_of_lt hk)) hkeys' hacc' h
          · cases h
            refine ⟨?_, .obj hkeys' fun m hm => (hacc' m hm).2⟩
            rw [depth, Nat.add_comm]
            exact Nat.succ_le_succ ((depthMembers_le_iff _ _).mpr fun m hm => (hacc' m hm).1)

theorem readsBounded (fuel : Nat) : ReadsBounded fuel := by
  induction fuel using Nat.strong_induction_on with
  | _ fuel hread =>
      intro limit input doc rest h
      cases fuel with
      | zero => cases h
      | succ fuel =>
          have hbelow : ∀ k < fuel, ReadsBounded k :=
            fun k hk => hread k (Nat.lt_succ_of_lt hk)
          rw [parseValue] at h
          cases hskip : skipSpace input with
          | nil => simp [hskip] at h
          | cons c tail =>
              simp only [hskip] at h
              by_cases hobj : c = 123
              · rw [if_pos hobj] at h
                by_cases hlimit : limit = 0
                · simp [hlimit] at h
                · obtain ⟨limit, rfl⟩ : ∃ n, limit = n + 1 := ⟨limit - 1, by omega⟩
                  rw [if_neg hlimit, Nat.add_sub_cancel] at h
                  cases hnext : skipSpace tail with
                  | nil => simp [hnext] at h
                  | cons d tail' =>
                      simp only [hnext] at h
                      split_ifs at h
                      · cases h
                        exact ⟨Nat.le_add_left 1 limit, .obj (by simp) (by simp)⟩
                      · exact parseMembers_bounded hbelow (by simp) (by simp) h
              · rw [if_neg hobj] at h
                by_cases harr : c = 91
                · rw [if_pos harr] at h
                  by_cases hlimit : limit = 0
                  · simp [hlimit] at h
                  · obtain ⟨limit, rfl⟩ : ∃ n, limit = n + 1 := ⟨limit - 1, by omega⟩
                    rw [if_neg hlimit, Nat.add_sub_cancel] at h
                    cases hnext : skipSpace tail with
                    | nil => simp [hnext] at h
                    | cons d tail' =>
                        simp only [hnext] at h
                        split_ifs at h
                        · cases h
                          exact ⟨Nat.le_add_left 1 limit, .arr (by simp)⟩
                        · exact parseElements_bounded hbelow (by simp) h
                · rw [if_neg harr] at h
                  by_cases hstr : c = 34
                  · rw [if_pos hstr] at h
                    obtain ⟨s, -, heq⟩ := Option.map_eq_some_iff.mp h
                    cases heq
                    exact ⟨Nat.zero_le _, .str _⟩
                  · rw [if_neg hstr] at h
                    exact parseScalar_bounded limit h

/-- Every parsed document keeps the ceiling and repeats no key. -/
theorem parse_bounded {limit : Nat} {input : List UInt8} {doc : Json}
    (h : parse limit input = some doc) : Bounded limit doc := by
  unfold parse at h
  cases hvalue : parseValue (2 * input.length + 2) limit input with
  | none => simp [hvalue] at h
  | some r =>
      obtain ⟨value, rest⟩ := r
      simp only [hvalue] at h
      split_ifs at h
      cases h
      exact readsBounded _ limit input _ _ hvalue

end Json
