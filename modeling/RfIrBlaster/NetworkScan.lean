/-
The Wi-Fi list of the portal: the scan loop with its filter, its duplicates and its cap, the
escaper of its strings, and the answer the wizard reads the list from.
-/
import RfIrBlaster.FirstSeen
import RfIrBlaster.Onboarding

namespace RfIrBlaster.Onboarding

/-- `%04x`. -/
def hex4 (n : Nat) : Bytes :=
  [Json.hexDigit (n / 4096 % 16), Json.hexDigit (n / 256 % 16), Json.hexDigit (n / 16 % 16),
    Json.hexDigit (n % 16)]

/-- The switch of `appendJsonString`; `buf` has room for six characters. -/
def escapeByte (c : UInt8) : Bytes :=
  if c = 34 then [92, 34]
  else if c = 92 then [92, 92]
  else if c = 10 then [92, 110]
  else if c = 13 then [92, 114]
  else if c = 9 then [92, 116]
  else if c < 32 then (92 :: 117 :: hex4 c.toNat).take 6
  else [c]

def appendJsonString (out s : Bytes) : Bytes :=
  s.foldl (fun out c => out ++ escapeByte c) (out ++ [34]) ++ [34]

/-- The loop over the `n` results of a scan; `n` is negative when there is none. -/
def scanLoop (n : Int) (ssid : Nat → Bytes) (i : Nat) (json : Bytes) (seen : List Bytes) :
    Bytes :=
  if 0 < n ∧ (i : Int) < n ∧ seen.length < 24 then
    let raw := ssid i
    if raw.isEmpty ∨ 32 < raw.length then scanLoop n ssid (i + 1) json seen
    else
      let s := cStr raw
      if s ∈ seen then scanLoop n ssid (i + 1) json seen
      else
        let json := if seen.isEmpty then json else json ++ [44]
        scanLoop n ssid (i + 1) (appendJsonString json s) (seen ++ [s])
  else json
termination_by n.toNat - i

/-- What `scanNetworks` leaves in `g_networksJson`. -/
def scanNetworks (n : Int) (ssid : Nat → Bytes) : Bytes :=
  scanLoop n ssid 0 [91] [] ++ [93]

def handleNetworks (g_networksJson : Bytes) : Bytes :=
  ascii "\x7b\"networks\":" ++ g_networksJson ++ [125]

/-- A name of 1 to 32 bytes. -/
def isUsable (raw : Bytes) : Bool :=
  decide (1 ≤ raw.length ∧ raw.length ≤ 32)

/-- The first at most 24 distinct usable names, in the order they are met. -/
def networksOf (n : Int) (ssid : Nat → Bytes) : List Bytes :=
  (((List.range n.toNat).map ssid).filter isUsable).eraseDups.take 24

def quoted (s : Bytes) : Bytes :=
  34 :: (s.flatMap escapeByte ++ [34])

/-- The elements of the array so far. -/
def listText : List Bytes → Bytes
  | [] => []
  | s :: ss => quoted s ++ ss.flatMap fun t => 44 :: quoted t

theorem appendJsonString_eq (out s : Bytes) : appendJsonString out s = out ++ quoted s := by
  have hfold : ∀ out : Bytes, s.foldl (fun out c => out ++ escapeByte c) out =
      out ++ s.flatMap escapeByte := by
    induction s with
    | nil => simp
    | cons c cs ih =>
        intro out
        rw [List.foldl_cons, ih, List.flatMap_cons, List.append_assoc]
  rw [appendJsonString, hfold, quoted]
  simp

/-- A new element goes behind the others, with a comma unless it is the first. -/
theorem listText_append (seen : List Bytes) (s : Bytes) :
    appendJsonString (if seen.isEmpty then 91 :: listText seen else 91 :: listText seen ++ [44]) s =
      91 :: listText (seen ++ [s]) := by
  rw [appendJsonString_eq]
  cases seen with
  | nil => simp [listText]
  | cons t ts => simp [listText]

/-- The loop has written the names it has seen, and sees those it keeps. -/
theorem scanLoop_eq {n : Int} {ssid : Nat → Bytes} (hnul : ∀ i : Nat, (i : Int) < n → 0 ∉ ssid i)
    (i : Nat) (seen : List Bytes) :
    scanLoop n ssid i (91 :: listText seen) seen = 91 :: listText
      (FirstSeen.collect 24
        (((List.range' i (n.toNat - i)).map ssid).filter isUsable) seen) := by
  induction hk : n.toNat - i generalizing i seen with
  | zero =>
      rw [scanLoop, if_neg (by omega)]
      rfl
  | succ k ih =>
      have hnext := fun seen => ih (i + 1) seen (by omega)
      rw [List.range'_succ, List.map_cons, scanLoop]
      by_cases hroom : seen.length < 24
      · rw [if_pos ⟨by omega, by omega, hroom⟩]
        simp only
        by_cases hskip : (ssid i).isEmpty ∨ 32 < (ssid i).length
        · have hbad : ¬isUsable (ssid i) = true := by
            rw [isUsable, decide_eq_true_eq]
            rcases hskip with hempty | hlong
            · rw [List.isEmpty_iff.mp hempty]
              exact fun h => absurd h.1 (by decide)
            · omega
          rw [if_pos hskip, hnext, List.filter_cons_of_neg hbad]
        · have hgood : isUsable (ssid i) = true := by
            rw [not_or, List.isEmpty_iff, ← List.length_eq_zero_iff] at hskip
            rw [isUsable, decide_eq_true_eq]
            omega
          rw [if_neg hskip, cStr_eq_self (hnul i (by omega)), List.filter_cons_of_pos hgood,
            FirstSeen.collect, if_pos hroom]
          by_cases hold : ssid i ∈ seen
          · rw [if_pos hold, if_pos hold, hnext]
          · rw [if_neg hold, if_neg hold, listText_append, hnext]
      · rw [if_neg (by omega), FirstSeen.collect_full _ hroom]

theorem scanNetworks_eq {n : Int} {ssid : Nat → Bytes}
    (hnul : ∀ i : Nat, (i : Int) < n → 0 ∉ ssid i) :
    scanNetworks n ssid = 91 :: (listText (networksOf n ssid) ++ [93]) := by
  have hloop := scanLoop_eq hnul 0 []
  rw [Nat.sub_zero, ← List.range_eq_range', FirstSeen.collect_nil] at hloop
  rw [scanNetworks]
  change scanLoop n ssid 0 (91 :: listText []) [] ++ [93] = _
  rw [hloop]
  rfl

/-- An escaped byte is read back as that byte. -/
theorem scanString_escapeByte (c : UInt8) (rest acc : Bytes) (high : Nat) :
    Json.scanString (escapeByte c ++ rest) .plain high acc =
      Json.scanString rest .plain high (acc ++ [c]) := by
  unfold escapeByte
  split_ifs with hquote hslash hline hreturn htab hcontrol
  · rw [hquote]
    rfl
  · rw [hslash]
    rfl
  · rw [hline]
    rfl
  · rw [hreturn]
    rfl
  · rw [htab]
    rfl
  · have hlt : c.toNat < 32 := UInt8.lt_iff_toNat_lt.mp hcontrol
    have htext : (92 :: 117 :: hex4 c.toNat).take 6 = 92 :: 117 :: 48 :: 48 ::
        Json.hexDigit (c.toNat / 16) :: Json.hexDigit (c.toNat % 16) :: [] := by
      have hzero : c.toNat / 4096 % 16 = 0 ∧ c.toNat / 256 % 16 = 0 := by omega
      have hsmall : c.toNat / 16 % 16 = c.toNat / 16 := by omega
      rw [hex4, hzero.1, hzero.2, hsmall]
      rfl
    rw [htext]
    exact Json.scanString_control hcontrol rest acc high
  · rw [List.singleton_append, Json.scanString, if_neg hquote, if_neg hslash, if_neg hcontrol]

/-- A quoted name is read back byte for byte, up to its own closing quote. -/
theorem parseString_quoted (s rest : Bytes) :
    Json.parseString (s.flatMap escapeByte ++ 34 :: rest) = some (s, rest) := by
  have hscan : ∀ acc, Json.scanString (s.flatMap escapeByte ++ 34 :: rest) .plain 0 acc =
      some (acc ++ s, rest) := by
    induction s with
    | nil =>
        intro acc
        simp [Json.scanString]
    | cons c cs ih =>
        intro acc
        rw [List.flatMap_cons, List.append_assoc, scanString_escapeByte, ih]
        simp
  rw [Json.parseString, hscan, List.nil_append]

theorem parseValue_quoted (fuel limit : Nat) (s rest : Bytes) :
    Json.parseValue (fuel + 1) limit (quoted s ++ rest) = some (.str s, rest) := by
  have htext : quoted s ++ rest = 34 :: (s.flatMap escapeByte ++ 34 :: rest) := by
    simp [quoted]
  rw [htext, Json.parseValue, Json.skipSpace_cons (by decide)]
  change (Json.parseString _).map _ = _
  rw [parseString_quoted]
  rfl

/-- The elements behind the first are read one a turn, up to the closing bracket. -/
theorem parseElements_listText (limit : Nat) (rest : Bytes) (s : Bytes) (ss : List Bytes)
    {fuel : Nat} (hfuel : ss.length + 2 ≤ fuel) (acc : List Json) :
    Json.parseElements fuel limit
        (quoted s ++ ((ss.flatMap fun t => 44 :: quoted t) ++ 93 :: rest)) acc =
      some (.arr (acc ++ (s :: ss).map .str), rest) := by
  induction ss generalizing s fuel acc with
  | nil =>
      obtain ⟨fuel, rfl⟩ : ∃ k, fuel = k + 2 := ⟨fuel - 2, by rw [List.length_nil] at hfuel; omega⟩
      rw [Json.parseElements, parseValue_quoted]
      rfl
  | cons t ts ih =>
      rw [List.length_cons] at hfuel
      obtain ⟨fuel, rfl⟩ : ∃ k, fuel = k + 2 := ⟨fuel - 2, by omega⟩
      rw [Json.parseElements, parseValue_quoted, List.flatMap_cons]
      simp only [Option.bind_some, List.cons_append, List.append_assoc]
      rw [Json.skipSpace_cons (by decide)]
      simp only [if_true]
      rw [ih t (by omega)]
      simp

theorem parseValue_list (names : List Bytes) {fuel limit : Nat} (hfuel : names.length + 2 ≤ fuel)
    (hlimit : limit ≠ 0) (rest : Bytes) :
    Json.parseValue fuel limit (91 :: (listText names ++ 93 :: rest)) =
      some (.arr (names.map .str), rest) := by
  obtain ⟨fuel, rfl⟩ : ∃ k, fuel = k + 1 := ⟨fuel - 1, by omega⟩
  rw [Json.parseValue, Json.skipSpace_cons (by decide)]
  cases names with
  | nil => simp [listText, hlimit, Json.skipSpace_cons (c := 93) (by decide)]
  | cons s ss =>
      rw [List.length_cons] at hfuel
      have helements := @parseElements_listText (limit - 1) rest s ss fuel (by omega) []
      have htext : listText (s :: ss) ++ 93 :: rest =
          quoted s ++ ((ss.flatMap fun t => 44 :: quoted t) ++ 93 :: rest) := by
        rw [listText, List.append_assoc]
      obtain ⟨cs, hquote⟩ : ∃ cs, quoted s ++ ((ss.flatMap fun t => 44 :: quoted t) ++ 93 :: rest) =
          34 :: cs := ⟨_, rfl⟩
      rw [htext]
      rw [hquote] at helements ⊢
      simp only [Json.skipSpace_cons (c := 34) (by decide), if_neg hlimit, if_true]
      rw [if_neg (by decide), if_neg (by decide)]
      exact helements

/-- An object of one member ends behind its value. -/
theorem parseValue_member {key value rest : Bytes} {doc : Json} {fuel limit : Nat}
    (hlimit : limit ≠ 0)
    (hvalue : Json.parseValue fuel (limit - 1) (value ++ 125 :: rest) =
      some (doc, 125 :: rest)) :
    Json.parseValue (fuel + 2) limit (123 :: (quoted key ++ 58 :: (value ++ 125 :: rest))) =
      some (.obj [(key, doc)], rest) := by
  have htext : quoted key ++ 58 :: (value ++ 125 :: rest) =
      34 :: (key.flatMap escapeByte ++ 34 :: 58 :: (value ++ 125 :: rest)) := by
    simp [quoted]
  rw [Json.parseValue, Json.skipSpace_cons (by decide), htext]
  simp only [Json.skipSpace_cons (c := 34) (by decide), if_neg hlimit, if_true]
  rw [if_neg (by decide), Json.parseMembers, Json.expect_cons (by decide), Option.bind_some,
    parseString_quoted, Option.bind_some, Json.expect_cons (by decide), Option.bind_some,
    hvalue, Option.bind_some, Json.skipSpace_cons (by decide)]
  rfl

theorem length_le_listText (names : List Bytes) : names.length ≤ (listText names).length := by
  cases names with
  | nil => exact Nat.le_refl 0
  | cons s ss =>
      have hrest : ss.length ≤ (ss.flatMap fun t => 44 :: quoted t).length := by
        induction ss with
        | nil => exact Nat.le_refl 0
        | cons t ts ih =>
            rw [List.flatMap_cons, List.length_append, List.length_cons, List.length_cons]
            omega
      rw [listText, quoted, List.length_append, List.length_cons, List.length_cons]
      omega

/-- The list as an RFC 8259 reader of bytes reads it, alone and in the answer. -/
structure NetworkList (n : Int) (ssid : Nat → Bytes) : Prop where
  array : ∀ limit, 1 ≤ limit → Json.parse limit (scanNetworks n ssid) =
    some (.arr ((networksOf n ssid).map .str))
  answer : ∀ limit, 2 ≤ limit → Json.parse limit (handleNetworks (scanNetworks n ssid)) =
    some (.obj [(ascii "networks", .arr ((networksOf n ssid).map .str))])

/-- Whatever names were scanned, the list is the first at most 24 distinct usable ones, each
once and byte for byte, and the object around it is whole. -/
theorem networkList_faithful (n : Int) (ssid : Nat → Bytes)
    (hnul : ∀ i : Nat, (i : Int) < n → 0 ∉ ssid i) : NetworkList n ssid := by
  have hlist := scanNetworks_eq hnul
  have hmany := length_le_listText (networksOf n ssid)
  constructor
  · intro limit hlimit
    have hfuel : (networksOf n ssid).length + 2 ≤ 2 * (scanNetworks n ssid).length + 2 := by
      rw [hlist, List.length_cons, List.length_append]
      omega
    rw [Json.parse, hlist, parseValue_list _ (hlist ▸ hfuel) (by omega)]
    rfl
  · intro limit hlimit
    have htext : handleNetworks (scanNetworks n ssid) =
        123 :: (quoted (ascii "networks") ++ 58 :: (scanNetworks n ssid ++ 125 :: [])) := by
      rw [handleNetworks, List.append_assoc]
      rfl
    have hfuel : (networksOf n ssid).length + 2 ≤
        2 * (handleNetworks (scanNetworks n ssid)).length := by
      rw [htext, hlist]
      simp only [List.length_cons, List.length_append]
      omega
    have hvalue : Json.parseValue (2 * (handleNetworks (scanNetworks n ssid)).length) (limit - 1)
        (scanNetworks n ssid ++ 125 :: []) =
          some (.arr ((networksOf n ssid).map .str), 125 :: []) := by
      have hread := parseValue_list (networksOf n ssid) hfuel
        (by omega : limit - 1 ≠ 0) (125 :: [])
      rw [hlist, List.cons_append, List.append_assoc]
      exact hlist ▸ hread
    rw [Json.parse]
    generalize 2 * (handleNetworks (scanNetworks n ssid)).length = fuel at hvalue ⊢
    rw [htext, parseValue_member (by omega) hvalue]
    rfl

/-- Five results: a hidden network, one name twice, and a name of quotes and control bytes. -/
theorem networkList_faithful_hostile :
    let ssid : Nat → Bytes := fun i =>
      ([[], ascii "home", [34, 93, 44, 10, 8, 92], ascii "home", [195, 169]] : List Bytes).getD i []
    NetworkList 5 ssid ∧
      networksOf 5 ssid = [ascii "home", [34, 93, 44, 10, 8, 92], [195, 169]] := by
  intro ssid
  refine ⟨networkList_faithful 5 ssid ?_, by decide⟩
  intro i hi
  have hall : ∀ i < 5, 0 ∉ ssid i := by decide
  exact hall i (by omega)

end RfIrBlaster.Onboarding
