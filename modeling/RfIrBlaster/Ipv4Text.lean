/-
`parseIPv4` as the nested loop it is: the texts it takes, the address it writes, and the
dotted quads it reads back.
-/
import RfIrBlaster.ConfigValidate
import RfIrBlaster.JsonText

namespace RfIrBlaster

/-- The inner loop: the digits of one octet.  Its value, the count of its digits and the text
behind it; `none` is the return at a fourth digit. -/
def octetLoop : Bytes → Nat → Nat → Option (Nat × Nat × Bytes)
  | [], val, digits => some (val, digits, [])
  | c :: cs, val, digits =>
      if isDigitByte c then
        if 3 < digits + 1 then none
        else octetLoop cs (val * 10 + (c.toNat - 48)) (digits + 1)
      else some (val, digits, c :: cs)

/-- One turn of the outer loop: an octet, shifted into `acc`, and the dot behind it. -/
def quadTurn (s : Bytes) (acc : UInt32) : Option (UInt32 × Bytes) :=
  match octetLoop s 0 0 with
  | none => none
  | some (val, digits, rest) =>
      if digits = 0 ∨ 255 < val then none
      else
        match rest with
        | [] => some ((acc <<< 8) ||| UInt32.ofNat val, [])
        | c :: cs =>
            if c ≠ 46 then none
            else if cs = [] then none
            else some ((acc <<< 8) ||| UInt32.ofNat val, cs)

/-- One octet: 1 to 3 digits of value at most 255. -/
structure OctetText (ds : Bytes) (n : Nat) : Prop where
  length : 1 ≤ ds.length ∧ ds.length ≤ 3
  digits : ∀ c ∈ ds, Json.isDigit c = true
  value : Json.digitsValue ds = n
  small : n ≤ 255

theorem octetLoop_digits {ds rest : Bytes} (hdigits : ∀ c ∈ ds, Json.isDigit c = true)
    (hrest : ∀ c ∈ rest.head?, Json.isDigit c = false) {val digits : Nat}
    (hlong : digits + ds.length ≤ 3) :
    octetLoop (ds ++ rest) val digits =
      some (ds.foldl (fun n c => n * 10 + (c.toNat - 48)) val, digits + ds.length, rest) := by
  induction ds generalizing val digits with
  | nil =>
      cases rest with
      | nil => rfl
      | cons c cs =>
          have hc : isDigitByte c = false := hrest c rfl
          rw [List.nil_append, octetLoop, hc]
          rfl
  | cons c cs ih =>
      rw [List.forall_mem_cons] at hdigits
      rw [List.length_cons] at hlong
      have hc : isDigitByte c = true := hdigits.1
      rw [List.cons_append, octetLoop, if_pos hc, if_neg (by omega), ih hdigits.2 (by omega),
        List.foldl_cons, List.length_cons, Nat.add_assoc, Nat.add_comm 1]

/-- The inner loop stops at the end of the text or in front of a byte that is no digit. -/
theorem octetLoop_split {s rest : Bytes} {val digits val' digits' : Nat}
    (h : octetLoop s val digits = some (val', digits', rest)) (hlong : digits ≤ 3) :
    ∃ ds : Bytes, s = ds ++ rest ∧ (∀ c ∈ ds, Json.isDigit c = true) ∧
      digits' = digits + ds.length ∧ digits' ≤ 3 ∧
      val' = ds.foldl (fun n c => n * 10 + (c.toNat - 48)) val := by
  induction s generalizing val digits with
  | nil =>
      simp only [octetLoop, Option.some.injEq, Prod.mk.injEq] at h
      obtain ⟨rfl, rfl, rfl⟩ := h
      exact ⟨[], rfl, by simp, rfl, hlong, rfl⟩
  | cons c cs ih =>
      rw [octetLoop] at h
      split_ifs at h with hdigit hfourth
      · obtain ⟨ds, hs, hdigits, hcount, hmost, hvalue⟩ := ih h (by omega)
        refine ⟨c :: ds, by rw [hs, List.cons_append], ?_, ?_, hmost, hvalue⟩
        · exact List.forall_mem_cons.mpr ⟨hdigit, hdigits⟩
        · rw [hcount, List.length_cons]
          omega
      · simp only [Option.some.injEq, Prod.mk.injEq] at h
        obtain ⟨rfl, rfl, rfl⟩ := h
        exact ⟨[], rfl, by simp, rfl, hlong, rfl⟩

/-- A turn reads one octet, and the dot behind it when more text follows. -/
theorem quadTurn_iff (s rest : Bytes) (acc acc' : UInt32) :
    quadTurn s acc = some (acc', rest) ↔ ∃ ds n, OctetText ds n ∧
      acc' = (acc <<< 8) ||| UInt32.ofNat n ∧
        ((s = ds ∧ rest = []) ∨ (s = ds ++ 46 :: rest ∧ rest ≠ [])) := by
  constructor
  · intro h
    unfold quadTurn at h
    split at h
    · cases h
    · rename_i val digits behind hscan
      obtain ⟨ds, hs, hdigits, hcount, hmost, hvalue⟩ := octetLoop_split hscan (Nat.zero_le 3)
      split_ifs at h with hbad
      rw [not_or, Nat.not_lt] at hbad
      have hoctet : OctetText ds val :=
        ⟨by omega, hdigits, hvalue.symm, hbad.2⟩
      refine ⟨ds, val, hoctet, ?_⟩
      split at h
      · simp only [Option.some.injEq, Prod.mk.injEq] at h
        rw [List.append_nil] at hs
        exact ⟨h.1.symm, Or.inl ⟨hs, h.2.symm⟩⟩
      · rename_i c cs
        split_ifs at h with hdot hend
        simp only [Option.some.injEq, Prod.mk.injEq] at h
        obtain ⟨hacc, rfl⟩ := h
        rw [not_not] at hdot
        rw [hdot] at hs
        exact ⟨hacc.symm, Or.inr ⟨hs, hend⟩⟩
  · rintro ⟨ds, n, hoctet, rfl, hsplit⟩
    obtain ⟨⟨hone, hthree⟩, hdigits, hvalue, hsmall⟩ := hoctet
    have hfold : ds.foldl (fun n c => n * 10 + (c.toNat - 48)) 0 = n := hvalue
    have hgood : ¬(0 + ds.length = 0 ∨ 255 < n) := by omega
    unfold quadTurn
    rcases hsplit with ⟨rfl, rfl⟩ | ⟨rfl, hrest⟩
    · have hscan := @octetLoop_digits s [] hdigits (by simp) 0 0 (by omega)
      rw [List.append_nil, hfold] at hscan
      rw [hscan]
      exact if_neg hgood
    · have hstop : ∀ c ∈ (46 :: rest : Bytes).head?, Json.isDigit c = false := by
        simp only [List.head?_cons, Option.mem_some, forall_eq']
        decide
      rw [octetLoop_digits hdigits hstop (by omega), hfold]
      simp only [if_neg hgood, if_neg hrest, ne_eq, not_true_eq_false, if_false]

theorem quadTurn_length {s rest : Bytes} {acc acc' : UInt32}
    (h : quadTurn s acc = some (acc', rest)) : s ≠ [] ∧ rest.length < s.length := by
  obtain ⟨ds, n, hoctet, -, hsplit⟩ := (quadTurn_iff s rest acc acc').mp h
  have hone := hoctet.length.1
  have hlength : rest.length < s.length := by
    rcases hsplit with ⟨rfl, rfl⟩ | ⟨rfl, -⟩
    · exact hone
    · rw [List.length_append, List.length_cons]
      omega
  exact ⟨List.ne_nil_of_length_pos (by omega), hlength⟩

/-- The outer loop: `acc` and `parts` when it ends. -/
def quadLoop (s : Bytes) (acc : UInt32) (parts : Nat) : Option (UInt32 × Nat) :=
  if s = [] then some (acc, parts)
  else
    match hturn : quadTurn s acc with
    | none => none
    | some (acc', rest) => quadLoop rest acc' (parts + 1)
termination_by s.length
decreasing_by exact (quadTurn_length hturn).2

/-- The source's `parseIPv4`: what it returns, and `out` as it leaves it. -/
def parseIPv4Into (s : Bytes) (out : UInt32) : Bool × UInt32 :=
  match quadLoop s 0 0 with
  | none => (false, out)
  | some (acc, parts) => if parts ≠ 4 then (false, out) else (true, acc)

theorem quadLoop_nil (acc : UInt32) (parts : Nat) :
    quadLoop [] acc parts = some (acc, parts) := by
  rw [quadLoop, if_pos rfl]

theorem quadLoop_turn {s rest : Bytes} {acc acc' : UInt32}
    (h : quadTurn s acc = some (acc', rest)) (parts : Nat) :
    quadLoop s acc parts = quadLoop rest acc' (parts + 1) := by
  rw [quadLoop, if_neg (quadTurn_length h).1]
  split
  · rename_i hnone
    rw [hnone] at h
    cases h
  · rename_i acc'' rest' hsome
    rw [hsome, Option.some.injEq, Prod.mk.injEq] at h
    rw [h.1, h.2]

theorem quadLoop_stuck {s : Bytes} {acc : UInt32} (hs : s ≠ []) (h : quadTurn s acc = none)
    (parts : Nat) : quadLoop s acc parts = none := by
  rw [quadLoop, if_neg hs]
  split
  · rfl
  · rename_i hsome
    rw [hsome] at h
    cases h

/-- The scan a byte at a time makes the same turns. -/
theorem parseIPv4Scan_octet (s : Bytes) (acc : UInt32) (parts val digits : Nat) :
    parseIPv4Scan s acc parts val digits =
      match octetLoop s val digits with
      | none => none
      | some (val, digits, rest) =>
          if digits = 0 ∨ 255 < val then none
          else
            match rest with
            | [] =>
                if parts + 1 = 4 then some ((acc <<< 8) ||| UInt32.ofNat val) else none
            | c :: cs =>
                if c ≠ 46 then none
                else if cs = [] then none
                else parseIPv4Scan cs ((acc <<< 8) ||| UInt32.ofNat val) (parts + 1) 0 0 := by
  induction s generalizing val digits with
  | nil => rfl
  | cons c cs ih =>
      rw [parseIPv4Scan, octetLoop]
      by_cases hdigit : isDigitByte c = true
      · rw [if_pos hdigit, if_pos hdigit]
        by_cases hlong : 3 < digits + 1
        · rw [if_pos hlong, if_pos hlong]
        · rw [if_neg hlong, if_neg hlong]
          exact ih _ _
      · rw [if_neg hdigit, if_neg hdigit]

theorem parseIPv4Scan_turn (s : Bytes) (acc : UInt32) (parts : Nat) :
    parseIPv4Scan s acc parts 0 0 =
      match quadTurn s acc with
      | none => none
      | some (acc', []) => if parts + 1 = 4 then some acc' else none
      | some (acc', c :: cs) => parseIPv4Scan (c :: cs) acc' (parts + 1) 0 0 := by
  rw [parseIPv4Scan_octet]
  unfold quadTurn
  cases octetLoop s 0 0 with
  | none => rfl
  | some read =>
      obtain ⟨val, digits, rest⟩ := read
      by_cases hbad : digits = 0 ∨ 255 < val
      · simp only [if_pos hbad]
      · simp only [if_neg hbad]
        match rest with
        | [] => rfl
        | [c] => by_cases hdot : c = 46 <;> simp [hdot]
        | c :: c' :: cs => by_cases hdot : c = 46 <;> simp [hdot]

/-- How the loop's end is turned into an answer. -/
def quadEnd : Option (UInt32 × Nat) → Option UInt32
  | none => none
  | some (acc, parts) => if parts ≠ 4 then none else some acc

theorem parseIPv4Scan_eq_quadLoop {s : Bytes} (hs : s ≠ []) (acc : UInt32) (parts : Nat) :
    parseIPv4Scan s acc parts 0 0 = quadEnd (quadLoop s acc parts) := by
  induction hn : s.length using Nat.strong_induction_on generalizing s acc parts with
  | _ n ih =>
      rw [parseIPv4Scan_turn]
      cases hturn : quadTurn s acc with
      | none => rw [quadLoop_stuck hs hturn, quadEnd]
      | some read =>
          obtain ⟨acc', rest⟩ := read
          rw [quadLoop_turn hturn]
          cases rest with
          | nil =>
              simp only [quadLoop_nil, quadEnd, ne_eq, ite_not]
          | cons c cs =>
              simp only
              exact ih _ (hn ▸ (quadTurn_length hturn).2) (List.cons_ne_nil c cs) acc' _ rfl

/-- The nested loop and the scan of the validator give the same answers. -/
theorem parseIPv4Into_eq (s : Bytes) (out : UInt32) :
    parseIPv4Into s out = ((parseIPv4 s).isSome, (parseIPv4 s).getD out) := by
  have hloop : parseIPv4 s = quadEnd (quadLoop s 0 0) := by
    by_cases hs : s = []
    · rw [hs, quadLoop_nil]
      rfl
    · exact parseIPv4Scan_eq_quadLoop hs 0 0
  rw [hloop, parseIPv4Into]
  cases quadLoop s 0 0 with
  | none => rfl
  | some read =>
      obtain ⟨acc, parts⟩ := read
      simp only [quadEnd]
      split_ifs <;> rfl

/-- Octets shifted into an address. -/
def shiftOctets (acc : UInt32) (ns : List Nat) : UInt32 :=
  ns.foldl (fun acc n => (acc <<< 8) ||| UInt32.ofNat n) acc

/-- The octets of a text, with single dots between them. -/
structure OctetsText (s : Bytes) (octets : List (Bytes × Nat)) : Prop where
  some_octet : octets ≠ []
  each : ∀ o ∈ octets, OctetText o.1 o.2
  joined : s = List.intercalate [46] (octets.map Prod.fst)

theorem OctetsText.single {ds : Bytes} {n : Nat} (h : OctetText ds n) :
    OctetsText ds [(ds, n)] :=
  ⟨List.cons_ne_nil _ _, by simpa using h, by simp⟩

theorem OctetsText.cons {ds rest : Bytes} {n : Nat} {octets : List (Bytes × Nat)}
    (h : OctetText ds n) (hrest : OctetsText rest octets) :
    OctetsText (ds ++ 46 :: rest) ((ds, n) :: octets) where
  some_octet := List.cons_ne_nil _ _
  each := List.forall_mem_cons.mpr ⟨h, hrest.each⟩
  joined := by
    rw [hrest.joined, List.map_cons,
      List.intercalate_cons_of_ne_nil (by simpa using hrest.some_octet)]
    simp

/-- A text of octets is one octet, or one in front of a dot and others. -/
theorem OctetsText.cases {s : Bytes} {o : Bytes × Nat} {octets : List (Bytes × Nat)}
    (h : OctetsText s (o :: octets)) :
    OctetText o.1 o.2 ∧ ((octets = [] ∧ s = o.1) ∨
      ∃ rest, OctetsText rest octets ∧ s = o.1 ++ 46 :: rest) := by
  obtain ⟨hfirst, hall⟩ := List.forall_mem_cons.mp h.each
  refine ⟨hfirst, ?_⟩
  by_cases hlast : octets = []
  · refine Or.inl ⟨hlast, ?_⟩
    rw [h.joined, hlast, List.map_singleton, List.intercalate_singleton]
  · refine Or.inr ⟨_, ⟨hlast, hall, rfl⟩, ?_⟩
    rw [h.joined, List.map_cons, List.intercalate_cons_of_ne_nil (by simpa using hlast)]
    simp

theorem OctetsText.ne_nil {s : Bytes} {octets : List (Bytes × Nat)} (h : OctetsText s octets) :
    s ≠ [] := by
  cases octets with
  | nil => exact absurd rfl h.some_octet
  | cons o octets =>
      obtain ⟨hfirst, ⟨-, rfl⟩ | ⟨rest, -, rfl⟩⟩ := h.cases
      · exact List.ne_nil_of_length_pos hfirst.length.1
      · simp

/-- What the loop has read when it runs to its end. -/
theorem octets_of_quadLoop {s : Bytes} (hs : s ≠ []) {acc acc' : UInt32} {parts parts' : Nat}
    (h : quadLoop s acc parts = some (acc', parts')) : ∃ octets, OctetsText s octets ∧
      acc' = shiftOctets acc (octets.map Prod.snd) ∧ parts' = parts + octets.length := by
  induction hn : s.length using Nat.strong_induction_on generalizing s acc parts with
  | _ n ih =>
      cases hturn : quadTurn s acc with
      | none =>
          rw [quadLoop_stuck hs hturn] at h
          cases h
      | some read =>
          obtain ⟨acc₁, rest⟩ := read
          rw [quadLoop_turn hturn] at h
          obtain ⟨ds, n, hoctet, hacc, hsplit⟩ := (quadTurn_iff s rest acc acc₁).mp hturn
          rcases hsplit with ⟨rfl, rfl⟩ | ⟨hsplit, hrest⟩
          · rw [quadLoop_nil, Option.some.injEq, Prod.mk.injEq] at h
            refine ⟨[(s, n)], .single hoctet, ?_, h.2.symm⟩
            rw [← h.1, hacc]
            rfl
          · obtain ⟨octets, htext, hshift, hcount⟩ :=
              ih _ (hn ▸ (quadTurn_length hturn).2) hrest h rfl
            refine ⟨(ds, n) :: octets, hsplit ▸ htext.cons hoctet, ?_, ?_⟩
            · rw [hshift, hacc]
              rfl
            · rw [hcount, List.length_cons]
              omega

/-- The loop runs to its end on octets with single dots between them. -/
theorem quadLoop_octets {s : Bytes} {octets : List (Bytes × Nat)} (h : OctetsText s octets)
    (acc : UInt32) (parts : Nat) :
    quadLoop s acc parts =
      some (shiftOctets acc (octets.map Prod.snd), parts + octets.length) := by
  induction octets generalizing s acc parts with
  | nil => exact absurd rfl h.some_octet
  | cons o octets ih =>
      obtain ⟨ds, n⟩ := o
      obtain ⟨hfirst, ⟨rfl, rfl⟩ | ⟨rest, hrest, rfl⟩⟩ := h.cases
      · have hturn : quadTurn s acc = some ((acc <<< 8) ||| UInt32.ofNat n, []) :=
          (quadTurn_iff _ _ _ _).mpr ⟨s, n, hfirst, rfl, Or.inl ⟨rfl, rfl⟩⟩
        rw [quadLoop_turn hturn, quadLoop_nil]
        rfl
      · have hturn : quadTurn (ds ++ 46 :: rest) acc =
            some ((acc <<< 8) ||| UInt32.ofNat n, rest) :=
          (quadTurn_iff _ _ _ _).mpr ⟨ds, n, hfirst, rfl, Or.inr ⟨rfl, hrest.ne_nil⟩⟩
        rw [quadLoop_turn hturn, ih hrest, List.length_cons, Nat.add_right_comm parts 1,
          Nat.add_assoc parts]
        rfl

/-- Four octets of values `a`, `b`, `c` and `d`, joined by three dots. -/
def DottedQuad (s : Bytes) (a b c d : Nat) : Prop :=
  ∃ w x y z, OctetText w a ∧ OctetText x b ∧ OctetText y c ∧ OctetText z d ∧
    s = w ++ 46 :: (x ++ 46 :: (y ++ 46 :: z))

theorem toNat_shiftOctet (acc : UInt32) {n : Nat} (hn : n ≤ 255) :
    ((acc <<< 8) ||| UInt32.ofNat n).toNat = acc.toNat % 2 ^ 24 * 2 ^ 8 + n := by
  have hshift : acc.toNat <<< 8 % 2 ^ 32 = (acc.toNat % 2 ^ 24) <<< 8 := by
    rw [Nat.shiftLeft_eq, Nat.shiftLeft_eq]
    omega
  rw [UInt32.toNat_or, UInt32.toNat_shiftLeft, UInt32.toNat_ofNat',
    Nat.mod_eq_of_lt (by omega : n < 2 ^ 32)]
  change acc.toNat <<< 8 % 2 ^ 32 ||| n = _
  rw [hshift, ← Nat.shiftLeft_add_eq_or_of_lt (by omega), Nat.shiftLeft_eq]

theorem toNat_shiftOctets {a b c d : Nat} (ha : a ≤ 255) (hb : b ≤ 255) (hc : c ≤ 255)
    (hd : d ≤ 255) :
    (shiftOctets 0 [a, b, c, d]).toNat = a * 2 ^ 24 + b * 2 ^ 16 + c * 2 ^ 8 + d := by
  simp only [shiftOctets, List.foldl_cons, List.foldl_nil]
  rw [toNat_shiftOctet _ hd, toNat_shiftOctet _ hc, toNat_shiftOctet _ hb,
    toNat_shiftOctet _ ha, UInt32.toNat_zero]
  omega

/-- The address of a text: exactly the dotted quads have one, and it is theirs. -/
theorem parseIPv4_eq_some_iff (s : Bytes) (ip : UInt32) :
    parseIPv4 s = some ip ↔ ∃ a b c d, DottedQuad s a b c d ∧
      ip.toNat = a * 2 ^ 24 + b * 2 ^ 16 + c * 2 ^ 8 + d := by
  by_cases hs : s = []
  · rw [hs]
    constructor
    · intro h
      cases h
    · rintro ⟨a, b, c, d, ⟨w, x, y, z, -, -, -, -, hsplit⟩, -⟩
      simp at hsplit
  · have hloop : parseIPv4 s = quadEnd (quadLoop s 0 0) := parseIPv4Scan_eq_quadLoop hs 0 0
    have hend : quadEnd (quadLoop s 0 0) = some ip ↔ quadLoop s 0 0 = some (ip, 4) := by
      cases quadLoop s 0 0 with
      | none => simp [quadEnd]
      | some read =>
          obtain ⟨acc, parts⟩ := read
          simp only [quadEnd, Option.some.injEq, Prod.mk.injEq]
          split_ifs with hparts <;> simp_all
    rw [hloop, hend]
    constructor
    · intro hread
      obtain ⟨octets, ⟨-, hall, hjoin⟩, hshift, hcount⟩ := octets_of_quadLoop hs hread
      obtain ⟨⟨w, a⟩, ⟨x, b⟩, ⟨y, c⟩, ⟨z, d⟩, rfl⟩ : ∃ o₁ o₂ o₃ o₄, octets = [o₁, o₂, o₃, o₄] :=
        List.length_eq_four.mp (by omega)
      simp only [List.forall_mem_cons] at hall
      obtain ⟨ha, hb, hc, hd, -⟩ := hall
      refine ⟨a, b, c, d, ⟨w, x, y, z, ha, hb, hc, hd, ?_⟩, ?_⟩
      · rw [hjoin]
        simp [List.intercalate]
      · rw [hshift]
        exact toNat_shiftOctets ha.small hb.small hc.small hd.small
    · rintro ⟨a, b, c, d, ⟨w, x, y, z, ha, hb, hc, hd, hsplit⟩, haddr⟩
      have htext : OctetsText s [(w, a), (x, b), (y, c), (z, d)] := by
        rw [hsplit]
        exact (((OctetsText.single hd).cons hc).cons hb).cons ha
      have haddress : ip = shiftOctets 0 [a, b, c, d] := by
        apply UInt32.toNat_inj.mp
        rw [haddr]
        exact (toNat_shiftOctets ha.small hb.small hc.small hd.small).symm
      rw [quadLoop_octets htext, haddress]
      rfl

/-- An address in dotted quads. -/
def printIPv4 (ip : UInt32) : Bytes :=
  List.intercalate [46] (([24, 16, 8, 0] : List Nat).map fun k =>
    Json.natText (ip.toNat / 2 ^ k % 2 ^ 8))

theorem octetText_natText {n : Nat} (hn : n ≤ 255) : OctetText (Json.natText n) n where
  length := ⟨List.length_pos_of_ne_nil (Json.natText_ne_nil n),
    @Json.natText_length n 2 (by omega)⟩
  digits := Json.natTextAux_digits n n
  value := Json.natText_value n
  small := hn

/-- Every address is read back from its dotted quad. -/
theorem parseIPv4_printIPv4 (ip : UInt32) : parseIPv4 (printIPv4 ip) = some ip := by
  have hbyte : ∀ k,
      OctetText (Json.natText (ip.toNat / 2 ^ k % 2 ^ 8)) (ip.toNat / 2 ^ k % 2 ^ 8) :=
    fun k => octetText_natText (Nat.le_of_lt_succ (Nat.mod_lt _ (by decide)))
  refine (parseIPv4_eq_some_iff _ _).mpr ⟨_, _, _, _,
    ⟨_, _, _, _, hbyte 24, hbyte 16, hbyte 8, hbyte 0, ?_⟩, ?_⟩
  · simp [printIPv4, List.intercalate]
  · have hlt := ip.toNat_lt
    omega

theorem DottedQuad.length_le {s : Bytes} {a b c d : Nat} (h : DottedQuad s a b c d) :
    s.length ≤ 15 := by
  obtain ⟨w, x, y, z, hw, hx, hy, hz, rfl⟩ := h
  have := hw.length.2
  have := hx.length.2
  have := hy.length.2
  have := hz.length.2
  simp only [List.length_append, List.length_cons]
  omega

end RfIrBlaster
