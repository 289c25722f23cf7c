/-
Which strings `base64urlDecode` takes, what it makes of them, and how far encoding its
output again gives the string back.
-/
import RfIrBlaster.Encoding

namespace RfIrBlaster.Runtime

/-- The low bits of the last character that no byte of the output depends on. -/
def unusedBits (length : Nat) : Nat :=
  if length % 4 = 2 then 4 else if length % 4 = 3 then 2 else 0

/-- Six bits, and the alphabet takes them back to their character. -/
theorem dec_some {c : UInt8} {v : Nat} (h : dec c = some v) : v < 64 ∧ kEnc.getD v 0 = c := by
  have hall : (List.range 256).all (fun k => (dec (UInt8.ofNat k)).all fun v =>
      decide (v < 64) && kEnc.getD v 0 == UInt8.ofNat k) = true := by
    decide +kernel
  have hc := List.all_eq_true.mp hall c.toNat (List.mem_range.mpr c.toNat_lt)
  rw [UInt8.ofNat_toNat, h, Option.all_some, Bool.and_eq_true, decide_eq_true_eq] at hc
  exact ⟨hc.1, eq_of_beq hc.2⟩

/-- No two characters stand for the same six bits. -/
theorem dec_inj {c c' : UInt8} {v : Nat} (h : dec c = some v) (h' : dec c' = some v) : c = c' :=
  (dec_some h).2.symm.trans (dec_some h').2

theorem encSextet_eq {n shift : Nat} {c : UInt8} (h : dec c = some (n / 2 ^ shift % 64)) :
    encSextet n shift = c :=
  dec_inj (dec_encSextet n shift) h

/-- `t` is `s` with the unused bits of its last character cleared. -/
def Cleared (s t : Bytes) : Prop :=
  (s.length % 4 = 0 ∧ t = s) ∨
    ∃ front c c' v, s = front ++ [c] ∧ t = front ++ [c'] ∧ dec c = some v ∧
      dec c' = some (v / 2 ^ unusedBits s.length * 2 ^ unusedBits s.length)

theorem Cleared.group {s t : Bytes} (h : Cleared s t) (a b c d : UInt8) :
    Cleared (a :: b :: c :: d :: s) (a :: b :: c :: d :: t) := by
  have hmod : (a :: b :: c :: d :: s).length % 4 = s.length % 4 := by
    simp only [List.length_cons]
    omega
  have hunused : unusedBits (a :: b :: c :: d :: s).length = unusedBits s.length := by
    unfold unusedBits
    rw [hmod]
  rcases h with ⟨hfour, rfl⟩ | ⟨front, x, x', v, rfl, rfl, hx, hx'⟩
  · exact Or.inl ⟨hmod.trans hfour, rfl⟩
  · refine Or.inr ⟨a :: b :: c :: d :: front, x, x', v, rfl, rfl, hx, ?_⟩
    rw [hunused]
    exact hx'

theorem toNat_byte_of (n : Nat) : (UInt8.ofNat n).toNat = n % 256 :=
  UInt8.toNat_ofNat'

/-- A whole group of four is given back as it was. -/
theorem encode_group {a b c d : UInt8} {va vb vc vd : Nat} (ha : dec a = some va)
    (hb : dec b = some vb) (hc : dec c = some vc) (hd : dec d = some vd) (out : Bytes) :
    let v := (va <<< 18) ||| (vb <<< 12) ||| (vc <<< 6) ||| vd
    base64urlEncode
        (UInt8.ofNat (v >>> 16) :: UInt8.ofNat (v >>> 8) :: UInt8.ofNat v :: out) =
      a :: b :: c :: d :: base64urlEncode out := by
  intro v
  have hva := (dec_some ha).1
  have hvb := (dec_some hb).1
  have hvc := (dec_some hc).1
  have hvd := (dec_some hd).1
  have hv : v = va * 2 ^ 18 + vb * 2 ^ 12 + vc * 2 ^ 6 + vd := by
    change (va <<< 18) ||| (vb <<< 12) ||| (vc <<< 6) ||| vd = _
    rw [Nat.shiftLeft_eq va, pack_sextets (k := 12) hvb (by omega),
      pack_sextets (k := 6) hvc (by omega), or_eq_add (k := 6) (by omega) hvd]
  have hword : (UInt8.ofNat (v >>> 16)).toNat <<< 16 ||| (UInt8.ofNat (v >>> 8)).toNat <<< 8 |||
      (UInt8.ofNat v).toNat = v := by
    rw [pack_three (UInt8.toNat_lt _) (UInt8.toNat_lt _)]
    simp only [toNat_byte_of, Nat.shiftRight_eq_div_pow]
    omega
  rw [base64urlEncode]
  simp only [hword]
  rw [encSextet_eq (c := a), encSextet_eq (c := b), encSextet_eq (c := c),
    encSextet_eq (c := d)]
  · rw [hd]
    exact congrArg some (by omega)
  · rw [hc]
    exact congrArg some (by omega)
  · rw [hb]
    exact congrArg some (by omega)
  · rw [ha]
    exact congrArg some (by omega)

/-- Three characters at the end carry two bits too many. -/
theorem encode_three {a b c : UInt8} {va vb vc : Nat} (ha : dec a = some va)
    (hb : dec b = some vb) (hc : dec c = some vc) :
    let v := (va <<< 12) ||| (vb <<< 6) ||| vc
    Cleared [a, b, c] (base64urlEncode [UInt8.ofNat (v >>> 10), UInt8.ofNat (v >>> 2)]) := by
  intro v
  have hva := (dec_some ha).1
  have hvb := (dec_some hb).1
  have hvc := (dec_some hc).1
  have hv : v = va * 2 ^ 12 + vb * 2 ^ 6 + vc := by
    change (va <<< 12) ||| (vb <<< 6) ||| vc = _
    rw [Nat.shiftLeft_eq va, pack_sextets (k := 6) hvb (by omega),
      or_eq_add (k := 6) (by omega) hvc]
  have hword : (UInt8.ofNat (v >>> 10)).toNat <<< 16 ||| (UInt8.ofNat (v >>> 2)).toNat <<< 8 =
      v / 4 * 256 := by
    rw [pack_two (UInt8.toNat_lt _)]
    simp only [toNat_byte_of, Nat.shiftRight_eq_div_pow]
    omega
  have hlast : v / 4 * 256 / 2 ^ 6 % 64 = vc / 4 * 4 := by omega
  have hchar := dec_encSextet (v / 4 * 256) 6
  rw [hlast] at hchar
  rw [base64urlEncode]
  simp only [hword]
  rw [encSextet_eq (c := a), encSextet_eq (c := b)]
  · exact Or.inr ⟨[a, b], c, encSextet (v / 4 * 256) 6, vc, rfl, rfl, hc, hchar⟩
  · rw [hb]
    exact congrArg some (by omega)
  · rw [ha]
    exact congrArg some (by omega)

/-- Two characters at the end carry four. -/
theorem encode_two {a b : UInt8} {va vb : Nat} (ha : dec a = some va) (hb : dec b = some vb) :
    Cleared [a, b] (base64urlEncode [UInt8.ofNat ((va <<< 2) ||| (vb >>> 4))]) := by
  have hva := (dec_some ha).1
  have hvb := (dec_some hb).1
  have hv : (va <<< 2) ||| (vb >>> 4) = va * 4 + vb / 16 := by
    rw [Nat.shiftLeft_eq, Nat.shiftRight_eq_div_pow]
    exact or_eq_add (k := 2) (by omega) (by omega)
  have hword : (UInt8.ofNat ((va <<< 2) ||| (vb >>> 4))).toNat <<< 16 =
      (va * 4 + vb / 16) * 65536 := by
    rw [hv, toNat_byte_of, Nat.shiftLeft_eq]
    omega
  have hlast : (va * 4 + vb / 16) * 65536 / 2 ^ 12 % 64 = vb / 16 * 16 := by omega
  have hchar := dec_encSextet ((va * 4 + vb / 16) * 65536) 12
  rw [hlast] at hchar
  rw [base64urlEncode]
  simp only [hword]
  rw [encSextet_eq (c := a)]
  · exact Or.inr ⟨[a], b, encSextet ((va * 4 + vb / 16) * 65536) 12, vb, rfl, rfl, hb, hchar⟩
  · rw [ha]
    exact congrArg some (by omega)

/-- Decoding succeeds on whole groups, or two or three characters more, of the alphabet. -/
theorem base64urlDecode_isSome_iff (s : Bytes) :
    (base64urlDecode s).isSome = true ↔ (∀ c ∈ s, IsBase64url c) ∧ s.length % 4 ≠ 1 := by
  induction s using base64urlDecode.induct with
  | case1 a b c d rest ih =>
      have hmod : (a :: b :: c :: d :: rest).length % 4 = rest.length % 4 := by
        simp only [List.length_cons]
        omega
      have hgroup : (base64urlDecode (a :: b :: c :: d :: rest)).isSome = true ↔
          (dec a).isSome = true ∧ (dec b).isSome = true ∧ (dec c).isSome = true ∧
            (dec d).isSome = true ∧ (base64urlDecode rest).isSome = true := by
        rw [base64urlDecode]
        rcases dec a with _ | va
        · simp
        rcases dec b with _ | vb
        · simp
        rcases dec c with _ | vc
        · simp
        rcases dec d with _ | vd
        · simp
        rcases base64urlDecode rest with _ | tail
        · simp
        · simp
      rw [hgroup, hmod, ih]
      simp only [List.forall_mem_cons, ← dec_isSome_iff, and_assoc]
  | case2 a b c =>
      simp only [List.forall_mem_cons, ← dec_isSome_iff]
      cases ha : dec a <;> cases hb : dec b <;> cases hc : dec c <;>
        simp [base64urlDecode, ha, hb, hc]
  | case3 a b =>
      simp only [List.forall_mem_cons, ← dec_isSome_iff]
      cases ha : dec a <;> cases hb : dec b <;> simp [base64urlDecode, ha, hb]
  | case4 a => simp [base64urlDecode]
  | case5 => simp [base64urlDecode]

/-- Only characters of the alphabet are decoded. -/
theorem base64urlDecode_bytes {s data : Bytes} (h : base64urlDecode s = some data) :
    ∀ c ∈ s, IsBase64url c :=
  ((base64urlDecode_isSome_iff s).mp (by rw [h]; rfl)).1

/-- The output and what encoding it again gives. -/
theorem base64urlDecode_some {s out : Bytes} (h : base64urlDecode s = some out) :
    out.length = 3 * s.length / 4 ∧ Cleared s (base64urlEncode out) := by
  induction s using base64urlDecode.induct generalizing out with
  | case1 a b c d rest ih =>
      simp only [base64urlDecode, Option.bind_eq_bind, Option.bind_eq_some_iff,
        Option.some.injEq] at h
      obtain ⟨va, ha, vb, hb, vc, hc, vd, hd, tail, htail, rfl⟩ := h
      obtain ⟨hlength, hcleared⟩ := ih htail
      refine ⟨?_, ?_⟩
      · simp only [List.length_cons, hlength]
        omega
      · rw [encode_group ha hb hc hd]
        exact hcleared.group a b c d
  | case2 a b c =>
      simp only [base64urlDecode, Option.bind_eq_bind, Option.bind_eq_some_iff,
        Option.some.injEq] at h
      obtain ⟨va, ha, vb, hb, vc, hc, rfl⟩ := h
      exact ⟨by simp, encode_three ha hb hc⟩
  | case3 a b =>
      simp only [base64urlDecode, Option.bind_eq_bind, Option.bind_eq_some_iff,
        Option.some.injEq] at h
      obtain ⟨va, ha, vb, hb, rfl⟩ := h
      exact ⟨by simp, encode_two ha hb⟩
  | case4 a => cases h
  | case5 =>
      obtain rfl := Option.some.inj h
      exact ⟨rfl, Or.inl ⟨rfl, rfl⟩⟩

theorem Cleared.length {s t : Bytes} (h : Cleared s t) : t.length = s.length := by
  rcases h with ⟨-, rfl⟩ | ⟨front, c, c', v, rfl, rfl, -, -⟩
  · rfl
  · rw [List.length_append, List.length_append]
    rfl

theorem base64urlEncode_length (data : Bytes) :
    (base64urlEncode data).length = (4 * data.length + 2) / 3 := by
  induction data using base64urlEncode.induct with
  | case1 a b c rest ih =>
      simp only [base64urlEncode, List.length_cons, ih]
      omega
  | case2 a b => simp [base64urlEncode]
  | case3 a => simp [base64urlEncode]
  | case4 => rfl

/-- What is encoded is decoded again; and what is decoded is a string of the alphabet
that is encoded again but for its unused bits. -/
theorem base64url_exact :
    (∀ data : Bytes, base64urlDecode (base64urlEncode data) = some data ∧
        (base64urlEncode data).length = (4 * data.length + 2) / 3 ∧
        ∀ c ∈ base64urlEncode data, IsBase64url c) ∧
      ∀ s : Bytes,
        ((base64urlDecode s).isSome = true ↔ (∀ c ∈ s, IsBase64url c) ∧ s.length % 4 ≠ 1) ∧
        ∀ out, base64urlDecode s = some out → out.length = 3 * s.length / 4 ∧
          (base64urlEncode out).length = s.length ∧ Cleared s (base64urlEncode out) := by
  constructor
  · intro data
    refine ⟨base64urlDecode_encode data, base64urlEncode_length data, ?_⟩
    intro c hc
    exact base64urlEncode_bytes data c hc
  · intro s
    refine ⟨base64urlDecode_isSome_iff s, ?_⟩
    intro out hout
    obtain ⟨hlength, hcleared⟩ := base64urlDecode_some hout
    exact ⟨hlength, hcleared.length, hcleared⟩

/-- `AB` has a bit set that no byte holds; it decodes like `AA`. -/
theorem base64url_exact_unused :
    base64urlDecode (ascii "AB") = some [0] ∧ base64urlEncode [0] = ascii "AA" ∧
      Cleared (ascii "AB") (ascii "AA") := by
  have hdecode : base64urlDecode (ascii "AB") = some [0] := by decide
  have hencode : base64urlEncode [0] = ascii "AA" := by decide
  obtain ⟨-, -, hcleared⟩ := (base64url_exact.2 (ascii "AB")).2 [0] hdecode
  rw [hencode] at hcleared
  exact ⟨hdecode, hencode, hcleared⟩

end RfIrBlaster.Runtime
