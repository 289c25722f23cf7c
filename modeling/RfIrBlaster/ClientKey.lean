/-
The key the login throttle counts under: the socket's peer, or the address a trusted proxy
names in its headers.
-/
import RfIrBlaster.Ipv4Text
import RfIrBlaster.RequestPolicy

namespace RfIrBlaster.Runtime

/-- First comma-separated token, trimmed. -/
def firstHop (s : Bytes) : Bytes :=
  let tok := s.takeWhile (· ≠ 44)
  if tok.all isBlank then [] else trimBlanks tok

def deriveClientKey (peerIpv4 : UInt32) (trustedProxy : Bool)
    (xRealIp xForwardedFor : Bytes) : UInt32 :=
  if trustedProxy then
    let candidate := if !xRealIp.isEmpty then firstHop xRealIp else firstHop xForwardedFor
    -- the address is read only where the parser has written it
    match parseIPv4Into candidate 0 with
    | (true, ip) => ip
    | (false, _) => peerIpv4
  else peerIpv4

/-- `tok` is the text up to the first comma of `s`, without the blanks around it. -/
structure FirstHop (s tok : Bytes) : Prop where
  split : ∃ before after rest, s = before ++ tok ++ after ++ rest ∧
    (∀ c ∈ before, isBlank c = true) ∧ (∀ c ∈ after, isBlank c = true) ∧
      ∀ c ∈ rest.head?, c = 44
  no_comma : 44 ∉ tok
  no_blank_first : ∀ c ∈ tok.head?, isBlank c = false
  no_blank_last : ∀ c ∈ tok.getLast?, isBlank c = false

theorem trimBlanks_spec (s : Bytes) :
    (∃ before after, s = before ++ trimBlanks s ++ after ∧ (∀ c ∈ before, isBlank c = true) ∧
      ∀ c ∈ after, isBlank c = true) ∧
    (∀ c ∈ (trimBlanks s).head?, isBlank c = false) ∧
      ∀ c ∈ (trimBlanks s).getLast?, isBlank c = false := by
  refine ⟨⟨s.takeWhile isBlank, (s.dropWhile isBlank).rtakeWhile isBlank, ?_, ?_, ?_⟩, ?_, ?_⟩
  · rw [trimBlanks, List.append_assoc, List.rdropWhile_append_rtakeWhile,
      List.takeWhile_append_dropWhile]
  · exact fun c hc => List.mem_takeWhile_imp hc
  · exact fun c hc => List.mem_rtakeWhile_imp hc
  · intro c hc
    obtain ⟨tail, htail⟩ := List.rdropWhile_prefix isBlank (s.dropWhile isBlank)
    have hhead : (s.dropWhile isBlank).head? = some c := by
      have hfirst : ((s.dropWhile isBlank).rdropWhile isBlank).head? = some c := hc
      rw [← htail, List.head?_append, hfirst, Option.some_or]
    have hnot := List.head?_dropWhile_not isBlank s
    rw [hhead] at hnot
    simpa using hnot
  · intro c hc
    by_cases hne : trimBlanks s = []
    · rw [hne] at hc
      cases hc
    · have hlast := List.rdropWhile_last_not isBlank (s.dropWhile isBlank) hne
      rw [List.getLast?_eq_some_getLast hne, Option.mem_some] at hc
      rw [← hc]
      exact Bool.eq_false_iff.mpr hlast

theorem trimBlanks_unique {before tok after : Bytes} (hbefore : ∀ c ∈ before, isBlank c = true)
    (hafter : ∀ c ∈ after, isBlank c = true) (hfirst : ∀ c ∈ tok.head?, isBlank c = false)
    (hlast : ∀ c ∈ tok.getLast?, isBlank c = false) :
    trimBlanks (before ++ tok ++ after) = tok := by
  rw [trimBlanks, List.append_assoc, List.dropWhile_append_of_pos hbefore]
  cases htok : tok with
  | nil =>
      rw [List.nil_append, List.dropWhile_eq_nil_iff.mpr hafter, List.rdropWhile_nil]
  | cons c cs =>
      have hc : ¬isBlank c = true := by
        simpa using hfirst c (by rw [htok]; rfl)
      have hlast' : ∀ d ∈ (c :: cs).reverse.head?, ¬isBlank d = true := by
        intro d hd
        rw [List.head?_reverse, ← htok] at hd
        simpa using hlast d hd
      rw [List.cons_append, List.dropWhile_cons_of_neg hc, ← List.cons_append, List.rdropWhile,
        List.reverse_append, List.dropWhile_append_of_pos (by simpa using hafter)]
      obtain ⟨d, ds, hds⟩ := List.exists_cons_of_ne_nil
        (List.reverse_ne_nil_iff.mpr (List.cons_ne_nil c cs))
      rw [hds] at hlast'
      rw [hds, List.dropWhile_cons_of_neg (hlast' d rfl), ← hds, List.reverse_reverse]

theorem firstHop_eq_trimBlanks (s : Bytes) :
    firstHop s = trimBlanks (s.takeWhile (· ≠ 44)) := by
  unfold firstHop
  simp only
  split_ifs with hblank
  · rw [List.all_eq_true] at hblank
    rw [trimBlanks, List.dropWhile_eq_nil_iff.mpr hblank, List.rdropWhile_nil]
  · rfl

/-- The token the source cuts out, and the only one there is. -/
theorem firstHop_iff (s tok : Bytes) : firstHop s = tok ↔ FirstHop s tok := by
  rw [firstHop_eq_trimBlanks]
  constructor
  · rintro rfl
    obtain ⟨⟨before, after, hsplit, hbefore, hafter⟩, hfirst, hlast⟩ :=
      trimBlanks_spec (s.takeWhile (· ≠ 44))
    refine ⟨⟨before, after, s.dropWhile (· ≠ 44), ?_, hbefore, hafter, ?_⟩, ?_, hfirst, hlast⟩
    · rw [← hsplit, List.takeWhile_append_dropWhile]
    · intro c hc
      have hnot := List.head?_dropWhile_not (fun c : UInt8 => decide (c ≠ 44)) s
      have hhead : (s.dropWhile fun c => decide (c ≠ 44)).head? = some c := hc
      rw [hhead] at hnot
      simpa using hnot
    · intro hmem
      have hcut : 44 ∈ s.takeWhile (· ≠ 44) := by
        rw [hsplit]
        exact List.mem_append_left _ (List.mem_append_right _ hmem)
      simpa using List.mem_takeWhile_imp hcut
  · rintro ⟨⟨before, after, rest, rfl, hbefore, hafter, hrest⟩, hcomma, hfirst, hlast⟩
    have hblank : ∀ c, isBlank c = true → decide (c ≠ 44) = true := by
      rintro c hc
      refine decide_eq_true fun heq => ?_
      rw [heq] at hc
      cases hc
    have hcut : (before ++ tok ++ after ++ rest).takeWhile (· ≠ 44) = before ++ tok ++ after := by
      have hfront : ∀ c ∈ before ++ tok ++ after, decide (c ≠ 44) = true := by
        simp only [List.forall_mem_append]
        refine ⟨⟨fun c hc => hblank c (hbefore c hc), fun c hc => ?_⟩,
          fun c hc => hblank c (hafter c hc)⟩
        exact decide_eq_true fun heq => hcomma (heq ▸ hc)
      rw [List.takeWhile_append_of_pos hfront]
      cases rest with
      | nil => simp
      | cons c cs => rw [hrest c rfl]; simp
    rw [hcut, trimBlanks_unique hbefore hafter hfirst hlast]

/-- What `parseIPv4` promises of one text. -/
structure AddressParsed (s : Bytes) (out : UInt32) : Prop where
  taken : (parseIPv4Into s out).1 = true ↔ ∃ a b c d, DottedQuad s a b c d
  written : ∀ a b c d, DottedQuad s a b c d →
    (parseIPv4Into s out).2.toNat = a * 2 ^ 24 + b * 2 ^ 16 + c * 2 ^ 8 + d
  untouched : (parseIPv4Into s out).1 = false → (parseIPv4Into s out).2 = out

/-- What the key is for one peer and the two headers it sends. -/
structure KeyDerived (peer : UInt32) (xRealIp xForwardedFor : Bytes) : Prop where
  one_hop : ∃! tok, FirstHop (if xRealIp ≠ [] then xRealIp else xForwardedFor) tok
  untrusted : deriveClientKey peer false xRealIp xForwardedFor = peer
  named : ∀ tok, FirstHop (if xRealIp ≠ [] then xRealIp else xForwardedFor) tok →
    ∀ a b c d, DottedQuad tok a b c d →
      (deriveClientKey peer true xRealIp xForwardedFor).toNat =
        a * 2 ^ 24 + b * 2 ^ 16 + c * 2 ^ 8 + d
  unnamed : ∀ tok, FirstHop (if xRealIp ≠ [] then xRealIp else xForwardedFor) tok →
    (∀ a b c d, ¬DottedQuad tok a b c d) →
      deriveClientKey peer true xRealIp xForwardedFor = peer

theorem parseIPv4Into_taken {s : Bytes} {a b c d : Nat} (h : DottedQuad s a b c d)
    (out : UInt32) : ∃ ip : UInt32, parseIPv4Into s out = (true, ip) ∧
      ip.toNat = a * 2 ^ 24 + b * 2 ^ 16 + c * 2 ^ 8 + d := by
  have hvalue : (UInt32.ofNat (a * 2 ^ 24 + b * 2 ^ 16 + c * 2 ^ 8 + d)).toNat =
      a * 2 ^ 24 + b * 2 ^ 16 + c * 2 ^ 8 + d := by
    obtain ⟨w, x, y, z, ha, hb, hc, hd, -⟩ := h
    have := ha.small
    have := hb.small
    have := hc.small
    have := hd.small
    rw [UInt32.toNat_ofNat']
    exact Nat.mod_eq_of_lt (by omega)
  refine ⟨_, ?_, hvalue⟩
  rw [parseIPv4Into_eq, (parseIPv4_eq_some_iff s _).mpr ⟨a, b, c, d, h, hvalue⟩]
  rfl

theorem parseIPv4Into_refused {s : Bytes} (h : ∀ a b c d, ¬DottedQuad s a b c d)
    (out : UInt32) : parseIPv4Into s out = (false, out) := by
  rw [parseIPv4Into_eq]
  cases hparse : parseIPv4 s with
  | none => rfl
  | some ip =>
      obtain ⟨a, b, c, d, hquad, -⟩ := (parseIPv4_eq_some_iff s ip).mp hparse
      exact absurd hquad (h a b c d)

theorem addressParsed (s : Bytes) (out : UInt32) : AddressParsed s out := by
  by_cases hquad : ∃ a b c d, DottedQuad s a b c d
  · obtain ⟨a, b, c, d, hquad⟩ := hquad
    obtain ⟨ip, hparse, -⟩ := parseIPv4Into_taken hquad out
    refine ⟨?_, ?_, ?_⟩
    · rw [hparse]
      exact ⟨fun _ => ⟨a, b, c, d, hquad⟩, fun _ => rfl⟩
    · intro a' b' c' d' hquad'
      obtain ⟨ip', hparse', hvalue'⟩ := parseIPv4Into_taken hquad' out
      rw [hparse', hvalue']
    · rw [hparse]
      intro hfalse
      cases hfalse
  · have hnone : ∀ a b c d, ¬DottedQuad s a b c d :=
      fun a b c d h => hquad ⟨a, b, c, d, h⟩
    refine ⟨?_, fun a b c d h => absurd h (hnone a b c d), ?_⟩
    · rw [parseIPv4Into_refused hnone]
      exact ⟨fun h => absurd h Bool.false_ne_true, fun h => absurd h hquad⟩
    · rw [parseIPv4Into_refused hnone]
      exact fun _ => rfl

theorem deriveClientKey_trusted (peer : UInt32) {xRealIp xForwardedFor tok : Bytes}
    (h : FirstHop (if xRealIp ≠ [] then xRealIp else xForwardedFor) tok) :
    deriveClientKey peer true xRealIp xForwardedFor =
      match parseIPv4Into tok 0 with
      | (true, ip) => ip
      | (false, _) => peer := by
  have hcandidate : (if !xRealIp.isEmpty then firstHop xRealIp else firstHop xForwardedFor) =
      tok := by
    rw [← (firstHop_iff _ _).mpr h]
    cases xRealIp <;> rfl
  simp only [deriveClientKey, if_true, hcandidate]

/-- The parser takes exactly the dotted quads, reads every printed address back, and the key
follows a trusted proxy's first hop where it is one and the peer in every other case. -/
theorem clientKey_exact :
    (∀ s out, AddressParsed s out) ∧
      (∀ ip out, parseIPv4Into (printIPv4 ip) out = (true, ip)) ∧
      ∀ peer xRealIp xForwardedFor, KeyDerived peer xRealIp xForwardedFor := by
  refine ⟨addressParsed, ?_, ?_⟩
  · intro ip out
    rw [parseIPv4Into_eq, parseIPv4_printIPv4]
    rfl
  · intro peer xRealIp xForwardedFor
    refine ⟨?_, rfl, ?_, ?_⟩
    · refine ⟨_, (firstHop_iff _ _).mp rfl, ?_⟩
      exact fun tok hhop => ((firstHop_iff _ _).mpr hhop).symm
    · intro tok hhop a b c d hquad
      obtain ⟨ip, hparse, hvalue⟩ := parseIPv4Into_taken hquad 0
      rw [deriveClientKey_trusted peer hhop, hparse]
      exact hvalue
    · intro tok hhop hnone
      rw [deriveClientKey_trusted peer hhop, parseIPv4Into_refused hnone]

end RfIrBlaster.Runtime
