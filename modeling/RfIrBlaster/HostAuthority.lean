/-
The `Host` headers of the URI grammar against the host that `hostOnly` cuts out of them: the
cut at the first colon keeps a name or an IPv4 literal and breaks an IPv6 literal.
-/
import RfIrBlaster.Ipv4Text
import RfIrBlaster.RequestPolicy

namespace RfIrBlaster.Runtime

/-- Letters, digits and `- . _ ~`. -/
def isUnreserved (c : UInt8) : Bool :=
  (65 ≤ c && c ≤ 90) || (97 ≤ c && c ≤ 122) || Json.isDigit c ||
    c == 45 || c == 46 || c == 95 || c == 126

/-- `! $ & ' ( ) * + , ; =`. -/
def isSubDelim (c : UInt8) : Bool :=
  c == 33 || c == 36 || c == 38 || c == 39 || c == 40 || c == 41 || c == 42 || c == 43 ||
    c == 44 || c == 59 || c == 61

def isHexDigit (c : UInt8) : Bool :=
  Json.isDigit c || (65 ≤ c && c ≤ 70) || (97 ≤ c && c ≤ 102)

/-- A registered name. -/
inductive RegName : Bytes → Prop where
  | nil : RegName []
  | char {c : UInt8} {rest : Bytes} (hc : isUnreserved c = true ∨ isSubDelim c = true)
      (hrest : RegName rest) : RegName (c :: rest)
  | percent {high low : UInt8} {rest : Bytes} (hhigh : isHexDigit high = true)
      (hlow : isHexDigit low = true) (hrest : RegName rest) : RegName (37 :: high :: low :: rest)

/-- One group of an IPv6 address: 1 to 4 hexadecimal digits. -/
structure HexGroup (g : Bytes) : Prop where
  length : 1 ≤ g.length ∧ g.length ≤ 4
  digits : ∀ c ∈ g, isHexDigit c = true

/-- Groups joined by colons, `units` of them. -/
def HexGroups (s : Bytes) (units : Nat) : Prop :=
  ∃ groups : List Bytes, (∀ g ∈ groups, HexGroup g) ∧ s = List.intercalate [58] groups ∧
    units = groups.length

/-- The same with an IPv4 address in the place of the last two groups. -/
def MixedGroups (s : Bytes) (units : Nat) : Prop :=
  ∃ (groups : List Bytes) (ip : UInt32), (∀ g ∈ groups, HexGroup g) ∧
    s = List.intercalate [58] (groups ++ [printIPv4 ip]) ∧ units = groups.length + 2

/-- An IPv6 address: eight groups, or fewer around one `::`. -/
inductive Ipv6Text : Bytes → Prop where
  | full {s : Bytes} (hs : HexGroups s 8 ∨ MixedGroups s 8) : Ipv6Text s
  | elided {front back : Bytes} {n m : Nat} (hfront : HexGroups front n)
      (hback : HexGroups back m ∨ MixedGroups back m) (hfew : n + m ≤ 7) :
      Ipv6Text (front ++ 58 :: 58 :: back)

inductive HostForm where
  | regName
  | ipv4
  | ipv6
deriving DecidableEq, Repr

/-- The host part of an authority. -/
inductive HostText : HostForm → Bytes → Prop where
  | regName {name : Bytes} (hname : RegName name) : HostText .regName name
  | ipv4 (ip : UInt32) : HostText .ipv4 (printIPv4 ip)
  | ipv6 {address : Bytes} (haddress : Ipv6Text address) : HostText .ipv6 (91 :: address ++ [93])

/-- A `Host` header: the host, with or without a port. -/
def HostHeader (header host : Bytes) : Prop :=
  header = host ∨ ∃ port, (∀ c ∈ port, Json.isDigit c = true) ∧ header = host ++ 58 :: port

theorem regName_no_colon {name : Bytes} (h : RegName name) : 58 ∉ name := by
  have hhex : ∀ c, isHexDigit c = true → c ≠ 58 := by
    rintro c hc rfl
    cases hc
  induction h with
  | nil => exact List.not_mem_nil
  | @char c rest hc hrest ih =>
      rw [List.mem_cons, not_or]
      refine ⟨?_, ih⟩
      rintro rfl
      rcases hc with hc | hc <;> cases hc
  | percent hhigh hlow hrest ih =>
      simp only [List.mem_cons, not_or]
      exact ⟨by decide, (hhex _ hhigh).symm, (hhex _ hlow).symm, ih⟩

theorem printIPv4_no_colon (ip : UInt32) : 58 ∉ printIPv4 ip := by
  intro hmem
  have hparse : isIPv4 (printIPv4 ip) = true := by
    rw [isIPv4, parseIPv4_printIPv4]
    rfl
  exact absurd (parseIPv4Scan_bytes hparse 58 hmem) (by decide)

/-- Two or more groups have a colon between them. -/
theorem colon_mem_intercalate {groups : List Bytes} (h : 2 ≤ groups.length) :
    58 ∈ List.intercalate [58] groups := by
  match groups, h with
  | g :: g' :: rest, _ =>
      rw [List.intercalate_cons_cons]
      simp

theorem colon_mem_ipv6 {address : Bytes} (h : Ipv6Text address) : 58 ∈ address := by
  cases h with
  | full hs =>
      rcases hs with ⟨groups, -, rfl, hunits⟩ | ⟨groups, ip, -, rfl, hunits⟩
      · exact colon_mem_intercalate (by omega)
      · apply colon_mem_intercalate
        rw [List.length_append, List.length_singleton]
        omega
  | elided hfront hback hfew => simp

/-- A host without a colon is what is left of its header. -/
theorem hostOnly_header {header host : Bytes} (hheader : HostHeader header host)
    (hcolon : 58 ∉ host) : hostOnly header = host := by
  have hkept : ∀ c ∈ host, decide (c ≠ 58) = true :=
    fun c hc => decide_eq_true fun heq => hcolon (heq ▸ hc)
  rcases hheader with rfl | ⟨port, -, rfl⟩
  · exact hostOnly_eq_self hcolon
  · rw [hostOnly, List.takeWhile_append_of_pos hkept]
    simp

/-- What is left of a header is its host exactly when the host is no IPv6 literal. -/
theorem hostOnly_header_iff {form : HostForm} {header host : Bytes} (hform : HostText form host)
    (hheader : HostHeader header host) : hostOnly header = host ↔ form ≠ .ipv6 := by
  cases hform with
  | regName hname =>
      exact iff_of_true (hostOnly_header hheader (regName_no_colon hname)) (by decide)
  | ipv4 ip =>
      exact iff_of_true (hostOnly_header hheader (printIPv4_no_colon ip)) (by decide)
  | ipv6 haddress =>
      refine iff_of_false (fun heq => ?_) (fun hne => hne rfl)
      apply colon_notMem_hostOnly header
      rw [heq]
      simp [colon_mem_ipv6 haddress]

/-- The upgrade of a plain request keeps the client's host exactly when that is a name or an
IPv4 literal; a loopback peer is served before its scheme is looked at. -/
theorem upgrade_keeps_host_iff (req : Request) (settings : Settings) (form : HostForm)
    (host : Bytes) (hform : HostText form host) (hheader : HostHeader req.host host)
    (hhttps : settings.https = true) (hdomain : settings.canonicalDomain = [])
    (hscheme : effectiveScheme req settings.trustedProxy = .http) :
    evaluate req settings = ⟨.redirect, ascii "https://" ++ host ++ req.target⟩ ↔
      form ≠ .ipv6 ∧ req.isLoopback = false := by
  cases hloop : req.isLoopback with
  | true => simp [hloop]
  | false =>
      have hplain : PlainRefused req settings := ⟨hhttps, hscheme⟩
      have hhost : redirectHost req settings = hostOnly req.host := by
        rw [redirectHost, hdomain]
        rfl
      rw [evaluate_remote hloop, if_pos (Or.inl hplain), redirectScheme, if_pos hplain, hhost,
        ← hostOnly_header_iff hform hheader, Decision.mk.injEq]
      have hcancel : schemeText .https ++ hostOnly req.host ++ req.target =
          ascii "https://" ++ host ++ req.target ↔ hostOnly req.host = host := by
        rw [schemeText, List.append_cancel_right_eq, List.append_cancel_left_eq]
      rw [hcancel]
      simp

/-- A client that typed an IPv4 address and a port. -/
theorem upgrade_keeps_host_address :
    let settings : Settings := { https := true }
    let req : Request := { host := ascii "192.168.1.50:80", target := ascii "/settings?x=1" }
    evaluate req settings = ⟨.redirect, ascii "https://192.168.1.50/settings?x=1"⟩ := by
  intro settings req
  have hheader : HostHeader req.host (printIPv4 3232235826) :=
    Or.inr ⟨ascii "80", List.all_eq_true.mp (by decide), by decide⟩
  exact (upgrade_keeps_host_iff req settings .ipv4 _ (.ipv4 3232235826) hheader rfl rfl rfl).mpr
    ⟨by decide, rfl⟩

/-- A client that typed an IPv6 address is sent to its first group behind an open bracket. -/
theorem upgrade_cuts_ipv6 :
    let settings : Settings := { https := true }
    let req : Request := { host := ascii "[fd12::1]:80", target := ascii "/" }
    HostText .ipv6 (ascii "[fd12::1]") ∧ HostHeader req.host (ascii "[fd12::1]") ∧
      settings.https = true ∧ settings.canonicalDomain = [] ∧
      effectiveScheme req settings.trustedProxy = .http ∧ req.isLoopback = false ∧
      evaluate req settings = ⟨.redirect, ascii "https://[fd12/"⟩ ∧
      evaluate req settings ≠
        ⟨.redirect, ascii "https://" ++ ascii "[fd12::1]" ++ req.target⟩ := by
  intro settings req
  have hgroup : ∀ g : Bytes, (1 ≤ g.length ∧ g.length ≤ 4) →
      (∀ c ∈ g, isHexDigit c = true) → HexGroups g 1 :=
    fun g hlength hdigits => ⟨[g], by simpa using ⟨hlength, hdigits⟩, by simp, rfl⟩
  have haddress : Ipv6Text (ascii "fd12::1") :=
    .elided (hgroup (ascii "fd12") (by decide) (List.all_eq_true.mp (by decide)))
      (Or.inl (hgroup (ascii "1") (by decide) (List.all_eq_true.mp (by decide)))) (by decide)
  exact ⟨.ipv6 haddress, Or.inr ⟨ascii "80", List.all_eq_true.mp (by decide), by decide⟩,
    rfl, rfl, rfl, rfl, by decide, by decide⟩

end RfIrBlaster.Runtime
