/-
The canonical domain: the index loop of `isValidHostname`, the grammar `validate` takes and
what it reports of every other text, and the redirect location a domain stands in.
-/
import RfIrBlaster.HostPattern
import RfIrBlaster.Ipv4Text
import RfIrBlaster.RequestPolicy

namespace RfIrBlaster

/-- The checks on the label `h[start..i)`; `none` is a read outside of `h`. -/
def labelCheck (h : Bytes) (start i : Nat) : Option Bool :=
  let len := i - start
  if len = 0 ∨ maxLabelLen < len then some false
  else
    match h[start]?, h[i - 1]? with
    | some first, some last =>
        if first = 45 ∨ last = 45 then some false
        else some (((h.drop start).take len).all isLabelByte)
    | _, _ => none

/-- The loop of `isValidHostname` over the indices of `h`, its end included. -/
def hostnameScan (h : Bytes) (start i : Nat) : Option Bool :=
  if i ≤ h.length then
    if i = h.length ∨ h[i]? = some 46 then
      match labelCheck h start i with
      | some true => hostnameScan h (i + 1) (i + 1)
      | answer => answer
    else hostnameScan h start (i + 1)
  else some true
termination_by h.length + 1 - i

/-- Within the text the checks read no further than the label. -/
theorem labelCheck_eq {h : Bytes} {start i : Nat} (hle : start ≤ i) (hi : i ≤ h.length) :
    labelCheck h start i = some (isValidLabel ((h.drop start).take (i - start))) := by
  have hlen : ((h.drop start).take (i - start)).length = i - start := by
    rw [List.length_take, List.length_drop]
    omega
  unfold labelCheck
  by_cases hbad : i - start = 0 ∨ maxLabelLen < i - start
  · rw [if_pos hbad]
    refine congrArg some (Eq.symm (Bool.eq_false_iff.mpr fun hvalid => ?_))
    obtain ⟨hne, hmost, -⟩ := (isValidLabel_iff _).mp hvalid
    rw [hlen] at hmost
    have hpos := List.length_pos_of_ne_nil hne
    omega
  · rw [if_neg hbad]
    rw [not_or] at hbad
    obtain ⟨first, hfirst⟩ : ∃ first, h[start]? = some first :=
      ⟨_, List.getElem?_eq_getElem (by omega)⟩
    obtain ⟨last, hlast⟩ : ∃ last, h[i - 1]? = some last :=
      ⟨_, List.getElem?_eq_getElem (by omega)⟩
    have hhead : ((h.drop start).take (i - start)).head? = some first := by
      rw [List.head?_take, if_neg hbad.1, List.head?_drop, hfirst]
    have hback : ((h.drop start).take (i - start)).getLast? = some last := by
      rw [List.getLast?_eq_getElem?, hlen, List.getElem?_take_of_lt (by omega),
        List.getElem?_drop, ← hlast]
      congr 1
      omega
    rw [hfirst, hlast]
    simp only
    split_ifs with hdash
    · refine congrArg some (Eq.symm (Bool.eq_false_iff.mpr fun hvalid => ?_))
      obtain ⟨-, -, hfront, hend, -⟩ := (isValidLabel_iff _).mp hvalid
      rw [hhead] at hfront
      rw [hback] at hend
      rcases hdash with rfl | rfl
      · exact hfront rfl
      · exact hend rfl
    · rw [not_or] at hdash
      have hne : ((h.drop start).take (i - start)).isEmpty = false := by
        rw [List.isEmpty_eq_false_iff]
        exact List.ne_nil_of_length_pos (by omega)
      simp [isValidLabel, hne, hlen, Nat.not_lt.mp hbad.2, hhead, hback, hdash]

/-- The index loop reads nothing outside the text, and answers as the loop over its bytes. -/
theorem hostnameScan_eq {h : Bytes} {start i : Nat} (hle : start ≤ i) (hi : i ≤ h.length) :
    hostnameScan h start i =
      some (hostnameLoop (h.drop i) ((h.drop start).take (i - start))) := by
  induction hn : h.length - i generalizing start i with
  | zero =>
      have hend : i = h.length := by omega
      rw [hostnameScan, if_pos hi, if_pos (Or.inl hend), labelCheck_eq hle hi, hend,
        List.drop_length, hostnameLoop]
      cases isValidLabel ((h.drop start).take (h.length - start)) with
      | false => rfl
      | true =>
          rw [hostnameScan, if_neg (by omega)]
  | succ n ih =>
      have hlt : i < h.length := by omega
      have hsplit : h.drop i = h[i] :: h.drop (i + 1) := List.drop_eq_getElem_cons hlt
      rw [hostnameScan, if_pos hi, hsplit, hostnameLoop]
      by_cases hdot : h[i] = 46
      · rw [if_pos (Or.inr (by rw [List.getElem?_eq_getElem hlt, hdot])), labelCheck_eq hle hi,
          if_pos hdot]
        cases isValidLabel ((h.drop start).take (i - start)) with
        | false => rfl
        | true =>
            have hnext := ih (Nat.le_refl (i + 1)) hlt (by omega)
            rw [Nat.sub_self, List.take_zero] at hnext
            simpa using hnext
      · have hinside : ¬(i = h.length ∨ h[i]? = some 46) := by
          rw [List.getElem?_eq_getElem hlt, Option.some.injEq, not_or]
          exact ⟨by omega, hdot⟩
        have htake : (h.drop start).take (i + 1 - start) =
            (h.drop start).take (i - start) ++ [h[i]] := by
          have hwithin : i - start < (h.drop start).length := by
            rw [List.length_drop]
            omega
          rw [Nat.succ_sub hle, List.take_succ_eq_append_getElem hwithin, List.getElem_drop]
          simp only [Nat.add_sub_cancel' hle]
        rw [if_neg hinside, if_neg hdot, ih (by omega) hlt (by omega), htake]

/-- `isValidHostname` by its index loop. -/
theorem isValidHostname_scan (s : Bytes) :
    some (isValidHostname s) =
      let h := if s.getLast? = some 46 then s.dropLast else s
      if h.isEmpty then some false else hostnameScan h 0 0 := by
  unfold isValidHostname
  simp only
  generalize (if s.getLast? = some 46 then s.dropLast else s) = h
  split_ifs with hempty
  · rfl
  · rw [hostnameScan_eq (Nat.le_refl 0) (Nat.zero_le _)]
    rfl

/-- One label: 1 to 63 letters, digits and hyphens, with no hyphen at either end. -/
structure DomainLabel (label : Bytes) : Prop where
  length : 1 ≤ label.length ∧ label.length ≤ 63
  bytes : ∀ c ∈ label, isLabelByte c = true
  first : label.head? ≠ some 45
  last : label.getLast? ≠ some 45

/-- One or more labels with single dots between them, and at most one dot behind. -/
def DomainText (d : Bytes) : Prop :=
  ∃ labels : List Bytes, labels ≠ [] ∧ (∀ label ∈ labels, DomainLabel label) ∧
    (d = List.intercalate [46] labels ∨ d = List.intercalate [46] labels ++ [46])

theorem domainLabel_iff (label : Bytes) : DomainLabel label ↔ isValidLabel label = true := by
  rw [isValidLabel_iff]
  constructor
  · rintro ⟨hlength, hbytes, hfirst, hlast⟩
    exact ⟨List.ne_nil_of_length_pos hlength.1, hlength.2, hfirst, hlast, hbytes⟩
  · rintro ⟨hne, hmost, hfirst, hlast, hbytes⟩
    exact ⟨⟨List.length_pos_of_ne_nil hne, hmost⟩, hbytes, hfirst, hlast⟩

theorem intercalate_dots (first : Bytes) (rest : List Bytes) :
    List.intercalate [46] (first :: rest) = first ++ rest.flatMap fun l => 46 :: l := by
  induction rest generalizing first with
  | nil => simp
  | cons l rest ih =>
      rw [List.intercalate_cons_cons, ih]
      simp

/-- The byte loop takes the labels with single dots between them. -/
theorem hostnameLoop_iff_labels (s : Bytes) :
    hostnameLoop s [] = true ↔ ∃ labels : List Bytes, labels ≠ [] ∧
      (∀ label ∈ labels, DomainLabel label) ∧ s = List.intercalate [46] labels := by
  rw [hostnameLoop_iff s [] List.not_mem_nil, List.nil_append]
  constructor
  · rintro ⟨first, rest, hfirst, hrest, hsplit⟩
    refine ⟨first :: rest, List.cons_ne_nil _ _, ?_, hsplit.trans (intercalate_dots _ _).symm⟩
    rw [List.forall_mem_cons]
    exact ⟨(domainLabel_iff _).mpr hfirst, fun l hl => (domainLabel_iff l).mpr (hrest l hl)⟩
  · rintro ⟨labels, hne, hall, hsplit⟩
    obtain ⟨first, rest, rfl⟩ := List.exists_cons_of_ne_nil hne
    rw [List.forall_mem_cons] at hall
    exact ⟨first, rest, (domainLabel_iff _).mp hall.1,
      fun l hl => (domainLabel_iff l).mp (hall.2 l hl), hsplit.trans (intercalate_dots _ _)⟩

theorem isValidHostname_iff (s : Bytes) : isValidHostname s = true ↔ DomainText s := by
  have hnil : hostnameLoop [] [] = false := rfl
  have hguard : ∀ h : Bytes, (if h.isEmpty then false else hostnameLoop h []) =
      hostnameLoop h [] := by
    intro h
    cases h with
    | nil => rfl
    | cons c cs => rfl
  unfold isValidHostname
  simp only [hguard]
  constructor
  · intro h
    by_cases hdot : s.getLast? = some 46
    · rw [if_pos hdot] at h
      obtain ⟨labels, hne, hall, hsplit⟩ := (hostnameLoop_iff_labels _).mp h
      obtain ⟨front, rfl⟩ := List.getLast?_eq_some_iff.mp hdot
      rw [List.dropLast_concat] at hsplit
      exact ⟨labels, hne, hall, Or.inr (by rw [hsplit])⟩
    · rw [if_neg hdot] at h
      obtain ⟨labels, hne, hall, hsplit⟩ := (hostnameLoop_iff_labels _).mp h
      exact ⟨labels, hne, hall, Or.inl hsplit⟩
  · rintro ⟨labels, hne, hall, rfl | rfl⟩
    · have hloop := (hostnameLoop_iff_labels _).mpr ⟨labels, hne, hall, rfl⟩
      rw [if_neg (hostnameLoop_last hloop)]
      exact hloop
    · rw [List.getLast?_concat, if_pos rfl, List.dropLast_concat]
      exact (hostnameLoop_iff_labels _).mpr ⟨labels, hne, hall, rfl⟩

/-- A dotted quad is a hostname of four labels. -/
theorem domainText_of_isIPv4 {s : Bytes} (h : isIPv4 s = true) :
    s.length ≤ 253 ∧ DomainText s := by
  obtain ⟨ip, hparse⟩ := Option.isSome_iff_exists.mp h
  obtain ⟨a, b, c, d, hquad, -⟩ := (parseIPv4_eq_some_iff s ip).mp hparse
  have hloop := @hostnameLoop_of_ipv4 s [] 0 0 0 h (Nat.zero_le 3) (by simp)
  obtain ⟨labels, hne, hall, hsplit⟩ := (hostnameLoop_iff_labels s).mp hloop
  exact ⟨Nat.le_trans hquad.length_le (by decide), labels, hne, hall, Or.inl hsplit⟩

theorem isUrlByte_of_isHostByte {c : UInt8} (h : isHostByte c = true) : isUrlByte c = false := by
  simp only [isHostByte, isLabelByte, isDigitByte, Bool.or_eq_true, Bool.and_eq_true,
    decide_eq_true_eq, beq_iff_eq, UInt8.le_iff_toNat_le, ← UInt8.toNat_inj] at h
  simp only [isUrlByte, Bool.or_eq_false_iff, beq_eq_false_iff_ne, ne_eq, ← UInt8.toNat_inj]
  simp only [UInt8.reduceToNat] at h ⊢
  omega

/-- The validator takes exactly the grammar. -/
theorem isValidHostOrIp_iff (d : Bytes) : isValidHostOrIp d = true ↔ DomainText d := by
  constructor
  · intro h
    unfold isValidHostOrIp at h
    split_ifs at h
    rcases Bool.or_eq_true _ _ |>.mp h with hip | hname
    · exact (domainText_of_isIPv4 hip).2
    · exact (isValidHostname_iff d).mp hname
  · intro h
    have hname := (isValidHostname_iff d).mpr h
    have hempty : ¬d.isEmpty = true := by
      rw [List.isEmpty_iff]
      rintro rfl
      cases hname
    have hurl : ¬d.any isUrlByte = true := by
      rw [List.any_eq_true]
      rintro ⟨c, hc, hbad⟩
      rw [isUrlByte_of_isHostByte (isValidHostname_bytes hname c hc)] at hbad
      cases hbad
    rw [isValidHostOrIp, if_neg hempty, if_neg hurl, hname, Bool.or_true]

/-- A configuration with another canonical domain. -/
def Config.withDomain (cfg : Config) (d : Bytes) : Config :=
  { cfg with settings := { cfg.settings with canonicalDomain := d } }

/-- The bytes at which the authority of a URL ends: `/ ? #`, and the backslash of browsers. -/
def endsBrowserAuthority (c : UInt8) : Bool :=
  c == 47 || c == 63 || c == 35 || c == 92

/-- The authority of a location: from behind `://` to the first byte that ends it. -/
def authorityOf (location : Bytes) : Bytes :=
  ((location.dropWhile (· ≠ 58)).drop 3).takeWhile fun c => !endsBrowserAuthority c

/-- With every other field valid, what `validate` says of a domain, and what a redirect to
an accepted one names. -/
structure DomainCheck (cfg : Config) (d : Bytes) : Prop where
  accepted : validate (cfg.withDomain d) = .ok ↔ d = [] ∨ d.length ≤ 253 ∧ DomainText d
  too_long : validate (cfg.withDomain d) = .domainTooLong ↔ 253 < d.length
  malformed : validate (cfg.withDomain d) = .badCanonicalDomain ↔
    d ≠ [] ∧ d.length ≤ 253 ∧ ¬DomainText d
  address : isIPv4 d = true → d.length ≤ 253 ∧ DomainText d
  contained : validate (cfg.withDomain d) = .ok →
    ∀ c ∈ d, endsBrowserAuthority c = false ∧ c ≠ 58 ∧ c ≠ 64
  named : validate (cfg.withDomain d) = .ok → d ≠ [] → ∀ req : Runtime.Request,
    (∀ c ∈ req.target.head?, endsBrowserAuthority c = true) →
      (Runtime.evaluate req (cfg.withDomain d).settings).action = .redirect →
        authorityOf (Runtime.evaluate req (cfg.withDomain d).settings).location = d

theorem endsBrowserAuthority_of_isHostByte {c : UInt8} (h : isHostByte c = true) :
    endsBrowserAuthority c = false ∧ c ≠ 58 ∧ c ≠ 64 := by
  simp only [isHostByte, isLabelByte, isDigitByte, Bool.or_eq_true, Bool.and_eq_true,
    decide_eq_true_eq, beq_iff_eq, UInt8.le_iff_toNat_le, ← UInt8.toNat_inj] at h
  simp only [endsBrowserAuthority, Bool.or_eq_false_iff, beq_eq_false_iff_ne, ne_eq,
    ← UInt8.toNat_inj]
  simp only [UInt8.reduceToNat] at h ⊢
  omega

theorem domainText_bytes {d : Bytes} (h : DomainText d) : ∀ c ∈ d, isHostByte c = true :=
  isValidHostname_bytes ((isValidHostname_iff d).mpr h)

/-- A host without such bytes is the whole authority. -/
theorem authorityOf_location (scheme : Runtime.Scheme) {d target : Bytes}
    (hd : ∀ c ∈ d, endsBrowserAuthority c = false)
    (htarget : ∀ c ∈ target.head?, endsBrowserAuthority c = true) :
    authorityOf (Runtime.schemeText scheme ++ d ++ target) = d := by
  have hskip : ((Runtime.schemeText scheme ++ d ++ target).dropWhile (· ≠ 58)).drop 3 =
      d ++ target := by
    cases scheme <;> rfl
  rw [authorityOf, hskip, List.takeWhile_append_of_pos fun c hc => by rw [hd c hc]; rfl]
  cases target with
  | nil => simp
  | cons c cs => simp [htarget c rfl]

/-- What `validate` reports depends on the domain alone once the rest is valid. -/
theorem validate_withDomain {cfg : Config} (hvalid : validate (cfg.withDomain []) = .ok)
    (d : Bytes) : validate (cfg.withDomain d) =
      if d.isEmpty then .ok
      else if maxDomainLen < d.length then .domainTooLong
      else if !isValidHostOrIp d then .badCanonicalDomain
      else .ok := by
  obtain ⟨hfew, hsettings, hdevices⟩ := (validate_eq_ok_iff _).mp hvalid
  obtain ⟨hzero, hota, hmdns, hhap, -⟩ := (validateSettings_eq_ok_iff _).mp hsettings
  -- the other fields are those of `cfg`
  have hport : ¬(cfg.withDomain d).settings.listenPort = 0 := hzero
  have hfree : ¬((cfg.withDomain d).settings.listenPort = otaPort ∨
      (cfg.withDomain d).settings.listenPort = mdnsPort ∨
      (cfg.withDomain d).settings.listenPort = hapPort) := by
    rw [not_or, not_or]
    exact ⟨hota, hmdns, hhap⟩
  have hroom : ¬maxDevices < (cfg.withDomain d).devices.length := Nat.not_lt.mpr hfew
  have hdomain : validateSettings (cfg.withDomain d).settings =
      if d.isEmpty then .ok
      else if maxDomainLen < d.length then .domainTooLong
      else if !isValidHostOrIp d then .badCanonicalDomain
      else .ok := by
    unfold validateSettings
    rw [if_neg hport, if_neg hfree]
    rfl
  unfold validate
  rw [if_neg hroom, hdomain]
  split_ifs
  · exact hdevices
  · rfl
  · rfl
  · exact hdevices

/-- The canonical-domain check takes exactly its grammar, says which way any other text
fails, and a redirect to an accepted domain has it as its whole authority. -/
theorem canonicalDomain_exact (cfg : Config) (hvalid : validate (cfg.withDomain []) = .ok)
    (d : Bytes) : DomainCheck cfg d := by
  have hreport := validate_withDomain hvalid d
  have hmax : maxDomainLen = 253 := rfl
  have haccepted : validate (cfg.withDomain d) = .ok ↔
      d = [] ∨ d.length ≤ 253 ∧ DomainText d := by
    rw [hreport, ← isValidHostOrIp_iff, ← List.isEmpty_iff, hmax]
    split_ifs with hempty hlong hbad
    · simp [hempty]
    · simp [hempty, Nat.not_le.mpr hlong]
    · simpa [hempty] using fun _ => hbad
    · simpa [hempty, Nat.not_lt.mp hlong] using hbad
  have hbytes : validate (cfg.withDomain d) = .ok → ∀ c ∈ d, isHostByte c = true := by
    intro h
    rcases haccepted.mp h with rfl | ⟨-, htext⟩
    · simp
    · exact domainText_bytes htext
  refine ⟨haccepted, ?_, ?_, domainText_of_isIPv4, ?_, ?_⟩
  · rw [hreport, hmax]
    split_ifs with hempty hlong hbad
    · simp [List.isEmpty_iff.mp hempty]
    · simpa using hlong
    · simpa using Nat.not_lt.mp hlong
    · simpa using Nat.not_lt.mp hlong
  · rw [hreport, ← isValidHostOrIp_iff, ne_eq, ← List.isEmpty_iff, hmax]
    split_ifs with hempty hlong hbad
    · simp [hempty]
    · simp [Nat.not_le.mpr hlong]
    · simpa [hempty, Nat.not_lt.mp hlong] using hbad
    · simpa [hempty] using fun _ => hbad
  · exact fun h c hc => endsBrowserAuthority_of_isHostByte (hbytes h c hc)
  · intro h hne req htarget hredirect
    have hhost : Runtime.redirectHost req (cfg.withDomain d).settings = d :=
      if_neg (by rw [List.isEmpty_iff]; exact hne)
    rw [Runtime.evaluate_location hredirect, hhost]
    exact authorityOf_location _
      (fun c hc => (endsBrowserAuthority_of_isHostByte (hbytes h c hc)).1) htarget

/-- The default configuration with a name of two labels and a trailing dot. -/
theorem canonicalDomain_exact_default :
    validate (Config.withDomain {} []) = .ok ∧ DomainCheck {} (ascii "blaster.local.") := by
  have hvalid : validate (Config.withDomain {} []) = .ok := by decide
  exact ⟨hvalid, canonicalDomain_exact {} hvalid (ascii "blaster.local.")⟩

end RfIrBlaster
