/-
The hostname pattern of the settings page against the hostname loop of the device: they
agree but for the trailing dot, which only the loop lets through.
-/
import RfIrBlaster.CharRegex
import RfIrBlaster.ConfigValidate

namespace RfIrBlaster

def byteRange (lo hi : UInt8) : List UInt8 :=
  (List.range (hi.toNat + 1 - lo.toNat)).map fun i => UInt8.ofNat (lo.toNat + i)

/-- `[a-zA-Z0-9]`. -/
def alnumBytes : List UInt8 :=
  byteRange 97 122 ++ byteRange 65 90 ++ byteRange 48 57

/-- `[a-zA-Z0-9-]`. -/
def labelBytes : List UInt8 :=
  alnumBytes ++ [45]

open RegularExpression in
/-- `[a-zA-Z0-9](?:[a-zA-Z0-9-]{0,61}[a-zA-Z0-9])?`. -/
def labelPattern : RegularExpression UInt8 :=
  anyOf alnumBytes * (1 + upTo (anyOf labelBytes) 61 * anyOf alnumBytes)

/-- `HOST_RE` behind its lookahead. -/
def hostPattern : RegularExpression UInt8 :=
  RegularExpression.separated labelPattern 46

/-- `HOST_RE.test`; the lookahead is the bound on the whole text. -/
def hostReTest (s : Bytes) : Bool :=
  decide (1 ≤ s.length ∧ s.length ≤ 253) && hostPattern.rmatch s

theorem mem_byteRange {lo hi c : UInt8} : c ∈ byteRange lo hi ↔ lo ≤ c ∧ c ≤ hi := by
  simp only [byteRange, List.mem_map, List.mem_range, UInt8.le_iff_toNat_le]
  constructor
  · rintro ⟨i, hi', rfl⟩
    have := hi.toNat_lt
    rw [UInt8.toNat_ofNat', Nat.mod_eq_of_lt (by omega)]
    omega
  · rintro ⟨hlo, hhi⟩
    refine ⟨c.toNat - lo.toNat, by omega, ?_⟩
    rw [Nat.add_sub_cancel' hlo]
    exact UInt8.ofNat_toNat

theorem mem_labelBytes {c : UInt8} : c ∈ labelBytes ↔ isLabelByte c = true := by
  simp only [labelBytes, alnumBytes, isLabelByte, isDigitByte, List.mem_append, mem_byteRange,
    List.mem_singleton, Bool.or_eq_true, Bool.and_eq_true, decide_eq_true_eq, beq_iff_eq]
  tauto

theorem mem_alnumBytes {c : UInt8} : c ∈ alnumBytes ↔ isLabelByte c = true ∧ c ≠ 45 := by
  rw [← mem_labelBytes, labelBytes, List.mem_append, List.mem_singleton]
  constructor
  · intro h
    refine ⟨Or.inl h, ?_⟩
    rintro rfl
    simp [alnumBytes, mem_byteRange] at h
  · rintro ⟨h | h, hne⟩
    · exact h
    · exact absurd h hne

/-- A word of the label pattern: a first byte, a stretch and a last byte, or one byte. -/
theorem mem_labelPattern {word : Bytes} :
    word ∈ labelPattern.matches' ↔ ∃ c ∈ alnumBytes, word = [c] ∨
      ∃ mid, ∃ d ∈ alnumBytes, word = c :: (mid ++ [d]) ∧ mid.length ≤ 61 ∧
        ∀ b ∈ mid, b ∈ labelBytes := by
  rw [labelPattern, RegularExpression.matches'_mul, RegularExpression.matches'_add,
    RegularExpression.matches'_mul, RegularExpression.matches'_epsilon, Language.mem_mul]
  constructor
  · rintro ⟨head, hhead, tail, htail, rfl⟩
    obtain ⟨c, hc, rfl⟩ := RegularExpression.mem_anyOf.mp hhead
    refine ⟨c, hc, ?_⟩
    rcases (Language.mem_add _ _ _).mp htail with hnil | hmore
    · rw [Language.mem_one] at hnil
      rw [hnil]
      exact Or.inl rfl
    · obtain ⟨mid, hmid, last, hlast, rfl⟩ := Language.mem_mul.mp hmore
      obtain ⟨d, hd, rfl⟩ := RegularExpression.mem_anyOf.mp hlast
      obtain ⟨hlen, hbytes⟩ := RegularExpression.mem_upTo_anyOf.mp hmid
      exact Or.inr ⟨mid, d, hd, rfl, hlen, hbytes⟩
  · rintro ⟨c, hc, rfl | ⟨mid, d, hd, rfl, hlen, hbytes⟩⟩
    · exact ⟨[c], RegularExpression.mem_anyOf.mpr ⟨c, hc, rfl⟩, [],
        (Language.mem_add _ _ _).mpr (Or.inl rfl), rfl⟩
    · refine ⟨[c], RegularExpression.mem_anyOf.mpr ⟨c, hc, rfl⟩, mid ++ [d],
        (Language.mem_add _ _ _).mpr (Or.inr ?_), rfl⟩
      exact Language.mem_mul.mpr ⟨mid, RegularExpression.mem_upTo_anyOf.mpr ⟨hlen, hbytes⟩, [d],
        RegularExpression.mem_anyOf.mpr ⟨d, hd, rfl⟩, rfl⟩

theorem isValidLabel_iff (label : Bytes) :
    isValidLabel label = true ↔ label ≠ [] ∧ label.length ≤ maxLabelLen ∧
      label.head? ≠ some 45 ∧ label.getLast? ≠ some 45 ∧ ∀ b ∈ label, isLabelByte b = true := by
  simp only [isValidLabel, Bool.and_eq_true, decide_eq_true_eq, bne_iff_ne, List.all_eq_true,
    Bool.not_eq_true', List.isEmpty_eq_false_iff, and_assoc, ne_eq]

/-- The label pattern matches what the loop lets through as a label. -/
theorem labelPattern_iff (label : Bytes) :
    label ∈ labelPattern.matches' ↔ isValidLabel label = true := by
  rw [isValidLabel_iff, mem_labelPattern]
  unfold maxLabelLen
  constructor
  · rintro ⟨c, hc, rfl | ⟨mid, d, hd, rfl, hlen, hbytes⟩⟩
    · obtain ⟨hbyte, hne⟩ := mem_alnumBytes.mp hc
      simp [hbyte, hne]
    · obtain ⟨hbyte, hne⟩ := mem_alnumBytes.mp hc
      obtain ⟨hbyte', hne'⟩ := mem_alnumBytes.mp hd
      refine ⟨List.cons_ne_nil _ _, ?_, by simpa using hne, ?_, ?_⟩
      · simp only [List.length_cons, List.length_append, List.length_nil]
        omega
      · rw [← List.cons_append, List.getLast?_concat]
        simpa using hne'
      · intro b hb
        rcases List.mem_cons.mp hb with rfl | hb
        · exact hbyte
        · rcases List.mem_append.mp hb with hmid | hlast
          · exact mem_labelBytes.mp (hbytes b hmid)
          · rw [List.mem_singleton.mp hlast]
            exact hbyte'
  · rintro ⟨hne, hlen, hhead, hlast, hbytes⟩
    obtain ⟨c, rest, rfl⟩ := List.exists_cons_of_ne_nil hne
    have hc : c ∈ alnumBytes :=
      mem_alnumBytes.mpr ⟨hbytes c List.mem_cons_self, by simpa using hhead⟩
    refine ⟨c, hc, ?_⟩
    rcases List.eq_nil_or_concat rest with rfl | ⟨mid, d, rfl⟩
    · exact Or.inl rfl
    · rw [List.concat_eq_append] at *
      rw [← List.cons_append, List.getLast?_concat] at hlast
      refine Or.inr ⟨mid, d, mem_alnumBytes.mpr ⟨hbytes d (by simp), by simpa using hlast⟩,
        rfl, ?_, ?_⟩
      · simp only [List.length_cons, List.length_append, List.length_nil] at hlen
        omega
      · exact fun b hb => mem_labelBytes.mpr (hbytes b (by simp [hb]))

/-- A stretch without dots goes into the label being read. -/
theorem hostnameLoop_append {front : Bytes} (hdots : 46 ∉ front) (rest label : Bytes) :
    hostnameLoop (front ++ rest) label = hostnameLoop rest (label ++ front) := by
  induction front generalizing label with
  | nil => simp
  | cons c front ih =>
      rw [List.mem_cons, not_or] at hdots
      rw [List.cons_append, hostnameLoop, if_neg (Ne.symm hdots.1), ih hdots.2]
      simp

theorem isValidLabel_no_dot {label : Bytes} (h : isValidLabel label = true) : 46 ∉ label := by
  intro hmem
  simp only [isValidLabel, Bool.and_eq_true, List.all_eq_true] at h
  exact absurd (h.2 46 hmem) (by decide)

/-- The loop reads one or more valid labels with dots between them. -/
theorem hostnameLoop_iff (cs label : Bytes) (hlabel : 46 ∉ label) :
    hostnameLoop cs label = true ↔ ∃ (first : Bytes) (rest : List Bytes),
      isValidLabel first = true ∧ (∀ l ∈ rest, isValidLabel l = true) ∧
        label ++ cs = first ++ rest.flatMap fun l => 46 :: l := by
  constructor
  · intro h
    induction cs generalizing label with
    | nil => exact ⟨label, [], h, by simp, by simp⟩
    | cons c cs ih =>
        rw [hostnameLoop] at h
        by_cases hdot : c = 46
        · rw [if_pos hdot, Bool.and_eq_true] at h
          obtain ⟨first, rest, hfirst, hrest, heq⟩ := ih [] (by simp) h.2
          rw [List.nil_append] at heq
          refine ⟨label, first :: rest, h.1, List.forall_mem_cons.mpr ⟨hfirst, hrest⟩, ?_⟩
          simp [hdot, heq]
        · rw [if_neg hdot] at h
          have hnext : 46 ∉ label ++ [c] := by
            simp [hlabel, Ne.symm hdot]
          obtain ⟨first, rest, hfirst, hrest, heq⟩ := ih (label ++ [c]) hnext h
          exact ⟨first, rest, hfirst, hrest, by simpa using heq⟩
  · rintro ⟨first, rest, hfirst, hrest, heq⟩
    have hread : ∀ (first : Bytes) (rest : List Bytes), isValidLabel first = true →
        (∀ l ∈ rest, isValidLabel l = true) →
        hostnameLoop (first ++ rest.flatMap fun l => 46 :: l) [] = true := by
      intro first rest
      induction rest generalizing first with
      | nil =>
          intro hfirst _
          rw [hostnameLoop_append (isValidLabel_no_dot hfirst)]
          simpa [hostnameLoop] using hfirst
      | cons l rest ih =>
          intro hfirst hrest
          rw [List.forall_mem_cons] at hrest
          rw [hostnameLoop_append (isValidLabel_no_dot hfirst), List.flatMap_cons, List.cons_append,
            hostnameLoop, if_pos rfl, List.nil_append, hfirst, Bool.true_and]
          exact ih l hrest.1 hrest.2
    have hwhole := hostnameLoop_append hlabel cs []
    rw [List.nil_append] at hwhole
    rw [← hwhole, heq]
    exact hread first rest hfirst hrest

/-- The pattern and the loop accept the same texts, within the length of the lookahead. -/
theorem hostReTest_iff (s : Bytes) :
    hostReTest s = true ↔ (1 ≤ s.length ∧ s.length ≤ 253) ∧ hostnameLoop s [] = true := by
  rw [hostReTest, Bool.and_eq_true, decide_eq_true_eq, RegularExpression.rmatch_iff_matches',
    hostPattern, RegularExpression.mem_separated, hostnameLoop_iff s [] (by simp)]
  simp only [labelPattern_iff, List.nil_append]

theorem isValidLabel_of_digits {label : Bytes} (hne : label ≠ []) (hlen : label.length ≤ 3)
    (hdigits : ∀ c ∈ label, isDigitByte c = true) : isValidLabel label = true := by
  have hdash : 45 ∉ label := fun hmem => absurd (hdigits 45 hmem) (by decide)
  rw [isValidLabel_iff]
  refine ⟨hne, Nat.le_trans hlen (by decide), ?_, ?_, ?_⟩
  · exact fun hhead => hdash (List.mem_of_head? hhead)
  · exact fun hlast => hdash (List.mem_of_getLast? hlast)
  · intro c hc
    simp [isLabelByte, hdigits c hc]

/-- An address the scan accepts is a hostname of digit labels. -/
theorem hostnameLoop_of_ipv4 {s label : Bytes} {acc : UInt32} {parts val : Nat}
    (h : (parseIPv4Scan s acc parts val label.length).isSome) (hlen : label.length ≤ 3)
    (hdigits : ∀ c ∈ label, isDigitByte c = true) : hostnameLoop s label = true := by
  induction s generalizing acc parts val label with
  | nil =>
      rw [parseIPv4Scan] at h
      split_ifs at h with hoctet
      · cases h
      · rw [not_or] at hoctet
        exact isValidLabel_of_digits (List.ne_nil_of_length_pos (by omega)) hlen hdigits
      · cases h
  | cons c cs ih =>
      rw [parseIPv4Scan] at h
      rw [hostnameLoop]
      by_cases hdigit : isDigitByte c = true
      · rw [if_pos hdigit] at h
        have hdot : c ≠ 46 := by
          rintro rfl
          exact absurd hdigit (by decide)
        rw [if_neg hdot]
        by_cases hlong : 3 < label.length + 1
        · rw [if_pos hlong] at h
          cases h
        · rw [if_neg hlong] at h
          have hnext : (label ++ [c]).length = label.length + 1 := List.length_append
          apply ih
          · rw [hnext]
            exact h
          · omega
          · exact List.forall_mem_append.mpr ⟨hdigits, by simpa using hdigit⟩
      · rw [if_neg hdigit] at h
        split_ifs at h with hoctet hother hend
        · cases h
        · cases h
        · cases h
        · rw [not_or] at hoctet
          rw [not_not] at hother
          rw [if_pos hother, Bool.and_eq_true]
          exact ⟨isValidLabel_of_digits (List.ne_nil_of_length_pos (by omega)) hlen hdigits,
            ih h (Nat.zero_le 3) (by simp)⟩

/-- A text the loop accepts ends in a byte of a label. -/
theorem hostnameLoop_last {s : Bytes} (h : hostnameLoop s [] = true) : s.getLast? ≠ some 46 := by
  obtain ⟨first, rest, hfirst, hrest, heq⟩ := (hostnameLoop_iff s [] (by simp)).mp h
  rw [List.nil_append] at heq
  have hend : ∀ l, isValidLabel l = true → l ≠ [] ∧ l.getLast? ≠ some 46 := by
    intro l hl
    exact ⟨((isValidLabel_iff l).mp hl).1,
      fun hlast => isValidLabel_no_dot hl (List.mem_of_getLast? hlast)⟩
  rcases List.eq_nil_or_concat rest with rfl | ⟨front, last, rfl⟩
  · rw [heq, List.flatMap_nil, List.append_nil]
    exact (hend first hfirst).2
  · obtain ⟨hne, hlast⟩ := hend last (hrest last (by simp))
    obtain ⟨b, hb⟩ := Option.ne_none_iff_exists'.mp (mt List.getLast?_eq_none_iff.mp hne)
    have htail : s.getLast? = some b := by
      rw [heq, List.concat_eq_append, List.flatMap_append, List.flatMap_singleton,
        ← List.append_assoc, List.getLast?_append]
      simp [List.getLast?_cons, hb]
    rw [htail, ← hb]
    exact hlast

/-- Of the hosts the device takes, the page refuses those with a trailing dot. -/
theorem hostReTest_of_valid {s : Bytes} (hlen : s.length ≤ maxDomainLen)
    (h : isValidHostOrIp s = true) : hostReTest s = true ↔ s.getLast? ≠ some 46 := by
  rw [hostReTest_iff]
  constructor
  · exact fun htest => hostnameLoop_last htest.2
  · intro hdot
    unfold isValidHostOrIp at h
    split_ifs at h with hempty hurl
    have hne : s ≠ [] := by simpa using hempty
    refine ⟨⟨List.length_pos_of_ne_nil hne, hlen⟩, ?_⟩
    rcases Bool.or_eq_true _ _ |>.mp h with hip | hname
    · exact @hostnameLoop_of_ipv4 s [] 0 0 0 hip (Nat.zero_le 3) (by simp)
    · unfold isValidHostname at hname
      simp only [if_neg hdot] at hname
      split_ifs at hname
      exact hname

end RfIrBlaster
