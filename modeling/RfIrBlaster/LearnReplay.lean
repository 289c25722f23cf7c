/-
From the ear to the transmitter: a code the device has learned by itself, kept as it is, is
handed to the RMT as whole copies of what was captured.
-/
import RfIrBlaster.FireCode
import RfIrBlaster.LearnStorable

namespace RfIrBlaster

open Transmit RepeatedList

section Merge

variable {input : List UInt16}

theorem mem_mergeSlots {p : UInt16} {isMark : Bool} {os vs : List UInt16}
    (h : p ∈ mergeSlots isMark os vs) : p ∈ os ∨ p ∈ vs := by
  induction os generalizing isMark vs with
  | nil => cases h
  | cons o os ih =>
      cases vs with
      | nil => cases h
      | cons v vs =>
          rw [mergeSlots, List.mem_cons] at h
          rcases h with rfl | hrest
          · cases isMark with
            | true =>
                rw [if_pos rfl, show max o v = if o ≤ v then v else o from rfl]
                split_ifs <;> simp
            | false =>
                rw [if_neg Bool.false_ne_true, show min o v = if o ≤ v then o else v from rfl]
                split_ifs <;> simp
          · rcases ih hrest with hos | hvs
            · exact Or.inl (List.mem_cons_of_mem o hos)
            · exact Or.inr (List.mem_cons_of_mem v hvs)

theorem mem_frameBody {p : UInt16} {f : Range} {n : Nat} (h : p ∈ frameBody input f n) :
    p ∈ input :=
  List.mem_of_mem_drop (List.mem_of_mem_take h)

/-- Merging picks among the entries it is given. -/
theorem mem_mergeFold {modal n : Nat} (frames : List Range) {out : Option (List UInt16)}
    (hout : ∀ o, out = some o → ∀ p ∈ o, p ∈ input) :
    ∀ o, frames.foldl (mergeStep input modal n) out = some o → ∀ p ∈ o, p ∈ input := by
  induction frames generalizing out with
  | nil => exact hout
  | cons f rest ih =>
      rw [List.foldl_cons]
      apply ih
      intro o ho p hp
      unfold mergeStep at ho
      split_ifs at ho with hsize
      · exact hout o ho p hp
      · cases hold : out with
        | none =>
            simp only [hold, Option.some.injEq] at ho
            rw [← ho] at hp
            exact mem_frameBody hp
        | some o' =>
            simp only [hold, Option.some.injEq] at ho
            rw [← ho] at hp
            rcases mem_mergeSlots hp with hmerged | hbody
            · exact hout o' hold p hmerged
            · exact mem_frameBody hbody

/-- De-clipping makes up no duration. -/
theorem mem_declipBurst {p : UInt16} {outCap : Nat} (h : p ∈ (declipBurst input outCap).out) :
    p ∈ input := by
  unfold declipBurst declipFrames at h
  split_ifs at h
  · cases h
  · dsimp only at h
    split at h
    · cases h
    · exact mem_frameBody h
    · split_ifs at h
      · cases h
      · split at h
        · cases h
        · next hmerged => exact mem_mergeFold _ (by simp) _ hmerged p h

end Merge

namespace Learn

open LearnMachine (Event)

theorem mem_frameOf {src : Source} {pulses : List UInt16} {p : UInt16}
    (h : p ∈ frameOf src pulses) : p ∈ pulses := by
  unfold frameOf declipOf at h
  dsimp only at h
  split_ifs at h with hir hout hout
  · cases h
  · exact h
  · exact mem_declipBurst h
  · exact h

/-- No burst of the run holds a level longer than the duration field of the transmitter. -/
def ShortLevels (events : List Event) : Prop :=
  ∀ src pulses carrierHz now, Event.feedBurst src pulses carrierHz now ∈ events →
    ∀ p ∈ pulses, p.toNat ≤ kRmtMaxDur

theorem heard_short {src : Source} {events : List Event} (hshort : ShortLevels events)
    {h : Heard} (hmem : h ∈ heard src events) : ∀ p ∈ h.frame, p.toNat ≤ kRmtMaxDur := by
  obtain ⟨pulses, carrierHz, now, hfed, hframe⟩ := mem_heard hmem
  intro p hp
  rw [hframe] at hp
  exact hshort src pulses carrierHz now hfed p (mem_frameOf hp)

section Captured

variable {src : Source} {H : List Heard} {c : Cluster} {ev : Evidence} {bound : Nat}

/-- An average is no longer than what it averages. -/
theorem Explains.meanFrame_le (h : Explains src H c ev) (hcount : 0 < c.count)
    (hbound : ∀ g ∈ H, ∀ p ∈ g.frame, p.toNat ≤ bound) :
    ∀ p ∈ c.meanFrame, p.toNat ≤ bound := by
  intro p hp
  obtain ⟨i, hi, hpi⟩ := List.mem_iff_getElem.mp hp
  have hrepr : i < c.repr.length := h.meanFrame_length ▸ hi
  obtain ⟨q, hq, hmean⟩ := h.meanFrame_getElem? hcount hrepr
  rw [List.getElem?_eq_getElem hi, hpi, Option.some.injEq] at hq
  have hne : ev.counted.map (Heard.entry i) ≠ [] := by
    rw [h.count] at hcount
    simpa using List.ne_nil_of_length_pos hcount
  have hentries : ∀ x ∈ ev.counted.map (Heard.entry i), x ≤ bound := by
    intro x hx
    obtain ⟨g, hg, rfl⟩ := List.mem_map.mp hx
    have hheard := h.sublist.subset (ev.counted_sublist.subset hg)
    unfold Heard.entry
    rw [List.getD_eq_getElem?_getD]
    cases hentry : g.frame[i]? with
    | none => exact Nat.zero_le bound
    | some q => exact hbound g hheard q (List.mem_of_getElem? hentry)
  have hhigh := (PairedTables.mean_between hne (h.entry_pos hrepr) hentries).2
  rw [List.length_map, ← hmean] at hhigh
  rw [hq]
  exact hhigh

/-- A captured code is an averaged frame and at most one gap behind it. -/
theorem captureCode_pulses (src : Source) (t : Track) (c : Cluster) :
    ∃ gap : List UInt16, gap.length ≤ 1 ∧ (captureCode src t c).pulses = c.meanFrame ++ gap := by
  unfold captureCode
  by_cases hir : src = .ir
  · rw [if_pos hir]
    dsimp only
    split_ifs
    · exact ⟨[UInt16.ofNat (irTrailGap c)], le_rfl, rfl⟩
    · exact ⟨[], Nat.zero_le 1, (List.append_nil _).symm⟩
  · rw [if_neg hir]
    exact ⟨[UInt16.ofNat (rfTrailGap t c)], le_rfl, rfl⟩

end Captured

/-- What the machine hands out is bounded as what it heard is, up to its gap. -/
theorem takeCode_short {events : List Event} (hshort : ShortLevels events)
    (hcaptured : (LearnMachine.run events).state = .captured) :
    ∃ frame gap : List UInt16, gap.length ≤ 1 ∧
      (LearnMachine.run events).takeCode.1.pulses = frame ++ gap ∧
      ∀ p ∈ frame, p.toNat ≤ kRmtMaxDur := by
  obtain ⟨pre, e, post, hevents, hbefore, hafter, hcode⟩ := captured_since hcaptured
  obtain ⟨src, pulses, carrierHz, now, t, c, rfl, hentry⟩ := captured_entry hbefore hafter
  obtain ⟨i, ev, -, -, hexplains⟩ := hentry.explains
  have hcount : 0 < c.count := Nat.lt_of_lt_of_le (by decide) hentry.won.2.1
  have htaken : (LearnMachine.run events).takeCode.1 = captureCode src t c := by
    unfold LearnMachine.takeCode
    rw [if_neg (not_not.mpr hcaptured)]
    exact hcode.trans hentry.code
  have hpre : ShortLevels (pre ++ [Event.feedBurst src pulses carrierHz now]) := by
    intro src' pulses' carrierHz' now' hfed
    apply hshort src' pulses' carrierHz' now'
    rw [hevents, List.append_cons]
    exact List.mem_append_left post hfed
  obtain ⟨gap, hgap, hpulses⟩ := captureCode_pulses src t c
  refine ⟨c.meanFrame, gap, hgap, by rw [htaken, hpulses], ?_⟩
  exact hexplains.meanFrame_le hcount fun g hg => heard_short hpre hg

end Learn

section Replay

variable {tx : Transmitter} {sc : StoredCode} {keying : Keying}

/-- Three half-cells hold any duration. -/
theorem halfCount_le (p : UInt16) : halfCount p.toNat ≤ 3 := by
  have hp := p.toNat_lt
  unfold halfCount kRmtMaxDur
  omega

/-- Only the gap may take more than one half-cell. -/
theorem halfCellCount_le {frame gap : List UInt16} (hpulses : sc.pulses = frame ++ gap)
    (hgap : gap.length ≤ 1) (hshort : ∀ p ∈ frame, p.toNat ≤ kRmtMaxDur) :
    halfCellCount sc ≤ sc.pulses.length + 2 := by
  have hframe := sum_halfCount_le hshort
  have htail : (gap.map fun p => halfCount p.toNat).sum ≤ gap.length + 2 := by
    rcases gap with _ | ⟨p, _ | ⟨q, gap⟩⟩
    · simp
    · rw [List.map_singleton, List.sum_singleton, List.length_singleton]
      exact halfCount_le p
    · simp at hgap
  rw [halfCellCount, hpulses, List.map_append, List.sum_append, List.length_append, Nat.add_assoc]
  exact Nat.add_le_add hframe htail

/-- Where all copies fit, all are keyed. -/
theorem fired_whole (h : Transmit.Storable sc) (hkind : sc.kind ≠ .none)
    (hfits : copiesAsked sc * halfCellCount sc ≤ maxPulses)
    (hfired : fireCode tx (some sc) = some keying) :
    waveform keying.symbols = pulseLevels (copies (copiesAsked sc) sc.pulses) := by
  obtain ⟨cells, hcells, -, hwave⟩ := fired_halfCells h hkind hfired
  have hlength : (copies (copiesAsked sc) (pulseCells sc.pulses)).length ≤ maxPulses := by
    rw [length_copies, length_pulseCells h.even]
    exact hfits
  rw [hwave, hcells, List.take_of_length_le hlength, ← pulseCells_copies h.even,
    levels_pulseCells]

/-- `kRfResolution` and `kResolutionHz`: a tick of the RMT is a microsecond. -/
def kTicksPerMs : Nat := 1000

/-- The words handed over are keyed out before the sender stops waiting for them. -/
def KeyedInWait (keying : Keying) : Prop :=
  (waveform keying.symbols).length ≤ kTxWaitMs * kTicksPerMs

theorem sum_copies (n : Nat) (pulses : List UInt16) :
    ((copies n pulses).map UInt16.toNat).sum = n * (pulses.map UInt16.toNat).sum := by
  induction n with
  | zero => simp
  | succ n ih =>
      rw [copies_succ, List.map_append, List.sum_append, ih, Nat.succ_mul, Nat.add_comm]

theorem length_pulseLevels {pulses : List UInt16} (heven : pulses.length % 2 = 0) :
    (pulseLevels pulses).length = (pulses.map UInt16.toNat).sum := by
  induction pulses using pulseCells.induct with
  | case1 mark space rest ih =>
      have hrest : rest.length % 2 = 0 := by
        simp only [List.length_cons] at heven
        omega
      simp only [pulseLevels, List.length_append, List.length_replicate, ih hrest, List.map_cons,
        List.sum_cons]
      omega
  | case2 pulses hshort =>
      rcases pulses with _ | ⟨mark, _ | ⟨space, rest⟩⟩
      · rfl
      · simp at heven
      · exact absurd rfl (hshort mark space rest)

/-- What a whole keying takes. -/
theorem length_whole (h : Transmit.Storable sc)
    (hwhole : waveform keying.symbols = pulseLevels (copies (copiesAsked sc) sc.pulses)) :
    (waveform keying.symbols).length = copiesAsked sc * (sc.pulses.map UInt16.toNat).sum := by
  have heven : (copies (copiesAsked sc) sc.pulses).length % 2 = 0 := by
    rw [length_copies, Nat.mul_mod, h.even, Nat.mul_zero, Nat.zero_mod]
  rw [hwhole, length_pulseLevels heven, sum_copies]

end Replay

namespace Learn

open LearnMachine (Event)

/-- The last entry of a code fits one half-cell, or its copies leave room for a longer one. -/
def GapFits (code : StoredCode) : Prop :=
  (∀ p ∈ code.pulses.getLast?, p.toNat ≤ kRmtMaxDur) ∨
    copiesAsked code * (code.pulses.length + 2) ≤ maxPulses

def buttonBurst : List UInt16 :=
  List.replicate 17 400

/-- Three presses of one button. -/
def learnedButton : List Event :=
  [.begin 0, .feedBurst .rf433 buttonBurst 0 1000, .feedBurst .rf433 buttonBurst 0 2000,
    .feedBurst .rf433 buttonBurst 0 3000]

end Learn

end RfIrBlaster
