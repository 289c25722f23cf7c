/-
A captured code can be stored: it passes every per-code check of `validate`, and
no total or cast on the way to it loses a bit.
-/
import RfIrBlaster.ConfigValidate
import RfIrBlaster.LearnLedger

namespace RfIrBlaster

namespace Learn

open LearnMachine (Event)

/-- The radio capture drivers drop a trailing space, so a burst ends on a mark. -/
def EndOnMarks (events : List Event) : Prop :=
  ∀ src pulses carrierHz now, Event.feedBurst src pulses carrierHz now ∈ events →
    src ≠ .ir → pulses.length % 2 = 1

/-- The counters of a cluster are the exact totals of its evidence. -/
structure Totals (c : Cluster) (ev : Evidence) : Prop where
  count : c.count = ev.counted.length
  sum : c.sum = PairedTables.columnSums c.repr.length
    (ev.counted.map fun h => h.frame.map UInt16.toNat)
  carrierSum : c.carrierSum = (ev.counted.map fun h => h.carrierHz.toNat).sum
  gapCount : c.gapCount = ev.gaps.length
  gapSumUs : c.gapSumUs = ev.gaps.sum

theorem Explains.totals {src : Source} {H : List Heard} {c : Cluster} {ev : Evidence}
    (h : Explains src H c ev) : Totals c ev :=
  ⟨h.count, h.sum, h.carrierSum, h.gapCount, h.gapSumUs⟩

/-- The stored pulses in unbounded arithmetic: the means and the trailing gap. -/
def exactPulses (src : Source) (t : Track) (c : Cluster) : List Nat :=
  c.sum.map (fun s => (s + c.count / 2) / c.count) ++
    if src ≠ .ir then [rfTrailGap t c]
    else if c.repr.length % 2 ≠ 0 then [irTrailGap c]
    else []

/-- A code that can be stored, with nothing lost between the evidence and it. -/
structure Storable (src : Source) (t : Track) (c : Cluster) (ev : Evidence)
    (code : StoredCode) : Prop where
  valid : validateCode code = .ok
  kind : code.kind = if src = .ir then .ir else .rf
  pulses : code.pulses ≠ [] ∧ code.pulses.length % 2 = 0 ∧ code.pulses.length ≤ maxPulses
  band : src ≠ .ir → code.freqMHz = (if src = .rf315 then 315 else 433) ∧
    code.rolling = false
  carrier : src = .ir → 20000 ≤ code.carrierHz ∧ code.carrierHz ≤ 60000
  frameRepeat : 1 ≤ code.frameRepeat ∧ code.frameRepeat ≤ maxFrameRepeat
  nonzero : ∀ p ∈ code.pulses, p ≠ 0
  totals : Totals c ev
  pulseCasts : code.pulses.map UInt16.toNat = exactPulses src t c
  gapCasts : 0 < c.gapCount → c.measuredGap = (c.gapSumUs + c.gapCount / 2) / c.gapCount
  carrierCast : src = .ir → code.carrierHz.toNat = (c.carrierSum + c.count / 2) / c.count
  repeatCast : src ≠ .ir → code.frameRepeat.toNat = storedFrameRepeat t.frameCount

/-- A frame of a radio source ends on a mark too. -/
theorem frameOf_odd {src : Source} (hrf : src ≠ .ir) {pulses : List UInt16}
    (hodd : pulses.length % 2 = 1) : (frameOf src pulses).length % 2 = 1 := by
  have hdeclip : declipOf src pulses = declipBurst pulses pulses.length := if_neg hrf
  simp only [frameOf, hdeclip]
  by_cases hout : 0 < (declipBurst pulses pulses.length).out.length
  · rw [if_pos hout]
    exact (declipBurst_length hodd hout).1
  · rw [if_neg hout]
    exact hodd

/-- Everything heard was fed. -/
theorem mem_heard {src : Source} {events : List Event} {h : Heard}
    (hmem : h ∈ heard src events) :
    ∃ pulses carrierHz now, Event.feedBurst src pulses carrierHz now ∈ events ∧
      h.frame = frameOf src pulses := by
  induction events using List.reverseRecOn with
  | nil => cases hmem
  | append_singleton pre e ih =>
      rw [heard_concat] at hmem
      have hold : h ∈ heard src pre → ∃ pulses carrierHz now,
          Event.feedBurst src pulses carrierHz now ∈ pre ++ [e] ∧ h.frame = frameOf src pulses := by
        intro hpre
        obtain ⟨pulses, carrierHz, now, hfed, hframe⟩ := ih hpre
        exact ⟨pulses, carrierHz, now, List.mem_append_left _ hfed, hframe⟩
      cases e with
      | begin now => cases hmem
      | tick now => exact hold hmem
      | cancel => exact hold hmem
      | takeCode => exact hold hmem
      | feedBurst s pulses carrierHz now =>
          by_cases hfed : s = src ∧ pulses ≠ []
          · simp only [hear, if_pos hfed] at hmem
            rcases List.mem_append.mp hmem with hpre | hnew
            · exact hold hpre
            · refine ⟨pulses, carrierHz, now, ?_, ?_⟩
              · simp [hfed.1]
              · rw [List.mem_singleton.mp hnew]
                rfl
          · simp only [hear, if_neg hfed] at hmem
            exact hold hmem

section Captured

variable {src : Source} {H : List Heard} {c : Cluster} {ev : Evidence}

/-- The reference has the length of a well-formed burst, and no entry of a
counted burst is 0. -/
theorem Explains.reference_length (h : Explains src H c ev) :
    kMinBurstPulses ≤ c.repr.length ∧ c.repr.length ≤ kMaxBurstPulses := by
  obtain ⟨g, hhead, hframe⟩ := h.first
  have hformed := h.formed g (List.mem_of_mem_head? hhead)
  rw [wellFormed_iff, hframe] at hformed
  exact ⟨hformed.1, hformed.2.1⟩

theorem Explains.entry_pos (h : Explains src H c ev) {i : Nat} (hi : i < c.repr.length) :
    ∀ x ∈ ev.counted.map (Heard.entry i), 1 ≤ x := by
  intro x hx
  obtain ⟨g, hg, rfl⟩ := List.mem_map.mp hx
  have hmem := ev.counted_sublist.subset hg
  have hlen := burstsMatch_length (h.matched g hmem)
  have hformed := (wellFormed_iff _ _ _).mp (h.formed g hmem)
  have hig : i < g.frame.length := by omega
  have hne := hformed.2.2.1 _ (List.getElem_mem hig)
  unfold Heard.entry
  rw [List.getD_eq_getElem _ _ hig]
  have : (g.frame[i]).toNat ≠ 0 := fun hzero => hne (UInt16.toNat_inj.mp hzero)
  omega

theorem Explains.meanFrame_length (h : Explains src H c ev) :
    c.meanFrame.length = c.repr.length := by
  simp [Cluster.meanFrame, h.sum]

theorem Explains.meanFrame_ne_zero (h : Explains src H c ev) (hcount : 0 < c.count) :
    ∀ p ∈ c.meanFrame, p ≠ 0 := by
  intro p hp
  obtain ⟨i, hi, hpi⟩ := List.mem_iff_getElem.mp hp
  have hrepr : i < c.repr.length := h.meanFrame_length ▸ hi
  obtain ⟨q, hq, hmean⟩ := h.meanFrame_getElem? hcount hrepr
  rw [List.getElem?_eq_getElem hi, hpi, Option.some.injEq] at hq
  have hne : ev.counted.map (Heard.entry i) ≠ [] := by
    rw [h.count] at hcount
    simpa using List.ne_nil_of_length_pos hcount
  have hlow := (PairedTables.mean_between hne (h.entry_pos hrepr)
    (entry_le ev.counted i)).1
  rw [List.length_map, ← hmean, ← hq] at hlow
  rintro rfl
  exact absurd hlow (by decide)

theorem Explains.meanFrame_toNat (h : Explains src H c ev) (hcount : 0 < c.count) :
    c.meanFrame.map UInt16.toNat = c.sum.map (fun s => (s + c.count / 2) / c.count) := by
  have hle : c.count ≤ 250 := h.count ▸ ev.counted_length_le
  have hrows : ∀ row ∈ ev.counted.map (fun g => g.frame.map UInt16.toNat),
      ∀ x ∈ row, x ≤ 65535 := by
    intro row hrow x hx
    obtain ⟨g, _, rfl⟩ := List.mem_map.mp hrow
    exact toNat_le_of_mem hx
  unfold Cluster.meanFrame
  rw [List.map_map]
  apply List.map_congr_left
  intro s hs
  rw [h.sum] at hs
  have htotal := PairedTables.columnSums_le hrows s hs
  rw [List.length_map, ← h.count] at htotal
  exact (roundedMean_exact hcount hle htotal).2

theorem Explains.measuredGap_eq (h : Explains src H c ev) (hgaps : 0 < c.gapCount) :
    c.measuredGap = (c.gapSumUs + c.gapCount / 2) / c.gapCount := by
  have htotal : ev.gaps.sum ≤ ev.gaps.length * 65535 := by
    simpa using List.sum_le_card_nsmul ev.gaps 65535 h.gap_le
  have hle : c.gapCount ≤ 250 := h.gapCount ▸ h.gapCount_le
  rw [← h.gapCount, ← h.gapSumUs] at htotal
  unfold Cluster.measuredGap
  rw [if_pos hgaps]
  exact (roundedMean_exact hgaps hle htotal).1

/-- The averaged carrier of an infrared code stays in the window every counted
burst was checked against. -/
theorem Explains.carrier_mean (h : Explains .ir H c ev) (hcount : 0 < c.count) :
    (UInt16.ofNat (roundedMean c.carrierSum c.count)).toNat =
        (c.carrierSum + c.count / 2) / c.count ∧
      20000 ≤ (c.carrierSum + c.count / 2) / c.count ∧
      (c.carrierSum + c.count / 2) / c.count ≤ 60000 := by
  have hwindow : ∀ x ∈ ev.counted.map (fun g => g.carrierHz.toNat),
      20000 ≤ x ∧ x ≤ 60000 := by
    intro x hx
    obtain ⟨g, hg, rfl⟩ := List.mem_map.mp hx
    have hformed := (wellFormed_iff _ _ _).mp (h.formed g (ev.counted_sublist.subset hg))
    obtain ⟨hlow, hhigh⟩ := hformed.2.2.2 rfl
    exact ⟨UInt16.le_iff_toNat_le.mp hlow, UInt16.le_iff_toNat_le.mp hhigh⟩
  have hne : ev.counted.map (fun g => g.carrierHz.toNat) ≠ [] := by
    rw [h.count] at hcount
    simpa using List.ne_nil_of_length_pos hcount
  have hmean := PairedTables.mean_between hne (fun x hx => (hwindow x hx).1)
    (fun x hx => (hwindow x hx).2)
  rw [List.length_map, ← h.carrierSum, ← h.count] at hmean
  have htotal := carrier_total_le ev.counted
  rw [← h.carrierSum, ← h.count] at htotal
  have hle : c.count ≤ 250 := h.count ▸ ev.counted_length_le
  exact ⟨(roundedMean_exact hcount hle htotal).2, hmean⟩

end Captured

theorem clampedGap_toNat (gap : Nat) :
    (UInt16.ofNat (min (max gap kMinTrailGapUs) 65535)).toNat =
        min (max gap kMinTrailGapUs) 65535 ∧
      UInt16.ofNat (min (max gap kMinTrailGapUs) 65535) ≠ 0 := by
  have hlt : min (max gap kMinTrailGapUs) 65535 < UInt16.size := by
    simp only [UInt16.size]
    omega
  have hpos : 0 < min (max gap kMinTrailGapUs) 65535 := by
    simp only [kMinTrailGapUs]
    omega
  have hcast := UInt16.toNat_ofNat_of_lt' hlt
  refine ⟨hcast, ?_⟩
  intro hzero
  rw [hzero] at hcast
  exact absurd hcast.symm (Nat.ne_of_gt hpos)

theorem storedFrameRepeat_range (frameCount : UInt16) :
    (UInt8.ofNat (storedFrameRepeat frameCount)).toNat = storedFrameRepeat frameCount ∧
      1 ≤ storedFrameRepeat frameCount ∧ storedFrameRepeat frameCount ≤ 10 := by
  have hhigh : storedFrameRepeat frameCount ≤ 10 := Nat.min_le_right _ _
  have hlow : 1 ≤ storedFrameRepeat frameCount := by
    unfold storedFrameRepeat
    by_cases hnone : frameCount < 1
    · simp only [if_pos hnone]
      decide
    · simp only [if_neg hnone]
      have hpos := UInt16.le_iff_toNat_le.mp (UInt16.not_lt.mp hnone)
      exact Nat.le_min.mpr ⟨hpos, by decide⟩
  refine ⟨UInt8.toNat_ofNat_of_lt' ?_, hlow, hhigh⟩
  simp only [UInt8.size]
  omega

section Captured

variable {H : List Heard} {c : Cluster} {ev : Evidence}

/-- The infrared case. -/
theorem captureCode_storable_ir (t : Track) (h : Explains .ir H c ev)
    (hcount : 0 < c.count) : Storable .ir t c ev (captureCode .ir t c) := by
  obtain ⟨hlow, hhigh⟩ := h.reference_length
  simp only [kMinBurstPulses, kMaxBurstPulses, maxPulses] at hlow hhigh
  have hlength := h.meanFrame_length
  obtain ⟨hcast, hcarrierLow, hcarrierHigh⟩ := h.carrier_mean hcount
  obtain ⟨hgapCast, hgapNe⟩ := clampedGap_toNat c.measuredGap
  let tail : List UInt16 :=
    if c.repr.length % 2 ≠ 0 then [UInt16.ofNat (irTrailGap c)] else []
  have hpulses : (captureCode .ir t c).pulses = c.meanFrame ++ tail := by
    simp only [captureCode, if_true, tail]
    split_ifs <;> simp
  have hparity : (captureCode .ir t c).pulses.length % 2 = 0 ∧
      (captureCode .ir t c).pulses.length ≤ maxPulses ∧
      16 ≤ (captureCode .ir t c).pulses.length := by
    simp only [hpulses, List.length_append, hlength, tail, maxPulses]
    by_cases hodd : c.repr.length % 2 ≠ 0
    · rw [if_pos hodd, List.length_singleton]
      omega
    · rw [if_neg hodd, List.length_nil]
      omega
  have hne : (captureCode .ir t c).pulses ≠ [] :=
    List.ne_nil_of_length_pos (by omega)
  have hcarrier : 20000 ≤ (captureCode .ir t c).carrierHz ∧
      (captureCode .ir t c).carrierHz ≤ 60000 := by
    rw [UInt16.le_iff_toNat_le, UInt16.le_iff_toNat_le]
    change _ ≤ (UInt16.ofNat (roundedMean c.carrierSum c.count)).toNat ∧
      (UInt16.ofNat (roundedMean c.carrierSum c.count)).toNat ≤ _
    rw [hcast]
    exact ⟨hcarrierLow, hcarrierHigh⟩
  have hrepeat : 1 ≤ (captureCode .ir t c).frameRepeat ∧
      (captureCode .ir t c).frameRepeat ≤ maxFrameRepeat := by
    change (1 : UInt8) ≤ 1 ∧ (1 : UInt8) ≤ maxFrameRepeat
    decide
  refine
    { valid := (validateCode_eq_ok_iff _).mpr (.inr ⟨hne, hparity.1, hparity.2.1, ?_,
        fun _ => hcarrier, hrepeat⟩)
      kind := rfl, pulses := ⟨hne, hparity.1, hparity.2.1⟩
      band := fun hrf => absurd rfl hrf, carrier := fun _ => hcarrier
      frameRepeat := hrepeat, nonzero := ?_, totals := h.totals, pulseCasts := ?_
      gapCasts := h.measuredGap_eq, carrierCast := fun _ => hcast
      repeatCast := fun hrf => absurd rfl hrf }
  · intro hrf
    cases hrf
  · intro p hp
    rw [hpulses] at hp
    rcases List.mem_append.mp hp with hmean | htail
    · exact h.meanFrame_ne_zero hcount p hmean
    · simp only [tail] at htail
      split_ifs at htail
      · rw [List.mem_singleton.mp htail]
        exact hgapNe
      · cases htail
  · rw [hpulses, List.map_append, h.meanFrame_toNat hcount]
    have htail : tail.map UInt16.toNat =
        if c.repr.length % 2 ≠ 0 then [irTrailGap c] else [] := by
      by_cases hodd : c.repr.length % 2 ≠ 0
      · simp only [tail, if_pos hodd, List.map_singleton]
        exact congrArg (fun n => [n]) hgapCast
      · simp only [tail, if_neg hodd, List.map_nil]
    rw [htail]
    rfl

/-- The radio case: the frame ends on a mark, so the gap makes it even. -/
theorem captureCode_storable_rf {src : Source} (hrf : src ≠ .ir) (t : Track)
    (h : Explains src H c ev) (hcount : 0 < c.count) (hodd : c.repr.length % 2 = 1) :
    Storable src t c ev (captureCode src t c) := by
  obtain ⟨hlow, hhigh⟩ := h.reference_length
  simp only [kMinBurstPulses, kMaxBurstPulses, maxPulses] at hlow hhigh
  have hlength := h.meanFrame_length
  obtain ⟨hgapCast, hgapNe⟩ := clampedGap_toNat
    (if 0 < t.resetGapUs then t.resetGapUs.toNat else c.measuredGap)
  obtain ⟨hrepeatCast, hrepeatLow, hrepeatHigh⟩ := storedFrameRepeat_range t.frameCount
  have hcode : captureCode src t c =
      { kind := .rf
        freqMHz := if src = .rf315 then 315 else 433
        pulses := c.meanFrame ++ [UInt16.ofNat (rfTrailGap t c)]
        frameRepeat := UInt8.ofNat (storedFrameRepeat t.frameCount) } := if_neg hrf
  rw [hcode]
  have hlen : (c.meanFrame ++ [UInt16.ofNat (rfTrailGap t c)]).length = c.repr.length + 1 := by
    simp [hlength]
  have hpulses : c.meanFrame ++ [UInt16.ofNat (rfTrailGap t c)] ≠ [] ∧
      (c.meanFrame ++ [UInt16.ofNat (rfTrailGap t c)]).length % 2 = 0 ∧
      (c.meanFrame ++ [UInt16.ofNat (rfTrailGap t c)]).length ≤ maxPulses := by
    rw [hlen]
    simp only [maxPulses]
    exact ⟨by simp, by omega, by omega⟩
  have hrepeat : 1 ≤ UInt8.ofNat (storedFrameRepeat t.frameCount) ∧
      UInt8.ofNat (storedFrameRepeat t.frameCount) ≤ maxFrameRepeat := by
    rw [UInt8.le_iff_toNat_le, UInt8.le_iff_toNat_le, hrepeatCast]
    exact ⟨hrepeatLow, hrepeatHigh⟩
  refine
    { valid := (validateCode_eq_ok_iff _).mpr (.inr ⟨hpulses.1, hpulses.2.1, hpulses.2.2,
        fun _ => ⟨?_, rfl⟩, ?_, hrepeat⟩)
      kind := (if_neg hrf).symm, pulses := hpulses, band := fun _ => ⟨rfl, rfl⟩
      carrier := fun hir => absurd hir hrf, frameRepeat := hrepeat, nonzero := ?_
      totals := h.totals, pulseCasts := ?_, gapCasts := h.measuredGap_eq
      carrierCast := fun hir => absurd hir hrf, repeatCast := fun _ => hrepeatCast }
  · by_cases hband : src = .rf315
    · exact .inl (if_pos hband)
    · exact .inr (if_neg hband)
  · intro hir
    cases hir
  · intro p hp
    rcases List.mem_append.mp hp with hmean | htail
    · exact h.meanFrame_ne_zero hcount p hmean
    · rw [List.mem_singleton.mp htail]
      exact hgapNe
  · rw [List.map_append, h.meanFrame_toNat hcount, List.map_singleton]
    simp only [exactPulses, if_pos hrf]
    exact congrArg _ (congrArg (fun n => [n]) hgapCast)

end Captured

/-- The code handed out in `captured` is the winning cluster's, and can be stored. -/
theorem takeCode_storable {events : List Event} (hodd : EndOnMarks events)
    (hcaptured : (LearnMachine.run events).state = .captured) :
    ∃ pre src pulses carrierHz now post t c,
      events = pre ++ .feedBurst src pulses carrierHz now :: post ∧
      Entry pre src pulses carrierHz now t c ∧
      ∃ ev ∈ ledger (pre ++ [Event.feedBurst src pulses carrierHz now]) src,
        Storable src t c ev (LearnMachine.run events).takeCode.1 := by
  obtain ⟨pre, e, post, hevents, hbefore, hafter, hcode⟩ := captured_since hcaptured
  obtain ⟨src, pulses, carrierHz, now, t, c, rfl, hentry⟩ := captured_entry hbefore hafter
  obtain ⟨i, ev, -, hev, hexplains⟩ := hentry.explains
  refine ⟨pre, src, pulses, carrierHz, now, post, t, c, hevents, hentry, ev,
    List.mem_of_getElem? hev, ?_⟩
  have hcount : 0 < c.count := Nat.lt_of_lt_of_le (by decide) hentry.won.2.1
  have htaken : (LearnMachine.run events).takeCode.1 = captureCode src t c := by
    unfold LearnMachine.takeCode
    rw [if_neg (not_not.mpr hcaptured)]
    exact hcode.trans hentry.code
  rw [htaken]
  by_cases hir : src = .ir
  · subst hir
    exact captureCode_storable_ir t hexplains hcount
  · refine captureCode_storable_rf hir t hexplains hcount ?_
    obtain ⟨g, hhead, hframe⟩ := hexplains.first
    have hheard := hexplains.sublist.subset (List.mem_of_mem_head? hhead)
    obtain ⟨fed, hz, time, hmem, hfed⟩ := mem_heard hheard
    have hevent : Event.feedBurst src fed hz time ∈ events := by
      rw [hevents]
      rcases List.mem_append.mp hmem with hpre | hlast
      · exact List.mem_append_left _ hpre
      · rw [List.mem_singleton.mp hlast]
        exact List.mem_append_right _ List.mem_cons_self
    rw [← hframe, hfed]
    exact frameOf_odd hir (hodd src fed hz time hevent hir)

/-- In every run the counters are exact while the machine listens, and the code
handed out in `captured` can be stored. -/
theorem captured_code_storable (events : List Event) (hodd : EndOnMarks events) :
    ((LearnMachine.run events).state = .listening → ∀ src,
      List.Forall₂ Totals ((LearnMachine.run events).tracks src).clusters
        (ledger events src)) ∧
    ((LearnMachine.run events).state = .captured →
      ∃ pre src pulses carrierHz now post t c,
        events = pre ++ .feedBurst src pulses carrierHz now :: post ∧
        Entry pre src pulses carrierHz now t c ∧
        ∃ ev ∈ ledger (pre ++ [Event.feedBurst src pulses carrierHz now]) src,
          Storable src t c ev (LearnMachine.run events).takeCode.1) := by
  constructor
  · intro hlisten src
    exact (listening_explains events hlisten src).imp fun _ _ h => h.totals
  · exact takeCode_storable hodd

/-- Three infrared presses of a 38 kHz code. -/
theorem captured_code_storable_ir :
    (LearnMachine.run [.begin 0, .feedBurst .ir (List.replicate 17 560) 38000 1000,
      .feedBurst .ir (List.replicate 17 560) 38100 1100,
      .feedBurst .ir (List.replicate 17 560) 38200 1200]).state = .captured ∧
    ∃ pre src pulses carrierHz now post t c,
      [Event.begin 0, .feedBurst .ir (List.replicate 17 560) 38000 1000,
        .feedBurst .ir (List.replicate 17 560) 38100 1100,
        .feedBurst .ir (List.replicate 17 560) 38200 1200] =
          pre ++ .feedBurst src pulses carrierHz now :: post ∧
      Entry pre src pulses carrierHz now t c ∧
      ∃ ev ∈ ledger (pre ++ [Event.feedBurst src pulses carrierHz now]) src,
        Storable src t c ev (LearnMachine.run [.begin 0,
          .feedBurst .ir (List.replicate 17 560) 38000 1000,
          .feedBurst .ir (List.replicate 17 560) 38100 1100,
          .feedBurst .ir (List.replicate 17 560) 38200 1200]).takeCode.1 := by
  have hcaptured : (LearnMachine.run [.begin 0,
      .feedBurst .ir (List.replicate 17 560) 38000 1000,
      .feedBurst .ir (List.replicate 17 560) 38100 1100,
      .feedBurst .ir (List.replicate 17 560) 38200 1200]).state = .captured := by
    decide +kernel
  refine ⟨hcaptured, (captured_code_storable _ ?_).2 hcaptured⟩
  intro src pulses carrierHz now hmem hrf
  simp only [List.mem_cons, Event.feedBurst.injEq, List.not_mem_nil, or_false,
    reduceCtorEq, false_or] at hmem
  rcases hmem with ⟨rfl, -⟩ | ⟨rfl, -⟩ | ⟨rfl, -⟩ <;> exact absurd rfl hrf

end Learn

end RfIrBlaster
