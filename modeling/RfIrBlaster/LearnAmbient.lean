/-
What ambient traffic leaves in a captured RF code.  The reset gap and the frame
count are kept per source, not per cluster, so they are the maxima over everything
the source heard; they are the winner's own exactly when nothing else beat it.
-/
import RfIrBlaster.LearnLedger

namespace RfIrBlaster

namespace Learn

open LearnMachine (Event)

/-- The reset gap the de-clip of a burst reported, 0 for none. -/
def Heard.gap (h : Heard) : Nat :=
  h.declip.resetGapUs.toNat

/-- The frame count reported for a multi-frame burst, 0 for any other. -/
def Heard.frames (h : Heard) : Nat :=
  if 1 < h.declip.outFrames then h.declip.outFrames.toNat else 0

def largest (f : Heard → Nat) (H : List Heard) : Nat :=
  H.foldl (fun n h => max n (f h)) 0

@[simp]
theorem largest_concat (f : Heard → Nat) (H : List Heard) (b : Heard) :
    largest f (H ++ [b]) = max (largest f H) (f b) := by
  simp [largest]

/-- A maximum is below a bound exactly when every term is. -/
theorem largest_le_iff (f : Heard → Nat) (H : List Heard) (bound : Nat) :
    largest f H ≤ bound ↔ ∀ h ∈ H, f h ≤ bound := by
  induction H using List.reverseRecOn with
  | nil => simp [largest]
  | append_singleton pre b ih =>
      rw [largest_concat, max_le_iff, ih]
      constructor
      · rintro ⟨hpre, hb⟩ h hmem
        rcases List.mem_append.mp hmem with hmem | hmem
        · exact hpre h hmem
        · rw [List.mem_singleton.mp hmem]
          exact hb
      · intro hall
        exact ⟨fun h hmem => hall h (List.mem_append_left _ hmem), hall b (by simp)⟩

theorem largest_mono (f : Heard → Nat) {own H : List Heard} (hsub : own.Sublist H) :
    largest f own ≤ largest f H :=
  (largest_le_iff f own _).mpr fun h hmem =>
    (largest_le_iff f H _).mp le_rfl h (hsub.subset hmem)

/-- The track's de-clip record covers everything the source heard. -/
structure Track.Recorded (t : Track) (H : List Heard) : Prop where
  gap : t.resetGapUs.toNat = largest Heard.gap H
  frames : t.frameCount.toNat = largest Heard.frames H

theorem arrive_declipRecord (t : Track) (start : Nat) :
    (t.arrive start).resetGapUs = t.resetGapUs ∧
      (t.arrive start).frameCount = t.frameCount := by
  rcases t.arrive_cases start with ⟨-, heq⟩ | ⟨-, -, heq⟩ | ⟨-, i, us, -, heq⟩ <;>
    rw [heq] <;> exact ⟨rfl, rfl⟩

theorem assign_declipRecord (t : Track) (frame : List UInt16) (carrierHz : UInt16) :
    (t.assign frame carrierHz).1.resetGapUs = t.resetGapUs ∧
      (t.assign frame carrierHz).1.frameCount = t.frameCount := by
  unfold Track.assign
  cases chooseSlot t.clusters frame <;> exact ⟨rfl, rfl⟩

/-- The de-clip bookkeeping takes the maximum with what the burst reports,
whatever becomes of the burst afterwards. -/
theorem noteDeclip_recorded {t : Track} {H : List Heard} (h : t.Recorded H) (src : Source)
    (pulses : List UInt16) (carrierHz : UInt16) (now : UInt64) :
    (t.noteDeclip (declipOf src pulses)).Recorded
      (H ++ [Heard.ofBurst src H pulses carrierHz now]) := by
  let d := declipOf src pulses
  by_cases hout : 0 < d.out.length
  · have hdeclip : (Heard.ofBurst src H pulses carrierHz now).declip = d := if_pos hout
    have hnote : t.noteDeclip d =
        { t with
          resetGapUs := if 0 < d.resetGapUs then max t.resetGapUs d.resetGapUs
            else t.resetGapUs
          frameCount := if 1 < d.outFrames ∧ t.frameCount < d.outFrames then d.outFrames
            else t.frameCount } := if_pos hout
    rw [hnote]
    refine ⟨?_, ?_⟩
    · rw [largest_concat, ← h.gap, Heard.gap, hdeclip]
      by_cases hgap : 0 < d.resetGapUs
      · simp only [if_pos hgap, uint16_toNat_max]
      · have hzero : d.resetGapUs.toNat = 0 := by
          simpa [UInt16.lt_iff_toNat_lt, ← UInt16.toNat_inj] using hgap
        simp only [if_neg hgap, hzero, Nat.max_zero]
    · rw [largest_concat, ← h.frames, Heard.frames, hdeclip]
      by_cases hmulti : 1 < d.outFrames
      · by_cases hmore : t.frameCount < d.outFrames
        · have := UInt16.lt_iff_toNat_lt.mp hmore
          simp only [hmulti, hmore, true_and, if_true]
          omega
        · have := UInt16.le_iff_toNat_le.mp (UInt16.not_lt.mp hmore)
          simp only [if_pos hmulti, hmore, and_false, if_false]
          omega
      · simp only [hmulti, false_and, if_false, Nat.max_zero]
  · have hdeclip : (Heard.ofBurst src H pulses carrierHz now).declip = {} := if_neg hout
    have hnote : t.noteDeclip d = t := if_neg hout
    rw [hnote]
    refine ⟨?_, ?_⟩
    · rw [largest_concat, ← h.gap, Heard.gap, hdeclip]
      exact (Nat.max_zero _).symm
    · rw [largest_concat, ← h.frames, Heard.frames, hdeclip]
      exact (Nat.max_zero _).symm

theorem feed_recorded {t : Track} {H : List Heard} (h : t.Recorded H) (src : Source)
    (pulses : List UInt16) (carrierHz : UInt16) (now : UInt64) :
    (t.feed src pulses carrierHz now).Recorded
      (H ++ [Heard.ofBurst src H pulses carrierHz now]) := by
  obtain ⟨hgap, hframes⟩ := arrive_declipRecord t (burstStart pulses now)
  have harrived : (t.arrive (burstStart pulses now)).Recorded H :=
    ⟨by rw [hgap]; exact h.gap, by rw [hframes]; exact h.frames⟩
  have hentered := noteDeclip_recorded harrived src pulses carrierHz now
  by_cases hformed : wellFormed src (frameOf src pulses) carrierHz = true
  · rw [t.feed_formed carrierHz now hformed]
    obtain ⟨hgap', hframes'⟩ :=
      assign_declipRecord (t.enter src pulses now) (frameOf src pulses) carrierHz
    exact ⟨(congrArg UInt16.toNat hgap').trans hentered.gap,
      (congrArg UInt16.toNat hframes').trans hentered.frames⟩
  · rw [t.feed_malformed carrierHz now hformed]
    exact ⟨hentered.gap, hentered.frames⟩

/-- The frame repeat for a largest frame count: the default when no burst was
multi-frame, and never more than the most that can be stored. -/
def repeatFor (frames : Nat) : Nat :=
  min (if frames < 1 then kStoredFrameCount.toNat else frames) maxFrameRepeat.toNat

theorem storedFrameRepeat_eq (frameCount : UInt16) :
    storedFrameRepeat frameCount = repeatFor frameCount.toNat := by
  unfold storedFrameRepeat repeatFor
  by_cases hnone : frameCount < 1
  · have : frameCount.toNat < 1 := UInt16.lt_iff_toNat_lt.mp hnone
    simp only [if_pos hnone, if_pos this]
  · have : ¬frameCount.toNat < 1 := fun hlt => hnone (UInt16.lt_iff_toNat_lt.mpr hlt)
    simp only [if_neg hnone, if_neg this]

theorem repeatFor_of_pos {frames : Nat} (h : 0 < frames) : repeatFor frames = min frames 10 := by
  unfold repeatFor
  rw [if_neg (by omega)]
  rfl

/-- Only a source without multi-frame bursts, or one with the default count,
stores the default. -/
theorem repeatFor_eq_default_iff (frames : Nat) :
    repeatFor frames = 8 ↔ frames = 0 ∨ frames = 8 := by
  by_cases hzero : frames = 0
  · subst hzero
    exact ⟨fun _ => .inl rfl, fun _ => rfl⟩
  · rw [repeatFor_of_pos (by omega)]
    omega

/-- The trailing gap for a largest reset gap, with the cluster's measured gap to
fall back on. -/
def trailGapFor (gap : Nat) (c : Cluster) : Nat :=
  min (max (if 0 < gap then gap else c.measuredGap) kMinTrailGapUs) 65535

/-- Repeat count and trailing gap are those of the winner's own bursts. -/
structure OwnTiming (t : Track) (c : Cluster) (own : List Heard) (code : StoredCode) :
    Prop where
  frameRepeat : code.frameRepeat.toNat = repeatFor (largest Heard.frames own)
  gapUsed : t.resetGapUs.toNat = largest Heard.gap own
  trailGap : code.pulses.getLast? =
    some (UInt16.ofNat (trailGapFor (largest Heard.gap own) c))

/-- Nothing the source heard outdid the winner's own bursts: no larger reset gap,
and no larger frame count, a count past the clamp apart.  Where none of the own
bursts was multi-frame, neither was any other, unless the largest count is the
default by chance. -/
structure Quiet (H own : List Heard) : Prop where
  gaps : ∀ h ∈ H, h.gap ≤ largest Heard.gap own
  frames : if largest Heard.frames own = 0 then
      (∀ h ∈ H, h.frames = 0) ∨
        ((∀ h ∈ H, h.frames ≤ kStoredFrameCount.toNat) ∧
          ∃ h ∈ H, h.frames = kStoredFrameCount.toNat)
    else maxFrameRepeat.toNat ≤ largest Heard.frames own ∨
      ∀ h ∈ H, h.frames ≤ largest Heard.frames own

/-- Some term attains a positive maximum. -/
theorem largest_attained {f : Heard → Nat} {H : List Heard} (h : 0 < largest f H) :
    ∃ b ∈ H, f b = largest f H := by
  by_contra hnone
  push Not at hnone
  have hall : ∀ b ∈ H, f b ≤ largest f H - 1 := by
    intro b hb
    have hle := (largest_le_iff f H _).mp le_rfl b hb
    have := hnone b hb
    omega
  have := (largest_le_iff f H _).mpr hall
  omega

/-- When a smaller set of bursts yields the same frame repeat. -/
theorem repeatFor_eq_iff {own H : List Heard} (hsub : own.Sublist H) :
    repeatFor (largest Heard.frames H) = repeatFor (largest Heard.frames own) ↔
      if largest Heard.frames own = 0 then
        (∀ h ∈ H, h.frames = 0) ∨
          ((∀ h ∈ H, h.frames ≤ kStoredFrameCount.toNat) ∧
            ∃ h ∈ H, h.frames = kStoredFrameCount.toNat)
      else maxFrameRepeat.toNat ≤ largest Heard.frames own ∨
        ∀ h ∈ H, h.frames ≤ largest Heard.frames own := by
  have hmono := largest_mono Heard.frames hsub
  by_cases hown : largest Heard.frames own = 0
  · have hnone : largest Heard.frames H = 0 ↔ ∀ h ∈ H, h.frames = 0 := by
      rw [← Nat.le_zero, largest_le_iff]
      simp only [Nat.le_zero]
    have height : largest Heard.frames H = 8 ↔
        (∀ h ∈ H, h.frames ≤ 8) ∧ ∃ h ∈ H, h.frames = 8 := by
      constructor
      · intro heq
        refine ⟨(largest_le_iff _ _ _).mp heq.le, ?_⟩
        have hpos : 0 < largest Heard.frames H := by omega
        obtain ⟨b, hb, hattained⟩ := largest_attained hpos
        exact ⟨b, hb, hattained.trans heq⟩
      · rintro ⟨hle, b, hb, heq⟩
        have hhigh := (largest_le_iff Heard.frames H 8).mpr hle
        have hlow := (largest_le_iff Heard.frames H _).mp le_rfl b hb
        omega
    rw [if_pos hown, hown, ← hnone]
    exact (repeatFor_eq_default_iff _).trans (or_congr Iff.rfl height)
  · rw [if_neg hown, repeatFor_of_pos (by omega), repeatFor_of_pos (by omega),
      ← largest_le_iff]
    change _ ↔ 10 ≤ _ ∨ _
    omega

/-- At a capture the track's de-clip record covers everything heard. -/
theorem Entry.recorded {events : List Event} {src : Source} {pulses : List UInt16}
    {carrierHz : UInt16} {now : UInt64} {t : Track} {c : Cluster}
    (h : Entry events src pulses carrierHz now t c) :
    t.Recorded (heard src (events ++ [Event.feedBurst src pulses carrierHz now])) :=
  h.holds (I := fun _ t H _ => t.Recorded H) (fun _ => ⟨rfl, rfl⟩)
    (fun src _ _ _ pulses carrierHz now _ h => feed_recorded h src pulses carrierHz now)

/-- Whenever a run enters `captured` on a radio source, repeat count and trailing
gap are those of the bursts counted into the winning cluster exactly when nothing
else the source heard outdid them. -/
theorem ambient_timing_iff (events : List Event) (e : Event)
    (hbefore : (LearnMachine.run events).state ≠ .captured)
    (hafter : (LearnMachine.run (events ++ [e])).state = .captured)
    (hrf : (LearnMachine.run (events ++ [e])).code.kind = .rf) :
    ∃ src pulses carrierHz now t c, e = .feedBurst src pulses carrierHz now ∧
      Entry events src pulses carrierHz now t c ∧
      ∃ (i : Nat) (ev : Evidence), t.clusters[i]? = some c ∧
        (ledger (events ++ [e]) src)[i]? = some ev ∧
        Explains src (heard src (events ++ [e])) c ev ∧
        (OwnTiming t c ev.counted (LearnMachine.run (events ++ [e])).code ↔
          Quiet (heard src (events ++ [e])) ev.counted) := by
  obtain ⟨src, pulses, carrierHz, now, t, c, rfl, hentry⟩ := captured_entry hbefore hafter
  obtain ⟨i, ev, hc, hev, hexplains⟩ := hentry.explains
  refine ⟨src, pulses, carrierHz, now, t, c, rfl, hentry, i, ev, hc, hev, hexplains, ?_⟩
  rw [hentry.code] at hrf ⊢
  have hradio : src ≠ .ir := by
    rintro rfl
    cases hrf
  have hsub := ev.counted_sublist.trans hexplains.sublist
  have hgaps := largest_mono Heard.gap hsub
  have hrecorded := hentry.recorded
  have hcode : captureCode src t c =
      { kind := .rf
        freqMHz := if src = .rf315 then 315 else 433
        pulses := c.meanFrame ++ [UInt16.ofNat (rfTrailGap t c)]
        frameRepeat := UInt8.ofNat (storedFrameRepeat t.frameCount) } := if_neg hradio
  have hrepeat : (captureCode src t c).frameRepeat.toNat =
      repeatFor (largest Heard.frames
        (heard src (events ++ [Event.feedBurst src pulses carrierHz now]))) := by
    rw [hcode, ← hrecorded.frames, ← storedFrameRepeat_eq]
    have hle : storedFrameRepeat t.frameCount ≤ 10 := Nat.min_le_right _ _
    refine UInt8.toNat_ofNat_of_lt' ?_
    simp only [UInt8.size]
    omega
  have hlast : (captureCode src t c).pulses.getLast? =
      some (UInt16.ofNat (trailGapFor t.resetGapUs.toNat c)) := by
    rw [hcode, List.getLast?_append_of_ne_nil _ (by simp), List.getLast?_singleton]
    rfl
  constructor
  · intro hown
    refine ⟨?_, ?_⟩
    · rw [← largest_le_iff, ← hrecorded.gap, hown.gapUsed]
    · rw [← repeatFor_eq_iff hsub, ← hrepeat]
      exact hown.frameRepeat
  · intro hquiet
    have hgap : t.resetGapUs.toNat = largest Heard.gap ev.counted := by
      have hle := (largest_le_iff _ _ _).mpr hquiet.gaps
      rw [hrecorded.gap]
      omega
    refine ⟨?_, hgap, ?_⟩
    · rw [hrepeat]
      exact (repeatFor_eq_iff hsub).mpr hquiet.frames
    · rw [hlast, hgap]

/-- A key tapped three times in a quiet room. -/
theorem ambient_timing_iff_quiet_room :
    ∃ src pulses carrierHz now t c,
      Event.feedBurst .rf433 (List.replicate 17 400) 0 3000 =
        .feedBurst src pulses carrierHz now ∧
      Entry [.begin 0, .feedBurst .rf433 (List.replicate 17 400) 0 1000,
        .feedBurst .rf433 (List.replicate 17 400) 0 2000] src pulses carrierHz now t c ∧
      ∃ (i : Nat) (ev : Evidence), t.clusters[i]? = some c ∧
        (ledger (([.begin 0, .feedBurst .rf433 (List.replicate 17 400) 0 1000,
          .feedBurst .rf433 (List.replicate 17 400) 0 2000] : List Event) ++
          [Event.feedBurst .rf433 (List.replicate 17 400) 0 3000]) src)[i]? = some ev ∧
        Explains src (heard src (([.begin 0, .feedBurst .rf433 (List.replicate 17 400) 0 1000,
          .feedBurst .rf433 (List.replicate 17 400) 0 2000] : List Event) ++
          [Event.feedBurst .rf433 (List.replicate 17 400) 0 3000])) c ev ∧
        (OwnTiming t c ev.counted (LearnMachine.run (([.begin 0,
            .feedBurst .rf433 (List.replicate 17 400) 0 1000,
            .feedBurst .rf433 (List.replicate 17 400) 0 2000] : List Event) ++
            [Event.feedBurst .rf433 (List.replicate 17 400) 0 3000])).code ↔
          Quiet (heard src (([.begin 0, .feedBurst .rf433 (List.replicate 17 400) 0 1000,
            .feedBurst .rf433 (List.replicate 17 400) 0 2000] : List Event) ++
            [Event.feedBurst .rf433 (List.replicate 17 400) 0 3000])) ev.counted) :=
  ambient_timing_iff _ _ (by decide +kernel) (by decide +kernel) (by decide +kernel)

/-- A malformed two-frame burst before the three taps is stored as the code's
timing: frame repeat 2 and a gap of 5000 us, where no cluster holds a burst that
reported either. -/
theorem ambient_burst_pollutes :
    let events : List Event := [.begin 0, .feedBurst .rf433 [100, 5000, 100] 0 500,
      .feedBurst .rf433 (List.replicate 17 400) 0 1000,
      .feedBurst .rf433 (List.replicate 17 400) 0 2000,
      .feedBurst .rf433 (List.replicate 17 400) 0 3000]
    (LearnMachine.run events).state = .captured ∧
      wellFormed .rf433 (frameOf .rf433 [100, 5000, 100]) 0 = false ∧
      (LearnMachine.run events).code.frameRepeat = 2 ∧
      (LearnMachine.run events).code.pulses.getLast? = some 5000 ∧
      ∀ ev ∈ ledger events .rf433, repeatFor (largest Heard.frames ev.counted) = 8 ∧
        largest Heard.gap ev.counted = 0 := by
  decide +kernel

end Learn

end RfIrBlaster
