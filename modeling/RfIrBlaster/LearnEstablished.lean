/-
An established remote: a payload seen in two presses of a radio source.  Noise can
neither evict it nor have its source called rolling, and its next clean burst is
captured.
-/
import RfIrBlaster.LearnClusters

namespace RfIrBlaster

namespace Learn

open LearnMachine (Event)

/-- Slot `i` holds `payload`, seen in as many presses as a capture asks for. -/
def Track.Established (t : Track) (i : Nat) (payload : List UInt16) : Prop :=
  ∃ c, t.clusters[i]? = some c ∧ c.repr = payload ∧ kRfPressesNeeded ≤ c.groupCount

theorem arrive_established {t : Track} {i : Nat} {payload : List UInt16}
    (h : t.Established i payload) (start : Nat) :
    (t.arrive start).Established i payload := by
  obtain ⟨c, hc, hrepr, hpresses⟩ := h
  rcases arrive_clusters t start with heq | ⟨j, us, heq⟩
  · exact ⟨c, by rw [heq]; exact hc, hrepr, hpresses⟩
  · by_cases hij : j = i
    · exact ⟨c.addGap us, by simp [heq, hc, hij], hrepr, hpresses⟩
    · exact ⟨c, by simp [heq, hc, hij], hrepr, hpresses⟩

theorem enter_established {t : Track} {i : Nat} {payload : List UInt16}
    (h : t.Established i payload) (src : Source) (pulses : List UInt16) (now : UInt64) :
    (t.enter src pulses now).Established i payload := by
  obtain ⟨c, hc, hcluster⟩ := arrive_established h (burstStart pulses now)
  exact ⟨c, by rw [enter_clusters]; exact hc, hcluster⟩

/-- An established cluster is protected, so no burst takes its slot. -/
theorem assign_established {src : Source} {t : Track} (horderly : t.Orderly src) {i : Nat}
    {payload : List UInt16} (h : t.Established i payload) (frame : List UInt16)
    (carrierHz : UInt16) : (t.assign frame carrierHz).1.Established i payload := by
  obtain ⟨c, hc, hrepr, hpresses⟩ := h
  have hfair := horderly.fair c (List.mem_of_getElem? hc)
  unfold Track.Established
  rw [assign_clusters]
  cases hslot : chooseSlot t.clusters frame with
  | found j =>
      by_cases hij : j = i
      · refine ⟨c.countBurst frame carrierHz t.curGroup, by simp [hc, hij], ?_, ?_⟩
        · rw [Cluster.countBurst_repr]
          exact hrepr
        · exact hpresses.trans (hfair.toWaiting.groupCount_le_countBurst _ _ _)
      · exact ⟨c, by simp [hc, hij], hrepr, hpresses⟩
  | fresh =>
      obtain ⟨hi, -⟩ := List.getElem?_eq_some_iff.mp hc
      exact ⟨c, by simp [List.getElem?_append_left hi, hc], hrepr, hpresses⟩
  | evict j =>
      cases hslot ▸ chooseSlot_chosen t.clusters frame with
      | @evict _ d hnew hheld hweak =>
          have hij : j ≠ i := by
            rintro rfl
            obtain rfl : c = d := Option.some.inj (hc.symm.trans hheld)
            simp [Cluster.isProtected, hpresses] at hweak
          exact ⟨c, by simp [List.getElem?_set_ne hij, hc], hrepr, hpresses⟩
  | full => exact ⟨c, hc, hrepr, hpresses⟩

/-- No burst on the source moves an established cluster. -/
theorem feed_established {src : Source} {t : Track} (horderly : t.Orderly src) {i : Nat}
    {payload : List UInt16} (h : t.Established i payload) (pulses : List UInt16)
    (carrierHz : UInt16) (now : UInt64) :
    (t.feed src pulses carrierHz now).Established i payload := by
  have hentered := enter_established h src pulses now
  by_cases hformed : wellFormed src (frameOf src pulses) carrierHz = true
  · rw [t.feed_formed carrierHz now hformed]
    exact assign_established (enter_orderly horderly pulses now) hentered _ carrierHz
  · rw [t.feed_malformed carrierHz now hformed]
    exact hentered

/-- A source with an established payload is never called rolling. -/
theorem Track.Established.not_rolling {t : Track} {i : Nat} {payload : List UInt16}
    (h : t.Established i payload) : t.isRolling = false := by
  obtain ⟨c, hc, -, hpresses⟩ := h
  have hany : t.clusters.any (fun c => decide (c.groupCount ≥ kRfPressesNeeded)) = true :=
    List.any_eq_true.mpr ⟨c, List.mem_of_getElem? hc, by simpa using hpresses⟩
  unfold Track.isRolling
  rw [if_pos hany]

/-- The established payload itself, heard once more, wins. -/
theorem feed_payload_wins {src : Source} {t : Track} (horderly : t.Orderly src) {i : Nat}
    {payload : List UInt16} (h : t.Established i payload) {pulses : List UInt16}
    (hframe : frameOf src pulses = payload) (carrierHz : UInt16) (now : UInt64) :
    ∃ c, (t.feed src pulses carrierHz now).winner src = some c := by
  have hentered := enter_orderly horderly pulses now
  obtain ⟨c, hc, hrepr, hpresses⟩ := enter_established h src pulses now
  have hfair := hentered.fair c (List.mem_of_getElem? hc)
  have hformed : wellFormed src (frameOf src pulses) carrierHz = true := by
    rw [hframe, ← hrepr]
    exact hfair.formed carrierHz
  have hslot : chooseSlot (t.enter src pulses now).clusters (frameOf src pulses) = .found i := by
    apply chooseSlot_of_apart hc
    · rw [hframe, hrepr]
      exact burstsMatch_self payload
    · intro j d hd hmatch
      rw [hframe, ← hrepr] at hmatch
      exact eq_of_burstsMatch hentered.apart hd hc hmatch
  let won := c.countBurst (frameOf src pulses) carrierHz (t.enter src pulses now).curGroup
  have hcount : kMatchesNeeded ≤ won.count := by
    have hcounted := hfair.counted
    simp only [kRfPressesNeeded] at hpresses
    simp only [won, Cluster.countBurst_count, kMatchesNeeded]
    split_ifs with hroom <;> simp only [kMaxClusterMembers] at hroom <;> omega
  have hgroups : kRfPressesNeeded ≤ won.groupCount :=
    hpresses.trans (hfair.toWaiting.groupCount_le_countBurst _ _ _)
  refine ⟨won, ?_⟩
  rw [t.feed_formed carrierHz now hformed]
  unfold Track.winner
  simp only [assign_lastCluster, assign_clusters, hslot, Slot.index]
  simp [hc, hcount, hgroups, won]

/-- While the session lasts a step keeps what is established. -/
theorem step_established {events : List Event} {e : Event} (hbegin : ∀ now, e ≠ .begin now)
    (hlisten : ((LearnMachine.run events).step e).state = .listening) {src : Source}
    (hrf : src ≠ .ir) :
    (LearnMachine.run events).state = .listening ∧
      ∀ i payload, ((LearnMachine.run events).tracks src).Established i payload →
        (((LearnMachine.run events).step e).tracks src).Established i payload := by
  rcases listening_step hlisten with ⟨now, rfl⟩ | ⟨hstate, htracks, -⟩ |
    ⟨s, pulses, carrierHz, now, rfl, hstate, hne, hwin, htracks⟩
  · exact absurd rfl (hbegin now)
  · refine ⟨hstate, fun i payload h => ?_⟩
    rw [htracks]
    exact h
  · refine ⟨hstate, fun i payload h => ?_⟩
    rw [htracks]
    by_cases hs : src = s
    · subst hs
      rw [Function.update_self]
      exact feed_established (listening_orderly hstate hrf) h pulses carrierHz now
    · rw [Function.update_of_ne hs]
      exact h

/-- A slot established at some point of a session is established at every later one. -/
theorem run_established (pre post : List Event) {src : Source} (hrf : src ≠ .ir)
    (hsession : ∀ e ∈ post, ∀ now, e ≠ .begin now)
    (hlisten : (LearnMachine.run (pre ++ post)).state = .listening) {i : Nat}
    {payload : List UInt16}
    (h : ((LearnMachine.run pre).tracks src).Established i payload) :
    ((LearnMachine.run (pre ++ post)).tracks src).Established i payload := by
  let R := fun m m' : LearnMachine => m'.state = .listening → m.state = .listening ∧
    ∀ i payload, (m.tracks src).Established i payload →
      (m'.tracks src).Established i payload
  have hkept : R (LearnMachine.run pre) (LearnMachine.run (pre ++ post)) := by
    apply LearnMachine.machine.run_prefix_rel (R := R)
    · exact fun m hstate => ⟨hstate, fun _ _ h => h⟩
    · intro a b c hab hbc hstate
      obtain ⟨hmiddle, hlater⟩ := hbc hstate
      obtain ⟨hfirst, hearlier⟩ := hab hmiddle
      exact ⟨hfirst, fun i payload h => hlater i payload (hearlier i payload h)⟩
    · exact fun mid e rest heq hstate =>
        step_established (hsession e (by simp [heq])) hstate hrf
  exact (hkept hlisten).2 i payload h

/-- An established remote cannot be lost to noise: for the rest of the session its
cluster keeps slot and payload, no burst of its source fails the session, and the
next burst whose frame is the payload is captured. -/
theorem established_survives (pre post : List Event) {src : Source} (hrf : src ≠ .ir)
    {i : Nat} {c : Cluster} (hc : ((LearnMachine.run pre).tracks src).clusters[i]? = some c)
    (hpresses : kRfPressesNeeded ≤ c.groupCount)
    (hsession : ∀ e ∈ post, ∀ now, e ≠ .begin now)
    (hlisten : (LearnMachine.run (pre ++ post)).state = .listening) :
    (∃ c', ((LearnMachine.run (pre ++ post)).tracks src).clusters[i]? = some c' ∧
      c'.repr = c.repr ∧ kRfPressesNeeded ≤ c'.groupCount) ∧
    (∀ pulses carrierHz now,
      (LearnMachine.run (pre ++ post ++ [Event.feedBurst src pulses carrierHz now])).state ≠
        .failed) ∧
    (∀ pulses carrierHz now, frameOf src pulses = c.repr →
      (LearnMachine.run (pre ++ post ++ [Event.feedBurst src pulses carrierHz now])).state =
        .captured) := by
  have hkept := run_established pre post hrf hsession hlisten ⟨c, hc, rfl, hpresses⟩
  have horderly := listening_orderly hlisten hrf
  have hburst : ∀ pulses carrierHz now,
      LearnMachine.run (pre ++ post ++ [Event.feedBurst src pulses carrierHz now]) =
        (LearnMachine.run (pre ++ post)).feedBurst src pulses carrierHz now :=
    fun pulses carrierHz now => StateMachine.run_concat _ _ _
  refine ⟨hkept, ?_, ?_⟩
  · intro pulses carrierHz now
    rw [hburst]
    rcases (LearnMachine.run (pre ++ post)).feedBurst_cases src pulses carrierHz now with
      ⟨-, heq⟩ | ⟨-, -, hfed⟩
    · simp [heq, hlisten]
    · simp only at hfed
      rcases hfed with ⟨winner, -, heq⟩ | ⟨-, -, hrolling, -⟩ | ⟨-, -, heq⟩
      · simp [heq]
      · have hcalm := (feed_established horderly hkept pulses carrierHz now).not_rolling
        rw [hrolling] at hcalm
        cases hcalm
      · simp [heq, LearnMachine.setTrack, hlisten]
  · intro pulses carrierHz now hframe
    obtain ⟨winner, hwin⟩ := feed_payload_wins horderly hkept hframe carrierHz now
    obtain ⟨c', hc', hrepr, -⟩ := hkept
    have hformed := (horderly.fair c' (List.mem_of_getElem? hc')).formed carrierHz
    rw [hburst]
    rcases (LearnMachine.run (pre ++ post)).feedBurst_cases src pulses carrierHz now with
      ⟨hignored, -⟩ | ⟨-, -, hfed⟩
    · -- an empty burst is no well-formed payload
      have hnil : pulses = [] := hignored.resolve_left (not_not.mpr hlisten)
      subst hnil
      have hempty : frameOf src [] = [] := by cases src <;> rfl
      rw [hrepr, ← hframe, hempty] at hformed
      cases src <;> cases hformed
    · simp only at hfed
      rcases hfed with ⟨winner', -, heq⟩ | ⟨hnone, -⟩ | ⟨hnone, -⟩
      · rw [heq]
      · rw [hwin] at hnone
        cases hnone
      · rw [hwin] at hnone
        cases hnone

/-- A key pressed twice, then a burst of noise. -/
theorem established_survives_two_presses :
    (∃ c' : Cluster,
      ((LearnMachine.run (([.begin 0, .feedBurst .rf433 (List.replicate 17 400) 0 1000,
        .feedBurst .rf433 (List.replicate 17 400) 0 2000] : List Event) ++
        [Event.feedBurst .rf433 (List.replicate 19 700) 0 2600])).tracks .rf433).clusters[0]? =
          some c' ∧
      c'.repr = List.replicate 17 400 ∧ kRfPressesNeeded ≤ c'.groupCount) ∧
    (∀ pulses carrierHz now,
      (LearnMachine.run (([.begin 0, .feedBurst .rf433 (List.replicate 17 400) 0 1000,
        .feedBurst .rf433 (List.replicate 17 400) 0 2000] : List Event) ++
        [Event.feedBurst .rf433 (List.replicate 19 700) 0 2600] ++
        [Event.feedBurst .rf433 pulses carrierHz now])).state ≠ .failed) ∧
    (∀ pulses carrierHz now, frameOf .rf433 pulses = List.replicate 17 400 →
      (LearnMachine.run (([.begin 0, .feedBurst .rf433 (List.replicate 17 400) 0 1000,
        .feedBurst .rf433 (List.replicate 17 400) 0 2000] : List Event) ++
        [Event.feedBurst .rf433 (List.replicate 19 700) 0 2600] ++
        [Event.feedBurst .rf433 pulses carrierHz now])).state = .captured) :=
  established_survives
    [.begin 0, .feedBurst .rf433 (List.replicate 17 400) 0 1000,
      .feedBurst .rf433 (List.replicate 17 400) 0 2000]
    [.feedBurst .rf433 (List.replicate 19 700) 0 2600] (by decide)
    (i := 0)
    (c := { repr := List.replicate 17 400, sum := List.replicate 17 800,
            lastGroup := 2, count := 2, groupCount := 2 })
    (by decide +kernel) (by decide) (by simp) (by decide +kernel)

end Learn

end RfIrBlaster
