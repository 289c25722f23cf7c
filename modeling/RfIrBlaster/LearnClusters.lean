/-
The cluster table of one source.  Its payloads never match each other, an
eviction takes only a cluster that nothing protects, and a step inside a session
leaves every table alone or feeds one burst to one of them.
-/
import RfIrBlaster.LearnLedger

namespace RfIrBlaster

namespace Learn

open LearnMachine (Event)

@[simp]
theorem Cluster.addGap_repr (us : Nat) (c : Cluster) : (c.addGap us).repr = c.repr :=
  rfl

@[simp]
theorem Cluster.addGap_count (us : Nat) (c : Cluster) : (c.addGap us).count = c.count :=
  rfl

@[simp]
theorem Cluster.addGap_groupCount (us : Nat) (c : Cluster) :
    (c.addGap us).groupCount = c.groupCount :=
  rfl

@[simp]
theorem Cluster.countBurst_repr (frame : List UInt16) (carrierHz : UInt16) (g : Nat)
    (c : Cluster) : (c.countBurst frame carrierHz g).repr = c.repr := by
  unfold Cluster.countBurst Cluster.seenIn Cluster.addMember
  split_ifs <;> rfl

/-- The member count of a cluster after one more burst. -/
theorem Cluster.countBurst_count (frame : List UInt16) (carrierHz : UInt16) (g : Nat)
    (c : Cluster) :
    (c.countBurst frame carrierHz g).count =
      if c.count < kMaxClusterMembers then (c.count + 1) % 256 else c.count := by
  unfold Cluster.countBurst Cluster.seenIn Cluster.addMember
  split_ifs <;> rfl

/-- The press count of a cluster after one more burst. -/
theorem Cluster.countBurst_groupCount (frame : List UInt16) (carrierHz : UInt16) (g : Nat)
    (c : Cluster) :
    (c.countBurst frame carrierHz g).groupCount =
      if c.lastGroup ≠ g then (c.groupCount + 1) % 256 else c.groupCount := by
  unfold Cluster.countBurst Cluster.seenIn Cluster.addMember
  split_ifs <;> rfl

theorem Cluster.countBurst_lastGroup (frame : List UInt16) (carrierHz : UInt16) (g : Nat)
    (c : Cluster) : (c.countBurst frame carrierHz g).lastGroup = g := by
  unfold Cluster.countBurst Cluster.seenIn
  split_ifs with hseen
  · rfl
  · exact not_not.mp hseen

/-- The scan ends on the cluster it started from or on one that is not protected. -/
theorem weakestScan_cases {rest : List Cluster} {i w n : Nat} {weakest : Option (Nat × Nat)}
    (h : weakestScan rest i weakest = some (w, n)) :
    weakest = some (w, n) ∨
      ∃ j c, w = i + j ∧ rest[j]? = some c ∧ c.isProtected = false := by
  induction rest generalizing i weakest with
  | nil => exact .inl h
  | cons c rest ih =>
      -- a later cluster of the tail sits one further along the whole list
      have hlater : (∃ j d, w = i + 1 + j ∧ rest[j]? = some d ∧ d.isProtected = false) →
          ∃ j d, w = i + j ∧ (c :: rest)[j]? = some d ∧ d.isProtected = false := by
        rintro ⟨j, d, hw, hd, hfree⟩
        exact ⟨j + 1, d, by omega, by simpa using hd, hfree⟩
      have htake : c.isProtected = false → some (i, c.count) = some (w, n) →
          ∃ j d, w = i + j ∧ (c :: rest)[j]? = some d ∧ d.isProtected = false := by
        intro hfree heq
        obtain ⟨rfl, -⟩ := Prod.mk.inj (Option.some.inj heq)
        exact ⟨0, c, rfl, rfl, hfree⟩
      unfold weakestScan at h
      by_cases hprotected : c.isProtected = true
      · rw [if_pos hprotected] at h
        exact (ih h).imp_right hlater
      · rw [if_neg hprotected] at h
        have hfree : c.isProtected = false := by simpa using hprotected
        cases weakest with
        | none => exact .inr ((ih h).elim (htake hfree) hlater)
        | some best =>
            simp only at h
            split_ifs at h with hweaker
            · exact .inr ((ih h).elim (htake hfree) hlater)
            · exact (ih h).imp_right hlater

/-- What the choice of a slot says about the table. -/
inductive Slot.Chosen (clusters : List Cluster) (frame : List UInt16) : Slot → Prop
  | found {i : Nat} {c : Cluster} (held : clusters[i]? = some c)
      (alike : burstsMatch c.repr frame = true) : Slot.Chosen clusters frame (.found i)
  | fresh (new : ∀ c ∈ clusters, burstsMatch c.repr frame = false) :
      Slot.Chosen clusters frame .fresh
  | evict {i : Nat} {c : Cluster} (new : ∀ c ∈ clusters, burstsMatch c.repr frame = false)
      (held : clusters[i]? = some c) (weak : c.isProtected = false) :
      Slot.Chosen clusters frame (.evict i)
  | full (new : ∀ c ∈ clusters, burstsMatch c.repr frame = false) :
      Slot.Chosen clusters frame .full

theorem chooseSlot_chosen (clusters : List Cluster) (frame : List UInt16) :
    Slot.Chosen clusters frame (chooseSlot clusters frame) := by
  cases hfind : clusters.findIdx? (fun c => burstsMatch c.repr frame) with
  | some i =>
      obtain ⟨hlt, hmatch, -⟩ := List.findIdx?_eq_some_iff_getElem.mp hfind
      simp only [chooseSlot, hfind]
      exact .found (List.getElem?_eq_getElem hlt) hmatch
  | none =>
      have hnew : ∀ c ∈ clusters, burstsMatch c.repr frame = false := by
        simpa [List.findIdx?_eq_none_iff] using hfind
      simp only [chooseSlot, hfind]
      split_ifs with hroom
      · exact .fresh hnew
      · cases hweak : weakestScan clusters 0 none with
        | none => exact .full hnew
        | some best =>
            obtain ⟨w, n⟩ := best
            rcases weakestScan_cases hweak with hnone | ⟨j, c, hw, hc, hfree⟩
            · cases hnone
            · rw [Nat.zero_add] at hw
              subst hw
              exact .evict hnew hc hfree

/-- A frame that matches one cluster only is found there. -/
theorem chooseSlot_of_apart {clusters : List Cluster} {frame : List UInt16} {i : Nat}
    {c : Cluster} (hc : clusters[i]? = some c) (hmatch : burstsMatch c.repr frame = true)
    (hapart : ∀ j d, clusters[j]? = some d → burstsMatch d.repr frame = true → j = i) :
    chooseSlot clusters frame = .found i := by
  have hmem : c ∈ clusters := List.mem_of_getElem? hc
  cases hslot : chooseSlot clusters frame with
  | found j =>
      cases hslot ▸ chooseSlot_chosen clusters frame with
      | found hd halike => rw [hapart j _ hd halike]
  | fresh =>
      cases hslot ▸ chooseSlot_chosen clusters frame with
      | fresh hnew => exact absurd (hnew c hmem) (by simp [hmatch])
  | evict j =>
      cases hslot ▸ chooseSlot_chosen clusters frame with
      | evict hnew => exact absurd (hnew c hmem) (by simp [hmatch])
  | full =>
      cases hslot ▸ chooseSlot_chosen clusters frame with
      | full hnew => exact absurd (hnew c hmem) (by simp [hmatch])

/-- The arrival of a burst changes nothing but the gaps of one cluster. -/
theorem arrive_clusters (t : Track) (start : Nat) :
    (t.arrive start).clusters = t.clusters ∨
      ∃ i us, (t.arrive start).clusters = t.clusters.modify i (Cluster.addGap us) := by
  rcases t.arrive_cases start with ⟨-, heq⟩ | ⟨-, -, heq⟩ | ⟨-, i, us, -, heq⟩
  · exact .inl (by rw [heq])
  · exact .inl (by rw [heq])
  · exact .inr ⟨i, us, by rw [heq]⟩

/-- The slot a burst went to, as the track remembers it. -/
theorem assign_lastCluster (t : Track) (frame : List UInt16) (carrierHz : UInt16) :
    (t.assign frame carrierHz).2 = (chooseSlot t.clusters frame).index t.clusters :=
  rfl

/-- Not yet enough members and presses for a capture. -/
def Cluster.Unsettled (c : Cluster) : Prop :=
  c.count < kMatchesNeeded ∨ c.groupCount < kRfPressesNeeded

/-- What every cluster keeps, whatever its source. -/
structure Cluster.Waiting (c : Cluster) : Prop where
  counted : c.groupCount ≤ c.count
  unsettled : c.Unsettled

/-- What every cluster of a radio source keeps besides: a payload fit to match. -/
structure Cluster.Fair (src : Source) (c : Cluster) : Prop extends c.Waiting where
  formed : ∀ carrierHz, wellFormed src c.repr carrierHz = true

theorem Cluster.Waiting.addGap {c : Cluster} (h : c.Waiting) (us : Nat) : (c.addGap us).Waiting :=
  ⟨h.counted, h.unsettled⟩

/-- The clusters of a radio source: payloads that do not match each other. -/
structure Track.Orderly (src : Source) (t : Track) : Prop where
  apart : t.clusters.Pairwise (fun a b => burstsMatch a.repr b.repr = false)
  fair : ∀ c ∈ t.clusters, c.Fair src

/-- Two slots of an orderly table whose payloads match are one slot. -/
theorem eq_of_burstsMatch {clusters : List Cluster}
    (hapart : clusters.Pairwise (fun a b => burstsMatch a.repr b.repr = false)) {i j : Nat}
    {c d : Cluster} (hc : clusters[i]? = some c) (hd : clusters[j]? = some d)
    (hmatch : burstsMatch c.repr d.repr = true) : i = j := by
  obtain ⟨hi, rfl⟩ := List.getElem?_eq_some_iff.mp hc
  obtain ⟨hj, rfl⟩ := List.getElem?_eq_some_iff.mp hd
  rcases Nat.lt_trichotomy i j with hlt | heq | hgt
  · exact absurd (List.pairwise_iff_getElem.mp hapart i j hi hj hlt) (by simp [hmatch])
  · exact heq
  · have hother := List.pairwise_iff_getElem.mp hapart j i hj hi hgt
    rw [burstsMatch_comm] at hother
    exact absurd hother (by simp [hmatch])

/-- Changing a cluster other than by its payload keeps the payloads apart. -/
theorem apart_modify {clusters : List Cluster} {f : Cluster → Cluster}
    (hapart : clusters.Pairwise (fun a b => burstsMatch a.repr b.repr = false)) (i : Nat)
    (hf : ∀ c, (f c).repr = c.repr) :
    (clusters.modify i f).Pairwise (fun a b => burstsMatch a.repr b.repr = false) := by
  have hrepr : (clusters.modify i f).map Cluster.repr = clusters.map Cluster.repr := by
    apply List.ext_getElem?
    intro j
    rw [List.getElem?_map, List.getElem?_map, List.getElem?_modify]
    cases clusters[j]? with
    | none => rfl
    | some c => by_cases hij : i = j <;> simp [hij, hf]
  rw [← List.pairwise_map (R := fun a b => burstsMatch a b = false)] at hapart ⊢
  rw [hrepr]
  exact hapart

/-- A payload that matches none may take the place of any. -/
theorem apart_set {clusters : List Cluster}
    (hapart : clusters.Pairwise (fun a b => burstsMatch a.repr b.repr = false)) (i : Nat)
    {c : Cluster} (hnew : ∀ d ∈ clusters, burstsMatch d.repr c.repr = false) :
    (clusters.set i c).Pairwise (fun a b => burstsMatch a.repr b.repr = false) := by
  rw [List.pairwise_iff_getElem] at hapart ⊢
  intro j k hj hk hjk
  rw [List.length_set] at hj hk
  rw [List.getElem_set, List.getElem_set]
  by_cases hij : i = j
  · rw [if_pos hij, if_neg (by omega), burstsMatch_comm]
    exact hnew _ (List.getElem_mem hk)
  · rw [if_neg hij]
    by_cases hik : i = k
    · rw [if_pos hik]
      exact hnew _ (List.getElem_mem hj)
    · rw [if_neg hik]
      exact hapart j k hj hk hjk

theorem apart_concat {clusters : List Cluster}
    (hapart : clusters.Pairwise (fun a b => burstsMatch a.repr b.repr = false))
    {c : Cluster} (hnew : ∀ d ∈ clusters, burstsMatch d.repr c.repr = false) :
    (clusters ++ [c]).Pairwise (fun a b => burstsMatch a.repr b.repr = false) := by
  rw [List.pairwise_append]
  refine ⟨hapart, List.pairwise_singleton _ _, ?_⟩
  intro d hd e he
  rw [List.mem_singleton.mp he]
  exact hnew d hd

/-- The carrier plays no part in what is well formed on a radio source. -/
theorem wellFormed_radio {src : Source} (hrf : src ≠ .ir) {frame : List UInt16}
    {carrierHz : UInt16} (h : wellFormed src frame carrierHz = true) (other : UInt16) :
    wellFormed src frame other = true := by
  rw [wellFormed_iff] at h ⊢
  exact ⟨h.1, h.2.1, h.2.2.1, fun hir => absurd hir hrf⟩

/-- One more member, of whatever press, leaves no more presses than members. -/
theorem Cluster.Waiting.countBurst_counted {c : Cluster} (h : c.Waiting) (frame : List UInt16)
    (carrierHz : UInt16) (g : Nat) :
    (c.countBurst frame carrierHz g).groupCount ≤ (c.countBurst frame carrierHz g).count := by
  have hcounted := h.counted
  have hunsettled := h.unsettled
  simp only [Cluster.Unsettled, kMatchesNeeded, kRfPressesNeeded] at hunsettled
  rw [Cluster.countBurst_count, Cluster.countBurst_groupCount]
  by_cases hroom : c.count < kMaxClusterMembers
  · rw [if_pos hroom]
    simp only [kMaxClusterMembers] at hroom
    split_ifs <;> omega
  · rw [if_neg hroom]
    simp only [kMaxClusterMembers] at hroom
    split_ifs <;> omega

/-- Presses once counted stay counted: below a capture the 8-bit count cannot wrap. -/
theorem Cluster.Waiting.countBurst_groupCount {c : Cluster} (h : c.Waiting)
    (frame : List UInt16) (carrierHz : UInt16) (g : Nat) :
    (c.countBurst frame carrierHz g).groupCount =
      if c.lastGroup ≠ g then c.groupCount + 1 else c.groupCount := by
  have hcounted := h.counted
  have hunsettled := h.unsettled
  simp only [Cluster.Unsettled, kMatchesNeeded, kRfPressesNeeded] at hunsettled
  rw [Cluster.countBurst_groupCount]
  split_ifs <;> omega

theorem Cluster.Waiting.groupCount_le_countBurst {c : Cluster} (h : c.Waiting)
    (frame : List UInt16) (carrierHz : UInt16) (g : Nat) :
    c.groupCount ≤ (c.countBurst frame carrierHz g).groupCount := by
  rw [h.countBurst_groupCount]
  split_ifs <;> omega

theorem Cluster.start_countBurst (frame : List UInt16) (carrierHz : UInt16) (g : Nat) :
    ((Cluster.start frame).countBurst frame carrierHz g).count = 1 ∧
      ((Cluster.start frame).countBurst frame carrierHz g).groupCount ≤ 1 := by
  rw [Cluster.countBurst_count, Cluster.countBurst_groupCount]
  refine ⟨rfl, ?_⟩
  split_ifs
  · exact Nat.le_refl 1
  · exact Nat.zero_le 1

/-- A cluster of a table with one row changed is the changed row or an old one. -/
theorem mem_modify {clusters : List Cluster} {i : Nat} {f : Cluster → Cluster} {c : Cluster}
    (h : c ∈ clusters.modify i f) :
    (∃ d, clusters[i]? = some d ∧ c = f d) ∨ c ∈ clusters := by
  obtain ⟨j, hj⟩ := List.mem_iff_getElem?.mp h
  rw [List.getElem?_modify, Option.map_eq_map, Option.map_eq_some_iff] at hj
  obtain ⟨d, hd, rfl⟩ := hj
  by_cases hij : i = j
  · exact .inl ⟨d, hij ▸ hd, if_pos hij⟩
  · rw [if_neg hij]
    exact .inr (List.mem_of_getElem? hd)

/-- A burst that captures nothing leaves its cluster short of a capture. -/
theorem unsettled_of_winner_none {src : Source} {t : Track} (hwin : t.winner src = none)
    {i : Nat} {c : Cluster} (hlast : t.lastCluster = some i) (hc : t.clusters[i]? = some c) :
    c.Unsettled := by
  unfold Track.winner at hwin
  simp only [hlast, hc] at hwin
  split_ifs at hwin with hqualifies
  rw [not_and_or, not_or] at hqualifies
  unfold Cluster.Unsettled
  omega

theorem enter_clusters (t : Track) (src : Source) (pulses : List UInt16) (now : UInt64) :
    (t.enter src pulses now).clusters = (t.arrive (burstStart pulses now)).clusters :=
  noteDeclip_clusters _ _

/-- What a gap sample keeps of a cluster, the arrival of a burst keeps of every one. -/
theorem enter_forall {P : Cluster → Prop} {t : Track} (h : ∀ c ∈ t.clusters, P c)
    (hgap : ∀ c us, P c → P (c.addGap us)) (src : Source) (pulses : List UInt16)
    (now : UInt64) : ∀ c ∈ (t.enter src pulses now).clusters, P c := by
  intro c hc
  rw [enter_clusters] at hc
  rcases arrive_clusters t (burstStart pulses now) with heq | ⟨i, us, heq⟩
  · exact h c (heq ▸ hc)
  · rcases mem_modify (heq ▸ hc) with ⟨d, hd, rfl⟩ | hold
    · exact hgap d us (h d (List.mem_of_getElem? hd))
    · exact h c hold

theorem enter_apart {t : Track}
    (hapart : t.clusters.Pairwise (fun a b => burstsMatch a.repr b.repr = false))
    (src : Source) (pulses : List UInt16) (now : UInt64) :
    (t.enter src pulses now).clusters.Pairwise
      (fun a b => burstsMatch a.repr b.repr = false) := by
  rw [enter_clusters]
  rcases arrive_clusters t (burstStart pulses now) with heq | ⟨i, us, heq⟩
  · rw [heq]
    exact hapart
  · rw [heq]
    exact apart_modify hapart i fun _ => rfl

/-- The arrival of a burst keeps the table orderly. -/
theorem enter_orderly {src : Source} {t : Track} (h : t.Orderly src) (pulses : List UInt16)
    (now : UInt64) : (t.enter src pulses now).Orderly src where
  apart := enter_apart h.apart src pulses now
  fair := enter_forall h.fair (fun _ us hfair => ⟨hfair.toWaiting.addGap us, hfair.formed⟩)
    src pulses now

/-- The payloads stay apart wherever a burst goes. -/
theorem assign_apart {t : Track}
    (hapart : t.clusters.Pairwise (fun a b => burstsMatch a.repr b.repr = false))
    (frame : List UInt16) (carrierHz : UInt16) :
    (t.assign frame carrierHz).1.clusters.Pairwise
      (fun a b => burstsMatch a.repr b.repr = false) := by
  rw [assign_clusters]
  cases hslot : chooseSlot t.clusters frame with
  | found i => exact apart_modify hapart i fun c => c.countBurst_repr _ _ _
  | fresh =>
      cases hslot ▸ chooseSlot_chosen t.clusters frame with
      | fresh hnew => exact apart_concat hapart (by simpa [Cluster.start] using hnew)
  | evict i =>
      cases hslot ▸ chooseSlot_chosen t.clusters frame with
      | evict hnew => exact apart_set hapart i (by simpa [Cluster.start] using hnew)
  | full => exact hapart

/-- Every cluster after a burst is an old one, or the one the burst went to: grown
by the burst or opened with it. -/
theorem assign_mem {t : Track} {frame : List UInt16} {carrierHz : UInt16} {c : Cluster}
    (h : c ∈ (t.assign frame carrierHz).1.clusters) :
    c ∈ t.clusters ∨
      ∃ i, (t.assign frame carrierHz).2 = some i ∧
        (t.assign frame carrierHz).1.clusters[i]? = some c ∧
        ((∃ d ∈ t.clusters, c = d.countBurst frame carrierHz t.curGroup) ∨
          c = (Cluster.start frame).countBurst frame carrierHz t.curGroup) := by
  rw [assign_clusters] at h ⊢
  rw [assign_lastCluster]
  cases hslot : chooseSlot t.clusters frame with
  | found i =>
      rw [hslot] at h
      rcases mem_modify h with ⟨d, hd, rfl⟩ | hold
      · refine .inr ⟨i, rfl, ?_, .inl ⟨d, List.mem_of_getElem? hd, rfl⟩⟩
        simp [hd]
      · exact .inl hold
  | fresh =>
      rw [hslot] at h
      rcases List.mem_append.mp h with hold | hnew
      · exact .inl hold
      · rw [List.mem_singleton.mp hnew]
        exact .inr ⟨_, rfl, by simp, .inr rfl⟩
  | evict i =>
      rw [hslot] at h
      rcases List.mem_or_eq_of_mem_set h with hold | rfl
      · exact .inl hold
      · cases hslot ▸ chooseSlot_chosen t.clusters frame with
        | evict hnew hheld hweak =>
            obtain ⟨hi, -⟩ := List.getElem?_eq_some_iff.mp hheld
            exact .inr ⟨i, rfl, by simp [hi], .inr rfl⟩
  | full =>
      rw [hslot] at h
      exact .inl h

/-- A burst that does not capture leaves every cluster waiting. -/
theorem feed_waiting {src : Source} {t : Track} (h : ∀ c ∈ t.clusters, c.Waiting)
    (pulses : List UInt16) (carrierHz : UInt16) (now : UInt64)
    (hwin : (t.feed src pulses carrierHz now).winner src = none) :
    ∀ c ∈ (t.feed src pulses carrierHz now).clusters, c.Waiting := by
  have hentered := enter_forall h (fun _ us hwait => hwait.addGap us) src pulses now
  by_cases hformed : wellFormed src (frameOf src pulses) carrierHz = true
  · rw [t.feed_formed carrierHz now hformed] at hwin ⊢
    intro c hc
    rcases assign_mem hc with hold | ⟨i, hlast, hget, hkind⟩
    · exact hentered c hold
    · refine ⟨?_, unsettled_of_winner_none hwin hlast hget⟩
      rcases hkind with ⟨d, hd, rfl⟩ | rfl
      · exact (hentered d hd).countBurst_counted _ _ _
      · obtain ⟨hcount, hpresses⟩ := Cluster.start_countBurst (frameOf src pulses) carrierHz
          (t.enter src pulses now).curGroup
        omega
  · rw [t.feed_malformed carrierHz now hformed]
    exact hentered

/-- A burst that does not capture keeps its table orderly. -/
theorem feed_orderly {src : Source} (hrf : src ≠ .ir) {t : Track} (h : t.Orderly src)
    (pulses : List UInt16) (carrierHz : UInt16) (now : UInt64)
    (hwin : (t.feed src pulses carrierHz now).winner src = none) :
    (t.feed src pulses carrierHz now).Orderly src := by
  have hentered := enter_orderly h pulses now
  have hwaiting := feed_waiting (fun c hc => (h.fair c hc).toWaiting) pulses carrierHz now hwin
  by_cases hformed : wellFormed src (frameOf src pulses) carrierHz = true
  · rw [t.feed_formed carrierHz now hformed] at hwaiting ⊢
    refine ⟨assign_apart hentered.apart _ carrierHz, ?_⟩
    intro c hc
    refine ⟨hwaiting c hc, ?_⟩
    rcases assign_mem hc with hold | ⟨i, -, -, ⟨d, hd, rfl⟩ | rfl⟩
    · exact (hentered.fair c hold).formed
    · rw [Cluster.countBurst_repr]
      exact (hentered.fair d hd).formed
    · rw [Cluster.countBurst_repr]
      exact wellFormed_radio hrf hformed
  · rw [t.feed_malformed carrierHz now hformed]
    exact ⟨hentered.apart, hentered.fair⟩

/-- An event that neither begins a session nor brings a burst. -/
def Unheard : Event → Prop
  | .begin _ => False
  | .feedBurst _ pulses _ _ => pulses = []
  | _ => True

/-- What a step into `listening` did: it began a session, left the tracks alone, or
fed one burst that neither captured nor was refused. -/
theorem listening_step {m : LearnMachine} {e : Event}
    (h : (m.step e).state = .listening) :
    (∃ now, e = .begin now) ∨
    (m.state = .listening ∧ (m.step e).tracks = m.tracks ∧ Unheard e) ∨
    ∃ src pulses carrierHz now, e = .feedBurst src pulses carrierHz now ∧
      m.state = .listening ∧ pulses ≠ [] ∧
      ((m.tracks src).feed src pulses carrierHz now).winner src = none ∧
      (m.step e).tracks =
        Function.update m.tracks src ((m.tracks src).feed src pulses carrierHz now) := by
  cases e with
  | begin now => exact .inl ⟨now, rfl⟩
  | feedBurst src pulses carrierHz now =>
      change (m.feedBurst src pulses carrierHz now).state = .listening at h
      rcases m.feedBurst_cases src pulses carrierHz now with
        ⟨hignored, heq⟩ | ⟨hstate, hne, hfed⟩
      · rw [heq] at h
        exact .inr (.inl ⟨h, congrArg LearnMachine.tracks heq,
          hignored.resolve_left (not_not.mpr h)⟩)
      · simp only at hfed
        rcases hfed with ⟨c, -, heq⟩ | ⟨-, -, -, heq⟩ | ⟨hwin, -, heq⟩
        · rw [heq] at h
          cases h
        · rw [heq] at h
          cases h
        · exact .inr (.inr ⟨src, pulses, carrierHz, now, rfl, hstate, hne, hwin,
            congrArg LearnMachine.tracks heq⟩)
  | tick now =>
      change (m.tick now).state = .listening at h
      rcases m.tick_cases now with heq | ⟨-, reason, heq⟩
      · rw [heq] at h
        exact .inr (.inl ⟨h, congrArg LearnMachine.tracks heq, trivial⟩)
      · rw [heq] at h
        cases h
  | cancel => cases h
  | takeCode =>
      change m.takeCode.2.state = .listening at h
      rcases m.takeCode_cases with heq | ⟨-, heq⟩
      · rw [heq] at h
        exact .inr (.inl ⟨h, congrArg LearnMachine.tracks heq, trivial⟩)
      · rw [heq] at h
        cases h

section Watch

variable {G : Type} (empty : G)
  (record : Source → Track → G → List UInt16 → UInt16 → UInt64 → G)

/-- The machine with a log of every source's session. -/
structure Watched (G : Type) where
  machine : LearnMachine
  logs : Source → G

/-- A session starts with empty logs; a burst the machine takes is recorded with
its source's track as it was before. -/
def Watched.step (o : Watched G) (e : Event) : Watched G :=
  { machine := o.machine.step e
    logs :=
      match e with
      | .begin _ => fun _ => empty
      | .feedBurst src pulses carrierHz now =>
          if o.machine.state ≠ .listening ∨ pulses = [] then o.logs
          else
            Function.update o.logs src
              (record src (o.machine.tracks src) (o.logs src) pulses carrierHz now)
      | _ => o.logs }

def watcher : StateMachine (Watched G) Event where
  init := { machine := {}, logs := fun _ => empty }
  step := Watched.step empty record

/-- Watching does not disturb. -/
theorem watcher_machine (events : List Event) :
    ((watcher empty record).run events).machine = LearnMachine.run events :=
  (watcher empty record).run_induction
    (P := fun events o => o.machine = LearnMachine.run events) rfl
    (fun pre e ih => by
      have hrun : LearnMachine.run (pre ++ [e]) = (LearnMachine.run pre).step e :=
        StateMachine.run_concat _ _ _
      rw [hrun, ← ih]
      rfl)
    events

/-- A burst taken in a session is recorded. -/
theorem watcher_feedBurst {events : List Event} {src : Source} {pulses : List UInt16}
    (carrierHz : UInt16) (now : UInt64)
    (hlisten : (LearnMachine.run events).state = .listening) (hne : pulses ≠ []) :
    ((watcher empty record).run (events ++ [Event.feedBurst src pulses carrierHz now])).logs =
      Function.update ((watcher empty record).run events).logs src
        (record src ((LearnMachine.run events).tracks src)
          (((watcher empty record).run events).logs src) pulses carrierHz now) := by
  have hmachine := watcher_machine empty record events
  rw [StateMachine.run_concat, ← hmachine]
  rw [← hmachine] at hlisten
  exact if_neg (by simp [hlisten, hne])

/-- The session rule: what holds of a new track with an empty log, and is preserved
by a burst that does not capture, holds of every source's track and log in every
run while the machine listens. -/
theorem session_induction {I : Source → Track → G → Prop} (hempty : ∀ src, I src {} empty)
    (hfeed : ∀ src t log pulses carrierHz now, pulses ≠ [] → I src t log →
      (t.feed src pulses carrierHz now).winner src = none →
      I src (t.feed src pulses carrierHz now) (record src t log pulses carrierHz now))
    (events : List Event) (hlisten : (LearnMachine.run events).state = .listening)
    (src : Source) :
    I src ((LearnMachine.run events).tracks src)
      (((watcher empty record).run events).logs src) := by
  induction events using List.reverseRecOn generalizing src with
  | nil => cases hlisten
  | append_singleton pre e ih =>
      have hrun : LearnMachine.run (pre ++ [e]) = (LearnMachine.run pre).step e :=
        StateMachine.run_concat _ _ _
      rw [hrun] at hlisten ⊢
      rcases listening_step hlisten with ⟨now, rfl⟩ | ⟨hstate, htracks, hunheard⟩ |
        ⟨s, pulses, carrierHz, now, rfl, hstate, hne, hwin, htracks⟩
      · rw [StateMachine.run_concat]
        exact hempty src
      · have hlogs : ((watcher empty record).run (pre ++ [e])).logs =
            ((watcher empty record).run pre).logs := by
          rw [StateMachine.run_concat]
          cases e with
          | begin now => exact hunheard.elim
          | feedBurst s pulses carrierHz now => exact if_pos (.inr hunheard)
          | tick now => rfl
          | cancel => rfl
          | takeCode => rfl
        rw [htracks, hlogs]
        exact ih hstate src
      · rw [htracks, watcher_feedBurst empty record carrierHz now hstate hne]
        by_cases hs : src = s
        · subst hs
          rw [Function.update_self, Function.update_self]
          exact hfeed src _ _ pulses carrierHz now hne (ih hstate src) hwin
        · rw [Function.update_of_ne hs, Function.update_of_ne hs]
          exact ih hstate src

end Watch

/-- In every run, while the machine listens, every cluster of every source waits. -/
theorem listening_waiting {events : List Event}
    (hlisten : (LearnMachine.run events).state = .listening) (src : Source) :
    ∀ c ∈ ((LearnMachine.run events).tracks src).clusters, c.Waiting :=
  session_induction () (fun _ _ _ _ _ _ => ())
    (I := fun _ t _ => ∀ c ∈ t.clusters, c.Waiting) (fun _ => by simp)
    (fun _ _ _ pulses carrierHz now _ h hwin => feed_waiting h pulses carrierHz now hwin)
    events hlisten src

/-- In every run, while the machine listens, the table of a radio source is orderly. -/
theorem listening_orderly {events : List Event}
    (hlisten : (LearnMachine.run events).state = .listening) {src : Source}
    (hrf : src ≠ .ir) : ((LearnMachine.run events).tracks src).Orderly src := by
  have horderly := session_induction () (fun _ _ _ _ _ _ => ())
    (I := fun src t _ => src ≠ .ir → t.Orderly src)
    (fun _ _ => ⟨.nil, by simp⟩)
    (fun src t _ pulses carrierHz now _ h hwin hrf =>
      feed_orderly hrf (h hrf) pulses carrierHz now hwin)
    events hlisten src
  exact horderly hrf

end Learn

end RfIrBlaster
