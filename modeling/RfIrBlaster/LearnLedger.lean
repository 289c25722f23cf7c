/-
The evidence behind a learn session.  `heard` is what a source was fed since the
last `begin`, with its press numbers; the ledger keeps, for every cluster slot,
the bursts counted into it and the gaps credited to it.  The machine's counters
are proved to be the totals of the ledger.
-/
import RfIrBlaster.LearnMachine
import RfIrBlaster.PairedTables

namespace RfIrBlaster

namespace Learn

open LearnMachine (Event)

/-- One burst as the machine heard it; presses are numbered from 1. -/
structure Heard where
  frame : List UInt16
  carrierHz : UInt16
  declip : Declip
  start : Nat
  fin : Nat
  press : Nat
deriving DecidableEq, Repr

/-- The press of a burst that starts at `start`: a new one when the source was
silent for more than `kPressGapMs` since its previous burst ended. -/
def pressAt (H : List Heard) (start : Nat) : Nat :=
  match H.getLast? with
  | none => 1
  | some last => if start > last.fin + kPressGapMs then last.press + 1 else last.press

def Heard.ofBurst (src : Source) (H : List Heard) (pulses : List UInt16)
    (carrierHz : UInt16) (now : UInt64) : Heard :=
  let d := declipOf src pulses
  let start := burstStart pulses now
  { frame := frameOf src pulses
    carrierHz := carrierHz
    declip := if 0 < d.out.length then d else {}
    start := start
    fin := now.toNat
    press := pressAt H start }

def hear (src : Source) (H : List Heard) : Event → List Heard
  | .begin _ => []
  | .feedBurst s pulses carrierHz now =>
      if s = src ∧ pulses ≠ [] then H ++ [Heard.ofBurst src H pulses carrierHz now] else H
  | _ => H

/-- The non-empty bursts fed to a source since the last `begin`, oldest first. -/
def heard (src : Source) (events : List Event) : List Heard :=
  events.foldl (hear src) []

@[simp]
theorem heard_concat (src : Source) (events : List Event) (e : Event) :
    heard src (events ++ [e]) = hear src (heard src events) e := by
  simp [heard]

/-- The full record behind one cluster. -/
structure Evidence where
  members : List Heard := []
  gaps : List Nat := []
deriving DecidableEq, Repr

/-- The members that reach the sums: counting stops at `kMaxClusterMembers`. -/
def Evidence.counted (ev : Evidence) : List Heard :=
  ev.members.take kMaxClusterMembers

def Evidence.addGap (us : Nat) (ev : Evidence) : Evidence :=
  { ev with gaps := ev.gaps ++ [us] }

def Evidence.addMember (h : Heard) (ev : Evidence) : Evidence :=
  { ev with members := ev.members ++ [h] }

/-- The gap sample `arrive` takes, on the ledger. -/
def Track.logGap (t : Track) (start : Nat) (L : List Evidence) : List Evidence :=
  if t.opensGroup start then L
  else
    match t.gapSample start with
    | none => L
    | some (i, us) => L.modify i (Evidence.addGap us)

/-- The clustering decision, on the ledger; an evicted cluster's evidence is
gone with it. -/
def logSlot (h : Heard) (L : List Evidence) : Slot → List Evidence
  | .found i => L.modify i (Evidence.addMember h)
  | .fresh => L ++ [Evidence.addMember h {}]
  | .evict i => L.set i (Evidence.addMember h {})
  | .full => L

/-- What `Track.feed` does, on the ledger. -/
def Track.log (t : Track) (src : Source) (h : Heard) (L : List Evidence) :
    List Evidence :=
  let L := t.logGap h.start L
  if wellFormed src h.frame h.carrierHz then
    logSlot h L (chooseSlot (t.arrive h.start).clusters h.frame)
  else L

/-- The machine together with what was heard and the ledger of every source. -/
structure Observed where
  machine : LearnMachine := {}
  heard : Source → List Heard := fun _ => []
  ledger : Source → List Evidence := fun _ => []

def Observed.logEvent (o : Observed) : Event → Source → List Evidence
  | .begin _ => fun _ => []
  | .feedBurst src pulses carrierHz now =>
      if o.machine.state ≠ .listening ∨ pulses = [] then o.ledger
      else
        Function.update o.ledger src
          ((o.machine.tracks src).log src
            (Heard.ofBurst src (o.heard src) pulses carrierHz now) (o.ledger src))
  | _ => o.ledger

def Observed.step (o : Observed) (e : Event) : Observed :=
  { machine := o.machine.step e
    heard := fun src => hear src (o.heard src) e
    ledger := o.logEvent e }

def observer : StateMachine Observed Event where
  init := {}
  step := Observed.step

/-- The evidence counted for a source's clusters in the session so far. -/
def ledger (events : List Event) (src : Source) : List Evidence :=
  (observer.run events).ledger src

/-- Watching does not disturb: the observed machine is the machine, and what it
was seen to hear is what was fed. -/
theorem observer_run (events : List Event) :
    (observer.run events).machine = LearnMachine.run events ∧
      (observer.run events).heard = fun src => heard src events := by
  induction events using List.reverseRecOn with
  | nil => exact ⟨rfl, rfl⟩
  | append_singleton pre e ih =>
      simp only [StateMachine.run_concat]
      refine ⟨?_, ?_⟩
      · change ((observer.run pre).machine.step e) = (LearnMachine.run pre).step e
        rw [ih.1]
      · funext src
        change hear src ((observer.run pre).heard src) e = heard src (pre ++ [e])
        rw [ih.2, heard_concat]

/-- The counters of a cluster are the exact totals of its evidence, and every
member is a well-formed burst of `H` that matches the reference. -/
structure Explains (src : Source) (H : List Heard) (c : Cluster) (ev : Evidence) :
    Prop where
  first : ∃ h ∈ ev.members.head?, h.frame = c.repr
  sublist : ev.members.Sublist H
  formed : ∀ h ∈ ev.members, wellFormed src h.frame h.carrierHz = true
  matched : ∀ h ∈ ev.members, burstsMatch c.repr h.frame = true
  count : c.count = ev.counted.length
  sum : c.sum = PairedTables.columnSums c.repr.length
    (ev.counted.map fun h => h.frame.map UInt16.toNat)
  carrierSum : c.carrierSum = (ev.counted.map fun h => h.carrierHz.toNat).sum
  gapCount : c.gapCount = ev.gaps.length
  gapCount_le : ev.gaps.length ≤ kMaxGapSamples
  gapSumUs : c.gapSumUs = ev.gaps.sum
  gap_le : ∀ us ∈ ev.gaps, us ≤ 65535

theorem Evidence.counted_length_le (ev : Evidence) :
    ev.counted.length ≤ kMaxClusterMembers := by
  simp [Evidence.counted]

theorem Evidence.counted_sublist (ev : Evidence) : ev.counted.Sublist ev.members :=
  List.take_sublist _ _

theorem Explains.mono {src : Source} {H H' : List Heard} {c : Cluster} {ev : Evidence}
    (h : Explains src H c ev) (hH : H.Sublist H') : Explains src H' c ev :=
  { h with sublist := h.sublist.trans hH }

/-- A gap sample keeps the gap total exact: 250 samples of at most 65535 us stay
below `2^32`. -/
theorem Explains.addGap {src : Source} {H : List Heard} {c : Cluster} {ev : Evidence}
    (h : Explains src H c ev) {us : Nat} (hus : us ≤ 65535)
    (hroom : c.gapCount < kMaxGapSamples) :
    Explains src H (c.addGap us) (ev.addGap us) := by
  have hlen : ev.gaps.length < kMaxGapSamples := h.gapCount ▸ hroom
  have htotal : ev.gaps.sum ≤ ev.gaps.length * 65535 := by
    simpa using List.sum_le_card_nsmul ev.gaps 65535 h.gap_le
  simp only [kMaxGapSamples] at hlen
  refine { first := h.first, sublist := h.sublist, formed := h.formed,
           matched := h.matched, count := h.count, sum := h.sum,
           carrierSum := h.carrierSum, gapCount := ?_, gapCount_le := ?_,
           gapSumUs := ?_, gap_le := ?_ }
  · simp only [Cluster.addGap, Evidence.addGap, List.length_append, List.length_singleton,
      h.gapCount]
    omega
  · simp only [Evidence.addGap, List.length_append, List.length_singleton, kMaxGapSamples]
    omega
  · simp only [Cluster.addGap, Evidence.addGap, List.sum_append, List.sum_singleton,
      h.gapSumUs]
    omega
  · intro x hx
    rcases List.mem_append.mp hx with hx | hx
    · exact h.gap_le x hx
    · rw [List.mem_singleton.mp hx]
      exact hus

theorem toNat_le_of_mem {x : Nat} {pulses : List UInt16}
    (hx : x ∈ pulses.map UInt16.toNat) : x ≤ 65535 := by
  obtain ⟨p, _, rfl⟩ := List.mem_map.mp hx
  have := p.toNat_lt
  omega

theorem carrier_total_le (members : List Heard) :
    (members.map fun h => h.carrierHz.toNat).sum ≤ members.length * 65535 := by
  have hle : ∀ x ∈ members.map (fun h => h.carrierHz.toNat), x ≤ 65535 := by
    intro x hx
    obtain ⟨h, _, rfl⟩ := List.mem_map.mp hx
    have := h.carrierHz.toNat_lt
    omega
  simpa using List.sum_le_card_nsmul _ 65535 hle

/-- The wrapped per-entry sums are the plain ones while at most 250 bursts are
counted. -/
theorem wrappedSums_eq {n : Nat} {rows : List (List Nat)}
    (hrows : ∀ row ∈ rows, ∀ x ∈ row, x ≤ 65535) (hcount : rows.length < 250)
    {frame : List UInt16} (hframe : frame.length = n) :
    List.zipWith (fun s p => (s + p.toNat) % 2 ^ 32) (PairedTables.columnSums n rows) frame =
      PairedTables.columnSums n (rows ++ [frame.map UInt16.toNat]) := by
  rw [PairedTables.columnSums_concat rows (by simpa using hframe)]
  apply List.ext_getElem
  · simp
  · intro i hleft hright
    simp only [List.getElem_zipWith, List.getElem_map]
    apply Nat.mod_eq_of_lt
    simp only [List.length_zipWith, PairedTables.columnSums_length] at hleft
    have hcolumn : i < (PairedTables.columnSums n rows).length := by simp; omega
    have hentry : i < frame.length := by omega
    have hs := PairedTables.columnSums_le hrows _ (List.getElem_mem hcolumn)
    have hp := frame[i].toNat_lt
    omega

theorem Explains.seenIn {src : Source} {H : List Heard} {c : Cluster} {ev : Evidence}
    (h : Explains src H c ev) (curGroup : Nat) :
    Explains src H (c.seenIn curGroup) ev := by
  unfold Cluster.seenIn
  split_ifs
  · exact { h with }
  · exact h

theorem Evidence.counted_addMember (ev : Evidence) (h : Heard) :
    (ev.addMember h).counted =
      if ev.counted.length < kMaxClusterMembers then ev.counted ++ [h] else ev.counted := by
  simp only [Evidence.counted, Evidence.addMember, List.length_take]
  split_ifs with hroom
  · rw [List.take_of_length_le (by simp; omega), List.take_of_length_le (by omega)]
  · rw [List.take_append_of_le_length (by omega)]

/-- Counting a burst keeps the totals exact: 250 entries of at most 65535 stay
below `2^32`, and past 250 members the totals no longer move. -/
theorem Explains.addMember {src : Source} {H : List Heard} {c : Cluster}
    {ev : Evidence} (hc : Explains src H c ev) {h : Heard}
    (hformed : wellFormed src h.frame h.carrierHz = true)
    (hmatch : burstsMatch c.repr h.frame = true) :
    Explains src (H ++ [h]) (c.addMember h.frame h.carrierHz) (ev.addMember h) := by
  have hfirst : ∃ g ∈ (ev.addMember h).members.head?, g.frame = c.repr := by
    obtain ⟨g, hg, hrepr⟩ := hc.first
    refine ⟨g, ?_, hrepr⟩
    simp only [Option.mem_def] at hg
    simp [Evidence.addMember, List.head?_append, hg]
  have hformed' : ∀ g ∈ (ev.addMember h).members,
      wellFormed src g.frame g.carrierHz = true := by
    intro g hg
    rcases List.mem_append.mp hg with hg | hg
    · exact hc.formed g hg
    · rw [List.mem_singleton.mp hg]
      exact hformed
  have hmatched' : ∀ g ∈ (ev.addMember h).members,
      burstsMatch c.repr g.frame = true := by
    intro g hg
    rcases List.mem_append.mp hg with hg | hg
    · exact hc.matched g hg
    · rw [List.mem_singleton.mp hg]
      exact hmatch
  have hsub : (ev.addMember h).members.Sublist (H ++ [h]) :=
    hc.sublist.append (List.Sublist.refl [h])
  have hcounted := ev.counted_addMember h
  rw [← hc.count] at hcounted
  unfold Cluster.addMember
  split_ifs at hcounted ⊢ with hroom
  · have hsmall : ev.counted.length < 250 := hc.count ▸ hroom
    refine { first := hfirst, sublist := hsub, formed := hformed',
             matched := hmatched', count := ?_, sum := ?_, carrierSum := ?_,
             gapCount := hc.gapCount, gapCount_le := hc.gapCount_le,
             gapSumUs := hc.gapSumUs, gap_le := hc.gap_le }
    · simp only [hcounted, List.length_append, List.length_singleton, hc.count]
      omega
    · simp only [hcounted, List.map_append, List.map_cons, List.map_nil, hc.sum]
      apply wrappedSums_eq
      · intro row hrow x hx
        obtain ⟨g, _, rfl⟩ := List.mem_map.mp hrow
        exact toNat_le_of_mem hx
      · simpa using hsmall
      · exact (burstsMatch_length hmatch).symm
    · have htotal := carrier_total_le ev.counted
      have := h.carrierHz.toNat_lt
      simp only [hcounted, List.map_append, List.map_cons, List.map_nil,
        List.sum_append, List.sum_singleton, hc.carrierSum]
      omega
  · exact
      { first := hfirst, sublist := hsub, formed := hformed', matched := hmatched'
        count := by rw [hcounted]; exact hc.count
        sum := by rw [hcounted]; exact hc.sum
        carrierSum := by rw [hcounted]; exact hc.carrierSum
        gapCount := hc.gapCount, gapCount_le := hc.gapCount_le
        gapSumUs := hc.gapSumUs, gap_le := hc.gap_le }

/-- A cluster opened for a burst, with that burst counted. -/
theorem Explains.start {src : Source} (H : List Heard) {h : Heard}
    (hformed : wellFormed src h.frame h.carrierHz = true) :
    Explains src (H ++ [h]) ((Cluster.start h.frame).addMember h.frame h.carrierHz)
      (Evidence.addMember h {}) := by
  have hopen : (Cluster.start h.frame).addMember h.frame h.carrierHz =
      { repr := h.frame
        sum := List.zipWith (fun s p => (s + p.toNat) % 2 ^ 32)
          (List.replicate h.frame.length 0) h.frame
        carrierSum := (0 + h.carrierHz.toNat) % 2 ^ 32
        count := 1 } := rfl
  have hcounted : (Evidence.addMember h {}).counted = [h] := rfl
  have hcarrier := h.carrierHz.toNat_lt
  rw [hopen]
  refine { first := ⟨h, rfl, rfl⟩, sublist := by simp [Evidence.addMember],
           formed := by simpa [Evidence.addMember] using hformed,
           matched := by simp [Evidence.addMember], count := rfl,
           sum := ?_, carrierSum := ?_, gapCount := rfl,
           gapCount_le := Nat.zero_le _, gapSumUs := rfl,
           gap_le := by simp [Evidence.addMember] }
  · rw [hcounted]
    have hrows : List.zipWith (fun s p => (s + p.toNat) % 2 ^ 32)
        (PairedTables.columnSums h.frame.length []) h.frame =
        PairedTables.columnSums h.frame.length ([] ++ [h.frame.map UInt16.toNat]) :=
      wrappedSums_eq (by simp) (by simp) rfl
    simpa using hrows
  · rw [hcounted]
    simp only [List.map_cons, List.map_nil, List.sum_singleton]
    omega

/-- A recorded gap sample is credited to an existing cluster that has room. -/
theorem gapSample_eq_some {t : Track} {start i us : Nat}
    (h : t.gapSample start = some (i, us)) :
    us ≤ 65535 ∧ ∃ prev, t.clusters[i]? = some prev ∧ prev.gapCount < kMaxGapSamples := by
  unfold Track.gapSample at h
  cases hlast : t.lastCluster with
  | none => simp [hlast] at h
  | some j =>
      cases hprev : t.clusters[j]? with
      | none => simp [hlast, hprev] at h
      | some prev =>
          simp only [hlast, hprev] at h
          split_ifs at h with hroom
          simp only [Option.some.injEq, Prod.mk.injEq] at h
          obtain ⟨rfl, rfl⟩ := h
          exact ⟨Nat.min_le_right _ _, prev, hprev, hroom.2⟩

/-- The cluster a burst is found in matches it. -/
theorem chooseSlot_found {clusters : List Cluster} {frame : List UInt16} {i : Nat}
    (h : chooseSlot clusters frame = .found i) :
    ∃ c, clusters[i]? = some c ∧ burstsMatch c.repr frame = true := by
  unfold chooseSlot at h
  cases hfind : clusters.findIdx? (fun c => burstsMatch c.repr frame) with
  | none =>
      simp only [hfind] at h
      split_ifs at h
      cases hweak : weakestScan clusters 0 none <;> simp [hweak] at h
  | some j =>
      simp only [hfind, Slot.found.injEq] at h
      subst h
      obtain ⟨hlt, hmatch, -⟩ := List.findIdx?_eq_some_iff_getElem.mp hfind
      exact ⟨clusters[j], List.getElem?_eq_getElem hlt, hmatch⟩

/-- The clusters after a burst was assigned its slot. -/
theorem assign_clusters (t : Track) (frame : List UInt16) (carrierHz : UInt16) :
    (t.assign frame carrierHz).1.clusters =
      match chooseSlot t.clusters frame with
      | .found i => t.clusters.modify i (Cluster.countBurst frame carrierHz t.curGroup)
      | .fresh => t.clusters ++ [(Cluster.start frame).countBurst frame carrierHz t.curGroup]
      | .evict i =>
          t.clusters.set i ((Cluster.start frame).countBurst frame carrierHz t.curGroup)
      | .full => t.clusters := by
  unfold Track.assign
  cases chooseSlot t.clusters frame with
  | found i => rfl
  | fresh => exact PairedTables.modify_length_concat _ _ _
  | evict i => exact PairedTables.modify_set _ _ _ _
  | full => rfl

theorem assign_curGroup (t : Track) (frame : List UInt16) (carrierHz : UInt16) :
    (t.assign frame carrierHz).1.curGroup = t.curGroup := by
  unfold Track.assign
  cases chooseSlot t.clusters frame <;> rfl

@[simp]
theorem noteDeclip_clusters (t : Track) (d : Declip) :
    (t.noteDeclip d).clusters = t.clusters := by
  unfold Track.noteDeclip
  split_ifs <;> rfl

@[simp]
theorem noteDeclip_curGroup (t : Track) (d : Declip) :
    (t.noteDeclip d).curGroup = t.curGroup := by
  unfold Track.noteDeclip
  split_ifs <;> rfl

theorem arrive_rows {R : Cluster → Evidence → Prop} {t : Track} {L : List Evidence}
    (hrows : List.Forall₂ R t.clusters L) (start : Nat)
    (hgap : ∀ c ev us, R c ev → us ≤ 65535 → c.gapCount < kMaxGapSamples →
      R (c.addGap us) (ev.addGap us)) :
    List.Forall₂ R (t.arrive start).clusters (t.logGap start L) := by
  unfold Track.logGap
  rcases t.arrive_cases start with
    ⟨hopen, heq⟩ | ⟨hopen, hnone, heq⟩ | ⟨hopen, i, us, hsome, heq⟩
  · rw [heq, if_pos hopen]
    exact hrows
  · rw [heq, if_neg (by simp [hopen]), hnone]
    exact hrows
  · rw [heq, if_neg (by simp [hopen]), hsome]
    obtain ⟨hus, prev, hprev, hroom⟩ := gapSample_eq_some hsome
    apply PairedTables.forall₂_modify hrows i (fun _ _ hrow => hrow)
    intro c ev hc hrow
    rw [hprev, Option.some.injEq] at hc
    exact hgap c ev us hrow hus (hc ▸ hroom)

theorem assign_rows {R S : Cluster → Evidence → Prop} {t : Track} {L : List Evidence}
    (hrows : List.Forall₂ R t.clusters L) (b : Heard) (hmono : ∀ c ev, R c ev → S c ev)
    (hcount : ∀ c ev, R c ev → burstsMatch c.repr b.frame = true →
      S (c.countBurst b.frame b.carrierHz t.curGroup) (ev.addMember b))
    (hstart : S ((Cluster.start b.frame).countBurst b.frame b.carrierHz t.curGroup)
      (Evidence.addMember b {})) :
    List.Forall₂ S (t.assign b.frame b.carrierHz).1.clusters
      (logSlot b L (chooseSlot t.clusters b.frame)) := by
  have hgrow : List.Forall₂ S t.clusters L := hrows.imp hmono
  rw [assign_clusters]
  cases hslot : chooseSlot t.clusters b.frame with
  | found i =>
      obtain ⟨c, hc, hmatch⟩ := chooseSlot_found hslot
      apply PairedTables.forall₂_modify hrows i hmono
      intro c' ev hc' hrow
      rw [hc, Option.some.injEq] at hc'
      exact hcount c' ev hrow (hc' ▸ hmatch)
  | fresh => exact PairedTables.forall₂_concat hgrow hstart
  | evict i => exact PairedTables.forall₂_set hgrow i hstart
  | full => exact hgrow

/-- The row rule of `feedBurst`: a relation between clusters and their evidence
survives a burst when it survives a gap sample, a counted member, and the start
of a cluster, for a burst that is well formed. -/
theorem feed_rows {R S : Cluster → Evidence → Prop} {src : Source} {t : Track}
    {H : List Heard} {L : List Evidence} (hrows : List.Forall₂ R t.clusters L)
    (pulses : List UInt16) (carrierHz : UInt16) (now : UInt64)
    (hmono : ∀ c ev, R c ev → S c ev)
    (hgap : ∀ c ev us, R c ev → us ≤ 65535 → c.gapCount < kMaxGapSamples →
      R (c.addGap us) (ev.addGap us))
    (hassign : ∀ b, b = Heard.ofBurst src H pulses carrierHz now →
      wellFormed src b.frame b.carrierHz = true →
      (∀ c ev, R c ev → burstsMatch c.repr b.frame = true →
        S (c.countBurst b.frame b.carrierHz (t.arrive b.start).curGroup) (ev.addMember b)) ∧
      S ((Cluster.start b.frame).countBurst b.frame b.carrierHz (t.arrive b.start).curGroup)
        (Evidence.addMember b {})) :
    List.Forall₂ S (t.feed src pulses carrierHz now).clusters
      (t.log src (Heard.ofBurst src H pulses carrierHz now) L) := by
  let b := Heard.ofBurst src H pulses carrierHz now
  have hslots : (t.enter src pulses now).clusters = (t.arrive b.start).clusters :=
    noteDeclip_clusters _ _
  have hgroup : (t.enter src pulses now).curGroup = (t.arrive b.start).curGroup :=
    noteDeclip_curGroup _ _
  have hentered : List.Forall₂ R (t.enter src pulses now).clusters (t.logGap b.start L) := by
    rw [hslots]
    exact arrive_rows hrows b.start hgap
  by_cases hformed : wellFormed src b.frame b.carrierHz = true
  · have hlog : t.log src b L =
        logSlot b (t.logGap b.start L) (chooseSlot (t.enter src pulses now).clusters b.frame) := by
      rw [hslots]
      exact if_pos hformed
    obtain ⟨hcount, hstart⟩ := hassign b rfl hformed
    rw [← hgroup] at hcount hstart
    rw [t.feed_formed carrierHz now hformed]
    change List.Forall₂ S _ (t.log src b L)
    rw [hlog]
    exact assign_rows hentered b hmono hcount hstart
  · have hlog : t.log src b L = t.logGap b.start L := if_neg hformed
    rw [t.feed_malformed carrierHz now hformed]
    change List.Forall₂ S _ (t.log src b L)
    rw [hlog]
    exact hentered.imp hmono

/-- While the machine listens, `I` relates every source's track to what was
heard and logged. -/
def Observed.Holds (I : Source → Track → List Heard → List Evidence → Prop)
    (o : Observed) : Prop :=
  o.machine.state = .listening →
    ∀ src, I src (o.machine.tracks src) (o.heard src) (o.ledger src)

section TrackRule

variable {I : Source → Track → List Heard → List Evidence → Prop}

/-- The burst case of the track rule. -/
theorem feedBurst_holds {o : Observed} (h : o.Holds I)
    (hfeed : ∀ src t H L pulses carrierHz now, pulses ≠ [] → I src t H L →
      I src (t.feed src pulses carrierHz now)
        (H ++ [Heard.ofBurst src H pulses carrierHz now])
        (t.log src (Heard.ofBurst src H pulses carrierHz now) L))
    (src : Source) (pulses : List UInt16) (carrierHz : UInt16) (now : UInt64) :
    (o.step (.feedBurst src pulses carrierHz now)).Holds I := by
  change (o.machine.feedBurst src pulses carrierHz now).state = .listening →
    ∀ s, I s ((o.machine.feedBurst src pulses carrierHz now).tracks s)
      (hear s (o.heard s) (.feedBurst src pulses carrierHz now))
      (o.logEvent (.feedBurst src pulses carrierHz now) s)
  rcases o.machine.feedBurst_cases src pulses carrierHz now with
    ⟨hignored, heq⟩ | ⟨hstate, hne, hfed⟩
  · intro hlisten s
    rw [heq] at hlisten ⊢
    have hnil : pulses = [] := hignored.resolve_left (not_not.mpr hlisten)
    have hlog : o.logEvent (.feedBurst src pulses carrierHz now) = o.ledger :=
      if_pos hignored
    rw [hlog]
    simpa [hear, hnil] using h hlisten s
  · have hlog : o.logEvent (.feedBurst src pulses carrierHz now) = _ :=
      if_neg (by simp [hstate, hne])
    simp only at hfed
    rcases hfed with ⟨c, -, heq⟩ | ⟨-, -, -, heq⟩ | ⟨-, -, heq⟩
    · rw [heq]
      exact fun hlisten => by cases hlisten
    · rw [heq]
      exact fun hlisten => by cases hlisten
    · intro _ s
      rw [heq, hlog]
      by_cases hs : s = src
      · subst hs
        have hhear : hear s (o.heard s) (.feedBurst s pulses carrierHz now) = _ :=
          if_pos ⟨rfl, hne⟩
        rw [LearnMachine.setTrack_tracks_self, hhear, Function.update_self]
        exact hfeed s _ _ _ pulses carrierHz now hne (h hstate s)
      · have hhear : hear s (o.heard s) (.feedBurst src pulses carrierHz now) = o.heard s :=
          if_neg (fun hboth => hs hboth.1.symm)
        rw [LearnMachine.setTrack_tracks_of_ne _ hs, hhear, Function.update_of_ne hs]
        exact h hstate s

theorem step_holds {o : Observed} (h : o.Holds I) (hempty : ∀ src, I src {} [] [])
    (hfeed : ∀ src t H L pulses carrierHz now, pulses ≠ [] → I src t H L →
      I src (t.feed src pulses carrierHz now)
        (H ++ [Heard.ofBurst src H pulses carrierHz now])
        (t.log src (Heard.ofBurst src H pulses carrierHz now) L))
    (e : Event) : (o.step e).Holds I := by
  cases e with
  | begin now => exact fun _ src => hempty src
  | feedBurst src pulses carrierHz now => exact feedBurst_holds h hfeed src pulses carrierHz now
  | tick now =>
      change (o.machine.tick now).state = .listening →
        ∀ s, I s ((o.machine.tick now).tracks s) (o.heard s) (o.ledger s)
      rcases o.machine.tick_cases now with heq | ⟨-, reason, heq⟩
      · rw [heq]
        exact h
      · rw [heq]
        exact fun hlisten => by cases hlisten
  | cancel => exact fun hlisten => by cases hlisten
  | takeCode =>
      change o.machine.takeCode.2.state = .listening →
        ∀ s, I s (o.machine.takeCode.2.tracks s) (o.heard s) (o.ledger s)
      rcases o.machine.takeCode_cases with heq | ⟨-, heq⟩
      · rw [heq]
        exact h
      · rw [heq]
        exact fun hlisten => by cases hlisten

/-- The track rule: what holds of a new track, and is preserved by feeding it,
holds of every source's track in every run while the machine listens. -/
theorem listening_induction (hempty : ∀ src, I src {} [] [])
    (hfeed : ∀ src t H L pulses carrierHz now, pulses ≠ [] → I src t H L →
      I src (t.feed src pulses carrierHz now)
        (H ++ [Heard.ofBurst src H pulses carrierHz now])
        (t.log src (Heard.ofBurst src H pulses carrierHz now) L))
    (events : List Event) (hlisten : (LearnMachine.run events).state = .listening)
    (src : Source) :
    I src ((LearnMachine.run events).tracks src) (heard src events) (ledger events src) := by
  have hrun : (observer.run events).Holds I :=
    observer.run_induction (P := fun _ o => o.Holds I) (fun hlisten => by cases hlisten)
      (fun _ e h => step_holds h hempty hfeed e) events
  obtain ⟨hmachine, hheard⟩ := observer_run events
  unfold Observed.Holds at hrun
  rw [hmachine, hheard] at hrun
  exact hrun hlisten src

end TrackRule

/-- The burst by which a run enters `captured`: `t` is its source's track after
it, `c` the cluster that won. -/
structure Entry (events : List Event) (src : Source) (pulses : List UInt16)
    (carrierHz : UInt16) (now : UInt64) (t : Track) (c : Cluster) : Prop where
  listening : (LearnMachine.run events).state = .listening
  nonempty : pulses ≠ []
  fed : t = ((LearnMachine.run events).tracks src).feed src pulses carrierHz now
  winner : t.winner src = some c
  code : (LearnMachine.run (events ++ [.feedBurst src pulses carrierHz now])).code =
    captureCode src t c

/-- Only a burst leads to `captured`. -/
theorem captured_entry {events : List Event} {e : Event}
    (hbefore : (LearnMachine.run events).state ≠ .captured)
    (hafter : (LearnMachine.run (events ++ [e])).state = .captured) :
    ∃ src pulses carrierHz now t c, e = .feedBurst src pulses carrierHz now ∧
      Entry events src pulses carrierHz now t c := by
  let m := LearnMachine.run events
  have hrun : LearnMachine.run (events ++ [e]) = m.step e := StateMachine.run_concat _ _ _
  rw [hrun] at hafter
  rcases m.step_cases e with ⟨now, rfl⟩ | ⟨src, pulses, carrierHz, now, rfl⟩ | hsame |
    ⟨-, hidle | hfailed⟩
  · cases hafter
  · change (m.feedBurst src pulses carrierHz now).state = .captured at hafter
    rcases m.feedBurst_cases src pulses carrierHz now with ⟨-, heq⟩ | ⟨hstate, hne, hfed⟩
    · rw [heq] at hafter
      exact absurd hafter hbefore
    · simp only at hfed
      rcases hfed with ⟨c, hwin, heq⟩ | ⟨-, -, -, heq⟩ | ⟨-, -, heq⟩
      · refine ⟨src, pulses, carrierHz, now, _, c, rfl, hstate, hne, rfl, hwin, ?_⟩
        rw [hrun]
        change (m.feedBurst src pulses carrierHz now).code = _
        rw [heq]
      · rw [heq] at hafter
        cases hafter
      · rw [heq] at hafter
        exact absurd (hstate.symm.trans hafter) (by decide)
  · rw [hsame] at hafter
    exact absurd hafter hbefore
  · exact absurd (hidle.symm.trans hafter) (by decide)
  · exact absurd (hfailed.symm.trans hafter) (by decide)

section Entry

variable {events : List Event} {src : Source} {pulses : List UInt16}
  {carrierHz : UInt16} {now : UInt64} {t : Track} {c : Cluster}

/-- The track rule, for the track that wins. -/
theorem Entry.holds {I : Source → Track → List Heard → List Evidence → Prop}
    (h : Entry events src pulses carrierHz now t c) (hempty : ∀ src, I src {} [] [])
    (hfeed : ∀ src t H L pulses carrierHz now, pulses ≠ [] → I src t H L →
      I src (t.feed src pulses carrierHz now)
        (H ++ [Heard.ofBurst src H pulses carrierHz now])
        (t.log src (Heard.ofBurst src H pulses carrierHz now) L)) :
    I src t (heard src (events ++ [Event.feedBurst src pulses carrierHz now]))
      (ledger (events ++ [Event.feedBurst src pulses carrierHz now]) src) := by
  have hlistening := listening_induction hempty hfeed events h.listening src
  have hfed := hfeed src _ _ _ pulses carrierHz now h.nonempty hlistening
  have hheard : heard src (events ++ [Event.feedBurst src pulses carrierHz now]) =
      heard src events ++ [Heard.ofBurst src (heard src events) pulses carrierHz now] := by
    rw [heard_concat]
    exact if_pos ⟨rfl, h.nonempty⟩
  have hledger : ledger (events ++ [Event.feedBurst src pulses carrierHz now]) src =
      ((LearnMachine.run events).tracks src).log src
        (Heard.ofBurst src (heard src events) pulses carrierHz now) (ledger events src) := by
    obtain ⟨hmachine, hobserved⟩ := observer_run events
    unfold ledger
    rw [StateMachine.run_concat]
    change (observer.run events).logEvent (.feedBurst src pulses carrierHz now) src = _
    have hfedstate : ¬((observer.run events).machine.state ≠ .listening ∨ pulses = []) := by
      simp [hmachine, h.listening, h.nonempty]
    have hlog : (observer.run events).logEvent (.feedBurst src pulses carrierHz now) = _ :=
      if_neg hfedstate
    rw [hlog, Function.update_self, hmachine, hobserved]
  rw [h.fed, hheard, hledger]
  exact hfed

/-- The winner is the cluster the last burst went to, and it qualified. -/
theorem Entry.won (h : Entry events src pulses carrierHz now t c) :
    (∃ i, t.lastCluster = some i ∧ t.clusters[i]? = some c) ∧
      kMatchesNeeded ≤ c.count ∧ (src = .ir ∨ kRfPressesNeeded ≤ c.groupCount) := by
  have hwin := h.winner
  unfold Track.winner at hwin
  cases hlast : t.lastCluster with
  | none => simp [hlast] at hwin
  | some i =>
      cases hc : t.clusters[i]? with
      | none => simp [hlast, hc] at hwin
      | some c' =>
          simp only [hlast, hc] at hwin
          split_ifs at hwin with hqualifies
          obtain rfl : c' = c := Option.some.inj hwin
          exact ⟨⟨i, rfl, hc⟩, hqualifies⟩

end Entry

/-- Feeding a track keeps the counters of its clusters the totals of the ledger. -/
theorem feed_explains {src : Source} {t : Track} {H : List Heard} {L : List Evidence}
    (h : List.Forall₂ (Explains src H) t.clusters L) (pulses : List UInt16)
    (carrierHz : UInt16) (now : UInt64) :
    List.Forall₂ (Explains src (H ++ [Heard.ofBurst src H pulses carrierHz now]))
      (t.feed src pulses carrierHz now).clusters
      (t.log src (Heard.ofBurst src H pulses carrierHz now) L) := by
  apply feed_rows h pulses carrierHz now
  · exact fun c ev hrow => hrow.mono (List.sublist_append_left H _)
  · exact fun c ev us hrow hus hroom => hrow.addGap hus hroom
  · rintro b rfl hformed
    refine ⟨?_, (Explains.start H hformed).seenIn _⟩
    exact fun c ev hrow hmatch => (hrow.addMember hformed hmatch).seenIn _

/-- In every run, while the machine listens, every cluster's counters are the
totals of its evidence. -/
theorem listening_explains (events : List Event)
    (hlisten : (LearnMachine.run events).state = .listening) (src : Source) :
    List.Forall₂ (Explains src (heard src events))
      ((LearnMachine.run events).tracks src).clusters (ledger events src) :=
  listening_induction (I := fun src t H L => List.Forall₂ (Explains src H) t.clusters L)
    (fun _ => .nil) (fun _ _ _ _ pulses carrierHz now _ h => feed_explains h pulses carrierHz now)
    events hlisten src

/-- At a capture the winner's counters are the totals of its evidence. -/
theorem Entry.explains {events : List Event} {src : Source} {pulses : List UInt16}
    {carrierHz : UInt16} {now : UInt64} {t : Track} {c : Cluster}
    (h : Entry events src pulses carrierHz now t c) :
    ∃ (i : Nat) (ev : Evidence), t.clusters[i]? = some c ∧
      (ledger (events ++ [Event.feedBurst src pulses carrierHz now]) src)[i]? = some ev ∧
      Explains src (heard src (events ++ [Event.feedBurst src pulses carrierHz now])) c ev := by
  have hrows := h.holds (I := fun src t H L => List.Forall₂ (Explains src H) t.clusters L)
    (fun _ => .nil) (fun _ _ _ _ pulses carrierHz now _ h => feed_explains h pulses carrierHz now)
  obtain ⟨⟨i, -, hc⟩, -⟩ := h.won
  obtain ⟨ev, hev, hexplains⟩ := PairedTables.forall₂_getElem? hrows hc
  exact ⟨i, ev, hc, hev, hexplains⟩

/-- The `i`-th entry of a burst's frame. -/
def Heard.entry (i : Nat) (h : Heard) : Nat :=
  (h.frame.getD i 0).toNat

/-- Of at most 250 16-bit values neither the 32-bit rounding nor the cast to 16
bits changes the mean. -/
theorem roundedMean_exact {total count : Nat} (hpos : 0 < count) (hcount : count ≤ 250)
    (htotal : total ≤ count * 65535) :
    roundedMean total count = (total + count / 2) / count ∧
      (UInt16.ofNat (roundedMean total count)).toNat = (total + count / 2) / count := by
  have heq : roundedMean total count = (total + count / 2) / count := by
    unfold roundedMean
    rw [Nat.mod_eq_of_lt (by omega)]
  have hle : (total + count / 2) / count < 65536 := by
    rw [Nat.div_lt_iff_lt_mul hpos]
    omega
  refine ⟨heq, ?_⟩
  rw [heq, UInt16.toNat_ofNat_of_lt' (by simpa [UInt16.size] using hle)]

theorem entry_le (members : List Heard) (i : Nat) :
    ∀ x ∈ members.map (Heard.entry i), x ≤ 65535 := by
  intro x hx
  obtain ⟨g, _, rfl⟩ := List.mem_map.mp hx
  have := (g.frame.getD i 0).toNat_lt
  unfold Heard.entry
  omega

/-- Each entry of `sum` is the total of that entry over the counted members. -/
theorem Explains.sum_getElem? {src : Source} {H : List Heard} {c : Cluster}
    {ev : Evidence} (h : Explains src H c ev) {i : Nat} (hi : i < c.repr.length) :
    c.sum[i]? = some (ev.counted.map (Heard.entry i)).sum := by
  have hcolumn : i < (PairedTables.columnSums c.repr.length
      (ev.counted.map fun g => g.frame.map UInt16.toNat)).length := by
    simpa using hi
  have hentry : ∀ g : Heard, (g.frame.map UInt16.toNat).getD i 0 = g.entry i :=
    fun g => List.getD_map g.frame 0 UInt16.toNat
  rw [h.sum, List.getElem?_eq_getElem hcolumn, PairedTables.columnSums_getElem hcolumn]
  simp only [List.map_map, Function.comp_def, hentry]

/-- The stored average of an entry is the plain rounded mean. -/
theorem Explains.meanFrame_getElem? {src : Source} {H : List Heard} {c : Cluster}
    {ev : Evidence} (h : Explains src H c ev) (hcount : 0 < c.count) {i : Nat}
    (hi : i < c.repr.length) :
    ∃ p, c.meanFrame[i]? = some p ∧
      p.toNat = ((ev.counted.map (Heard.entry i)).sum + ev.counted.length / 2) /
        ev.counted.length := by
  have htotal : (ev.counted.map (Heard.entry i)).sum ≤ ev.counted.length * 65535 := by
    simpa using List.sum_le_card_nsmul _ 65535 (entry_le ev.counted i)
  rw [h.count] at hcount
  refine ⟨UInt16.ofNat (roundedMean (ev.counted.map (Heard.entry i)).sum c.count), ?_, ?_⟩
  · simp [Cluster.meanFrame, h.sum_getElem? hi]
  · rw [h.count]
    exact (roundedMean_exact hcount ev.counted_length_le htotal).2

/-- A machine in `captured` holds the code of the burst that brought it there. -/
theorem captured_since {events : List Event}
    (h : (LearnMachine.run events).state = .captured) :
    ∃ pre e post, events = pre ++ e :: post ∧
      (LearnMachine.run pre).state ≠ .captured ∧
      (LearnMachine.run (pre ++ [e])).state = .captured ∧
      (LearnMachine.run events).code = (LearnMachine.run (pre ++ [e])).code := by
  induction events using List.reverseRecOn with
  | nil => cases h
  | append_singleton before e ih =>
      by_cases hbefore : (LearnMachine.run before).state = .captured
      · obtain ⟨pre, entry, post, heq, hpre, hentry, hcode⟩ := ih hbefore
        refine ⟨pre, entry, post ++ [e], by simp [heq], hpre, hentry, ?_⟩
        rw [← hcode]
        have hrun : LearnMachine.run (before ++ [e]) = (LearnMachine.run before).step e :=
          StateMachine.run_concat _ _ _
        rw [hrun] at h ⊢
        rcases (LearnMachine.run before).step_cases e with ⟨now, rfl⟩ |
          ⟨src, pulses, carrierHz, now, rfl⟩ | hsame | ⟨-, hidle | hfailed⟩
        · cases h
        · rcases (LearnMachine.run before).feedBurst_cases src pulses carrierHz now with
            ⟨-, heq⟩ | ⟨hlisten, -⟩
          · exact congrArg LearnMachine.code heq
          · rw [hbefore] at hlisten
            cases hlisten
        · exact congrArg LearnMachine.code hsame
        · exact absurd (hidle.symm.trans h) (by decide)
        · exact absurd (hfailed.symm.trans h) (by decide)
      · exact ⟨before, e, [], rfl, hbefore, h, rfl⟩

end Learn

end RfIrBlaster
