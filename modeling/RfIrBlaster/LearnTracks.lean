/-
The tables of a track in every state of the machine: their bounds, the clusters that hold
their totals, and the slots that press records name, whose clusters have not been evicted
since.
-/
import RfIrBlaster.LearnRolling
import Mathlib.Data.Finset.Card

namespace RfIrBlaster

namespace Learn

open LearnMachine (Event)

/-- When the tables of a source were written, in bursts: how many it was fed, the burst that
opened the cluster in each slot, and the burst that pointed each press record at its slot. -/
structure SlotAges where
  fed : Nat := 0
  opened : List Nat := []
  named : List Nat := []
deriving DecidableEq, Repr

/-- The arrival of burst `b`, which may start a press record. -/
def Track.ageArrival (t : Track) (b start : Nat) (named : List Nat) : List Nat :=
  if t.opensGroup start ∧ t.groups.length < kMaxGroups then named ++ [b] else named

def ageSlot (b : Nat) (opened : List Nat) : Slot → List Nat
  | .fresh => opened ++ [b]
  | .evict i => opened.set i b
  | _ => opened

/-- The record of the current press is pointed at `cl` when it names no slot. -/
def Track.ageRecord (t : Track) (b : Nat) (cl : Option Nat) (named : List Nat) : List Nat :=
  if (t.groups.getD (t.curGroup - 1) {}).firstCluster = none ∧ cl ≠ none ∧
      1 ≤ t.curGroup ∧ t.curGroup ≤ t.groups.length then
    named.set (t.curGroup - 1) b
  else named

/-- What `Track.assign` does, on the ages. -/
def Track.ageAssign (t : Track) (b : Nat) (frame : List UInt16) (ages : SlotAges) : SlotAges :=
  let slot := chooseSlot t.clusters frame
  { fed := b
    opened := ageSlot b ages.opened slot
    named := (t.prepare frame slot).ageRecord b (slot.index t.clusters) ages.named }

/-- What `Track.feed` does, on the ages. -/
def ageBurst (src : Source) (t : Track) (ages : SlotAges) (pulses : List UInt16)
    (carrierHz : UInt16) (now : UInt64) : SlotAges :=
  let b := ages.fed + 1
  let arrived := { ages with named := t.ageArrival b (burstStart pulses now) ages.named }
  if wellFormed src (frameOf src pulses) carrierHz then
    (t.enter src pulses now).ageAssign b (frameOf src pulses) arrived
  else { arrived with fed := b }

/-- The ages of a source's tables in the session so far. -/
def slotAges (events : List Event) (src : Source) : SlotAges :=
  ((watcher {} ageBurst).run events).logs src

/-- A press record names a slot that has held its cluster since the record was pointed at it. -/
def Group.Since (opened : List Nat) (g : Group) (n : Nat) : Prop :=
  ∀ i, g.firstCluster = some i → ∃ o, opened[i]? = some o ∧ o ≤ n

/-- A cluster with a member, a total for every entry, and no more presses than members. -/
structure Cluster.Held (c : Cluster) : Prop where
  summed : c.sum.length = c.repr.length
  some_member : 1 ≤ c.count
  counted : c.groupCount ≤ c.count

/-- The tables of a track, with their ages. -/
structure Track.Tidy (t : Track) (ages : SlotAges) : Prop where
  clusters_le : t.clusters.length ≤ kMaxClusters
  groups_le : t.groups.length ≤ kMaxGroups
  apart : t.clusters.Pairwise (fun a b => burstsMatch a.repr b.repr = false)
  held : ∀ c ∈ t.clusters, c.Held
  opened_length : ages.opened.length = t.clusters.length
  opened_le : ∀ o ∈ ages.opened, o ≤ ages.fed
  named : List.Forall₂ (Group.Since ages.opened) t.groups ages.named

/-- The slot of the previous burst is there. -/
def Track.LastHeld (t : Track) : Prop :=
  ∀ i, t.lastCluster = some i → i < t.clusters.length

/-- A press record names a slot of the table. -/
theorem Track.Tidy.first_lt {t : Track} {ages : SlotAges} (h : t.Tidy ages) {g : Group}
    (hg : g ∈ t.groups) {i : Nat} (hfirst : g.firstCluster = some i) : i < t.clusters.length := by
  obtain ⟨k, hk⟩ := List.mem_iff_getElem?.mp hg
  obtain ⟨n, -, hsince⟩ := PairedTables.forall₂_getElem? h.named hk
  obtain ⟨o, ho, -⟩ := hsince i hfirst
  obtain ⟨hi, -⟩ := List.getElem?_eq_some_iff.mp ho
  rw [← h.opened_length]
  exact hi

theorem Cluster.Held.addGap {c : Cluster} (h : c.Held) (us : Nat) : (c.addGap us).Held :=
  ⟨h.summed, h.some_member, h.counted⟩

/-- The arrival of a burst, with its age. -/
theorem arrive_tidy {t : Track} {ages : SlotAges} (h : t.Tidy ages) (start : Nat) :
    (t.arrive start).Tidy
      { ages with named := t.ageArrival (ages.fed + 1) start ages.named } := by
  unfold Track.ageArrival
  rcases t.arrive_cases start with
    ⟨hopen, heq⟩ | ⟨hopen, -, heq⟩ | ⟨hopen, i, us, -, heq⟩
  · rw [heq]
    by_cases hroom : t.groups.length < kMaxGroups
    · simp only [if_pos hroom, if_pos (And.intro hopen hroom)]
      refine ⟨h.clusters_le, ?_, h.apart, h.held, h.opened_length, h.opened_le, ?_⟩
      · rw [List.length_append, List.length_singleton]
        exact hroom
      · -- a new record names no slot yet
        exact PairedTables.forall₂_concat h.named fun i hi => by cases hi
    · have hfull : ¬(t.opensGroup start = true ∧ t.groups.length < kMaxGroups) :=
        fun hboth => hroom hboth.2
      simp only [if_neg hroom, if_neg hfull]
      exact ⟨h.clusters_le, h.groups_le, h.apart, h.held, h.opened_length, h.opened_le, h.named⟩
  · rw [heq, if_neg (by simp [hopen])]
    exact h
  · rw [heq, if_neg (by simp [hopen])]
    refine ⟨?_, h.groups_le, apart_modify h.apart i fun _ => rfl, ?_, ?_, h.opened_le, h.named⟩
    · rw [List.length_modify]
      exact h.clusters_le
    · intro c hc
      rcases mem_modify hc with ⟨d, hd, rfl⟩ | hold
      · exact (h.held d (List.mem_of_getElem? hd)).addGap us
      · exact h.held c hold
    · rw [List.length_modify]
      exact h.opened_length

theorem enter_groups (t : Track) (src : Source) (pulses : List UInt16) (now : UInt64) :
    (t.enter src pulses now).groups = (t.arrive (burstStart pulses now)).groups :=
  (noteDeclip_groups _ _).1

theorem enter_tidy {t : Track} {ages : SlotAges} (h : t.Tidy ages) (src : Source)
    (pulses : List UInt16) (now : UInt64) :
    (t.enter src pulses now).Tidy
      { ages with
        named := t.ageArrival (ages.fed + 1) (burstStart pulses now) ages.named } := by
  have harrived := arrive_tidy h (burstStart pulses now)
  have hclusters := enter_clusters t src pulses now
  have hgroups := enter_groups t src pulses now
  exact
    { clusters_le := hclusters ▸ harrived.clusters_le
      groups_le := hgroups ▸ harrived.groups_le
      apart := hclusters ▸ harrived.apart
      held := hclusters ▸ harrived.held
      opened_length := hclusters ▸ harrived.opened_length
      opened_le := harrived.opened_le
      named := hgroups ▸ harrived.named }

/-- A burst opens a new slot only while there is room for one. -/
theorem chooseSlot_fresh {clusters : List Cluster} {frame : List UInt16}
    (h : chooseSlot clusters frame = .fresh) : clusters.length < kMaxClusters := by
  unfold chooseSlot at h
  cases hfind : clusters.findIdx? (fun c => burstsMatch c.repr frame) with
  | some j => simp [hfind] at h
  | none =>
      simp only [hfind] at h
      split_ifs at h with hroom
      · exact hroom
      · cases hweak : weakestScan clusters 0 none <;> simp [hweak] at h

theorem assign_clusters_le {t : Track} (h : t.clusters.length ≤ kMaxClusters)
    (frame : List UInt16) (carrierHz : UInt16) :
    (t.assign frame carrierHz).1.clusters.length ≤ kMaxClusters := by
  rw [assign_clusters]
  cases hslot : chooseSlot t.clusters frame with
  | found i => simpa using h
  | fresh =>
      have hroom := chooseSlot_fresh hslot
      rw [List.length_append, List.length_singleton]
      exact hroom
  | evict i => simpa using h
  | full => exact h

theorem Cluster.countBurst_sum_length {c : Cluster} {frame : List UInt16}
    (h : c.sum.length = frame.length) (carrierHz : UInt16) (g : Nat) :
    (c.countBurst frame carrierHz g).sum.length = frame.length := by
  have hadded : (c.addMember frame carrierHz).sum.length = frame.length := by
    unfold Cluster.addMember
    split_ifs
    · rw [List.length_zipWith, h, Nat.min_self]
    · exact h
  unfold Cluster.countBurst Cluster.seenIn
  split_ifs
  · exact hadded
  · exact hadded

/-- One more burst of the payload keeps a cluster in order. -/
theorem Cluster.Held.countBurst {c : Cluster} (h : c.Held) (hwaiting : c.Waiting)
    {frame : List UInt16} (hmatch : burstsMatch c.repr frame = true) (carrierHz : UInt16)
    (g : Nat) : (c.countBurst frame carrierHz g).Held := by
  refine ⟨?_, ?_, hwaiting.countBurst_counted frame carrierHz g⟩
  · have hlength := burstsMatch_length hmatch
    rw [Cluster.countBurst_sum_length (h.summed.trans hlength), Cluster.countBurst_repr, hlength]
  · have hsome := h.some_member
    rw [Cluster.countBurst_count]
    split_ifs with hroom
    · simp only [kMaxClusterMembers] at hroom
      omega
    · exact hsome

theorem Cluster.Held.start (frame : List UInt16) (carrierHz : UInt16) (g : Nat) :
    ((Cluster.start frame).countBurst frame carrierHz g).Held := by
  obtain ⟨hcount, hpresses⟩ := Cluster.start_countBurst frame carrierHz g
  refine ⟨?_, by omega, by omega⟩
  rw [Cluster.countBurst_repr, Cluster.countBurst_sum_length List.length_replicate]
  rfl

theorem assign_held {t : Track} (hheld : ∀ c ∈ t.clusters, c.Held)
    (hwaiting : ∀ c ∈ t.clusters, c.Waiting) (frame : List UInt16) (carrierHz : UInt16) :
    ∀ c ∈ (t.assign frame carrierHz).1.clusters, c.Held := by
  intro c hc
  rcases assign_mem hc with hold | ⟨i, hlast, hget, ⟨d, hd, rfl⟩ | rfl⟩
  · exact hheld c hold
  · obtain ⟨c', hc', hmatch⟩ := assign_slot_matches hlast
    rw [hget, Option.some.injEq] at hc'
    rw [← hc', Cluster.countBurst_repr] at hmatch
    exact (hheld d hd).countBurst (hwaiting d hd) hmatch carrierHz _
  · exact Cluster.Held.start frame carrierHz _

theorem forget_first {slot : Slot} {g : Group} {i : Nat}
    (h : (slot.forget g).firstCluster = some i) :
    g.firstCluster = some i ∧ slot.gone ≠ some i := by
  cases slot with
  | evict j =>
      simp only [Slot.forget, Group.forget] at h
      split_ifs at h with hfirst
      refine ⟨h, fun heq => hfirst ?_⟩
      rw [h]
      exact heq.symm
  | found j => exact ⟨h, fun heq => by cases heq⟩
  | fresh => exact ⟨h, fun heq => by cases heq⟩
  | full => exact ⟨h, fun heq => by cases heq⟩

/-- Only the slot that is evicted changes its age. -/
theorem ageSlot_kept {slot : Slot} {opened : List Nat} {i o : Nat} (h : opened[i]? = some o)
    (hgone : slot.gone ≠ some i) (b : Nat) : (ageSlot b opened slot)[i]? = some o := by
  obtain ⟨hi, -⟩ := List.getElem?_eq_some_iff.mp h
  cases slot with
  | evict j =>
      have hij : j ≠ i := fun heq => hgone (congrArg some heq)
      rw [ageSlot, List.getElem?_set_ne hij, h]
  | fresh => rw [ageSlot, List.getElem?_append_left hi, h]
  | found j => exact h
  | full => exact h

theorem ageSlot_le {slot : Slot} {opened : List Nat} {b : Nat} (h : ∀ o ∈ opened, o ≤ b) :
    ∀ o ∈ ageSlot b opened slot, o ≤ b := by
  intro o ho
  cases slot with
  | evict j =>
      rcases List.mem_or_eq_of_mem_set ho with hold | rfl
      · exact h o hold
      · exact Nat.le_refl o
  | fresh =>
      rcases List.mem_append.mp ho with hold | hnew
      · exact h o hold
      · rw [List.mem_singleton.mp hnew]
  | found j => exact h o ho
  | full => exact h o ho

theorem ageSlot_length (t : Track) (frame : List UInt16) (carrierHz : UInt16) {opened : List Nat}
    (h : opened.length = t.clusters.length) (b : Nat) :
    (ageSlot b opened (chooseSlot t.clusters frame)).length =
      (t.assign frame carrierHz).1.clusters.length := by
  rw [assign_clusters]
  cases chooseSlot t.clusters frame <;> simp [ageSlot, h]

/-- The slot a burst goes to is there, opened by this burst or before it. -/
theorem slot_opened {t : Track} {ages : SlotAges} (h : t.Tidy ages) {b : Nat}
    (hb : ages.fed ≤ b) (frame : List UInt16) (carrierHz : UInt16) {i : Nat}
    (hslot : (t.assign frame carrierHz).2 = some i) :
    ∃ o, (ageSlot b ages.opened (chooseSlot t.clusters frame))[i]? = some o ∧ o ≤ b := by
  obtain ⟨c, hc, -⟩ := assign_slot_matches hslot
  obtain ⟨hi, -⟩ := List.getElem?_eq_some_iff.mp hc
  rw [← ageSlot_length t frame carrierHz h.opened_length b] at hi
  refine ⟨_, List.getElem?_eq_getElem hi, ?_⟩
  exact ageSlot_le (fun o ho => Nat.le_trans (h.opened_le o ho) hb) _ (List.getElem_mem hi)

/-- Making a slot ready ages no record: an eviction disowns the records of its slot. -/
theorem prepare_named {t : Track} {ages : SlotAges} (h : t.Tidy ages) (b : Nat)
    (frame : List UInt16) (slot : Slot) :
    List.Forall₂ (Group.Since (ageSlot b ages.opened slot)) (t.prepare frame slot).groups
      ages.named := by
  rw [(prepare_groups t frame slot).1, List.forall₂_map_left_iff]
  refine h.named.imp fun g n hsince i hi => ?_
  obtain ⟨hfirst, hgone⟩ := forget_first hi
  obtain ⟨o, ho, hle⟩ := hsince i hfirst
  exact ⟨o, ageSlot_kept ho hgone b, hle⟩

/-- The mark of the current record: it is pointed at a slot there is, or left as it was. -/
theorem mark_named {p : Track} {opened named : List Nat}
    (h : List.Forall₂ (Group.Since opened) p.groups named) {b : Nat} {cl : Option Nat}
    (hslot : ∀ i, cl = some i → ∃ o, opened[i]? = some o ∧ o ≤ b)
    (htracked : 1 ≤ p.curGroup ∧ p.curGroup ≤ p.groups.length) :
    List.Forall₂ (Group.Since opened) (p.groups.modify (p.curGroup - 1) (Group.mark cl))
      (p.ageRecord b cl named) := by
  unfold Track.ageRecord
  by_cases hblank : (p.groups.getD (p.curGroup - 1) {}).firstCluster = none ∧ cl ≠ none
  · rw [if_pos ⟨hblank.1, hblank.2, htracked⟩, List.set_eq_modify]
    apply PairedTables.forall₂_modify h _ (fun _ _ hrow => hrow)
    intro g n hg _ i hi
    rw [List.getD_eq_getElem?_getD, hg, Option.getD_some] at hblank
    rw [Group.mark, if_pos hblank] at hi
    exact hslot i hi
  · have hkept : ¬((p.groups.getD (p.curGroup - 1) {}).firstCluster = none ∧ cl ≠ none ∧
        1 ≤ p.curGroup ∧ p.curGroup ≤ p.groups.length) :=
      fun hall => hblank ⟨hall.1, hall.2.1⟩
    rw [if_neg hkept]
    apply PairedTables.forall₂_modify_left h
    intro g n hg hsince i hi
    rw [List.getD_eq_getElem?_getD, hg, Option.getD_some] at hblank
    rw [Group.mark, if_neg hblank] at hi
    apply hsince i
    split_ifs at hi <;> exact hi

/-- The records are aged with the slot made ready, and the current one with its mark. -/
theorem assign_named {t : Track} {ages : SlotAges} (h : t.Tidy ages) {b : Nat}
    (hb : ages.fed ≤ b) (frame : List UInt16) (carrierHz : UInt16) :
    List.Forall₂ (Group.Since (t.ageAssign b frame ages).opened)
      (t.assign frame carrierHz).1.groups (t.ageAssign b frame ages).named := by
  let slot := chooseSlot t.clusters frame
  let cl := slot.index t.clusters
  let p := t.prepare frame slot
  have hready := prepare_named h b frame slot
  have hgroups : (t.assign frame carrierHz).1.groups =
      if 1 ≤ p.curGroup ∧ p.curGroup ≤ p.groups.length then
        p.groups.modify (p.curGroup - 1) (Group.mark cl)
      else p.groups := rfl
  change List.Forall₂ (Group.Since (ageSlot b ages.opened slot)) _
    (p.ageRecord b cl ages.named)
  rw [hgroups]
  by_cases htracked : 1 ≤ p.curGroup ∧ p.curGroup ≤ p.groups.length
  · rw [if_pos htracked]
    exact mark_named hready (fun i hi => slot_opened h hb frame carrierHz hi) htracked
  · rw [if_neg htracked, Track.ageRecord, if_neg fun hall => htracked hall.2.2]
    exact hready

/-- A burst that is clustered keeps the tables in order. -/
theorem assign_tidy {t : Track} {ages : SlotAges} (h : t.Tidy ages)
    (hwaiting : ∀ c ∈ t.clusters, c.Waiting) {b : Nat} (hb : ages.fed ≤ b)
    (frame : List UInt16) (carrierHz : UInt16) :
    (t.assign frame carrierHz).1.Tidy (t.ageAssign b frame ages) where
  clusters_le := assign_clusters_le h.clusters_le frame carrierHz
  groups_le := by
    rw [assign_groups_length]
    exact h.groups_le
  apart := assign_apart h.apart frame carrierHz
  held := assign_held h.held hwaiting frame carrierHz
  opened_length := ageSlot_length t frame carrierHz h.opened_length b
  opened_le := ageSlot_le fun o ho => Nat.le_trans (h.opened_le o ho) hb
  named := assign_named h hb frame carrierHz

/-- A burst keeps the tables in order, also the one that captures. -/
theorem feed_tidy {t : Track} {ages : SlotAges} (h : t.Tidy ages)
    (hwaiting : ∀ c ∈ t.clusters, c.Waiting) (src : Source) (pulses : List UInt16)
    (carrierHz : UInt16) (now : UInt64) :
    (t.feed src pulses carrierHz now).Tidy (ageBurst src t ages pulses carrierHz now) ∧
      (t.feed src pulses carrierHz now).LastHeld := by
  have hentered := enter_tidy h src pulses now
  have hready := enter_forall hwaiting (fun _ us hwait => hwait.addGap us) src pulses now
  unfold ageBurst
  by_cases hformed : wellFormed src (frameOf src pulses) carrierHz = true
  · have hassigned := assign_tidy hentered hready (Nat.le_succ ages.fed)
      (frameOf src pulses) carrierHz
    simp only [if_pos hformed]
    rw [t.feed_formed carrierHz now hformed]
    refine ⟨?_, fun i hi => ?_⟩
    · exact ⟨hassigned.clusters_le, hassigned.groups_le, hassigned.apart, hassigned.held,
        hassigned.opened_length, hassigned.opened_le, hassigned.named⟩
    · obtain ⟨c, hc, -⟩ := assign_slot_matches hi
      exact (List.getElem?_eq_some_iff.mp hc).1
  · simp only [if_neg hformed]
    rw [t.feed_malformed carrierHz now hformed]
    refine ⟨?_, fun i hi => by cases hi⟩
    exact ⟨hentered.clusters_le, hentered.groups_le, hentered.apart, hentered.held,
      hentered.opened_length, fun o ho => Nat.le_succ_of_le (hentered.opened_le o ho),
      hentered.named⟩

/-- What a session keeps of every source's track. -/
structure Track.Kept (t : Track) (ages : SlotAges) : Prop where
  tidy : t.Tidy ages
  last : t.LastHeld
  waiting : ∀ c ∈ t.clusters, c.Waiting

theorem kept_empty : ({} : Track).Kept {} where
  tidy := ⟨Nat.zero_le _, Nat.zero_le _, .nil, by simp, rfl, by simp, .nil⟩
  last := fun i hi => by cases hi
  waiting := by simp

/-- In every run, while the machine listens, every source's tables are in order. -/
theorem listening_kept {events : List Event}
    (hlisten : (LearnMachine.run events).state = .listening) (src : Source) :
    ((LearnMachine.run events).tracks src).Kept (slotAges events src) := by
  refine session_induction {} ageBurst (I := fun _ t ages => t.Kept ages)
    (fun _ => kept_empty) ?_ events hlisten src
  intro src t ages pulses carrierHz now _ h hwin
  obtain ⟨htidy, hlast⟩ := feed_tidy h.tidy h.waiting src pulses carrierHz now
  exact ⟨htidy, hlast, feed_waiting h.waiting pulses carrierHz now hwin⟩

/-- The presses counted into a cluster, none after the `latest` of its source: they are in
order, the cluster remembers the last, and its count is the number of different ones. -/
structure Cluster.Counts (latest : Nat) (c : Cluster) (presses : List Nat) : Prop where
  last : presses.getLast? = some c.lastGroup
  sorted : presses.Pairwise (· ≤ ·)
  lastGroup_le : c.lastGroup ≤ latest
  distinct : c.groupCount = presses.toFinset.card

theorem Cluster.Counts.mono {latest latest' : Nat} (hle : latest ≤ latest') {c : Cluster}
    {presses : List Nat} (h : c.Counts latest presses) : c.Counts latest' presses :=
  { h with lastGroup_le := h.lastGroup_le.trans hle }

theorem Cluster.Counts.addGap {latest : Nat} {c : Cluster} {presses : List Nat}
    (h : c.Counts latest presses) (us : Nat) : (c.addGap us).Counts latest presses :=
  ⟨h.last, h.sorted, h.lastGroup_le, h.distinct⟩

theorem Cluster.Counts.le_last {latest : Nat} {c : Cluster} {presses : List Nat}
    (h : c.Counts latest presses) : ∀ press ∈ presses, press ≤ c.lastGroup := by
  obtain ⟨before, hsplit⟩ := List.getLast?_eq_some_iff.mp h.last
  have hsorted := h.sorted
  rw [hsplit, List.pairwise_append] at hsorted
  intro press hpress
  rw [hsplit] at hpress
  rcases List.mem_append.mp hpress with hold | hlast
  · exact hsorted.2.2 press hold _ (List.mem_singleton_self _)
  · exact Nat.le_of_eq (List.mem_singleton.mp hlast)

/-- Counting a burst of press `g` counts the press when it is a later one. -/
theorem Cluster.Counts.countBurst {g : Nat} {c : Cluster} {presses : List Nat}
    (h : c.Counts g presses) (hwaiting : c.Waiting) (frame : List UInt16)
    (carrierHz : UInt16) : (c.countBurst frame carrierHz g).Counts g (presses ++ [g]) := by
  refine ⟨?_, ?_, ?_, ?_⟩
  · rw [Cluster.countBurst_lastGroup, List.getLast?_append_of_ne_nil _ (by simp),
      List.getLast?_singleton]
  · rw [List.pairwise_append]
    refine ⟨h.sorted, List.pairwise_singleton _ _, ?_⟩
    intro press hpress last hlast
    rw [List.mem_singleton.mp hlast]
    exact (h.le_last press hpress).trans h.lastGroup_le
  · rw [Cluster.countBurst_lastGroup]
  · have hgrown : (presses ++ [g]).toFinset = insert g presses.toFinset := by
      ext press
      simp
    rw [hwaiting.countBurst_groupCount, hgrown]
    split_ifs with hnew
    · have hunseen : g ∉ presses.toFinset := by
        intro hseen
        have hle := h.le_last g (List.mem_toFinset.mp hseen)
        exact hnew (Nat.le_antisymm h.lastGroup_le hle)
      rw [Finset.card_insert_of_notMem hunseen, h.distinct]
    · have hseen : g ∈ presses.toFinset := by
        rw [List.mem_toFinset, ← not_not.mp hnew]
        exact List.mem_of_getLast? h.last
      rw [Finset.insert_eq_of_mem hseen, h.distinct]

theorem Cluster.Counts.start (frame : List UInt16) (carrierHz : UInt16) {g : Nat}
    (hpos : 1 ≤ g) : ((Cluster.start frame).countBurst frame carrierHz g).Counts g [g] := by
  refine ⟨?_, List.pairwise_singleton _ _, ?_, ?_⟩
  · rw [Cluster.countBurst_lastGroup, List.getLast?_singleton]
  · rw [Cluster.countBurst_lastGroup]
  · rw [Cluster.countBurst_groupCount, if_pos]
    · rfl
    · change 0 ≠ g
      omega

/-- The presses counted into each cluster after one more burst. -/
theorem assign_counts {t : Track} {seen : List (List Nat)}
    (hwaiting : ∀ c ∈ t.clusters, c.Waiting)
    (hrows : List.Forall₂ (Cluster.Counts t.curGroup) t.clusters seen)
    (hpos : 1 ≤ t.curGroup) (frame : List UInt16) (carrierHz : UInt16) :
    List.Forall₂ (Cluster.Counts t.curGroup) (t.assign frame carrierHz).1.clusters
      (seeSlot t.curGroup seen (chooseSlot t.clusters frame)) :=
  assign_press_rows hrows frame carrierHz
    (fun c hc _ hrow => hrow.countBurst (hwaiting c hc) frame carrierHz)
    (Cluster.Counts.start frame carrierHz hpos)

theorem enter_counts {t : Track} {latest : Nat} {seen : List (List Nat)}
    (hrows : List.Forall₂ (Cluster.Counts latest) t.clusters seen) (src : Source)
    (pulses : List UInt16) (now : UInt64) :
    List.Forall₂ (Cluster.Counts latest) (t.enter src pulses now).clusters seen := by
  rw [enter_clusters]
  rcases arrive_clusters t (burstStart pulses now) with heq | ⟨i, us, heq⟩
  · rw [heq]
    exact hrows
  · rw [heq]
    exact PairedTables.forall₂_modify_left hrows i fun c presses _ hrow => hrow.addGap us

/-- A burst keeps the press counts exact. -/
theorem feed_counts {src : Source} {t : Track} {log : SessionLog}
    (hwaiting : ∀ c ∈ t.clusters, c.Waiting) (hlogged : t.Logged src log)
    (h : List.Forall₂ (Cluster.Counts log.presses) t.clusters log.seen)
    (pulses : List UInt16) (carrierHz : UInt16) (now : UInt64)
    (hfew : (logBurst src t log pulses carrierHz now).presses < 65536) :
    List.Forall₂ (Cluster.Counts (logBurst src t log pulses carrierHz now).presses)
      (t.feed src pulses carrierHz now).clusters
      (logBurst src t log pulses carrierHz now).seen := by
  obtain ⟨hpos, hentered⟩ := enter_logged hlogged pulses now hfew
  let press := t.pressOf log (burstStart pulses now)
  have hcur : (t.enter src pulses now).curGroup = press := hentered.numbered
  have hlater : log.presses ≤ press := presses_le_logBurst src t log pulses carrierHz now
  have hrows : List.Forall₂ (Cluster.Counts press) (t.enter src pulses now).clusters log.seen :=
    enter_counts (h.imp fun _ _ hrow => hrow.mono hlater) src pulses now
  change List.Forall₂ (Cluster.Counts press) _ _
  by_cases hformed : wellFormed src (frameOf src pulses) carrierHz = true
  · have hready := enter_forall hwaiting (fun _ us hwait => hwait.addGap us) src pulses now
    have hseen : (logBurst src t log pulses carrierHz now).seen = seeSlot press log.seen
        (chooseSlot (t.enter src pulses now).clusters (frameOf src pulses)) := by
      rw [enter_clusters]
      exact if_pos hformed
    have hassigned := assign_counts hready (hcur ▸ hrows) (hcur ▸ hpos)
      (frameOf src pulses) carrierHz
    rw [hcur] at hassigned
    rw [hseen, t.feed_formed carrierHz now hformed]
    exact hassigned
  · have hseen : (logBurst src t log pulses carrierHz now).seen = log.seen := if_neg hformed
    rw [hseen, t.feed_malformed carrierHz now hformed]
    exact hrows

/-- In every run of fewer than 65536 presses, while the machine listens, every cluster of
every source counts the presses it was seen in. -/
theorem listening_counts {events : List Event}
    (hlisten : (LearnMachine.run events).state = .listening) {src : Source}
    (hfew : (sessionLog events src).presses < 65536) :
    List.Forall₂ (Cluster.Counts (sessionLog events src).presses)
      ((LearnMachine.run events).tracks src).clusters (sessionLog events src).seen := by
  have hsession := session_induction {} logBurst
    (I := fun src t log => (∀ c ∈ t.clusters, c.Waiting) ∧ (log.presses < 65536 →
      t.Logged src log ∧ List.Forall₂ (Cluster.Counts log.presses) t.clusters log.seen))
    (fun src => ⟨by simp, fun _ => ⟨logged_empty src, .nil⟩⟩)
    (fun src t log pulses carrierHz now _ h hwin => by
      obtain ⟨hwaiting, hlogged⟩ := h
      refine ⟨feed_waiting hwaiting pulses carrierHz now hwin, fun hfew => ?_⟩
      obtain ⟨hlog, hrows⟩ := hlogged (Nat.lt_of_le_of_lt
        (presses_le_logBurst src t log pulses carrierHz now) hfew)
      exact ⟨feed_logged hwaiting hlog pulses carrierHz now hfew,
        feed_counts hwaiting hlog hrows pulses carrierHz now hfew⟩)
    events hlisten src
  exact (hsession.2 hfew).2

/-- What a cluster holds: the payload of a well-formed burst, and the totals of its counted
members, which are bursts of `H` that match it. -/
structure Cluster.Totalled (src : Source) (H : List Heard) (c : Cluster) (ev : Evidence) :
    Prop where
  formed : ∃ carrierHz, wellFormed src c.repr carrierHz = true
  repr_pos : 0 < c.repr.length
  repr_le : c.repr.length ≤ kMaxBurstPulses
  heard : ev.counted.Sublist H
  alike : ∀ h ∈ ev.counted, burstsMatch c.repr h.frame = true
  count : c.count = ev.counted.length
  count_pos : 1 ≤ c.count
  count_le : c.count ≤ kMaxClusterMembers
  sum_length : c.sum.length = c.repr.length
  sum : ∀ i < c.repr.length, c.sum[i]? = some (ev.counted.map (Heard.entry i)).sum
  sum_lt : ∀ total ∈ c.sum, total < 2 ^ 32
  counted : c.groupCount ≤ c.count

theorem Explains.totalled {src : Source} {H : List Heard} {c : Cluster} {ev : Evidence}
    (h : Explains src H c ev) (hheld : c.Held) : c.Totalled src H ev := by
  obtain ⟨first, hhead, hrepr⟩ := h.first
  have hformed := h.formed first (List.mem_of_mem_head? hhead)
  rw [hrepr] at hformed
  obtain ⟨hmin, hmax, -, -⟩ := (wellFormed_iff _ _ _).mp hformed
  have hcounted := ev.counted_length_le
  refine
    { formed := ⟨_, hformed⟩
      repr_pos := Nat.lt_of_lt_of_le (by decide) hmin
      repr_le := hmax
      heard := ev.counted_sublist.trans h.sublist
      alike := fun b hb => h.matched b (ev.counted_sublist.subset hb)
      count := h.count
      count_pos := hheld.some_member
      count_le := h.count ▸ hcounted
      sum_length := hheld.summed
      sum := fun i hi => h.sum_getElem? hi
      sum_lt := ?_
      counted := hheld.counted }
  intro total htotal
  obtain ⟨i, hi⟩ := List.mem_iff_getElem?.mp htotal
  have hin : i < c.repr.length := by
    rw [← hheld.summed]
    exact (List.getElem?_eq_some_iff.mp hi).1
  rw [h.sum_getElem? hin, Option.some.injEq] at hi
  -- 250 members of at most 65535 us
  have hle : (ev.counted.map (Heard.entry i)).sum ≤ ev.counted.length * 65535 := by
    simpa using List.sum_le_card_nsmul _ 65535 (entry_le ev.counted i)
  simp only [kMaxClusterMembers] at hcounted
  omega

/-- The tables of a source in a session: `ledger` has the members of each cluster,
`sessionLog` the presses, and `slotAges` the bursts that wrote each slot and record. -/
structure TrackInvariant (events : List Event) (src : Source) (t : Track) : Prop where
  clusters_le : t.clusters.length ≤ kMaxClusters
  groups_le : t.groups.length ≤ kMaxGroups
  totalled : List.Forall₂ (Cluster.Totalled src (heard src events)) t.clusters
    (ledger events src)
  presses : (sessionLog events src).presses < 65536 →
    List.Forall₂ (fun c presses => c.groupCount = presses.toFinset.card) t.clusters
      (sessionLog events src).seen
  apart : ∀ (i j : Nat) (c d : Cluster), i ≠ j → t.clusters[i]? = some c →
    t.clusters[j]? = some d → burstsMatch c.repr d.repr = false
  last : t.LastHeld
  first : ∀ g ∈ t.groups, ∀ i, g.firstCluster = some i → i < t.clusters.length
  since : List.Forall₂ (Group.Since (slotAges events src).opened) t.groups
    (slotAges events src).named
  clean : (sessionLog events src).presses < 65536 → ∀ (k : Nat) (g : Group),
    t.groups[k]? = some g → g.Sound src t.clusters (sessionLog events src).bursts (k + 1)

/-- In every run, while the machine listens, every source's track is in order. -/
theorem listening_invariant {events : List Event}
    (hlisten : (LearnMachine.run events).state = .listening) (src : Source) :
    TrackInvariant events src ((LearnMachine.run events).tracks src) := by
  have hkept := listening_kept hlisten src
  have htidy := hkept.tidy
  refine
    { clusters_le := htidy.clusters_le
      groups_le := htidy.groups_le
      totalled := ?_
      presses := fun hfew => (listening_counts hlisten hfew).imp fun _ _ hrow => hrow.distinct
      apart := ?_
      last := hkept.last
      first := fun _ hg _ hfirst => htidy.first_lt hg hfirst
      since := htidy.named
      clean := fun hfew => (listening_logged hlisten hfew).sound }
  · have hrows := listening_explains events hlisten src
    rw [List.forall₂_iff_get] at hrows ⊢
    refine ⟨hrows.1, fun i hi hi' => ?_⟩
    exact (hrows.2 i hi hi').totalled (htidy.held _ (List.get_mem _ ⟨i, hi⟩))
  · intro i j c d hij hc hd
    by_contra hmatch
    exact hij (eq_of_burstsMatch htidy.apart hc hd (by simpa using hmatch))

/-- A machine that does not listen has empty tracks. -/
theorem tracks_of_not_listening (events : List Event)
    (h : (LearnMachine.run events).state ≠ .listening) :
    (LearnMachine.run events).tracks = fun _ => {} := by
  refine LearnMachine.machine.run_induction
    (P := fun _ m => m.state ≠ .listening → m.tracks = fun _ => {}) (fun _ => rfl) ?_ events h
  intro pre e ih hafter
  let m := LearnMachine.run pre
  change (m.step e).state ≠ .listening at hafter
  change (m.step e).tracks = fun _ => {}
  rcases m.step_cases e with ⟨now, rfl⟩ | ⟨src, pulses, carrierHz, now, rfl⟩ | hsame |
    ⟨hempty, -⟩
  · exact absurd rfl hafter
  · change (m.feedBurst src pulses carrierHz now).state ≠ .listening at hafter
    change (m.feedBurst src pulses carrierHz now).tracks = fun _ => {}
    rcases m.feedBurst_cases src pulses carrierHz now with ⟨-, heq⟩ | ⟨hstate, -, hfed⟩
    · rw [heq] at hafter ⊢
      exact ih hafter
    · simp only at hfed
      rcases hfed with ⟨c, -, heq⟩ | ⟨-, -, -, heq⟩ | ⟨-, -, heq⟩
      · rw [heq]
      · rw [heq]
      · rw [heq] at hafter
        exact absurd hstate hafter
  · rw [hsame] at hafter ⊢
    exact ih hafter
  · exact hempty

end Learn

end RfIrBlaster
