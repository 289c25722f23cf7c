/-
The evidence behind a rolling verdict.  A log of the session numbers the presses of
a source as the machine tells them apart, without the 16-bit wrap, and records for
every cluster the presses counted into it.  Slot recycling and the limit on tracked
presses are shown not to forge evidence.
-/
import RfIrBlaster.LearnClusters

namespace RfIrBlaster

namespace Learn

open LearnMachine (Event)

/-- One burst of a session; presses are numbered from 1. -/
structure Caught where
  press : Nat
  frame : List UInt16
  carrierHz : UInt16
deriving DecidableEq, Repr

/-- A source's session: its bursts, its presses, and the presses of the bursts
counted into each cluster since the cluster was opened. -/
structure SessionLog where
  bursts : List Caught := []
  presses : Nat := 0
  seen : List (List Nat) := []
deriving DecidableEq, Repr

/-- The press of a burst, by the machine's own test for a new one. -/
def Track.pressOf (t : Track) (log : SessionLog) (start : Nat) : Nat :=
  if t.opensGroup start then log.presses + 1 else log.presses

def seeSlot (press : Nat) (seen : List (List Nat)) : Slot → List (List Nat)
  | .found i => seen.modify i (· ++ [press])
  | .fresh => seen ++ [[press]]
  | .evict i => seen.set i [press]
  | .full => seen

/-- What `Track.feed` does, on the log. -/
def logBurst (src : Source) (t : Track) (log : SessionLog) (pulses : List UInt16)
    (carrierHz : UInt16) (now : UInt64) : SessionLog :=
  let start := burstStart pulses now
  let press := t.pressOf log start
  let frame := frameOf src pulses
  { bursts := log.bursts ++ [{ press, frame, carrierHz }]
    presses := press
    seen :=
      if wellFormed src frame carrierHz then
        seeSlot press log.seen (chooseSlot (t.arrive start).clusters frame)
      else log.seen }

/-- The log of a source's session so far. -/
def sessionLog (events : List Event) (src : Source) : SessionLog :=
  ((watcher {} logBurst).run events).logs src

/-- A press that held well-formed bursts, each of them matching one payload. -/
structure SolelyHeard (src : Source) (bursts : List Caught) (press : Nat)
    (payload : List UInt16) : Prop where
  heard : ∃ b ∈ bursts, b.press = press ∧ wellFormed src b.frame b.carrierHz = true
  only : ∀ b ∈ bursts, b.press = press → wellFormed src b.frame b.carrierHz = true →
    burstsMatch payload b.frame = true

/-- What a press record that is not dirty says about the press. -/
def Group.Sound (src : Source) (clusters : List Cluster) (bursts : List Caught)
    (press : Nat) (g : Group) : Prop :=
  g.dirty = false →
    match g.firstCluster with
    | none => ∀ b ∈ bursts, b.press = press → wellFormed src b.frame b.carrierHz = false
    | some i => ∃ c, clusters[i]? = some c ∧ SolelyHeard src bursts press c.repr

/-- What a cluster's press count says about the presses of its members. -/
structure Cluster.SeenIn (c : Cluster) (presses : List Nat) : Prop where
  some_press : 1 ≤ c.groupCount
  last : presses.getLast? = some c.lastGroup
  single : c.groupCount < kRfPressesNeeded → ∀ press ∈ presses, press = c.lastGroup

/-- The track agrees with the log of its session. -/
structure Track.Logged (src : Source) (t : Track) (log : SessionLog) : Prop where
  numbered : t.curGroup = log.presses
  started : t.sawBurst = true → 1 ≤ log.presses
  tracked : t.groups.length = min log.presses kMaxGroups
  bounded : ∀ b ∈ log.bursts, b.press ≤ log.presses
  sound : ∀ (k : Nat) (g : Group), t.groups[k]? = some g → g.Sound src t.clusters log.bursts (k + 1)
  rows : List.Forall₂ Cluster.SeenIn t.clusters log.seen

theorem SolelyHeard.append {src : Source} {bursts : List Caught} {press : Nat}
    {payload : List UInt16} (h : SolelyHeard src bursts press payload) {added : List Caught}
    (hadded : ∀ b ∈ added, b.press = press → wellFormed src b.frame b.carrierHz = true →
      burstsMatch payload b.frame = true) :
    SolelyHeard src (bursts ++ added) press payload := by
  obtain ⟨heard, hmem, hpress⟩ := h.heard
  refine ⟨⟨heard, List.mem_append_left _ hmem, hpress⟩, ?_⟩
  intro b hb hpress' hformed
  rcases List.mem_append.mp hb with hold | hnew
  · exact h.only b hold hpress' hformed
  · exact hadded b hnew hpress' hformed

/-- The first well-formed burst of a press. -/
theorem SolelyHeard.first {src : Source} {bursts : List Caught} {b : Caught}
    (hnone : ∀ b' ∈ bursts, b'.press = b.press → wellFormed src b'.frame b'.carrierHz = false)
    (hformed : wellFormed src b.frame b.carrierHz = true) {payload : List UInt16}
    (hmatch : burstsMatch payload b.frame = true) :
    SolelyHeard src (bursts ++ [b]) b.press payload := by
  refine ⟨⟨b, by simp, rfl, hformed⟩, ?_⟩
  intro b' hb' hpress' hformed'
  rcases List.mem_append.mp hb' with hold | hnew
  · rw [hnone b' hold hpress'] at hformed'
    cases hformed'
  · rw [List.mem_singleton.mp hnew]
    exact hmatch

/-- The slots of `clusters`, except for `gone`, keep their payloads in `clusters'`. -/
def PayloadsKept (gone : Option Nat) (clusters clusters' : List Cluster) : Prop :=
  ∀ i c, clusters[i]? = some c → gone ≠ some i →
    ∃ c', clusters'[i]? = some c' ∧ c'.repr = c.repr

theorem PayloadsKept.modify (gone : Option Nat) (clusters : List Cluster) (j : Nat)
    {f : Cluster → Cluster} (hf : ∀ c, (f c).repr = c.repr) :
    PayloadsKept gone clusters (clusters.modify j f) := by
  intro i c hc _
  by_cases hij : j = i
  · exact ⟨f c, by simp [hc, hij], hf c⟩
  · exact ⟨c, by simp [hc, hij], rfl⟩

theorem PayloadsKept.refl (gone : Option Nat) (clusters : List Cluster) :
    PayloadsKept gone clusters clusters :=
  fun _ c hc _ => ⟨c, hc, rfl⟩

/-- A press record stays true while its slot is kept and nothing well formed is
added to its press. -/
theorem Group.Sound.mono {src : Source} {clusters clusters' : List Cluster}
    {bursts : List Caught} {press : Nat} {g : Group}
    (h : g.Sound src clusters bursts press) {gone : Option Nat}
    (hkept : PayloadsKept gone clusters clusters')
    (hgone : ∀ i, g.firstCluster = some i → gone ≠ some i) {added : List Caught}
    (hadded : ∀ b ∈ added, b.press = press → wellFormed src b.frame b.carrierHz = false) :
    g.Sound src clusters' (bursts ++ added) press := by
  intro hclean
  have hsays := h hclean
  cases hfirst : g.firstCluster with
  | none =>
      simp only [hfirst] at hsays ⊢
      intro b hb hpress
      rcases List.mem_append.mp hb with hold | hnew
      · exact hsays b hold hpress
      · exact hadded b hnew hpress
  | some i =>
      simp only [hfirst] at hsays ⊢
      obtain ⟨c, hc, hsole⟩ := hsays
      obtain ⟨c', hc', hrepr⟩ := hkept i c hc (hgone i hfirst)
      refine ⟨c', hc', ?_⟩
      rw [hrepr]
      apply hsole.append
      intro b hb hpress hformed
      rw [hadded b hb hpress] at hformed
      cases hformed

/-- Eviction disowns the records of the slot it takes. -/
def Slot.forget : Slot → Group → Group
  | .evict i => Group.forget i
  | _ => id

/-- The slot whose payload is lost. -/
def Slot.gone : Slot → Option Nat
  | .evict i => some i
  | _ => none

theorem prepare_groups (t : Track) (frame : List UInt16) (slot : Slot) :
    (t.prepare frame slot).groups = t.groups.map slot.forget ∧
      (t.prepare frame slot).curGroup = t.curGroup := by
  cases slot <;> simp [Track.prepare, Slot.forget]

/-- Each press record after a burst: disowned with its slot, and marked when it is
the record of the current press. -/
theorem assign_groups_getElem? (t : Track) (frame : List UInt16) (carrierHz : UInt16)
    (hcur : 1 ≤ t.curGroup) (k : Nat) :
    (t.assign frame carrierHz).1.groups[k]? =
      t.groups[k]?.map fun g =>
        if k + 1 = t.curGroup then
          ((chooseSlot t.clusters frame).forget g).mark (t.assign frame carrierHz).2
        else (chooseSlot t.clusters frame).forget g := by
  obtain ⟨hgroups, hgroup⟩ := prepare_groups t frame (chooseSlot t.clusters frame)
  unfold Track.assign
  simp only [hgroups, hgroup, List.length_map]
  by_cases htracked : 1 ≤ t.curGroup ∧ t.curGroup ≤ t.groups.length
  · rw [if_pos htracked, List.getElem?_modify, List.getElem?_map]
    cases t.groups[k]? with
    | none => rfl
    | some g =>
        by_cases hk : k + 1 = t.curGroup
        · have hsame : t.curGroup - 1 = k := by omega
          simp [hk, hsame]
        · have hother : t.curGroup - 1 ≠ k := by omega
          simp [hk, hother]
  · rw [if_neg htracked, List.getElem?_map]
    cases hg : t.groups[k]? with
    | none => rfl
    | some g =>
        obtain ⟨hk, -⟩ := List.getElem?_eq_some_iff.mp hg
        have hother : k + 1 ≠ t.curGroup := by omega
        simp [hother]

/-- Only the evicted slot loses its payload to a burst. -/
theorem assign_payloadsKept (t : Track) (frame : List UInt16) (carrierHz : UInt16) :
    PayloadsKept (chooseSlot t.clusters frame).gone t.clusters
      (t.assign frame carrierHz).1.clusters := by
  rw [assign_clusters]
  cases chooseSlot t.clusters frame with
  | found i => exact .modify _ _ _ fun c => c.countBurst_repr _ _ _
  | fresh =>
      intro i c hc _
      obtain ⟨hi, -⟩ := List.getElem?_eq_some_iff.mp hc
      exact ⟨c, by simp [List.getElem?_append_left hi, hc], rfl⟩
  | evict j =>
      intro i c hc hgone
      have hij : j ≠ i := fun heq => hgone (congrArg some heq)
      exact ⟨c, by simp [List.getElem?_set_ne hij, hc], rfl⟩
  | full => exact .refl _ _

/-- The slot a burst went to holds a payload that matches it. -/
theorem assign_slot_matches {t : Track} {frame : List UInt16} {carrierHz : UInt16} {i : Nat}
    (h : (t.assign frame carrierHz).2 = some i) :
    ∃ c, (t.assign frame carrierHz).1.clusters[i]? = some c ∧
      burstsMatch c.repr frame = true := by
  rw [assign_lastCluster] at h
  rw [assign_clusters]
  cases hslot : chooseSlot t.clusters frame with
  | found j =>
      rw [hslot] at h
      obtain rfl : j = i := Option.some.inj h
      obtain ⟨c, hc, hmatch⟩ := chooseSlot_found hslot
      exact ⟨c.countBurst frame carrierHz t.curGroup, by simp [hc], by simpa using hmatch⟩
  | fresh =>
      rw [hslot] at h
      obtain rfl : t.clusters.length = i := Option.some.inj h
      exact ⟨(Cluster.start frame).countBurst frame carrierHz t.curGroup, by simp,
        by simp [Cluster.start]⟩
  | evict j =>
      rw [hslot] at h
      obtain rfl : j = i := Option.some.inj h
      cases hslot ▸ chooseSlot_chosen t.clusters frame with
      | evict hnew hheld hweak =>
          obtain ⟨hj, -⟩ := List.getElem?_eq_some_iff.mp hheld
          exact ⟨(Cluster.start frame).countBurst frame carrierHz t.curGroup, by simp [hj],
            by simp [Cluster.start]⟩
  | full =>
      rw [hslot] at h
      cases h

/-- A press record that is disowned says nothing more. -/
theorem forget_clean {slot : Slot} {g : Group} (h : (slot.forget g).dirty = false) :
    slot.forget g = g ∧ ∀ i, g.firstCluster = some i → slot.gone ≠ some i := by
  cases slot with
  | evict j =>
      simp only [Slot.forget, Group.forget] at h ⊢
      by_cases hfirst : g.firstCluster = some j
      · rw [if_pos hfirst] at h
        cases h
      · refine ⟨if_neg hfirst, fun i hi heq => ?_⟩
        rw [hi] at hfirst
        exact hfirst heq.symm
  | found j => exact ⟨rfl, fun _ _ heq => by cases heq⟩
  | fresh => exact ⟨rfl, fun _ _ heq => by cases heq⟩
  | full => exact ⟨rfl, fun _ _ heq => by cases heq⟩

/-- What a mark leaves when the record stays clean: the slot of the burst, which the
press has been all along or now begins with. -/
theorem mark_clean {cl : Option Nat} {g : Group} (h : (g.mark cl).dirty = false) :
    g.dirty = false ∧ ∃ i, cl = some i ∧ (g.mark cl).firstCluster = some i ∧
      (g.firstCluster = none ∨ g.firstCluster = some i) := by
  unfold Group.mark at h ⊢
  split_ifs at h ⊢ with hbegins hother
  · obtain ⟨i, rfl⟩ := Option.ne_none_iff_exists'.mp hbegins.2
    exact ⟨h, i, rfl, rfl, .inl hbegins.1⟩
  · rw [not_or, not_not] at hother
    obtain ⟨i, rfl⟩ := Option.ne_none_iff_exists'.mp hother.1
    exact ⟨h, i, rfl, hother.2.symm, .inr hother.2.symm⟩

/-- The record of another press stays true when a burst is clustered. -/
theorem sound_other_press {src : Source} {t : Track} {bursts : List Caught} {press : Nat}
    {g : Group} (h : g.Sound src t.clusters bursts press) (b : Caught)
    (hother : b.press ≠ press) :
    ((chooseSlot t.clusters b.frame).forget g).Sound src
      (t.assign b.frame b.carrierHz).1.clusters (bursts ++ [b]) press := by
  intro hclean
  obtain ⟨heq, hgone⟩ := forget_clean hclean
  rw [heq] at hclean ⊢
  refine h.mono (assign_payloadsKept t b.frame b.carrierHz) hgone ?_ hclean
  intro b' hb' hpress
  rw [List.mem_singleton.mp hb'] at hpress
  exact absurd hpress hother

/-- The record of the burst's own press stays true when the burst is clustered. -/
theorem sound_own_press {src : Source} {t : Track} {bursts : List Caught} {g : Group}
    {b : Caught} (h : g.Sound src t.clusters bursts b.press)
    (hformed : wellFormed src b.frame b.carrierHz = true) :
    (((chooseSlot t.clusters b.frame).forget g).mark
        (t.assign b.frame b.carrierHz).2).Sound src
      (t.assign b.frame b.carrierHz).1.clusters (bursts ++ [b]) b.press := by
  intro hclean
  obtain ⟨hforgotten, i, hcl, hfirst, hwas⟩ := mark_clean hclean
  obtain ⟨heq, hgone⟩ := forget_clean hforgotten
  rw [heq] at hforgotten hwas
  obtain ⟨c, hc, hmatch⟩ := assign_slot_matches hcl
  have hsays := h hforgotten
  simp only [hfirst]
  refine ⟨c, hc, ?_⟩
  rcases hwas with hnone | hsame
  · -- the press held nothing well formed before this burst
    rw [hnone] at hsays
    exact SolelyHeard.first hsays hformed hmatch
  · rw [hsame] at hsays
    obtain ⟨d, hd, hsole⟩ := hsays
    obtain ⟨c', hc', hrepr⟩ :=
      assign_payloadsKept t b.frame b.carrierHz i d hd (hgone i hsame)
    obtain rfl : c = c' := Option.some.inj (hc.symm.trans hc')
    rw [hrepr] at hmatch ⊢
    apply hsole.append
    intro b' hb' _ _
    rw [List.mem_singleton.mp hb']
    exact hmatch

theorem Cluster.SeenIn.addGap {c : Cluster} {presses : List Nat} (h : c.SeenIn presses)
    (us : Nat) : (c.addGap us).SeenIn presses :=
  ⟨h.some_press, h.last, h.single⟩

/-- Counting a burst of press `g` adds `g` to the presses seen. -/
theorem Cluster.SeenIn.countBurst {c : Cluster} {presses : List Nat}
    (h : c.SeenIn presses) (hwaiting : c.Waiting) (frame : List UInt16) (carrierHz : UInt16)
    (g : Nat) : (c.countBurst frame carrierHz g).SeenIn (presses ++ [g]) := by
  have hsome := h.some_press
  have hgrows := hwaiting.groupCount_le_countBurst frame carrierHz g
  refine ⟨by omega, ?_, ?_⟩
  · rw [Cluster.countBurst_lastGroup, List.getLast?_append_of_ne_nil _ (by simp),
      List.getLast?_singleton]
  · intro hsingle press hpress
    rw [Cluster.countBurst_lastGroup]
    have hone : c.groupCount < kRfPressesNeeded := by omega
    have hsame : c.lastGroup = g := by
      -- a new press would be the second
      by_contra hnew
      rw [hwaiting.countBurst_groupCount, if_pos hnew] at hsingle
      simp only [kRfPressesNeeded] at hsingle hone
      omega
    rcases List.mem_append.mp hpress with hold | hlast
    · rw [h.single hone press hold, hsame]
    · exact List.mem_singleton.mp hlast

theorem Cluster.SeenIn.start (frame : List UInt16) (carrierHz : UInt16) {g : Nat}
    (hpos : 1 ≤ g) : ((Cluster.start frame).countBurst frame carrierHz g).SeenIn [g] := by
  refine ⟨?_, ?_, ?_⟩
  · rw [Cluster.countBurst_groupCount, if_pos]
    · exact Nat.le_refl 1
    · change 0 ≠ g
      omega
  · rw [Cluster.countBurst_lastGroup, List.getLast?_singleton]
  · intro _ press hpress
    rw [Cluster.countBurst_lastGroup]
    exact List.mem_singleton.mp hpress

/-- The first burst of a source opens a press. -/
theorem sawBurst_of_not_opensGroup {t : Track} {start : Nat} (h : t.opensGroup start = false) :
    t.sawBurst = true := by
  unfold Track.opensGroup at h
  simpa using (Bool.or_eq_false_iff.mp h).1

/-- A new press: its record says nothing yet. -/
theorem Track.Logged.opened {src : Source} {t : Track} {log : SessionLog} (h : t.Logged src log)
    (hfew : log.presses + 1 < 65536) :
    Track.Logged src
      { t with
        curGroup := (t.curGroup + 1) % 65536
        groups := if t.groups.length < kMaxGroups then t.groups ++ [{}] else t.groups }
      { log with presses := log.presses + 1 } := by
  have htracked := h.tracked
  refine ⟨?_, fun _ => by simp, ?_, ?_, ?_, h.rows⟩
  · simp only [h.numbered]
    omega
  · by_cases hroom : t.groups.length < kMaxGroups
    · simp only [if_pos hroom, List.length_append, List.length_singleton]
      simp only [kMaxGroups] at hroom htracked ⊢
      omega
    · simp only [if_neg hroom]
      simp only [kMaxGroups] at hroom htracked ⊢
      omega
  · intro b hb
    have := h.bounded b hb
    simp only
    omega
  · intro k g hg
    simp only at hg
    split_ifs at hg with hroom
    · rcases Nat.lt_or_ge k t.groups.length with hold | hnew
      · rw [List.getElem?_append_left hold] at hg
        exact h.sound k g hg
      · -- the new record: no burst of its press has been heard yet
        obtain ⟨hk, hget⟩ := List.getElem?_eq_some_iff.mp hg
        rw [List.length_append, List.length_singleton] at hk
        rw [List.getElem_append_right hnew, List.getElem_singleton] at hget
        subst hget
        intro _ b hb hpress
        have := h.bounded b hb
        simp only [kMaxGroups] at hroom htracked
        omega
    · exact h.sound k g hg

/-- A gap sample moves no payload. -/
theorem Track.Logged.addGap {src : Source} {t : Track} {log : SessionLog} (h : t.Logged src log)
    (i us : Nat) :
    Track.Logged src { t with clusters := t.clusters.modify i (Cluster.addGap us) } log := by
  refine ⟨h.numbered, h.started, h.tracked, h.bounded, ?_, ?_⟩
  · intro k g hg
    have hsound : g.Sound src (t.clusters.modify i (Cluster.addGap us))
        (log.bursts ++ []) (k + 1) :=
      (h.sound k g hg).mono
        (PayloadsKept.modify none t.clusters i (f := Cluster.addGap us) fun _ => rfl)
        (fun _ _ heq => by cases heq) (by simp)
    simpa using hsound
  · exact PairedTables.forall₂_modify_left h.rows i fun c presses _ hrow => hrow.addGap us

/-- The arrival of a burst, with its press opened in the log. -/
theorem arrive_logged {src : Source} {t : Track} {log : SessionLog} (h : t.Logged src log)
    (start : Nat) (hfew : t.pressOf log start < 65536) :
    1 ≤ t.pressOf log start ∧
      (t.arrive start).Logged src { log with presses := t.pressOf log start } := by
  unfold Track.pressOf at hfew ⊢
  rcases t.arrive_cases start with
    ⟨hopen, heq⟩ | ⟨hopen, -, heq⟩ | ⟨hopen, i, us, -, heq⟩
  · simp only [hopen, if_true] at hfew ⊢
    rw [heq]
    exact ⟨by omega, h.opened hfew⟩
  · have hsaw := sawBurst_of_not_opensGroup hopen
    rw [heq]
    simp only [hopen, Bool.false_eq_true, if_false] at hfew ⊢
    exact ⟨h.started hsaw, h⟩
  · have hsaw := sawBurst_of_not_opensGroup hopen
    rw [heq]
    simp only [hopen, Bool.false_eq_true, if_false] at hfew ⊢
    exact ⟨h.started hsaw, h.addGap i us⟩

theorem noteDeclip_groups (t : Track) (d : Declip) :
    (t.noteDeclip d).groups = t.groups ∧ (t.noteDeclip d).sawBurst = t.sawBurst := by
  unfold Track.noteDeclip
  split_ifs <;> exact ⟨rfl, rfl⟩

theorem enter_logged {src : Source} {t : Track} {log : SessionLog} (h : t.Logged src log)
    (pulses : List UInt16) (now : UInt64)
    (hfew : t.pressOf log (burstStart pulses now) < 65536) :
    1 ≤ t.pressOf log (burstStart pulses now) ∧
      (t.enter src pulses now).Logged src
        { log with presses := t.pressOf log (burstStart pulses now) } := by
  obtain ⟨hpos, harrived⟩ := arrive_logged h (burstStart pulses now) hfew
  obtain ⟨hgroups, hsaw⟩ :=
    noteDeclip_groups (t.arrive (burstStart pulses now)) (declipOf src pulses)
  refine ⟨hpos, ?_, ?_, ?_, harrived.bounded, ?_, ?_⟩
  · exact (noteDeclip_curGroup _ _).trans harrived.numbered
  · intro hsaw'
    exact harrived.started (hsaw ▸ hsaw')
  · exact (congrArg List.length hgroups).trans harrived.tracked
  · rw [enter_clusters]
    intro k g hg
    exact harrived.sound k g (hgroups ▸ hg)
  · rw [enter_clusters]
    exact harrived.rows

/-- The row rule for the presses of each cluster: what counting one more burst keeps, and a
cluster opened by the burst has, holds of every row after the burst. -/
theorem assign_press_rows {R : Cluster → List Nat → Prop} {t : Track} {seen : List (List Nat)}
    (hrows : List.Forall₂ R t.clusters seen) (frame : List UInt16) (carrierHz : UInt16)
    (hcount : ∀ c ∈ t.clusters, ∀ presses, R c presses →
      R (c.countBurst frame carrierHz t.curGroup) (presses ++ [t.curGroup]))
    (hstart : R ((Cluster.start frame).countBurst frame carrierHz t.curGroup) [t.curGroup]) :
    List.Forall₂ R (t.assign frame carrierHz).1.clusters
      (seeSlot t.curGroup seen (chooseSlot t.clusters frame)) := by
  rw [assign_clusters]
  cases chooseSlot t.clusters frame with
  | found i =>
      apply PairedTables.forall₂_modify hrows i (fun _ _ hrow => hrow)
      intro c presses hc hrow
      exact hcount c (List.mem_of_getElem? hc) presses hrow
  | fresh => exact PairedTables.forall₂_concat hrows hstart
  | evict i => exact PairedTables.forall₂_set hrows i hstart
  | full => exact hrows

/-- The presses counted into each cluster, after one more burst. -/
theorem assign_seen {t : Track} {seen : List (List Nat)}
    (hwaiting : ∀ c ∈ t.clusters, c.Waiting) (hrows : List.Forall₂ Cluster.SeenIn t.clusters seen)
    (hpos : 1 ≤ t.curGroup) (frame : List UInt16) (carrierHz : UInt16) :
    List.Forall₂ Cluster.SeenIn (t.assign frame carrierHz).1.clusters
      (seeSlot t.curGroup seen (chooseSlot t.clusters frame)) :=
  assign_press_rows hrows frame carrierHz
    (fun c hc _ hrow => hrow.countBurst (hwaiting c hc) frame carrierHz t.curGroup)
    (Cluster.SeenIn.start frame carrierHz hpos)

theorem assign_groups_length (t : Track) (frame : List UInt16) (carrierHz : UInt16) :
    (t.assign frame carrierHz).1.groups.length = t.groups.length := by
  have hslot : (t.prepare frame (chooseSlot t.clusters frame)).groups.length = t.groups.length := by
    rw [(prepare_groups t frame _).1, List.length_map]
  unfold Track.assign
  simp only
  split_ifs
  · rw [List.length_modify, hslot]
  · exact hslot

/-- The press records stay true when a burst of the current press is clustered. -/
theorem assign_sound {src : Source} {t : Track} {log : SessionLog} (h : t.Logged src log)
    {b : Caught} (hpress : t.curGroup = b.press) (hpos : 1 ≤ b.press)
    (hformed : wellFormed src b.frame b.carrierHz = true) (k : Nat) (g : Group)
    (hg : (t.assign b.frame b.carrierHz).1.groups[k]? = some g) :
    g.Sound src (t.assign b.frame b.carrierHz).1.clusters (log.bursts ++ [b]) (k + 1) := by
  rw [assign_groups_getElem? t _ _ (hpress ▸ hpos), Option.map_eq_some_iff] at hg
  obtain ⟨g₀, hg₀, rfl⟩ := hg
  have hsound := h.sound k g₀ hg₀
  rw [hpress]
  by_cases hk : k + 1 = b.press
  · rw [if_pos hk]
    rw [hk] at hsound ⊢
    exact sound_own_press hsound hformed
  · rw [if_neg hk]
    exact sound_other_press hsound b (Ne.symm hk)

/-- A burst keeps its track in agreement with the log. -/
theorem feed_logged {src : Source} {t : Track} {log : SessionLog}
    (hwaiting : ∀ c ∈ t.clusters, c.Waiting) (h : t.Logged src log) (pulses : List UInt16)
    (carrierHz : UInt16) (now : UInt64)
    (hfew : (logBurst src t log pulses carrierHz now).presses < 65536) :
    (t.feed src pulses carrierHz now).Logged src
      (logBurst src t log pulses carrierHz now) := by
  obtain ⟨hpos, hentered⟩ := enter_logged h pulses now hfew
  let b : Caught := { press := t.pressOf log (burstStart pulses now),
                      frame := frameOf src pulses, carrierHz := carrierHz }
  have hcur : (t.enter src pulses now).curGroup = b.press := hentered.numbered
  have hbounded : ∀ b' ∈ log.bursts ++ [b], b'.press ≤ b.press := by
    intro b' hb'
    rcases List.mem_append.mp hb' with hold | hnew
    · exact hentered.bounded b' hold
    · rw [List.mem_singleton.mp hnew]
  by_cases hformed : wellFormed src b.frame carrierHz = true
  · have hlog : logBurst src t log pulses carrierHz now =
        { bursts := log.bursts ++ [b]
          presses := b.press
          seen := seeSlot b.press log.seen
            (chooseSlot (t.enter src pulses now).clusters b.frame) } := by
      rw [enter_clusters]
      simp only [logBurst]
      rw [if_pos hformed]
    rw [hlog, t.feed_formed carrierHz now hformed]
    refine ⟨?_, fun _ => hpos, ?_, hbounded, ?_, ?_⟩
    · exact (assign_curGroup _ _ carrierHz).trans hcur
    · exact (assign_groups_length _ _ carrierHz).trans hentered.tracked
    · exact assign_sound (b := b) hentered hcur hpos hformed
    · have hready := enter_forall hwaiting (fun _ us hwait => hwait.addGap us) src pulses now
      have hseen := assign_seen hready hentered.rows (hcur ▸ hpos) b.frame carrierHz
      rw [hcur] at hseen
      exact hseen
  · have hlog : logBurst src t log pulses carrierHz now =
        { bursts := log.bursts ++ [b], presses := b.press, seen := log.seen } := by
      simp only [logBurst]
      rw [if_neg hformed]
    rw [hlog, t.feed_malformed carrierHz now hformed]
    refine ⟨hcur, fun _ => hpos, hentered.tracked, hbounded, ?_, hentered.rows⟩
    intro k g hg
    refine (hentered.sound k g hg).mono (PayloadsKept.refl none _)
      (fun _ _ heq => by cases heq) ?_
    intro b' hb' _
    rw [List.mem_singleton.mp hb']
    simpa using hformed

/-- A source has heard no more presses before a burst than after it. -/
theorem presses_le_logBurst (src : Source) (t : Track) (log : SessionLog)
    (pulses : List UInt16) (carrierHz : UInt16) (now : UInt64) :
    log.presses ≤ (logBurst src t log pulses carrierHz now).presses := by
  simp only [logBurst, Track.pressOf]
  split_ifs <;> omega

theorem logged_empty (src : Source) : ({} : Track).Logged src {} :=
  ⟨rfl, by simp, rfl, by simp, by simp, .nil⟩

/-- In every run of fewer than 65536 presses, while the machine listens, every source's
table agrees with the log of its session. -/
theorem listening_logged {events : List Event}
    (hlisten : (LearnMachine.run events).state = .listening) {src : Source}
    (hfew : (sessionLog events src).presses < 65536) :
    ((LearnMachine.run events).tracks src).Logged src (sessionLog events src) := by
  have hsession := session_induction {} logBurst
    (I := fun src t log => (∀ c ∈ t.clusters, c.Waiting) ∧
      (log.presses < 65536 → t.Logged src log))
    (fun src => ⟨by simp, fun _ => logged_empty src⟩)
    (fun src t log pulses carrierHz now _ h hwin => by
      obtain ⟨hwaiting, hlogged⟩ := h
      refine ⟨feed_waiting hwaiting pulses carrierHz now hwin, fun hfew => ?_⟩
      have hbefore := Nat.lt_of_le_of_lt
        (presses_le_logBurst src t log pulses carrierHz now) hfew
      exact feed_logged hwaiting (hlogged hbefore) pulses carrierHz now hfew)
    events hlisten src
  exact hsession.2 hfew

/-- The payload ids are those of the clean records, each once. -/
theorem rollingIds_spec (groups : List Group) :
    (rollingIds groups).Nodup ∧
      ∀ i ∈ rollingIds groups, ∃ g ∈ groups, g.firstCluster = some i ∧ g.dirty = false := by
  have hfold : ∀ (rest : List Group) (ids : List Nat), ids.Nodup →
      (∀ i ∈ ids, ∃ g ∈ groups, g.firstCluster = some i ∧ g.dirty = false) →
      (∀ g ∈ rest, g ∈ groups) →
      let all := rest.foldl (fun ids g =>
        match g.firstCluster with
        | none => ids
        | some i => if g.dirty then ids else if i ∈ ids then ids else ids ++ [i]) ids
      all.Nodup ∧ ∀ i ∈ all, ∃ g ∈ groups, g.firstCluster = some i ∧ g.dirty = false := by
    intro rest
    induction rest with
    | nil => exact fun ids hnodup hids _ => ⟨hnodup, hids⟩
    | cons g rest ih =>
        intro ids hnodup hids hrest
        have htail : ∀ g' ∈ rest, g' ∈ groups := fun g' hg' => hrest g' (List.mem_cons_of_mem g hg')
        rw [List.foldl_cons]
        cases hfirst : g.firstCluster with
        | none => exact ih ids hnodup hids htail
        | some i =>
            by_cases hdirty : g.dirty = true
            · simp only [hdirty, if_true]
              exact ih ids hnodup hids htail
            · have hclean : g.dirty = false := by simpa using hdirty
              by_cases hmem : i ∈ ids
              · simp only [hclean, hmem, if_true, Bool.false_eq_true, if_false]
                exact ih ids hnodup hids htail
              · simp only [hclean, hmem, Bool.false_eq_true, if_false]
                apply ih _ _ _ htail
                · rw [List.nodup_append]
                  refine ⟨hnodup, by simp, ?_⟩
                  rintro a ha b hb rfl
                  rw [List.mem_singleton] at hb
                  exact hmem (hb ▸ ha)
                · intro j hj
                  rcases List.mem_append.mp hj with hold | hnew
                  · exact hids j hold
                  · rw [List.mem_singleton.mp hnew]
                    exact ⟨g, hrest g List.mem_cons_self, hfirst, hclean⟩
  exact hfold groups [] List.nodup_nil (by simp) fun _ h => h

/-- A press put forward as evidence, with the payload it held. -/
structure RollingPress where
  press : Nat
  payload : List UInt16
deriving DecidableEq, Repr

/-- What a rolling verdict on a source rests on. -/
structure RollingVerdict (src : Source) (t : Track) (log : SessionLog) : Prop where
  radio : src ≠ .ir
  single : List.Forall₂
    (fun (_ : Cluster) presses => ∃ press, press ∈ presses ∧ ∀ other ∈ presses, other = press)
    t.clusters log.seen
  evidence : ∃ evidence : List RollingPress,
    kRollingPressesNeeded ≤ evidence.length ∧
    (evidence.map RollingPress.press).Nodup ∧
    (∀ p ∈ evidence, SolelyHeard src log.bursts p.press p.payload ∧
      ∃ c ∈ t.clusters, c.repr = p.payload) ∧
    evidence.Pairwise (fun p q => burstsMatch p.payload q.payload = false) ∧
    ∃ common ∈ evidence, ∀ p ∈ evidence, p.payload.length = common.payload.length ∧
      durationsMatch (minPulse common.payload) (minPulse p.payload) = true

/-- What `checkRolling` found: no payload repeated across presses, and enough clean
payloads shaped like one of them. -/
theorem isRolling_found {t : Track} (h : t.isRolling = true) :
    (∀ c ∈ t.clusters, c.groupCount < kRfPressesNeeded) ∧
      ∃ a ∈ rollingIds t.groups, kRollingPressesNeeded ≤
        ((rollingIds t.groups).filter fun b =>
          structurallyAlike (t.reprAt a) (t.reprAt b)).length := by
  unfold Track.isRolling at h
  by_cases hrepeated :
      t.clusters.any (fun c => decide (c.groupCount ≥ kRfPressesNeeded)) = true
  · rw [if_pos hrepeated] at h
    cases h
  · rw [if_neg hrepeated] at h
    simp only at h
    refine ⟨by simpa using hrepeated, ?_⟩
    by_cases hfew : (rollingIds t.groups).length < kRollingPressesNeeded
    · rw [if_pos hfew] at h
      cases h
    · rw [if_neg hfew, List.any_eq_true] at h
      obtain ⟨a, ha, hcount⟩ := h
      rw [decide_eq_true_eq, List.countP_eq_length_filter] at hcount
      exact ⟨a, ha, hcount⟩

/-- A structural likeness puts both payloads at one length, with matching shortest
pulses. -/
theorem structurallyAlike_iff {a b : List UInt16} :
    structurallyAlike a b = true ↔
      a.length = b.length ∧ a.length ≠ 0 ∧ durationsMatch (minPulse a) (minPulse b) = true := by
  unfold structurallyAlike
  split_ifs with hlen
  · simp only [false_iff]
    rintro ⟨hsame, hne, -⟩
    exact hlen.elim (fun hdiffer => hdiffer hsame) hne
  · rw [not_or, not_not] at hlen
    exact ⟨fun hshortest => ⟨hlen.1, hlen.2, hshortest⟩, fun h => h.2.2⟩

/-- The clean press behind a payload id. -/
theorem rollingIds_press {src : Source} {t : Track} {log : SessionLog}
    (h : t.Logged src log) {i : Nat} (hi : i ∈ rollingIds t.groups) :
    ∃ k g c, t.groups[k]? = some g ∧ g.firstCluster = some i ∧ t.clusters[i]? = some c ∧
      t.reprAt i = c.repr ∧ SolelyHeard src log.bursts (k + 1) (t.reprAt i) := by
  obtain ⟨g, hg, hfirst, hclean⟩ := (rollingIds_spec t.groups).2 i hi
  obtain ⟨k, hk⟩ := List.mem_iff_getElem?.mp hg
  have hsays := h.sound k g hk hclean
  rw [hfirst] at hsays
  obtain ⟨c, hc, hsole⟩ := hsays
  have hrepr : t.reprAt i = c.repr := by simp [Track.reprAt, hc]
  exact ⟨k, g, c, hk, hfirst, hc, hrepr, hrepr ▸ hsole⟩

/-- Payloads of different ids do not match. -/
theorem rollingIds_apart {src : Source} {t : Track} {log : SessionLog}
    (horderly : t.Orderly src) (h : t.Logged src log) {i j : Nat}
    (hi : i ∈ rollingIds t.groups) (hj : j ∈ rollingIds t.groups) (hne : i ≠ j) :
    burstsMatch (t.reprAt i) (t.reprAt j) = false := by
  obtain ⟨-, -, c, -, -, hc, hrepr, -⟩ := rollingIds_press h hi
  obtain ⟨-, -, d, -, -, hd, hrepr', -⟩ := rollingIds_press h hj
  rw [hrepr, hrepr']
  by_contra hmatch
  exact hne (eq_of_burstsMatch horderly.apart hc hd (by simpa using hmatch))

/-- A cluster counted in fewer than two presses was seen in one. -/
theorem single_of_unrepeated {src : Source} {t : Track} {log : SessionLog}
    (h : t.Logged src log) (hfew : ∀ c ∈ t.clusters, c.groupCount < kRfPressesNeeded) :
    List.Forall₂ (fun (_ : Cluster) presses =>
      ∃ press, press ∈ presses ∧ ∀ other ∈ presses, other = press) t.clusters log.seen := by
  apply List.forall₂_iff_get.mpr
  refine ⟨h.rows.length_eq, fun i hi hi' => ?_⟩
  have hrow := (List.forall₂_iff_get.mp h.rows).2 i hi hi'
  exact ⟨_, List.mem_of_getLast? hrow.last, hrow.single (hfew _ (List.get_mem t.clusters ⟨i, hi⟩))⟩

/-- The verdict of `checkRolling` on a track that agrees with its log. -/
theorem isRolling_sound {src : Source} (hrf : src ≠ .ir) {t : Track} {log : SessionLog}
    (horderly : t.Orderly src) (h : t.Logged src log) (hrolling : t.isRolling = true) :
    RollingVerdict src t log := by
  obtain ⟨hfew, a, ha, henough⟩ := isRolling_found hrolling
  have hrecord : ∀ i, ∃ k, i ∈ rollingIds t.groups →
      ∃ g c, t.groups[k]? = some g ∧ g.firstCluster = some i ∧ t.clusters[i]? = some c ∧
        t.reprAt i = c.repr ∧ SolelyHeard src log.bursts (k + 1) (t.reprAt i) := by
    intro i
    by_cases hi : i ∈ rollingIds t.groups
    · obtain ⟨k, hk⟩ := rollingIds_press h hi
      exact ⟨k, fun _ => hk⟩
    · exact ⟨0, fun hmem => absurd hmem hi⟩
  choose record hrecord using hrecord
  let chosen := (rollingIds t.groups).filter fun b =>
    structurallyAlike (t.reprAt a) (t.reprAt b)
  have hchosen : ∀ {i}, i ∈ chosen → i ∈ rollingIds t.groups ∧
      structurallyAlike (t.reprAt a) (t.reprAt i) = true := fun hi => List.mem_filter.mp hi
  have hdistinct : chosen.Nodup := (rollingIds_spec t.groups).1.filter _
  have hself : a ∈ chosen := by
    obtain ⟨i, hi⟩ := List.exists_mem_of_length_pos (Nat.lt_of_lt_of_le (by decide) henough)
    have hne := (structurallyAlike_iff.mp (hchosen hi).2).2.1
    exact List.mem_filter.mpr
      ⟨ha, structurallyAlike_iff.mpr ⟨rfl, hne, durationsMatch_self _⟩⟩
  refine ⟨hrf, single_of_unrepeated h hfew,
    chosen.map fun i => ⟨record i + 1, t.reprAt i⟩, ?_, ?_, ?_, ?_, ?_⟩
  · rw [List.length_map]
    exact henough
  · -- one record names one payload id, so different ids stand for different presses
    rw [List.map_map, List.nodup_iff_pairwise_ne, List.pairwise_map]
    apply hdistinct.imp_of_mem
    intro i j hi hj hne heq
    obtain ⟨g, -, hg, hfirst, -⟩ := hrecord i (hchosen hi).1
    obtain ⟨g', -, hg', hfirst', -⟩ := hrecord j (hchosen hj).1
    have hsame : record i = record j := Nat.succ.inj heq
    rw [hsame, hg', Option.some.injEq] at hg
    rw [← hg, hfirst', Option.some.injEq] at hfirst
    exact hne hfirst.symm
  · intro p hp
    obtain ⟨i, hi, rfl⟩ := List.mem_map.mp hp
    obtain ⟨-, c, -, -, hc, hrepr, hsole⟩ := hrecord i (hchosen hi).1
    exact ⟨hsole, c, List.mem_of_getElem? hc, hrepr.symm⟩
  · rw [List.pairwise_map]
    apply hdistinct.imp_of_mem
    intro i j hi hj hne
    exact rollingIds_apart horderly h (hchosen hi).1 (hchosen hj).1 hne
  · refine ⟨_, List.mem_map.mpr ⟨a, hself, rfl⟩, fun p hp => ?_⟩
    obtain ⟨i, hi, rfl⟩ := List.mem_map.mp hp
    obtain ⟨hlength, -, hshortest⟩ := structurallyAlike_iff.mp (hchosen hi).2
    exact ⟨hlength.symm, hshortest⟩

/-- Only a burst on a radio source leads to a rolling verdict. -/
theorem rolling_entry {events : List Event} {e : Event}
    (hbefore : (LearnMachine.run events).state ≠ .failed)
    (hafter : (LearnMachine.run (events ++ [e])).state = .failed)
    (hreason : (LearnMachine.run (events ++ [e])).reason = .rolling) :
    ∃ src pulses carrierHz now, e = .feedBurst src pulses carrierHz now ∧ src ≠ .ir ∧
      (LearnMachine.run events).state = .listening ∧ pulses ≠ [] ∧
      (((LearnMachine.run events).tracks src).feed src pulses carrierHz now).winner src = none ∧
      (((LearnMachine.run events).tracks src).feed src pulses carrierHz now).isRolling = true := by
  let m := LearnMachine.run events
  have hrun : LearnMachine.run (events ++ [e]) = m.step e := StateMachine.run_concat _ _ _
  rw [hrun] at hafter hreason
  cases e with
  | begin now => cases hafter
  | feedBurst src pulses carrierHz now =>
      change (m.feedBurst src pulses carrierHz now).state = .failed at hafter
      rcases m.feedBurst_cases src pulses carrierHz now with ⟨-, heq⟩ | ⟨hstate, hne, hfed⟩
      · rw [heq] at hafter
        exact absurd hafter hbefore
      · simp only at hfed
        rcases hfed with ⟨c, -, heq⟩ | ⟨hwin, hrf, hrolling, -⟩ | ⟨-, -, heq⟩
        · rw [heq] at hafter
          cases hafter
        · exact ⟨src, pulses, carrierHz, now, rfl, hrf, hstate, hne, hwin, hrolling⟩
        · rw [heq] at hafter
          exact absurd (hstate.symm.trans hafter) (by decide)
  | tick now =>
      change (m.tick now).state = .failed at hafter
      change (m.tick now).reason = .rolling at hreason
      unfold LearnMachine.tick at hafter hreason
      split_ifs at hafter hreason with hdue hactive
      · cases hreason
      · cases hreason
      · exact absurd hafter hbefore
  | cancel => cases hafter
  | takeCode =>
      change m.takeCode.2.state = .failed at hafter
      rcases m.takeCode_cases with heq | ⟨-, heq⟩
      · rw [heq] at hafter
        exact absurd hafter hbefore
      · rw [heq] at hafter
        cases hafter

/-- The rolling verdict is sound: whenever a run of fewer than 65536 presses fails
with `rolling`, the source of the last burst has the evidence for it. -/
theorem rolling_sound (events : List Event) (e : Event)
    (hfew : ∀ src, (sessionLog (events ++ [e]) src).presses < 65536)
    (hbefore : (LearnMachine.run events).state ≠ .failed)
    (hafter : (LearnMachine.run (events ++ [e])).state = .failed)
    (hreason : (LearnMachine.run (events ++ [e])).reason = .rolling) :
    ∃ src pulses carrierHz now, e = .feedBurst src pulses carrierHz now ∧
      (LearnMachine.run events).state = .listening ∧
      RollingVerdict src (((LearnMachine.run events).tracks src).feed src pulses carrierHz now)
        (sessionLog (events ++ [e]) src) := by
  obtain ⟨src, pulses, carrierHz, now, rfl, hrf, hstate, hne, hwin, hrolling⟩ :=
    rolling_entry hbefore hafter hreason
  have hlog : sessionLog (events ++ [Event.feedBurst src pulses carrierHz now]) src =
      logBurst src ((LearnMachine.run events).tracks src) (sessionLog events src)
        pulses carrierHz now := by
    unfold sessionLog
    rw [watcher_feedBurst {} logBurst carrierHz now hstate hne, Function.update_self]
  have hfew' := hfew src
  rw [hlog] at hfew'
  have hearlier : (sessionLog events src).presses < 65536 :=
    Nat.lt_of_le_of_lt (presses_le_logBurst src _ _ pulses carrierHz now) hfew'
  have horderly := listening_orderly hstate hrf
  refine ⟨src, pulses, carrierHz, now, rfl, hstate, ?_⟩
  rw [hlog]
  exact isRolling_sound hrf (feed_orderly hrf horderly pulses carrierHz now hwin)
    (feed_logged (listening_waiting hstate src) (listening_logged hstate hearlier) pulses
      carrierHz now hfew') hrolling

/-- Two presses of a fob whose payload changes with every press. -/
def twoFobPresses : List Event :=
  [.begin 0, .feedBurst .rf433 (List.replicate 17 400) 0 1000,
    .feedBurst .rf433 (List.replicate 16 400 ++ [1000]) 0 2000]

/-- Its third press is refused. -/
theorem rolling_sound_three_payloads :
    ∃ src pulses carrierHz now,
      Event.feedBurst .rf433 (1000 :: List.replicate 16 400) 0 3000 =
        .feedBurst src pulses carrierHz now ∧
      (LearnMachine.run twoFobPresses).state = .listening ∧
      RollingVerdict src
        (((LearnMachine.run twoFobPresses).tracks src).feed src pulses carrierHz now)
        (sessionLog (twoFobPresses ++
          [Event.feedBurst .rf433 (1000 :: List.replicate 16 400) 0 3000]) src) :=
  rolling_sound twoFobPresses (.feedBurst .rf433 (1000 :: List.replicate 16 400) 0 3000)
    (fun src => by cases src <;> decide +kernel) (by decide +kernel) (by decide +kernel)
    (by decide +kernel)

end Learn

end RfIrBlaster
