/-
`feedBurst`, `checkRolling` and `capture` with their table accesses, the `ids` array and
their divisions written out: an index out of bounds or a division by zero stops the
machine.  In every run it never stops, and does what `LearnMachine` says.
-/
import RfIrBlaster.LearnTracks
import RfIrBlaster.BoundedAccess

namespace RfIrBlaster

namespace Learn

open LearnMachine (Event)

namespace Checked

/-- The press bookkeeping: the gap sample goes to `clusters[lastCluster]`. -/
def arrive (t : Track) (start : Nat) : Option Track :=
  if t.opensGroup start then
    some { t with
      curGroup := (t.curGroup + 1) % 65536
      groups := if t.groups.length < kMaxGroups then t.groups ++ [{}] else t.groups }
  else
    match t.lastCluster with
    | none => some t
    | some i =>
        if t.lastEnd < start then
          (BoundedAccess.update t.clusters i fun prev =>
            if prev.gapCount < kMaxGapSamples then
              some (prev.addGap (min ((start - t.lastEnd) * 1000 % 2 ^ 64) 65535))
            else some prev).map fun clusters => { t with clusters := clusters }
        else some t

theorem arrive_eq {t : Track} (h : t.LastHeld) (start : Nat) :
    arrive t start = some (t.arrive start) := by
  unfold arrive Track.arrive
  by_cases hopen : t.opensGroup start = true
  · rw [if_pos hopen, if_pos hopen]
  · rw [if_neg hopen, if_neg hopen]
    unfold Track.gapSample
    cases hlast : t.lastCluster with
    | none => rfl
    | some i =>
        obtain ⟨prev, hprev⟩ : ∃ prev, t.clusters[i]? = some prev :=
          ⟨_, List.getElem?_eq_getElem (h i hlast)⟩
        simp only [hprev]
        by_cases hsilence : t.lastEnd < start
        · by_cases hroom : prev.gapCount < kMaxGapSamples
          · rw [if_pos hsilence, if_pos ⟨hsilence, hroom⟩,
              BoundedAccess.update_eq hprev (if_pos hroom)]
            rfl
          · have hfull : ¬(t.lastEnd < start ∧ prev.gapCount < kMaxGapSamples) :=
              fun hboth => hroom hboth.2
            rw [if_pos hsilence, if_neg hfull,
              BoundedAccess.update_eq (g := id) hprev (if_neg hroom), List.modify_id,
              Option.map_some, ← hlast]
        · rw [if_neg hsilence, if_neg fun hboth => hsilence hboth.1]

/-- The eviction scan over `clusters[i]`, which compares with `clusters[weakest]`. -/
def weakest (clusters : List Cluster) : Nat → Nat → Option Nat → Option (Option Nat)
  | 0, _, best => some best
  | left + 1, i, best =>
      clusters[i]?.bind fun c =>
        if c.isProtected then weakest clusters left (i + 1) best
        else
          match best with
          | none => weakest clusters left (i + 1) (some i)
          | some w =>
              clusters[w]?.bind fun weak =>
                if c.count < weak.count then weakest clusters left (i + 1) (some i)
                else weakest clusters left (i + 1) (some w)

/-- The scan carries the count of the weakest cluster instead of reading it again. -/
theorem weakest_drop {clusters rest : List Cluster} {i : Nat} {best : Option (Nat × Nat)}
    (hrest : clusters.drop i = rest)
    (hbest : ∀ w n, best = some (w, n) → ∃ c, clusters[w]? = some c ∧ c.count = n) :
    weakest clusters rest.length i (best.map Prod.fst) =
      some ((weakestScan rest i best).map Prod.fst) := by
  induction rest generalizing i best with
  | nil => rfl
  | cons c rest ih =>
      obtain ⟨hc, htail⟩ := BoundedAccess.getElem?_of_drop hrest
      have htake : weakest clusters rest.length (i + 1) (some i) =
          some ((weakestScan rest (i + 1) (some (i, c.count))).map Prod.fst) := by
        refine @ih (i + 1) (some (i, c.count)) htail ?_
        intro w n hw
        obtain ⟨rfl, rfl⟩ := Prod.mk.inj (Option.some.inj hw)
        exact ⟨c, hc, rfl⟩
      rw [List.length_cons, weakest, hc, Option.bind_some]
      unfold weakestScan
      by_cases hprotected : c.isProtected = true
      · rw [if_pos hprotected, if_pos hprotected]
        exact ih htail hbest
      · rw [if_neg hprotected, if_neg hprotected]
        cases best with
        | none => exact htake
        | some weak =>
            obtain ⟨w, n⟩ := weak
            obtain ⟨d, hd, rfl⟩ := hbest w n rfl
            simp only [Option.map_some, hd, Option.bind_some]
            by_cases hweaker : c.count < d.count
            · rw [if_pos hweaker, if_pos hweaker]
              exact htake
            · rw [if_neg hweaker, if_neg hweaker]
              exact ih htail hbest

def chooseSlot (clusters : List Cluster) (frame : List UInt16) : Option Slot :=
  (BoundedAccess.findFrom clusters (fun c => burstsMatch c.repr frame) clusters.length 0).bind
    fun found =>
      match found with
      | some i => some (.found i)
      | none =>
          if clusters.length < kMaxClusters then some .fresh
          else
            (weakest clusters clusters.length 0 none).map fun best =>
              match best with
              | some i => .evict i
              | none => .full

theorem chooseSlot_eq (clusters : List Cluster) (frame : List UInt16) :
    chooseSlot clusters frame = some (Learn.chooseSlot clusters frame) := by
  have hscan := @weakest_drop clusters clusters 0 none List.drop_zero
    (fun w n heq => by cases heq)
  unfold chooseSlot Learn.chooseSlot
  rw [BoundedAccess.findFrom_eq, Option.bind_some]
  cases clusters.findIdx? (fun c => burstsMatch c.repr frame) with
  | some i => rfl
  | none =>
      simp only
      by_cases hroom : clusters.length < kMaxClusters
      · rw [if_pos hroom, if_pos hroom]
      · rw [if_neg hroom, if_neg hroom]
        rw [Option.map_none] at hscan
        rw [hscan]
        cases weakestScan clusters 0 none <;> rfl

/-- The slot made ready: `clusters[slot]` is written. -/
def prepare (t : Track) (frame : List UInt16) : Slot → Option Track
  | .found _ => some t
  | .fresh =>
      (BoundedAccess.update (t.clusters ++ [{}]) t.clusters.length fun _ =>
        some (Cluster.start frame)).map fun clusters => { t with clusters := clusters }
  | .evict i =>
      (BoundedAccess.update t.clusters i fun _ => some (Cluster.start frame)).map fun clusters =>
        { t with groups := t.groups.map (Group.forget i), clusters := clusters }
  | .full => some t

theorem prepare_eq {t : Track} {frame : List UInt16} {slot : Slot}
    (h : Slot.Chosen t.clusters frame slot) :
    prepare t frame slot = some (t.prepare frame slot) := by
  cases h with
  | found hheld hmatch => rfl
  | fresh hnew =>
      have hlast : (t.clusters ++ [({} : Cluster)])[t.clusters.length]? = some {} := by simp
      rw [prepare, BoundedAccess.update_eq (g := fun _ => Cluster.start frame) hlast rfl,
        PairedTables.modify_length_concat]
      rfl
  | evict hnew hheld hweak =>
      rw [prepare, BoundedAccess.update_eq (g := fun _ => Cluster.start frame) hheld rfl,
        ← List.set_eq_modify]
      rfl
  | full hnew => rfl

/-- The totals: `c.sum[i] += fp[i]` over the frame. -/
def addMember (frame : List UInt16) (carrierHz : UInt16) (c : Cluster) : Option Cluster :=
  if c.count < kMaxClusterMembers then
    (BoundedAccess.zipInto (fun s p => (s + p.toNat) % 2 ^ 32) c.sum frame).map fun sum =>
      { c with
        count := (c.count + 1) % 256
        sum := sum
        carrierSum := (c.carrierSum + carrierHz.toNat) % 2 ^ 32 }
  else some c

def countBurst (frame : List UInt16) (carrierHz : UInt16) (curGroup : Nat) (c : Cluster) :
    Option Cluster :=
  (addMember frame carrierHz c).map (Cluster.seenIn curGroup)

theorem countBurst_eq {c : Cluster} {frame : List UInt16} (h : c.sum.length = frame.length)
    (carrierHz : UInt16) (g : Nat) :
    countBurst frame carrierHz g c = some (c.countBurst frame carrierHz g) := by
  have hadded : addMember frame carrierHz c = some (c.addMember frame carrierHz) := by
    unfold addMember Cluster.addMember
    rw [BoundedAccess.zipInto_eq _ h]
    split_ifs <;> rfl
  rw [countBurst, hadded]
  rfl

/-- The clustering: the burst is counted into `clusters[cl]`, and `groups[curGroup - 1]` is
marked. -/
def assign (t : Track) (frame : List UInt16) (carrierHz : UInt16) :
    Option (Track × Option Nat) :=
  (chooseSlot t.clusters frame).bind fun slot =>
    let cl := slot.index t.clusters
    (prepare t frame slot).bind fun t =>
      (match cl with
        | none => some t.clusters
        | some i =>
            BoundedAccess.update t.clusters i
              (countBurst frame carrierHz t.curGroup)).bind fun clusters =>
        (if 1 ≤ t.curGroup ∧ t.curGroup ≤ t.groups.length then
            BoundedAccess.update t.groups (t.curGroup - 1) fun g => some (g.mark cl)
          else some t.groups).map fun groups =>
          ({ t with clusters := clusters, groups := groups }, cl)

/-- The cluster a burst is counted into is there, with a total for each of its entries. -/
theorem prepare_slot {t : Track} (hsummed : ∀ c ∈ t.clusters, c.sum.length = c.repr.length)
    {frame : List UInt16} {slot : Slot} (h : Slot.Chosen t.clusters frame slot) {i : Nat}
    (hcl : slot.index t.clusters = some i) :
    ∃ c, (t.prepare frame slot).clusters[i]? = some c ∧ c.sum.length = frame.length := by
  have hstart : (Cluster.start frame).sum.length = frame.length := List.length_replicate
  cases h with
  | found hheld hmatch =>
      obtain rfl := Option.some.inj hcl
      refine ⟨_, hheld, ?_⟩
      rw [hsummed _ (List.mem_of_getElem? hheld), burstsMatch_length hmatch]
  | fresh hnew =>
      obtain rfl := Option.some.inj hcl
      exact ⟨Cluster.start frame, by simp [Track.prepare], hstart⟩
  | evict hnew hheld hweak =>
      obtain rfl := Option.some.inj hcl
      obtain ⟨hi, -⟩ := List.getElem?_eq_some_iff.mp hheld
      exact ⟨Cluster.start frame, by simp [Track.prepare, hi], hstart⟩
  | full hnew => cases hcl

theorem assign_eq {t : Track} (hsummed : ∀ c ∈ t.clusters, c.sum.length = c.repr.length)
    (frame : List UInt16) (carrierHz : UInt16) :
    assign t frame carrierHz = some (t.assign frame carrierHz) := by
  have hchosen := chooseSlot_chosen t.clusters frame
  unfold assign Track.assign
  rw [chooseSlot_eq, Option.bind_some]
  generalize Learn.chooseSlot t.clusters frame = slot at hchosen ⊢
  simp only [prepare_eq hchosen, Option.bind_some]
  let p := t.prepare frame slot
  have hgroups : (if 1 ≤ p.curGroup ∧ p.curGroup ≤ p.groups.length then
        BoundedAccess.update p.groups (p.curGroup - 1) fun g =>
          some (g.mark (slot.index t.clusters))
      else some p.groups) =
      some (if 1 ≤ p.curGroup ∧ p.curGroup ≤ p.groups.length then
        p.groups.modify (p.curGroup - 1) (Group.mark (slot.index t.clusters))
      else p.groups) := by
    by_cases htracked : 1 ≤ p.curGroup ∧ p.curGroup ≤ p.groups.length
    · have hrecord : p.curGroup - 1 < p.groups.length := by omega
      rw [if_pos htracked, if_pos htracked,
        BoundedAccess.update_eq (List.getElem?_eq_getElem hrecord) rfl]
    · rw [if_neg htracked, if_neg htracked]
  cases hcl : slot.index t.clusters with
  | none =>
      rw [hcl] at hgroups
      simp only [Option.bind_some]
      change Option.map _ (ite (1 ≤ p.curGroup ∧ _) _ _) = _
      rw [hgroups]
      rfl
  | some i =>
      rw [hcl] at hgroups
      obtain ⟨c, hc, hlength⟩ := prepare_slot hsummed hchosen hcl
      have hcounted := BoundedAccess.update_eq hc (countBurst_eq hlength carrierHz p.curGroup)
      change Option.bind (BoundedAccess.update p.clusters i _) _ = _
      rw [hcounted, Option.bind_some]
      change Option.map _ (ite (1 ≤ p.curGroup ∧ _) _ _) = _
      rw [hgroups]
      rfl

def feed (t : Track) (src : Source) (pulses : List UInt16) (carrierHz : UInt16)
    (now : UInt64) : Option Track :=
  (arrive t (burstStart pulses now)).bind fun arrived =>
    let t := arrived.noteDeclip (declipOf src pulses)
    let frame := frameOf src pulses
    (if wellFormed src frame carrierHz then assign t frame carrierHz else some (t, none)).map
      fun (t, cl) => { t with lastEnd := now.toNat, lastCluster := cl, sawBurst := true }

theorem feed_eq {t : Track} {ages : SlotAges} (h : t.Kept ages) (src : Source)
    (pulses : List UInt16) (carrierHz : UInt16) (now : UInt64) :
    feed t src pulses carrierHz now = some (t.feed src pulses carrierHz now) := by
  have hsummed : ∀ c ∈ (t.enter src pulses now).clusters, c.sum.length = c.repr.length :=
    fun c hc => ((enter_tidy h.tidy src pulses now).held c hc).summed
  have hassigned := assign_eq hsummed (frameOf src pulses) carrierHz
  unfold feed Track.feed
  rw [arrive_eq h.last, Option.bind_some]
  by_cases hformed : wellFormed src (frameOf src pulses) carrierHz = true
  · simp only [if_pos hformed]
    change Option.map _ (assign (t.enter src pulses now) _ _) = _
    rw [hassigned]
    rfl
  · simp only [if_neg hformed]
    rfl

/-- The capture test on `clusters[cl]`. -/
def winner (src : Source) (t : Track) : Option (Option Cluster) :=
  match t.lastCluster with
  | none => some none
  | some i =>
      t.clusters[i]?.map fun c =>
        if c.count ≥ kMatchesNeeded ∧ (src = .ir ∨ c.groupCount ≥ kRfPressesNeeded) then some c
        else none

theorem winner_eq {t : Track} (h : t.LastHeld) (src : Source) :
    winner src t = some (t.winner src) := by
  unfold winner Track.winner
  cases hlast : t.lastCluster with
  | none => rfl
  | some i =>
      simp only [List.getElem?_eq_getElem (h i hlast)]
      rfl

/-- One press of the loop that fills `ids`: it is searched, and takes a new payload. -/
def addId (ids : List Nat) (g : Group) : Option (List Nat) :=
  match g.firstCluster with
  | none => some ids
  | some i =>
      if g.dirty then some ids
      else
        (BoundedAccess.findFrom ids (· == i) ids.length 0).bind fun seen =>
          if seen.isSome then some ids else BoundedAccess.push kMaxGroups ids i

def rollingIds (groups : List Group) : Option (List Nat) :=
  groups.foldlM addId []

/-- There is room for an id of every press. -/
theorem addId_eq {ids : List Nat} (h : ids.length < kMaxGroups) (g : Group) :
    addId ids g = some (match g.firstCluster with
      | none => ids
      | some i => if g.dirty then ids else if i ∈ ids then ids else ids ++ [i]) := by
  unfold addId
  cases g.firstCluster with
  | none => rfl
  | some i =>
      simp only
      by_cases hdirty : g.dirty = true
      · rw [if_pos hdirty, if_pos hdirty]
      · rw [if_neg hdirty, if_neg hdirty, BoundedAccess.findFrom_eq, Option.bind_some,
          BoundedAccess.push_eq h]
        have hseen : (ids.findIdx? (· == i)).isSome = true ↔ i ∈ ids := by simp
        by_cases hmem : i ∈ ids
        · rw [if_pos (hseen.mpr hmem), if_pos hmem]
        · rw [if_neg (mt hseen.mp hmem), if_neg hmem]

theorem rollingIds_eq {groups : List Group} (h : groups.length ≤ kMaxGroups) :
    rollingIds groups = some (Learn.rollingIds groups) := by
  have hfold : ∀ (rest : List Group) (ids : List Nat), ids.length + rest.length ≤ kMaxGroups →
      rest.foldlM addId ids = some (rest.foldl (fun ids g =>
        match g.firstCluster with
        | none => ids
        | some i => if g.dirty then ids else if i ∈ ids then ids else ids ++ [i]) ids) := by
    intro rest
    induction rest with
    | nil => exact fun ids _ => rfl
    | cons g rest ih =>
        intro ids hroom
        rw [List.length_cons] at hroom
        rw [List.foldlM_cons, List.foldl_cons, addId_eq (by omega), Option.bind_eq_bind,
          Option.bind_some]
        apply ih
        -- a press adds one id at most
        cases g.firstCluster with
        | none =>
            simp only
            omega
        | some i =>
            simp only
            split_ifs
            · omega
            · omega
            · rw [List.length_append, List.length_singleton]
              omega
  exact hfold groups [] (by simpa using h)

/-- `checkRolling`, over `clusters[ids[a]]` and `clusters[ids[b]]`. -/
def isRolling (t : Track) : Option Bool :=
  if t.clusters.any (fun c => decide (c.groupCount ≥ kRfPressesNeeded)) then some false
  else
    (rollingIds t.groups).bind fun ids =>
      if ids.length < kRollingPressesNeeded then some false
      else
        BoundedAccess.anyAt t.clusters (fun ca =>
          (BoundedAccess.countAt t.clusters (fun cb => structurallyAlike ca.repr cb.repr)
            ids).map fun alike => decide (alike ≥ kRollingPressesNeeded)) ids

theorem isRolling_eq {t : Track} {ages : SlotAges} (h : t.Tidy ages) :
    isRolling t = some t.isRolling := by
  unfold isRolling Track.isRolling
  rw [rollingIds_eq h.groups_le, Option.bind_some]
  have hids : ∀ i ∈ Learn.rollingIds t.groups, i < t.clusters.length := by
    intro i hi
    obtain ⟨g, hg, hfirst, -⟩ := (rollingIds_spec t.groups).2 i hi
    exact h.first_lt hg hfirst
  have hcount := fun ca : Cluster => BoundedAccess.countAt_eq
    (fun cb => structurallyAlike ca.repr cb.repr) {} hids
  simp only [hcount, Option.map_some]
  rw [BoundedAccess.anyAt_eq {} hids fun ca => rfl]
  split_ifs <;> rfl

/-- A rounded mean divides by the count. -/
def mean (total count : Nat) : Option Nat :=
  if count = 0 then none else some (roundedMean total count)

theorem mean_eq (total : Nat) {count : Nat} (h : 0 < count) :
    mean total count = some (roundedMean total count) :=
  if_neg (Nat.ne_of_gt h)

def measuredGap (c : Cluster) : Option Nat :=
  if 0 < c.gapCount then mean c.gapSumUs c.gapCount else some kDefaultTrailGapUs

theorem measuredGap_eq (c : Cluster) : measuredGap c = some c.measuredGap := by
  unfold measuredGap Cluster.measuredGap
  split_ifs with hgaps
  · exact mean_eq _ hgaps
  · rfl

/-- `frame[i]` is the mean of `c.sum[i]`, for as many entries as the reference has. -/
def meanFrame (c : Cluster) : Option (List UInt16) :=
  BoundedAccess.readFrom c.sum (fun s => (mean s c.count).map UInt16.ofNat) c.repr.length 0

theorem meanFrame_eq {c : Cluster} (h : c.Held) : meanFrame c = some c.meanFrame := by
  apply BoundedAccess.readFrom_eq _ h.summed
  intro s
  rw [mean_eq s h.some_member]
  rfl

def captureCode (src : Source) (t : Track) (c : Cluster) : Option StoredCode :=
  if src = .ir then
    (mean c.carrierSum c.count).bind fun carrierHz =>
      (meanFrame c).bind fun frame =>
        (if c.repr.length % 2 ≠ 0 then
            (measuredGap c).map fun gap =>
              frame ++ [UInt16.ofNat (min (max gap kMinTrailGapUs) 65535)]
          else some frame).map fun pulses =>
          { kind := .ir, carrierHz := UInt16.ofNat carrierHz, pulses := pulses }
  else
    (meanFrame c).bind fun frame =>
      (if 0 < t.resetGapUs then some t.resetGapUs.toNat else measuredGap c).map fun gap =>
        { kind := .rf
          freqMHz := if src = .rf315 then 315 else 433
          pulses := frame ++ [UInt16.ofNat (min (max gap kMinTrailGapUs) 65535)]
          frameRepeat := UInt8.ofNat (storedFrameRepeat t.frameCount) }

theorem captureCode_eq (src : Source) (t : Track) {c : Cluster} (h : c.Held) :
    captureCode src t c = some (Learn.captureCode src t c) := by
  unfold captureCode Learn.captureCode
  rw [meanFrame_eq h, measuredGap_eq, mean_eq _ h.some_member]
  by_cases hir : src = .ir
  · simp only [if_pos hir, Option.bind_some]
    split_ifs <;> rfl
  · simp only [if_neg hir, Option.bind_some]
    unfold rfTrailGap
    split_ifs <;> rfl

def feedBurst (m : LearnMachine) (src : Source) (pulses : List UInt16) (carrierHz : UInt16)
    (now : UInt64) : Option LearnMachine :=
  if m.state ≠ .listening ∨ pulses = [] then some m
  else
    (feed (m.tracks src) src pulses carrierHz now).bind fun t =>
      let m := { m with sawActivity := true }.setTrack src t
      (winner src t).bind fun won =>
        match won with
        | some c =>
            (captureCode src t c).map fun code =>
              { m with code := code, tracks := fun _ => {}, state := .captured }
        | none =>
            if src = .ir then some m
            else (isRolling t).map fun rolling => if rolling then m.fail .rolling else m

theorem winner_mem {src : Source} {t : Track} {c : Cluster} (h : t.winner src = some c) :
    c ∈ t.clusters := by
  unfold Track.winner at h
  cases hlast : t.lastCluster with
  | none => simp [hlast] at h
  | some i =>
      cases hc : t.clusters[i]? with
      | none => simp [hlast, hc] at h
      | some d =>
          simp only [hlast, hc] at h
          split_ifs at h
          rw [← Option.some.inj h]
          exact List.mem_of_getElem? hc

/-- A burst on tables that are in order never stops. -/
theorem feedBurst_eq {m : LearnMachine} {src : Source} {ages : SlotAges}
    (h : m.state = .listening → (m.tracks src).Kept ages) (pulses : List UInt16)
    (carrierHz : UInt16) (now : UInt64) :
    feedBurst m src pulses carrierHz now = some (m.feedBurst src pulses carrierHz now) := by
  unfold feedBurst LearnMachine.feedBurst
  by_cases hidle : m.state ≠ .listening ∨ pulses = []
  · rw [if_pos hidle, if_pos hidle]
  · have hkept := h (not_not.mp fun hstate => hidle (.inl hstate))
    obtain ⟨htidy, hlast⟩ := feed_tidy hkept.tidy hkept.waiting src pulses carrierHz now
    simp only [if_neg hidle, feed_eq hkept, Option.bind_some, winner_eq hlast]
    cases hwin : ((m.tracks src).feed src pulses carrierHz now).winner src with
    | some c =>
        simp only [captureCode_eq src _ (htidy.held c (winner_mem hwin)), Option.map_some,
          LearnMachine.capture, LearnMachine.setTrack_tracks_self]
    | none =>
        simp only [isRolling_eq htidy, Option.map_some]
        by_cases hir : src = .ir
        · rw [if_pos hir, if_neg fun hboth => hboth.1 hir]
        · rw [if_neg hir]
          simp only [ne_eq, hir, not_false_eq_true, true_and]

end Checked

/-- The tracks in every run: in order while the machine listens, empty otherwise, and no
burst then stops at an index out of bounds or divides by zero. -/
theorem track_invariant (events : List Event) (src : Source) :
    ((LearnMachine.run events).state = .listening →
      TrackInvariant events src ((LearnMachine.run events).tracks src)) ∧
    ((LearnMachine.run events).state ≠ .listening →
      (LearnMachine.run events).tracks src = {}) ∧
    ∀ pulses carrierHz now,
      Checked.feedBurst (LearnMachine.run events) src pulses carrierHz now =
        some ((LearnMachine.run events).feedBurst src pulses carrierHz now) := by
  refine ⟨fun hlisten => listening_invariant hlisten src, fun hidle => ?_, ?_⟩
  · rw [tracks_of_not_listening events hidle]
  · intro pulses carrierHz now
    exact Checked.feedBurst_eq (fun hlisten => listening_kept hlisten src) pulses carrierHz now

/-- Two presses of a fob, and a third burst. -/
theorem track_invariant_two_presses :
    TrackInvariant twoFobPresses .rf433 ((LearnMachine.run twoFobPresses).tracks .rf433) ∧
      (sessionLog twoFobPresses .rf433).presses < 65536 ∧
      Checked.feedBurst (LearnMachine.run twoFobPresses) .rf433
          (1000 :: List.replicate 16 400) 0 3000 =
        some ((LearnMachine.run twoFobPresses).feedBurst .rf433
          (1000 :: List.replicate 16 400) 0 3000) := by
  obtain ⟨htrack, -, hbounds⟩ := track_invariant twoFobPresses .rf433
  exact ⟨htrack (by decide +kernel), by decide +kernel, hbounds _ _ _⟩

end Learn

end RfIrBlaster
