/-
`LearnMachine` of `learn_machine.cpp`.  Counters are naturals with the width of
the C++ field as an explicit modulus; pulses, carriers and times keep their
fixed-width types.
-/
import RfIrBlaster.FrameMerge
import RfIrBlaster.StateMachine

namespace RfIrBlaster

namespace Learn

inductive State where
  | idle
  | listening
  | captured
  | failed
deriving DecidableEq, Repr

inductive FailReason where
  | timeout
  | noisy
  | rolling
deriving DecidableEq, Repr

def kWindowMs : Nat := 30000
def kPressGapMs : Nat := 250
def kMatchesNeeded : Nat := 3
def kRfPressesNeeded : Nat := 2
def kRollingPressesNeeded : Nat := 3
def kDefaultTrailGapUs : Nat := 30000
def kMinTrailGapUs : Nat := 5000
def kMaxClusters : Nat := 12
def kMaxGroups : Nat := 16
def kMaxClusterMembers : Nat := 250
def kMaxGapSamples : Nat := 250

/-- Bursts on one source that match one reference burst. -/
structure Cluster where
  repr : List UInt16 := []
  sum : List Nat := []
  carrierSum : Nat := 0
  gapSumUs : Nat := 0
  lastGroup : Nat := 0
  gapCount : Nat := 0
  count : Nat := 0
  groupCount : Nat := 0
deriving DecidableEq, Repr

/-- A press; `firstCluster` is `none` where the source has -1. -/
structure Group where
  firstCluster : Option Nat := none
  dirty : Bool := false
deriving DecidableEq, Repr

structure Track where
  clusters : List Cluster := []
  groups : List Group := []
  lastEnd : Nat := 0
  curGroup : Nat := 0
  lastCluster : Option Nat := none
  sawBurst : Bool := false
  resetGapUs : UInt16 := 0
  frameCount : UInt16 := 0
deriving DecidableEq, Repr

def sumUs (pulses : List UInt16) : Nat :=
  pulses.foldl (fun total p => (total + p.toNat) % 2 ^ 32) 0

/-- The start of a burst that ended at `now`, in milliseconds. -/
def burstStart (pulses : List UInt16) (now : UInt64) : Nat :=
  let durMs := sumUs pulses / 1000
  if now.toNat > durMs then now.toNat - durMs else 0

def Track.opensGroup (t : Track) (start : Nat) : Bool :=
  !t.sawBurst || decide (start > (t.lastEnd + kPressGapMs) % 2 ^ 64)

/-- The trailing gap of the previous burst, with the cluster it is credited to,
when it is one to record. -/
def Track.gapSample (t : Track) (start : Nat) : Option (Nat × Nat) :=
  match t.lastCluster with
  | none => none
  | some i =>
      match t.clusters[i]? with
      | none => none
      | some prev =>
          if t.lastEnd < start ∧ prev.gapCount < kMaxGapSamples then
            some (i, min ((start - t.lastEnd) * 1000 % 2 ^ 64) 65535)
          else none

def Cluster.addGap (us : Nat) (c : Cluster) : Cluster :=
  { c with
    gapSumUs := (c.gapSumUs + us) % 2 ^ 32
    gapCount := (c.gapCount + 1) % 256 }

/-- The press bookkeeping at the head of `feedBurst`. -/
def Track.arrive (t : Track) (start : Nat) : Track :=
  if t.opensGroup start then
    { t with
      curGroup := (t.curGroup + 1) % 65536
      groups := if t.groups.length < kMaxGroups then t.groups ++ [{}] else t.groups }
  else
    match t.gapSample start with
    | none => t
    | some (i, us) => { t with clusters := t.clusters.modify i (Cluster.addGap us) }

/-- What the arrival of a burst can do to a track. -/
theorem Track.arrive_cases (t : Track) (start : Nat) :
    (t.opensGroup start = true ∧
      t.arrive start =
        { t with
          curGroup := (t.curGroup + 1) % 65536
          groups := if t.groups.length < kMaxGroups then t.groups ++ [{}] else t.groups }) ∨
    (t.opensGroup start = false ∧ t.gapSample start = none ∧ t.arrive start = t) ∨
    (t.opensGroup start = false ∧ ∃ i us, t.gapSample start = some (i, us) ∧
      t.arrive start = { t with clusters := t.clusters.modify i (Cluster.addGap us) }) := by
  by_cases hopen : t.opensGroup start = true
  · exact .inl ⟨hopen, if_pos hopen⟩
  · have hclosed : t.opensGroup start = false := by simpa using hopen
    have harrive : t.arrive start =
        match t.gapSample start with
        | none => t
        | some (i, us) => { t with clusters := t.clusters.modify i (Cluster.addGap us) } :=
      if_neg hopen
    cases hgap : t.gapSample start with
    | none => exact .inr (.inl ⟨hclosed, rfl, by rw [harrive, hgap]⟩)
    | some sample =>
        obtain ⟨i, us⟩ := sample
        exact .inr (.inr ⟨hclosed, i, us, rfl, by rw [harrive, hgap]⟩)

/-- What the de-clip of an RF burst reports; infrared is not de-clipped. -/
def declipOf (src : Source) (pulses : List UInt16) : Declip :=
  if src = .ir then {} else declipBurst pulses pulses.length

/-- The entries matched and stored: the de-clipped frame when there is one. -/
def frameOf (src : Source) (pulses : List UInt16) : List UInt16 :=
  let d := declipOf src pulses
  if 0 < d.out.length then d.out else pulses

/-- The per-track record of the longest gap and the largest frame count. -/
def Track.noteDeclip (t : Track) (d : Declip) : Track :=
  if 0 < d.out.length then
    { t with
      resetGapUs := if 0 < d.resetGapUs then max t.resetGapUs d.resetGapUs
        else t.resetGapUs
      frameCount := if 1 < d.outFrames ∧ t.frameCount < d.outFrames then d.outFrames
        else t.frameCount }
  else t

/-- A candidate or anything seen across presses is never evicted. -/
def Cluster.isProtected (c : Cluster) : Bool :=
  decide (c.count ≥ kMatchesNeeded) || decide (c.groupCount ≥ kRfPressesNeeded)

/-- The eviction scan; `weakest` carries its index and count. -/
def weakestScan : List Cluster → Nat → Option (Nat × Nat) → Option (Nat × Nat)
  | [], _, weakest => weakest
  | c :: rest, i, weakest =>
      if c.isProtected then weakestScan rest (i + 1) weakest
      else
        match weakest with
        | none => weakestScan rest (i + 1) (some (i, c.count))
        | some (w, n) =>
            if c.count < n then weakestScan rest (i + 1) (some (i, c.count))
            else weakestScan rest (i + 1) (some (w, n))

/-- Where a well-formed burst goes. -/
inductive Slot where
  | found (i : Nat)
  | fresh
  | evict (i : Nat)
  | full
deriving DecidableEq, Repr

def chooseSlot (clusters : List Cluster) (frame : List UInt16) : Slot :=
  match clusters.findIdx? (fun c => burstsMatch c.repr frame) with
  | some i => .found i
  | none =>
      if clusters.length < kMaxClusters then .fresh
      else
        match weakestScan clusters 0 none with
        | some (i, _) => .evict i
        | none => .full

/-- `cl` of the source: the index the slot stands for. -/
def Slot.index (clusters : List Cluster) : Slot → Option Nat
  | .found i => some i
  | .fresh => some clusters.length
  | .evict i => some i
  | .full => none

def Cluster.start (frame : List UInt16) : Cluster :=
  { repr := frame, sum := List.replicate frame.length 0 }

def Group.forget (i : Nat) (g : Group) : Group :=
  if g.firstCluster = some i then { firstCluster := none, dirty := true } else g

/-- Make the slot ready: a new cluster, or one over an evicted cluster. -/
def Track.prepare (t : Track) (frame : List UInt16) : Slot → Track
  | .found _ => t
  | .fresh => { t with clusters := t.clusters ++ [Cluster.start frame] }
  | .evict i =>
      { t with
        groups := t.groups.map (Group.forget i)
        clusters := t.clusters.set i (Cluster.start frame) }
  | .full => t

/-- Add one burst to the totals, while the cluster has room. -/
def Cluster.addMember (frame : List UInt16) (carrierHz : UInt16) (c : Cluster) :
    Cluster :=
  if c.count < kMaxClusterMembers then
    { c with
      count := (c.count + 1) % 256
      sum := List.zipWith (fun s p => (s + p.toNat) % 2 ^ 32) c.sum frame
      carrierSum := (c.carrierSum + carrierHz.toNat) % 2 ^ 32 }
  else c

/-- Note that the payload appeared in the current press. -/
def Cluster.seenIn (curGroup : Nat) (c : Cluster) : Cluster :=
  if c.lastGroup ≠ curGroup then
    { c with lastGroup := curGroup, groupCount := (c.groupCount + 1) % 256 }
  else c

def Cluster.countBurst (frame : List UInt16) (carrierHz : UInt16) (curGroup : Nat)
    (c : Cluster) : Cluster :=
  (c.addMember frame carrierHz).seenIn curGroup

def Group.mark (cl : Option Nat) (g : Group) : Group :=
  if g.firstCluster = none ∧ cl ≠ none then { g with firstCluster := cl }
  else if cl = none ∨ cl ≠ g.firstCluster then { g with dirty := true }
  else g

/-- The clustering of a well-formed burst, with `cl`. -/
def Track.assign (t : Track) (frame : List UInt16) (carrierHz : UInt16) :
    Track × Option Nat :=
  let slot := chooseSlot t.clusters frame
  let cl := slot.index t.clusters
  let t := t.prepare frame slot
  let clusters :=
    match cl with
    | none => t.clusters
    | some i => t.clusters.modify i (Cluster.countBurst frame carrierHz t.curGroup)
  let groups :=
    if 1 ≤ t.curGroup ∧ t.curGroup ≤ t.groups.length then
      t.groups.modify (t.curGroup - 1) (Group.mark cl)
    else t.groups
  ({ t with clusters := clusters, groups := groups }, cl)

/-- The bookkeeping that precedes the clustering. -/
def Track.enter (t : Track) (src : Source) (pulses : List UInt16) (now : UInt64) : Track :=
  (t.arrive (burstStart pulses now)).noteDeclip (declipOf src pulses)

/-- Everything `feedBurst` does to the track of its source. -/
def Track.feed (t : Track) (src : Source) (pulses : List UInt16)
    (carrierHz : UInt16) (now : UInt64) : Track :=
  let t := t.enter src pulses now
  let frame := frameOf src pulses
  let (t, cl) :=
    if wellFormed src frame carrierHz then t.assign frame carrierHz else (t, none)
  { t with lastEnd := now.toNat, lastCluster := cl, sawBurst := true }

theorem Track.feed_formed (t : Track) {src : Source} {pulses : List UInt16}
    (carrierHz : UInt16) (now : UInt64)
    (h : wellFormed src (frameOf src pulses) carrierHz = true) :
    t.feed src pulses carrierHz now =
      { ((t.enter src pulses now).assign (frameOf src pulses) carrierHz).1 with
        lastEnd := now.toNat
        lastCluster := ((t.enter src pulses now).assign (frameOf src pulses) carrierHz).2
        sawBurst := true } := by
  simp only [Track.feed, if_pos h]

theorem Track.feed_malformed (t : Track) {src : Source} {pulses : List UInt16}
    (carrierHz : UInt16) (now : UInt64)
    (h : ¬wellFormed src (frameOf src pulses) carrierHz = true) :
    t.feed src pulses carrierHz now =
      { t.enter src pulses now with
        lastEnd := now.toNat, lastCluster := none, sawBurst := true } := by
  simp only [Track.feed, if_neg h]

/-- The cluster of the burst just fed, when it qualifies for a capture. -/
def Track.winner (src : Source) (t : Track) : Option Cluster :=
  match t.lastCluster with
  | none => none
  | some i =>
      match t.clusters[i]? with
      | none => none
      | some c =>
          if c.count ≥ kMatchesNeeded ∧ (src = .ir ∨ c.groupCount ≥ kRfPressesNeeded) then
            some c
          else none

/-- The distinct payloads of clean presses, in press order. -/
def rollingIds (groups : List Group) : List Nat :=
  groups.foldl (fun ids g =>
    match g.firstCluster with
    | none => ids
    | some i => if g.dirty then ids else if i ∈ ids then ids else ids ++ [i]) []

def Track.reprAt (t : Track) (i : Nat) : List UInt16 :=
  (t.clusters.getD i {}).repr

/-- The verdict of `checkRolling`. -/
def Track.isRolling (t : Track) : Bool :=
  if t.clusters.any (fun c => decide (c.groupCount ≥ kRfPressesNeeded)) then false
  else
    let ids := rollingIds t.groups
    if ids.length < kRollingPressesNeeded then false
    else
      ids.any fun a =>
        decide (ids.countP (fun b => structurallyAlike (t.reprAt a) (t.reprAt b)) ≥
          kRollingPressesNeeded)

/-- Rounded 32-bit mean, before the cast to 16 bits. -/
def roundedMean (total count : Nat) : Nat :=
  (total + count / 2) % 2 ^ 32 / count

def Cluster.measuredGap (c : Cluster) : Nat :=
  if 0 < c.gapCount then roundedMean c.gapSumUs c.gapCount else kDefaultTrailGapUs

/-- The trailing gap stored with an RF frame. -/
def rfTrailGap (t : Track) (c : Cluster) : Nat :=
  let gap := if 0 < t.resetGapUs then t.resetGapUs.toNat else c.measuredGap
  min (max gap kMinTrailGapUs) 65535

/-- The trailing gap stored with an odd infrared burst. -/
def irTrailGap (c : Cluster) : Nat :=
  min (max c.measuredGap kMinTrailGapUs) 65535

/-- The repeat count stored with an RF frame, before the cast to 8 bits. -/
def storedFrameRepeat (frameCount : UInt16) : Nat :=
  let count := if frameCount < 1 then kStoredFrameCount else frameCount
  min count.toNat maxFrameRepeat.toNat

/-- The per-entry average; `sum` has one entry for each of the reference's. -/
def Cluster.meanFrame (c : Cluster) : List UInt16 :=
  c.sum.map fun s => UInt16.ofNat (roundedMean s c.count)

/-- The code `capture` stores for cluster `c` of track `t`. -/
def captureCode (src : Source) (t : Track) (c : Cluster) : StoredCode :=
  if src = .ir then
    { kind := .ir
      carrierHz := UInt16.ofNat (roundedMean c.carrierSum c.count)
      pulses :=
        if c.repr.length % 2 ≠ 0 then c.meanFrame ++ [UInt16.ofNat (irTrailGap c)]
        else c.meanFrame }
  else
    { kind := .rf
      freqMHz := if src = .rf315 then 315 else 433
      pulses := c.meanFrame ++ [UInt16.ofNat (rfTrailGap t c)]
      frameRepeat := UInt8.ofNat (storedFrameRepeat t.frameCount) }

end Learn

open Learn in
structure LearnMachine where
  tracks : Source → Track := fun _ => {}
  code : StoredCode := {}
  deadline : Nat := 0
  state : State := .idle
  reason : FailReason := .timeout
  sawActivity : Bool := false

namespace LearnMachine

open Learn

/-- `reset` and `cancel` both end here: the state of a machine just built. -/
def cancel (_ : LearnMachine) : LearnMachine :=
  {}

def begin (m : LearnMachine) (now : UInt64) : LearnMachine :=
  { m.cancel with state := .listening, deadline := (now.toNat + kWindowMs) % 2 ^ 64 }

def fail (m : LearnMachine) (reason : FailReason) : LearnMachine :=
  { m with tracks := fun _ => {}, reason := reason, state := .failed }

def tick (m : LearnMachine) (now : UInt64) : LearnMachine :=
  if m.state = .listening ∧ now.toNat ≥ m.deadline then
    m.fail (if m.sawActivity then .noisy else .timeout)
  else m

def takeCode (m : LearnMachine) : StoredCode × LearnMachine :=
  if m.state ≠ .captured then ({}, m) else (m.code, {})

def setTrack (m : LearnMachine) (src : Source) (t : Track) : LearnMachine :=
  { m with tracks := Function.update m.tracks src t }

def capture (m : LearnMachine) (src : Source) (c : Cluster) : LearnMachine :=
  { m with
    code := captureCode src (m.tracks src) c
    tracks := fun _ => {}
    state := .captured }

/-- A capture is tried first; only then may an RF source be called rolling. -/
def feedBurst (m : LearnMachine) (src : Source) (pulses : List UInt16)
    (carrierHz : UInt16) (now : UInt64) : LearnMachine :=
  if m.state ≠ .listening ∨ pulses = [] then m
  else
    let t := (m.tracks src).feed src pulses carrierHz now
    let m := { m with sawActivity := true }.setTrack src t
    match t.winner src with
    | some c => m.capture src c
    | none => if src ≠ .ir ∧ t.isRolling then m.fail .rolling else m

/-- The calls a driver can make. -/
inductive Event where
  | begin (now : UInt64)
  | feedBurst (src : Source) (pulses : List UInt16) (carrierHz : UInt16) (now : UInt64)
  | tick (now : UInt64)
  | cancel
  | takeCode
deriving DecidableEq, Repr

def step (m : LearnMachine) : Event → LearnMachine
  | .begin now => m.begin now
  | .feedBurst src pulses carrierHz now => m.feedBurst src pulses carrierHz now
  | .tick now => m.tick now
  | .cancel => m.cancel
  | .takeCode => m.takeCode.2

def machine : StateMachine LearnMachine Event where
  init := {}
  step := step

/-- The machine after a list of calls, oldest first. -/
abbrev run (events : List Event) : LearnMachine :=
  machine.run events

@[simp]
theorem machine_init : machine.init = {} :=
  rfl

@[simp]
theorem machine_step (m : LearnMachine) (e : Event) : machine.step m e = m.step e :=
  rfl

@[simp]
theorem setTrack_tracks_self (m : LearnMachine) (src : Source) (t : Track) :
    (m.setTrack src t).tracks src = t := by
  simp [setTrack]

theorem setTrack_tracks_of_ne (m : LearnMachine) {src s : Source} (h : s ≠ src)
    (t : Track) : (m.setTrack src t).tracks s = m.tracks s := by
  simp [setTrack, h]

theorem tick_cases (m : LearnMachine) (now : UInt64) :
    m.tick now = m ∨ m.state = .listening ∧ ∃ reason, m.tick now = m.fail reason := by
  by_cases hdue : m.state = .listening ∧ now.toNat ≥ m.deadline
  · exact .inr ⟨hdue.1, _, if_pos hdue⟩
  · exact .inl (if_neg hdue)

theorem takeCode_cases (m : LearnMachine) :
    m.takeCode.2 = m ∨ m.state = .captured ∧ m.takeCode.2 = {} := by
  by_cases hother : m.state ≠ .captured
  · exact .inl (by rw [takeCode, if_pos hother])
  · exact .inr ⟨not_not.mp hother, by rw [takeCode, if_neg hother]⟩

/-- Everything a burst can do to a machine. -/
theorem feedBurst_cases (m : LearnMachine) (src : Source) (pulses : List UInt16)
    (carrierHz : UInt16) (now : UInt64) :
    ((m.state ≠ .listening ∨ pulses = []) ∧
      m.feedBurst src pulses carrierHz now = m) ∨
    (m.state = .listening ∧ pulses ≠ [] ∧
      let t := (m.tracks src).feed src pulses carrierHz now
      ((∃ c, t.winner src = some c ∧
          m.feedBurst src pulses carrierHz now =
            { m with sawActivity := true, code := captureCode src t c,
                     tracks := fun _ => {}, state := .captured }) ∨
        (t.winner src = none ∧ src ≠ .ir ∧ t.isRolling = true ∧
          m.feedBurst src pulses carrierHz now =
            { m with sawActivity := true, tracks := fun _ => {},
                     reason := .rolling, state := .failed }) ∨
        (t.winner src = none ∧ (src = .ir ∨ t.isRolling = false) ∧
          m.feedBurst src pulses carrierHz now =
            { m with sawActivity := true }.setTrack src t))) := by
  by_cases hidle : m.state ≠ .listening ∨ pulses = []
  · exact .inl ⟨hidle, by simp [feedBurst, hidle]⟩
  · have hlisten : m.state = .listening ∧ pulses ≠ [] := by simpa using hidle
    refine .inr ⟨hlisten.1, hlisten.2, ?_⟩
    intro t
    cases hwin : t.winner src with
    | some c =>
        refine .inl ⟨c, rfl, ?_⟩
        simp only [feedBurst, if_neg hidle, t, hwin, capture, setTrack_tracks_self]
        rfl
    | none =>
        by_cases hroll : src ≠ .ir ∧ t.isRolling = true
        · refine .inr (.inl ⟨rfl, hroll.1, hroll.2, ?_⟩)
          simp only [feedBurst, if_neg hidle]
          simp only [t] at hwin hroll
          simp only [hwin, if_pos hroll, fail]
          rfl
        · refine .inr (.inr ⟨rfl, ?_, ?_⟩)
          · by_cases hir : src = .ir
            · exact .inl hir
            · exact .inr (by simpa [hir] using hroll)
          · simp only [feedBurst, if_neg hidle]
            simp only [t] at hwin hroll
            simp only [hwin, if_neg hroll, t]

/-- Besides `begin` and a burst, an event leaves the machine as it is or ends the session. -/
theorem step_cases (m : LearnMachine) (e : Event) :
    (∃ now, e = .begin now) ∨
      (∃ src pulses carrierHz now, e = .feedBurst src pulses carrierHz now) ∨
      m.step e = m ∨
      ((m.step e).tracks = fun _ => {}) ∧
        ((m.step e).state = .idle ∨ (m.step e).state = .failed) := by
  cases e with
  | begin now => exact .inl ⟨now, rfl⟩
  | feedBurst src pulses carrierHz now => exact .inr (.inl ⟨src, pulses, carrierHz, now, rfl⟩)
  | tick now =>
      rcases m.tick_cases now with heq | ⟨-, reason, heq⟩
      · exact .inr (.inr (.inl heq))
      · exact .inr (.inr (.inr ⟨congrArg tracks heq, .inr (congrArg state heq)⟩))
  | cancel => exact .inr (.inr (.inr ⟨rfl, .inl rfl⟩))
  | takeCode =>
      rcases m.takeCode_cases with heq | ⟨-, heq⟩
      · exact .inr (.inr (.inl heq))
      · exact .inr (.inr (.inr ⟨congrArg tracks heq, .inl (congrArg state heq)⟩))

end LearnMachine

end RfIrBlaster
