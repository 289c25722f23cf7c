/-
`pollRFBurst` with `collapseBand` of `radios.cpp`, and `pollIRBurst` of `ir.cpp`: one RMT
capture collapsed into the mark and space durations a learn is fed.
-/
import Mathlib.Algebra.Group.Action.Defs
import Mathlib.Algebra.Order.BigOperators.Group.List
import Mathlib.Algebra.Order.Group.Nat
import Mathlib.Data.List.TakeWhile
import RfIrBlaster.AlternatingList
import RfIrBlaster.FireCode

namespace RfIrBlaster

namespace Capture

open AlternatingList Transmit

def kRfRxBufSymbols : Nat := 512
def kRxBufSymbols : Nat := 4096
def kEnvGapUs : UInt32 := 150

/-- A receive channel; `frame` holds the words of its buffer up to `frameSymbols`. -/
structure Receiver (bufSymbols : Nat) where
  rx : Bool
  frameReady : Bool
  frame : List RmtSymbol
  room : frame.length ≤ bufSymbols

/-- The frame is taken and the channel receives again; a failed re-arm is only printed. -/
def Receiver.rearm {bufSymbols : Nat} (r : Receiver bufSymbols) : Receiver bufSymbols :=
  { r with frameReady := false }

/-- The `dur` of both loops. -/
def durationUs (half : HalfCell) : UInt32 :=
  UInt32.ofNat half.duration.toNat

def clip (us : UInt32) : UInt16 :=
  if 65535 < us then 65535 else us.toUInt16

/-- The locals of `collapseBand`. -/
structure BandCollapse where
  out : List UInt16 := []
  started : Bool := false
  lastWasSpace : Bool := false

/-- Both loops of `collapseBand` over the halves of the words: where the inner one ends
early, the outer one ends with it. -/
def collapseLoop (cap : Nat) : List HalfCell → BandCollapse → BandCollapse
  | [], s => s
  | half :: rest, s =>
      if ¬s.out.length < cap then s
      else if durationUs half = 0 then s
      else if !s.started && !half.level then collapseLoop cap rest s
      else collapseLoop cap rest ⟨s.out ++ [clip (durationUs half)], true, !half.level⟩

/-- The end both share: drop a last space. -/
def dropSpace (out : List UInt16) (lastWasSpace : Bool) : List UInt16 :=
  if lastWasSpace && decide (0 < out.length) then out.dropLast else out

def collapseBand (b : Receiver kRfRxBufSymbols) (cap : Nat) :
    Option (List UInt16) × Receiver kRfRxBufSymbols :=
  if !b.rx || !b.frameReady then (none, b)
  else
    let s := collapseLoop cap (halfCells b.frame) {}
    let out := dropSpace s.out s.lastWasSpace
    (if out.length = 0 then none else some out, b.rearm)

def pollRFBurst (bands : RfBand → Receiver kRfRxBufSymbols) (freqMHz : UInt16) (cap : Nat) :
    Option (List UInt16) :=
  (bandFor freqMHz).bind fun b => (collapseBand (bands b) cap).1

/-- The locals of `pollIRBurst`. -/
structure IrCollapse where
  out : List UInt16 := []
  markAccum : UInt32 := 0
  inMark : Bool := false
  lastWasSpace : Bool := false
  activeHalves : UInt64 := 0
  totalMarkUs : UInt64 := 0

def IrCollapse.push (cap : Nat) (s : IrCollapse) (us : UInt32) (space : Bool) : IrCollapse :=
  if s.out.length < cap then { s with out := s.out ++ [clip us], lastWasSpace := space } else s

/-- Write the mark that ends where a space begins. -/
def IrCollapse.flush (cap : Nat) (s : IrCollapse) : IrCollapse :=
  if s.inMark then { s.push cap s.markAccum false with markAccum := 0, inMark := false } else s

/-- The level is idle high for so long that the envelope is a space. -/
def isGap (half : HalfCell) : Bool :=
  half.level && decide (kEnvGapUs ≤ durationUs half)

/-- The loop body of `pollIRBurst` on one half. -/
def IrCollapse.half (cap : Nat) (s : IrCollapse) (half : HalfCell) : IrCollapse :=
  if durationUs half = 0 then s
  else if isGap half then (s.flush cap).push cap (durationUs half) true
  else
    { s with
      markAccum := s.markAccum + durationUs half
      totalMarkUs := s.totalMarkUs + (durationUs half).toUInt64
      inMark := true
      activeHalves := if half.level then s.activeHalves else s.activeHalves + 1 }

/-- The loop over the frame, and the mark it leaves open. -/
def irCollapse (cap : Nat) (frame : List RmtSymbol) : IrCollapse :=
  let s := (halfCells frame).foldl (IrCollapse.half cap) {}
  if s.inMark then s.push cap s.markAccum false else s

/-- One active half for each cycle of the carrier. -/
def IrCollapse.carrierHz (s : IrCollapse) : UInt16 :=
  let hz := if s.totalMarkUs = 0 then 0 else s.activeHalves * 1000000 / s.totalMarkUs
  if 65535 < hz then 65535 else hz.toUInt16

/-- The burst and its carrier. -/
def pollIRBurst (r : Receiver kRxBufSymbols) (cap : Nat) :
    Option (List UInt16 × UInt16) × Receiver kRxBufSymbols :=
  if !r.rx || !r.frameReady then (none, r)
  else
    let s := irCollapse cap r.frame
    let out := dropSpace s.out s.lastWasSpace
    (if out.length = 0 then none else some (out, s.carrierHz), r.rearm)

/-- One stretch of an envelope. -/
structure Segment where
  mark : Bool
  us : Nat
deriving DecidableEq, Repr

/-- A segment as a burst writes it. -/
def Segment.entry (seg : Segment) : UInt16 :=
  UInt16.ofNat (min seg.us 65535)

/-- The halves that are no filler. -/
def liveHalves (frame : List RmtSymbol) : List HalfCell :=
  (halfCells frame).filter fun half => half.duration ≠ 0

/-- What a receiver captures: levels that alternate, and only filler behind them. -/
structure Captured (frame : List RmtSymbol) : Prop where
  alternates : Alternating HalfCell.level (liveHalves frame)
  filler : liveHalves frame <+: halfCells frame

/-- The envelope of a band: its data line is high in a mark. -/
def rfEnvelope (frame : List RmtSymbol) : List Segment :=
  (liveHalves frame).map fun half => ⟨half.level, half.duration.toNat⟩

def openMark (open? : Option Nat) : List Segment :=
  open?.toList.map fun us => ⟨true, us⟩

/-- Activity up to the next gap is one mark, with `open?` the time of one begun before. -/
def activitySegments : Option Nat → List HalfCell → List Segment
  | open?, [] => openMark open?
  | open?, half :: rest =>
      if isGap half then
        openMark open? ++ ⟨false, half.duration.toNat⟩ :: activitySegments none rest
      else activitySegments (some (open?.getD 0 + half.duration.toNat)) rest

/-- The envelope of the IR receiver, whose output is low and high in turn in a mark. -/
def irEnvelope (frame : List RmtSymbol) : List Segment :=
  activitySegments none (liveHalves frame)

/-- A burst as a learn takes it: of odd length, from the first mark of the envelope to a
later mark, marks and spaces in turn. -/
structure MarkBurst (cap : Nat) (envelope : List Segment) (burst : List UInt16) : Prop where
  odd : burst.length % 2 = 1
  room : burst.length ≤ cap
  reads : ∃ lead segs rest, envelope = lead ++ segs ++ rest ∧
    (∀ seg ∈ lead, seg.mark = false) ∧ Framed Segment.mark segs ∧ burst = segs.map Segment.entry

@[simp]
theorem durationUs_toNat (half : HalfCell) : (durationUs half).toNat = half.duration.toNat := by
  have hbits := half.duration.isLt
  rw [durationUs, UInt32.toNat_ofNat']
  omega

theorem durationUs_eq_zero_iff (half : HalfCell) : durationUs half = 0 ↔ half.duration = 0 := by
  rw [← UInt32.toNat_inj, durationUs_toNat, ← BitVec.toNat_inj]
  rfl

theorem clip_eq_entry (mark : Bool) (us : UInt32) : clip us = Segment.entry ⟨mark, us.toNat⟩ := by
  have hmax : (65535 : UInt32).toNat = 65535 := rfl
  unfold clip Segment.entry
  split_ifs with hlong
  · rw [UInt32.lt_iff_toNat_lt, hmax] at hlong
    rw [Nat.min_eq_right (Nat.le_of_lt hlong)]
    rfl
  · rw [UInt32.lt_iff_toNat_lt, hmax, Nat.not_lt] at hlong
    rw [Nat.min_eq_left hlong]
    rfl

/-- The output written so far is that of the segments closed so far, as many as fit. -/
structure Holds (cap : Nat) (closed : List Segment) (out : List UInt16) (lastWasSpace : Bool) :
    Prop where
  out : out = (closed.take cap).map Segment.entry
  last : lastWasSpace = (closed.take cap).getLast?.any fun seg => !seg.mark

variable {cap : Nat} {closed : List Segment} {out : List UInt16} {last : Bool}

theorem holds_nil : Holds cap [] [] false :=
  ⟨by simp, by simp⟩

theorem Holds.length_lt_iff (h : Holds cap closed out last) :
    out.length < cap ↔ closed.length < cap := by
  rw [h.out, List.length_map, List.length_take]
  omega

theorem Holds.push (h : Holds cap closed out last) (hroom : out.length < cap) (seg : Segment) :
    Holds cap (closed ++ [seg]) (out ++ [seg.entry]) (!seg.mark) := by
  have hlt := h.length_lt_iff.mp hroom
  have htake : (closed ++ [seg]).take cap = closed ++ [seg] :=
    List.take_of_length_le (by simp; omega)
  have hclosed : closed.take cap = closed := List.take_of_length_le (Nat.le_of_lt hlt)
  refine ⟨?_, ?_⟩
  · rw [htake, h.out, hclosed, List.map_append]
    rfl
  · rw [htake]
    simp

theorem Holds.full (h : Holds cap closed out last) (hfull : ¬out.length < cap)
    (segs : List Segment) : Holds cap (closed ++ segs) out last := by
  rw [h.length_lt_iff, Nat.not_lt] at hfull
  have htake : (closed ++ segs).take cap = closed.take cap :=
    List.take_append_of_le_length hfull
  exact ⟨by rw [htake, h.out], by rw [htake, h.last]⟩

/-- Dropping the last space of the output trims the segments. -/
theorem Holds.dropSpace (h : Holds cap closed out last) :
    dropSpace out last = (trimEnd Segment.mark (closed.take cap)).map Segment.entry := by
  unfold Capture.dropSpace trimEnd
  rw [h.last, h.out]
  cases hend : (closed.take cap).getLast? with
  | none =>
      rw [List.getLast?_eq_none_iff.mp hend]
      rfl
  | some seg =>
      have hpos : 0 < ((closed.take cap).map Segment.entry).length := by
        rw [List.length_map, List.length_pos_iff]
        intro hnil
        rw [hnil] at hend
        cases hend
      cases hmark : seg.mark with
      | true => simp [hmark]
      | false =>
          rw [Option.any_some, hmark, Bool.not_false, Bool.true_and, decide_eq_true hpos,
            if_pos rfl, if_pos rfl, List.map_dropLast]

/-- The burst of an envelope that starts on a mark, cut at `cap` and trimmed. -/
theorem markBurst_of_framed {envelope : List Segment} (lead : List Segment)
    (hlead : ∀ seg ∈ lead, seg.mark = false) (henvelope : envelope = lead ++ closed)
    (hclosed : Alternating Segment.mark closed)
    (hstart : closed.head?.all Segment.mark = true)
    (hne : (trimEnd Segment.mark (closed.take cap)).map Segment.entry ≠ []) :
    MarkBurst cap envelope ((trimEnd Segment.mark (closed.take cap)).map Segment.entry) := by
  have hprefix : trimEnd Segment.mark (closed.take cap) <+: closed.take cap := by
    unfold trimEnd
    split_ifs
    · exact List.dropLast_prefix _
    · exact List.prefix_rfl
  have hframed : Framed Segment.mark (trimEnd Segment.mark (closed.take cap)) := by
    cases htake : closed.take cap with
    | nil =>
        rw [htake] at hne
        exact absurd rfl hne
    | cons seg rest =>
        have hhead : closed.head? = some seg := by
          have hfirst := congrArg List.head? htake
          rw [List.head?_take] at hfirst
          split_ifs at hfirst
          · cases hfirst
          · exact hfirst
        have hmark : seg.mark = true := by simpa [hhead] using hstart
        exact (htake ▸ hclosed.take cap).framed_trimEnd hmark
  obtain ⟨tail, htail⟩ := hprefix.trans (List.take_prefix cap closed)
  refine ⟨?_, ?_, lead, _, tail, ?_, hlead, hframed, rfl⟩
  · rw [List.length_map]
    exact hframed.odd
  · rw [List.length_map]
    exact Nat.le_trans hprefix.length_le (List.length_take_le cap closed)
  · rw [henvelope, List.append_assoc, htail]

section Loop

variable {half : HalfCell} {rest live filler : List HalfCell} {s : BandCollapse}

theorem collapseLoop_full (hfull : ¬s.out.length < cap) : collapseLoop cap rest s = s := by
  cases rest with
  | nil => rfl
  | cons half rest => rw [collapseLoop, if_pos hfull]

theorem collapseLoop_filler (hfiller : ∀ half ∈ filler, half.duration = 0) :
    collapseLoop cap filler s = s := by
  cases filler with
  | nil => rfl
  | cons half filler =>
      have hzero := (durationUs_eq_zero_iff half).mpr (hfiller half List.mem_cons_self)
      rw [collapseLoop, if_pos hzero, ite_self]

theorem collapseLoop_write (hroom : s.out.length < cap) (hlive : half.duration ≠ 0)
    (hstart : (s.started || half.level) = true) :
    collapseLoop cap (half :: rest) s =
      collapseLoop cap rest ⟨s.out ++ [clip (durationUs half)], true, !half.level⟩ := by
  have hnonzero : ¬durationUs half = 0 := fun h => hlive ((durationUs_eq_zero_iff half).mp h)
  have hwrite : ¬(!s.started && !half.level) = true := by
    rw [← Bool.not_or, hstart]
    exact Bool.false_ne_true
  rw [collapseLoop, if_neg (not_not_intro hroom), if_neg hnonzero, if_neg hwrite]

theorem collapseLoop_skip (hroom : s.out.length < cap) (hlive : half.duration ≠ 0)
    (hskip : (s.started || half.level) = false) :
    collapseLoop cap (half :: rest) s = collapseLoop cap rest s := by
  have hnonzero : ¬durationUs half = 0 := fun h => hlive ((durationUs_eq_zero_iff half).mp h)
  rw [collapseLoop, if_neg (not_not_intro hroom), if_neg hnonzero, ← Bool.not_or, hskip,
    Bool.not_false, if_pos rfl]

/-- Once started, the loop writes every half up to the filler. -/
theorem Holds.collapseLoop (hstarted : s.started = true)
    (hheld : Holds cap closed s.out s.lastWasSpace)
    (hlive : ∀ half ∈ live, half.duration ≠ 0) (hfiller : ∀ half ∈ filler, half.duration = 0) :
    Holds cap (closed ++ live.map fun half => ⟨half.level, half.duration.toNat⟩)
      (collapseLoop cap (live ++ filler) s).out
      (collapseLoop cap (live ++ filler) s).lastWasSpace := by
  induction live generalizing closed s with
  | nil =>
      rw [List.nil_append, collapseLoop_filler hfiller, List.map_nil, List.append_nil]
      exact hheld
  | cons half live ih =>
      rw [List.forall_mem_cons] at hlive
      by_cases hroom : s.out.length < cap
      · have hnext := hheld.push hroom ⟨half.level, half.duration.toNat⟩
        rw [← durationUs_toNat, ← clip_eq_entry] at hnext
        have hrest := ih (s := ⟨s.out ++ [clip (durationUs half)], true, !half.level⟩) rfl
          hnext hlive.2
        rw [List.cons_append, collapseLoop_write hroom hlive.1 (by simp [hstarted])]
        simpa using hrest
      · rw [collapseLoop_full hroom]
        exact hheld.full hroom _

/-- Before the start the loop skips what comes in front of the first mark. -/
theorem holds_collapseLoop (hlive : ∀ half ∈ live, half.duration ≠ 0)
    (hfiller : ∀ half ∈ filler, half.duration = 0) :
    Holds cap ((live.dropWhile fun half => !half.level).map
        fun half => ⟨half.level, half.duration.toNat⟩)
      (collapseLoop cap (live ++ filler) {}).out
      (collapseLoop cap (live ++ filler) {}).lastWasSpace := by
  induction live with
  | nil =>
      rw [List.nil_append, collapseLoop_filler hfiller]
      exact holds_nil
  | cons half live ih =>
      by_cases hroom : ({} : BandCollapse).out.length < cap
      · have hlive' := List.forall_mem_cons.mp hlive
        rw [List.cons_append]
        cases hlevel : half.level with
        | true =>
            have hnext := holds_nil.push hroom ⟨half.level, half.duration.toNat⟩
            rw [← durationUs_toNat, ← clip_eq_entry] at hnext
            have hrest := Holds.collapseLoop
              (s := ⟨[] ++ [clip (durationUs half)], true, !half.level⟩) rfl hnext hlive'.2 hfiller
            rw [collapseLoop_write hroom hlive'.1 (by simp [hlevel])]
            simpa [hlevel] using hrest
        | false =>
            rw [collapseLoop_skip hroom hlive'.1 (by simp [hlevel]),
              List.dropWhile_cons_of_pos (by simp [hlevel])]
            exact ih hlive'.2
      · rw [collapseLoop_full hroom]
        exact holds_nil.full hroom _

end Loop

theorem live_of_mem {frame : List RmtSymbol} {half : HalfCell} (h : half ∈ liveHalves frame) :
    half.duration ≠ 0 := by
  simpa using (List.mem_filter.mp h).2

/-- A captured frame is its live halves and filler. -/
theorem Captured.split {frame : List RmtSymbol} (h : Captured frame) :
    ∃ filler, halfCells frame = liveHalves frame ++ filler ∧
      ∀ half ∈ filler, half.duration = 0 := by
  obtain ⟨filler, hsplit⟩ := h.filler
  refine ⟨filler, hsplit.symm, ?_⟩
  have hfilter : liveHalves frame = liveHalves frame ++
      filler.filter fun half => half.duration ≠ 0 := by
    conv_lhs => rw [liveHalves, ← hsplit, List.filter_append]
    rw [List.filter_eq_self.mpr fun half hmem => decide_eq_true (live_of_mem hmem)]
  have hnone : (filler.filter fun half => half.duration ≠ 0) = [] :=
    List.append_right_eq_self.mp hfilter.symm
  intro half hmem
  simpa using List.filter_eq_nil_iff.mp hnone half hmem

theorem collapseBand_markBurst (b : Receiver kRfRxBufSymbols) (hcaptured : Captured b.frame)
    {burst : List UInt16} (h : (collapseBand b cap).1 = some burst) :
    MarkBurst cap (rfEnvelope b.frame) burst := by
  obtain ⟨filler, hsplit, hfiller⟩ := hcaptured.split
  have hlive : ∀ half ∈ liveHalves b.frame, half.duration ≠ 0 := fun half => live_of_mem
  have hheld : Holds cap _ _ _ := holds_collapseLoop hlive hfiller
  rw [← hsplit] at hheld
  unfold collapseBand at h
  split_ifs at h with hready
  dsimp only at h
  split_ifs at h with hempty
  rw [← Option.some.inj h, hheld.dropSpace]
  have hrest : (liveHalves b.frame).dropWhile (fun half => !half.level) <:+ liveHalves b.frame :=
    List.dropWhile_suffix _
  have hchain : Alternating HalfCell.level
      ((liveHalves b.frame).dropWhile fun half => !half.level) :=
    List.IsChain.suffix hcaptured.alternates hrest
  refine markBurst_of_framed (((liveHalves b.frame).takeWhile fun half => !half.level).map
    fun half => ⟨half.level, half.duration.toNat⟩) ?_ ?_ ?_ ?_ ?_
  · intro seg hseg
    obtain ⟨half, hhalf, rfl⟩ := List.mem_map.mp hseg
    simpa using List.mem_takeWhile_imp hhalf
  · rw [← List.map_append, List.takeWhile_append_dropWhile]
    rfl
  · exact (List.isChain_map _).mpr hchain
  · have hstart := List.head?_dropWhile_not (fun half => !half.level) (liveHalves b.frame)
    rw [List.head?_map]
    cases hhead : ((liveHalves b.frame).dropWhile fun half => !half.level).head? with
    | none => rfl
    | some half => simpa [hhead] using hstart
  · rw [← hheld.dropSpace]
    exact fun hnil => hempty (by rw [hnil]; rfl)

/-- What the locals of `pollIRBurst` hold: the segments closed so far, and the mark open. -/
structure IrHolds (cap : Nat) (closed : List Segment) (open? : Option Nat) (s : IrCollapse) :
    Prop where
  held : Holds cap closed s.out s.lastWasSpace
  inMark : s.inMark = open?.isSome
  accum : s.markAccum.toNat = open?.getD 0

section IrLoop

variable {s : IrCollapse} {open? : Option Nat} {half : HalfCell} {halves : List HalfCell}

theorem Holds.irPush (h : Holds cap closed s.out s.lastWasSpace) (us : UInt32) (space : Bool) :
    Holds cap (closed ++ [⟨!space, us.toNat⟩]) (s.push cap us space).out
      (s.push cap us space).lastWasSpace := by
  unfold IrCollapse.push
  split_ifs with hroom
  · have hnext := h.push hroom ⟨!space, us.toNat⟩
    rw [← clip_eq_entry, Bool.not_not] at hnext
    exact hnext
  · exact h.full hroom _

@[simp]
theorem push_inMark (us : UInt32) (space : Bool) : (s.push cap us space).inMark = s.inMark := by
  unfold IrCollapse.push
  split_ifs <;> rfl

@[simp]
theorem push_markAccum (us : UInt32) (space : Bool) :
    (s.push cap us space).markAccum = s.markAccum := by
  unfold IrCollapse.push
  split_ifs <;> rfl

/-- Closing the open mark. -/
theorem IrHolds.close (h : IrHolds cap closed open? s) :
    Holds cap (closed ++ openMark open?)
      (if s.inMark then s.push cap s.markAccum false else s).out
      (if s.inMark then s.push cap s.markAccum false else s).lastWasSpace := by
  rw [h.inMark]
  cases open? with
  | none => simpa [openMark] using h.held
  | some us =>
      have hpush := h.held.irPush s.markAccum false
      rw [h.accum] at hpush
      exact hpush

theorem IrHolds.flush (h : IrHolds cap closed open? s) :
    IrHolds cap (closed ++ openMark open?) none (s.flush cap) := by
  have hclosed := h.close
  unfold IrCollapse.flush
  cases hopen : s.inMark with
  | true =>
      rw [hopen, if_pos rfl] at hclosed
      rw [if_pos rfl]
      exact ⟨hclosed, rfl, rfl⟩
  | false =>
      rw [hopen, if_neg Bool.false_ne_true] at hclosed
      have hnone : open? = none := by simpa [hopen] using h.inMark
      have haccum := h.accum
      rw [hnone] at haccum
      rw [if_neg Bool.false_ne_true]
      exact ⟨hclosed, hopen, haccum⟩

theorem IrHolds.gap (h : IrHolds cap closed open? s) (hlive : half.duration ≠ 0)
    (hgap : isGap half = true) :
    IrHolds cap (closed ++ openMark open? ++ [⟨false, half.duration.toNat⟩]) none
      (s.half cap half) := by
  have hnonzero : ¬durationUs half = 0 := fun hzero =>
    hlive ((durationUs_eq_zero_iff half).mp hzero)
  have hflush := h.flush
  rw [IrCollapse.half, if_neg hnonzero, if_pos hgap, ← durationUs_toNat]
  refine ⟨hflush.held.irPush _ true, ?_, ?_⟩
  · rw [push_inMark]
    exact hflush.inMark
  · rw [push_markAccum]
    exact hflush.accum

theorem IrHolds.activity (h : IrHolds cap closed open? s) (hlive : half.duration ≠ 0)
    (hactive : isGap half = false) (hroom : open?.getD 0 + half.duration.toNat < 2 ^ 32) :
    IrHolds cap closed (some (open?.getD 0 + half.duration.toNat)) (s.half cap half) := by
  have hnonzero : ¬durationUs half = 0 := fun hzero =>
    hlive ((durationUs_eq_zero_iff half).mp hzero)
  rw [IrCollapse.half, if_neg hnonzero, if_neg (by simp [hactive])]
  refine ⟨h.held, rfl, ?_⟩
  dsimp only
  rw [UInt32.toNat_add, h.accum, durationUs_toNat, Option.getD_some]
  exact Nat.mod_eq_of_lt hroom

/-- The loop keeps to the envelope while the sum of the durations fits its counter. -/
theorem IrHolds.foldl (h : IrHolds cap closed open? s)
    (hroom : open?.getD 0 + (halves.map fun half => half.duration.toNat).sum < 2 ^ 32) :
    ∃ closed' open?', IrHolds cap closed' open?' (halves.foldl (IrCollapse.half cap) s) ∧
      closed' ++ openMark open?' =
        closed ++ activitySegments open? (halves.filter fun half => half.duration ≠ 0) := by
  induction halves generalizing closed open? s with
  | nil => exact ⟨closed, open?, h, rfl⟩
  | cons half rest ih =>
      rw [List.map_cons, List.sum_cons] at hroom
      rw [List.foldl_cons]
      by_cases hlive : half.duration = 0
      · have hskip : s.half cap half = s := by
          rw [IrCollapse.half, if_pos ((durationUs_eq_zero_iff half).mpr hlive)]
        rw [hskip, List.filter_cons_of_neg (by simp [hlive])]
        exact ih h (by omega)
      · have hkept : decide (half.duration ≠ 0) = true := decide_eq_true hlive
        rw [List.filter_cons, if_pos hkept]
        cases hgap : isGap half with
        | true =>
            obtain ⟨closed', open?', hheld, heq⟩ :=
              ih (h.gap hlive hgap) (by rw [Option.getD_none]; omega)
            refine ⟨closed', open?', hheld, ?_⟩
            rw [heq, activitySegments, if_pos hgap]
            simp
        | false =>
            obtain ⟨closed', open?', hheld, heq⟩ :=
              ih (h.activity hlive hgap (by omega)) (by rw [Option.getD_some]; omega)
            refine ⟨closed', open?', hheld, ?_⟩
            rw [heq, activitySegments, if_neg (by simp [hgap])]

end IrLoop

/-- The microseconds of a frame fit the 32-bit counter of the loop. -/
theorem sum_durations_lt (r : Receiver kRxBufSymbols) :
    ((halfCells r.frame).map fun half => half.duration.toNat).sum < 2 ^ 32 := by
  have hbound : ((halfCells r.frame).map fun half => half.duration.toNat).sum ≤
      ((halfCells r.frame).map fun half => half.duration.toNat).length • 32767 := by
    apply List.sum_le_card_nsmul
    intro us hus
    obtain ⟨half, -, rfl⟩ := List.mem_map.mp hus
    exact Nat.le_of_lt_succ half.duration.isLt
  have hroom := r.room
  rw [List.length_map, length_halfCells, smul_eq_mul] at hbound
  unfold kRxBufSymbols at hroom
  omega

theorem holds_irCollapse (r : Receiver kRxBufSymbols) :
    Holds cap (irEnvelope r.frame) (irCollapse cap r.frame).out
      (irCollapse cap r.frame).lastWasSpace := by
  have hinit : IrHolds cap [] none {} := ⟨holds_nil, rfl, rfl⟩
  have hroom : (none : Option Nat).getD 0 +
      ((halfCells r.frame).map fun half => half.duration.toNat).sum < 2 ^ 32 := by
    rw [Option.getD_none, Nat.zero_add]
    exact sum_durations_lt r
  obtain ⟨closed, open?, hheld, heq⟩ := hinit.foldl hroom
  have hclosed := hheld.close
  rw [heq, List.nil_append] at hclosed
  exact hclosed

/-- A mark begun before is in front. -/
theorem head_activitySegments_some (us : Nat) (halves : List HalfCell) :
    (activitySegments (some us) halves).head?.map Segment.mark = some true := by
  induction halves generalizing us with
  | nil => rfl
  | cons half rest ih =>
      rw [activitySegments]
      split_ifs with hgap
      · rfl
      · exact ih _

/-- Otherwise the first segment is a space exactly when the first half is a gap. -/
theorem head_activitySegments_none (halves : List HalfCell) :
    (activitySegments none halves).head?.map Segment.mark =
      halves.head?.map fun half => !isGap half := by
  cases halves with
  | nil => rfl
  | cons half rest =>
      rw [activitySegments]
      cases hgap : isGap half with
      | true => simp [openMark, hgap]
      | false =>
          rw [if_neg Bool.false_ne_true, head_activitySegments_some]
          simp [hgap]

/-- Where the levels alternate no two gaps meet, so marks and spaces alternate. -/
theorem alternating_activitySegments (open? : Option Nat) {halves : List HalfCell}
    (h : Alternating HalfCell.level halves) :
    Alternating Segment.mark (activitySegments open? halves) := by
  induction halves generalizing open? with
  | nil =>
      cases open? with
      | none => exact List.isChain_nil
      | some us => exact List.isChain_singleton _
  | cons half rest ih =>
      obtain ⟨hnext, hrest⟩ := List.isChain_cons.mp h
      rw [activitySegments]
      split_ifs with hgap
      · have hspace : Alternating Segment.mark
            (⟨false, half.duration.toNat⟩ :: activitySegments none rest) := by
          refine List.isChain_cons.mpr ⟨?_, ih none hrest⟩
          intro seg hseg
          have hhead := head_activitySegments_none rest
          rw [hseg, Option.map_some] at hhead
          obtain ⟨next, hmem, hmark⟩ := Option.map_eq_some_iff.mp hhead.symm
          have hlevel := hnext next hmem
          have hhigh : half.level = true := (Bool.and_eq_true_iff.mp hgap).1
          have hlow : isGap next = false := by
            rw [isGap, Bool.eq_false_iff.mpr fun h => hlevel (hhigh.trans h.symm), Bool.false_and]
          rw [← hmark, hlow]
          exact Bool.false_ne_true
        cases open? with
        | none => exact hspace
        | some us =>
            refine List.isChain_cons.mpr ⟨?_, hspace⟩
            intro seg hseg
            cases hseg
            exact Bool.false_ne_true.symm
      · exact ih _ hrest

/-- What either poll returns is a burst as a learn takes it. -/
structure BurstsOnMarks (bands : RfBand → Receiver kRfRxBufSymbols) (freqMHz : UInt16)
    (r : Receiver kRxBufSymbols) (cap : Nat) : Prop where
  rf : ∀ b burst, bandFor freqMHz = some b → pollRFBurst bands freqMHz cap = some burst →
    MarkBurst cap (rfEnvelope (bands b).frame) burst
  ir : ∀ burst carrierHz, (pollIRBurst r cap).1 = some (burst, carrierHz) →
    MarkBurst cap (irEnvelope r.frame) burst

/-- The frame has a gap in front, and more behind it. -/
def StartsOnGap (frame : List RmtSymbol) : Prop :=
  ∃ gap next rest, liveHalves frame = gap :: next :: rest ∧ isGap gap = true

/-- The burst `pollIRBurst` is about to return. -/
theorem pollIRBurst_out (cap : Nat) (r : Receiver kRxBufSymbols) :
    dropSpace (irCollapse cap r.frame).out (irCollapse cap r.frame).lastWasSpace =
      (trimEnd Segment.mark ((irEnvelope r.frame).take cap)).map Segment.entry :=
  (holds_irCollapse r).dropSpace

theorem pollIRBurst_some {r : Receiver kRxBufSymbols} {burst : List UInt16} {carrierHz : UInt16}
    (h : (pollIRBurst r cap).1 = some (burst, carrierHz)) :
    r.rx = true ∧ r.frameReady = true ∧ burst ≠ [] ∧
      burst = (trimEnd Segment.mark ((irEnvelope r.frame).take cap)).map Segment.entry := by
  unfold pollIRBurst at h
  split_ifs at h with hready
  dsimp only at h
  split_ifs at h with hempty
  obtain ⟨hburst, -⟩ := Prod.mk.inj (Option.some.inj h)
  rw [Bool.or_eq_true_iff, not_or] at hready
  rw [pollIRBurst_out] at hempty hburst
  refine ⟨by simpa using hready.1, by simpa using hready.2, ?_, hburst.symm⟩
  intro hnil
  rw [hburst, hnil] at hempty
  exact hempty rfl

/-- The envelope of a frame with a gap in front. -/
theorem irEnvelope_of_gap {frame : List RmtSymbol} {gap : HalfCell} {live : List HalfCell}
    (hlive : liveHalves frame = gap :: live) (hgap : isGap gap = true) :
    irEnvelope frame = ⟨false, gap.duration.toNat⟩ :: activitySegments none live := by
  rw [irEnvelope, hlive, activitySegments, if_pos hgap]
  rfl

/-- A lone space is dropped again. -/
theorem trimEnd_take_gap {gap : Segment} {segs : List Segment} (hgap : gap.mark = false)
    (hlone : segs = [] ∨ cap < 2) : trimEnd Segment.mark ((gap :: segs).take cap) = [] := by
  have hsingle : (gap :: segs).take cap = [] ∨ (gap :: segs).take cap = [gap] := by
    rcases hlone with rfl | hshort
    · cases cap with
      | zero => exact Or.inl rfl
      | succ n => exact Or.inr (by simp)
    · have hcap : cap = 0 ∨ cap = 1 := by omega
      rcases hcap with rfl | rfl
      · exact Or.inl rfl
      · exact Or.inr rfl
  rcases hsingle with htake | htake
  · rw [htake]
    rfl
  · rw [htake]
    simp [trimEnd, hgap]

/-- A frame without a gap in front is collapsed from its first mark. -/
theorem pollIRBurst_markBurst {r : Receiver kRxBufSymbols} (hcaptured : Captured r.frame)
    (hstart : ¬(r.rx = true ∧ r.frameReady = true ∧ 2 ≤ cap ∧ StartsOnGap r.frame))
    {burst : List UInt16} {carrierHz : UInt16}
    (h : (pollIRBurst r cap).1 = some (burst, carrierHz)) :
    MarkBurst cap (irEnvelope r.frame) burst := by
  obtain ⟨hrx, hready, hne, rfl⟩ := pollIRBurst_some h
  refine markBurst_of_framed [] (by simp) rfl
    (alternating_activitySegments none hcaptured.alternates) ?_ hne
  have hhead : (irEnvelope r.frame).head?.map Segment.mark =
      (liveHalves r.frame).head?.map fun half => !isGap half :=
    head_activitySegments_none _
  cases hlive : liveHalves r.frame with
  | nil =>
      rw [hlive] at hhead
      rw [Option.map_eq_none_iff.mp hhead]
      rfl
  | cons gap live =>
      cases hgap : isGap gap with
      | false =>
          rw [hlive, List.head?_cons, Option.map_some, hgap] at hhead
          obtain ⟨seg, hseg, hmark⟩ := Option.map_eq_some_iff.mp hhead
          rw [hseg]
          exact hmark
      | true =>
          exfalso
          apply hne
          rw [irEnvelope_of_gap hlive hgap, trimEnd_take_gap rfl ?_]
          · rfl
          · cases live with
            | nil => exact Or.inl rfl
            | cons next live =>
                right
                by_contra hcap
                exact hstart ⟨hrx, hready, Nat.not_lt.mp hcap, gap, next, live, hlive, hgap⟩

/-- A gap in front is written as the first entry, and the burst has an even length. -/
theorem pollIRBurst_shifted {r : Receiver kRxBufSymbols} (hcaptured : Captured r.frame)
    (hrx : r.rx = true) (hready : r.frameReady = true) (hcap : 2 ≤ cap)
    (hstart : StartsOnGap r.frame) :
    ∃ burst carrierHz, (pollIRBurst r cap).1 = some (burst, carrierHz) ∧
      burst.length % 2 = 0 := by
  obtain ⟨gap, next, live, hlive, hgap⟩ := hstart
  have henvelope := irEnvelope_of_gap hlive hgap
  obtain ⟨seg, hseg, -⟩ :=
    Option.map_eq_some_iff.mp (head_activitySegments_none (next :: live))
  obtain ⟨rest, hrest⟩ : ∃ rest, activitySegments none (next :: live) = seg :: rest :=
    List.head?_eq_some_iff.mp hseg
  obtain ⟨n, rfl⟩ : ∃ n, cap = n + 2 := ⟨cap - 2, by omega⟩
  have htake : (irEnvelope r.frame).take (n + 2) =
      ⟨false, gap.duration.toNat⟩ :: seg :: rest.take n := by
    rw [henvelope, hrest]
    rfl
  have halternating : Alternating Segment.mark ((irEnvelope r.frame).take (n + 2)) :=
    (alternating_activitySegments none hcaptured.alternates).take _
  have hout := pollIRBurst_out (n + 2) r
  rw [htake] at hout halternating
  have heven := halternating.even_trimEnd rfl
  have hne : (trimEnd Segment.mark
      (⟨false, gap.duration.toNat⟩ :: seg :: rest.take n)).length ≠ 0 := by
    unfold trimEnd
    split_ifs
    · simp
    · simp
  unfold pollIRBurst
  rw [if_neg (by simp [hrx, hready])]
  dsimp only
  rw [hout, if_neg (by rw [List.length_map]; exact hne)]
  refine ⟨_, _, rfl, ?_⟩
  rw [List.length_map]
  exact heven

/-- Captured bursts start and end on a mark exactly when the IR frame does not start on a
gap: the gap in front that `collapseBand` skips, `pollIRBurst` writes. -/
theorem burstsOnMarks_iff (bands : RfBand → Receiver kRfRxBufSymbols)
    (hbands : ∀ b, Captured (bands b).frame) (freqMHz : UInt16) (r : Receiver kRxBufSymbols)
    (hcaptured : Captured r.frame) (cap : Nat) :
    BurstsOnMarks bands freqMHz r cap ↔
      ¬(r.rx = true ∧ r.frameReady = true ∧ 2 ≤ cap ∧ StartsOnGap r.frame) := by
  constructor
  · rintro hmarks ⟨hrx, hready, hcap, hstart⟩
    obtain ⟨burst, carrierHz, hpoll, heven⟩ :=
      pollIRBurst_shifted hcaptured hrx hready hcap hstart
    have hodd := (hmarks.ir burst carrierHz hpoll).odd
    omega
  · intro hstart
    refine ⟨?_, fun burst carrierHz hpoll => pollIRBurst_markBurst hcaptured hstart hpoll⟩
    intro b burst hband hpoll
    rw [pollRFBurst, hband, Option.bind_some] at hpoll
    exact collapseBand_markBurst (bands b) (hbands b) hpoll

/-- A band that heard a gap and two marks. -/
def gapBand : Receiver kRfRxBufSymbols where
  rx := true
  frameReady := true
  frame := [⟨400, false, 350, true⟩, ⟨1050, false, 350, true⟩, ⟨0, false, 0, false⟩]
  room := by decide

/-- Carrier cycles with a gap between them. -/
def markReceiver : Receiver kRxBufSymbols where
  rx := true
  frameReady := true
  frame := [⟨9, false, 17, true⟩, ⟨9, false, 562, true⟩, ⟨9, false, 17, true⟩, ⟨9, false, 0, true⟩]
  room := by decide

theorem burstsOnMarks_iff_gapBand :
    pollRFBurst (fun _ => gapBand) 433 512 = some [350, 1050, 350] ∧
      (pollIRBurst markReceiver 512).1 = some ([35, 562, 35], 57142) ∧
      BurstsOnMarks (fun _ => gapBand) 433 markReceiver 512 := by
  refine ⟨by decide +kernel, by decide +kernel, ?_⟩
  apply (burstsOnMarks_iff (fun _ => gapBand) (fun _ => ⟨by decide, by decide⟩) 433
    markReceiver ⟨by decide, by decide⟩ 512).mpr
  rintro ⟨-, -, -, gap, next, rest, hlive, hgap⟩
  have hhead : (liveHalves markReceiver.frame).head? = some ⟨false, 9⟩ := by decide
  rw [hlive] at hhead
  cases hhead
  exact absurd hgap (by decide)

/-- The same cycles heard from within a mark on: the first edge ends it. -/
def gapReceiver : Receiver kRxBufSymbols where
  rx := true
  frameReady := true
  frame := [⟨562, true, 9, false⟩, ⟨17, true, 9, false⟩, ⟨0, true, 0, true⟩]
  room := by decide

/-- The gap in front becomes the first entry, and the burst has two. -/
theorem pollIRBurst_starts_on_gap :
    Captured gapReceiver.frame ∧
      (pollIRBurst gapReceiver 512).1 = some ([562, 35], 57142) ∧
      ¬BurstsOnMarks (fun _ => gapBand) 433 gapReceiver 512 := by
  have hpoll : (pollIRBurst gapReceiver 512).1 = some ([562, 35], 57142) := by decide +kernel
  refine ⟨⟨by decide, by decide⟩, hpoll, ?_⟩
  intro hmarks
  exact absurd (hmarks.ir _ _ hpoll).odd (by decide)

end Capture

end RfIrBlaster
