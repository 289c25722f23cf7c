/-
`declipBurst` of `frame_merge.cpp`: split a burst on its reset gaps, keep the
frames of the commonest length, and merge them slot by slot.
-/
import RfIrBlaster.SignalMatch

namespace RfIrBlaster

def kResetGapMinUs : Nat := 3000
def kStoredFrameCount : UInt16 := 8

/-- A frame body `[begin, fin)` inside the burst. -/
structure Range where
  begin : Nat
  fin : Nat
deriving DecidableEq, Repr

def Range.size (r : Range) : Nat :=
  r.fin - r.begin

/-- The locals of the splitting loop. -/
structure Split where
  frames : List Range := []
  gaps : List UInt16 := []
  frameStart : Nat := 0
deriving DecidableEq, Repr

/-- One turn of the splitting loop; only odd positions are spaces. -/
def splitStep (s : Split) (i : Nat) (x : UInt16) : Split :=
  if i % 2 = 1 ∧ kResetGapMinUs ≤ x.toNat then
    { frames := if s.frameStart < i then s.frames ++ [⟨s.frameStart, i⟩] else s.frames
      gaps := s.gaps ++ [x]
      frameStart := i + 1 }
  else s

def splitLoop : List UInt16 → Nat → Split → Split
  | [], _, s => s
  | x :: xs, i, s => splitLoop xs (i + 1) (splitStep s i x)

/-- The frames and gaps of a burst, the trailing frame included. -/
def splitFrames (input : List UInt16) : List Range × List UInt16 :=
  let s := splitLoop input 0 {}
  if s.frameStart < input.length then
    (s.frames ++ [⟨s.frameStart, input.length⟩], s.gaps)
  else (s.frames, s.gaps)

def frameCountOf (frames : List Range) (n : Nat) : Nat :=
  frames.countP (fun b => b.size == n)

/-- One turn of the modal-length loop: `(modal, modalCount)`. -/
def modalStep (frames : List Range) (best : Nat × Nat) (a : Range) : Nat × Nat :=
  let cnt := frameCountOf frames a.size
  if best.2 < cnt ∨ (cnt = best.2 ∧ best.1 < a.size) then (a.size, cnt) else best

def modalOf (frames : List Range) : Nat × Nat :=
  frames.foldl (modalStep frames) (0, 0)

/-- Longest mark, shortest space; the flag says whether the slot is a mark. -/
def mergeSlots : Bool → List UInt16 → List UInt16 → List UInt16
  | isMark, o :: os, v :: vs =>
      (if isMark then max o v else min o v) :: mergeSlots (!isMark) os vs
  | _, _, _ => []

def frameBody (input : List UInt16) (f : Range) (n : Nat) : List UInt16 :=
  (input.drop f.begin).take n

/-- One turn of the merging loop; `none` is the source's `first`. -/
def mergeStep (input : List UInt16) (modal n : Nat)
    (out : Option (List UInt16)) (f : Range) : Option (List UInt16) :=
  if f.size ≠ modal then out
  else
    match out with
    | none => some (frameBody input f n)
    | some o => some (mergeSlots true o (frameBody input f n))

/-- What the call reports: the merged frame (its length is the return value),
the reset gap and the frame count. -/
structure Declip where
  out : List UInt16 := []
  resetGapUs : UInt16 := 0
  outFrames : UInt16 := 0
deriving DecidableEq, Repr

/-- The three ways on after the split: no frame, one frame passed through, or
the merge of the modal frames. -/
def declipFrames (input : List UInt16) (outCap : Nat) (gaps : List UInt16) :
    List Range → Declip
  | [] => {}
  | [f] => { out := frameBody input f (min f.size outCap), outFrames := 1 }
  | f :: g :: rest =>
      let frames := f :: g :: rest
      let (modal, modalCount) := modalOf frames
      let n := min modal outCap
      if n = 0 then {}
      else
        match frames.foldl (mergeStep input modal n) none with
        | none => {}
        | some out =>
            { out := out
              resetGapUs := gaps.foldl max 0
              outFrames := UInt16.ofNat modalCount }

def declipBurst (input : List UInt16) (outCap : Nat) : Declip :=
  if outCap = 0 ∨ input = [] then {}
  else
    let parts := splitFrames input
    declipFrames input outCap parts.2 parts.1

/-- A frame that lies inside the burst, starts on a mark and ends on a mark. -/
structure Range.OnMarks (r : Range) (len : Nat) : Prop where
  begin_even : r.begin % 2 = 0
  fin_odd : r.fin % 2 = 1
  begin_lt : r.begin < r.fin
  fin_le : r.fin ≤ len

theorem Range.OnMarks.size_odd {r : Range} {len : Nat} (h : r.OnMarks len) :
    r.size % 2 = 1 := by
  have := h.begin_even
  have := h.fin_odd
  have := h.begin_lt
  unfold Range.size
  omega

theorem Range.OnMarks.mono {r : Range} {len len' : Nat} (h : r.OnMarks len)
    (hle : len ≤ len') : r.OnMarks len' :=
  { h with fin_le := Nat.le_trans h.fin_le hle }

/-- The splitting loop at position `i`. -/
structure Split.AtPosition (s : Split) (i : Nat) : Prop where
  start_even : s.frameStart % 2 = 0
  start_le : s.frameStart ≤ i
  frames_ok : ∀ f ∈ s.frames, f.OnMarks i

theorem splitStep_atPosition {s : Split} {i : Nat} (h : s.AtPosition i) (x : UInt16) :
    (splitStep s i x).AtPosition (i + 1) := by
  have hframes : ∀ f ∈ s.frames, f.OnMarks (i + 1) :=
    fun f hf => (h.frames_ok f hf).mono (Nat.le_succ i)
  unfold splitStep
  split_ifs with hgap hstart
  · refine ⟨by simp; omega, Nat.le_refl _, ?_⟩
    intro f hf
    rcases List.mem_append.mp hf with hf | hf
    · exact hframes f hf
    · rw [List.mem_singleton.mp hf]
      exact ⟨h.start_even, hgap.1, hstart, Nat.le_succ i⟩
  · exact ⟨by simp; omega, Nat.le_refl _, hframes⟩
  · exact ⟨h.start_even, Nat.le_succ_of_le h.start_le, hframes⟩

theorem splitLoop_atPosition (xs : List UInt16) {s : Split} {i : Nat}
    (h : s.AtPosition i) : (splitLoop xs i s).AtPosition (i + xs.length) := by
  induction xs generalizing s i with
  | nil => simpa [splitLoop] using h
  | cons x xs ih =>
      have hnext := ih (splitStep_atPosition h x)
      simpa [splitLoop, Nat.add_assoc, Nat.add_comm 1] using hnext

/-- A burst that ends on a mark splits into frames that do. -/
theorem splitFrames_onMarks {input : List UInt16} (hodd : input.length % 2 = 1) :
    ∀ f ∈ (splitFrames input).1, f.OnMarks input.length := by
  have hloop : (splitLoop input 0 {}).AtPosition input.length := by
    simpa using splitLoop_atPosition input (s := {}) (i := 0) ⟨rfl, Nat.le_refl _, by simp⟩
  intro f hf
  unfold splitFrames at hf
  simp only at hf
  split_ifs at hf with hstart
  · rcases List.mem_append.mp hf with hf | hf
    · exact hloop.frames_ok f hf
    · rw [List.mem_singleton.mp hf]
      exact ⟨hloop.start_even, hodd, hstart, Nat.le_refl _⟩
  · exact hloop.frames_ok f hf

@[simp]
theorem mergeSlots_length (isMark : Bool) (os vs : List UInt16) :
    (mergeSlots isMark os vs).length = min os.length vs.length := by
  induction os generalizing isMark vs with
  | nil => cases vs <;> simp [mergeSlots]
  | cons o os ih =>
      cases vs with
      | nil => simp [mergeSlots]
      | cons v vs => simp [mergeSlots, ih, Nat.succ_min_succ]

theorem frameBody_length {input : List UInt16} {f : Range} {n : Nat}
    (hf : f.OnMarks input.length) (hn : n ≤ f.size) :
    (frameBody input f n).length = n := by
  have := hf.begin_lt
  have := hf.fin_le
  simp only [frameBody, List.length_take, List.length_drop]
  unfold Range.size at hn
  omega

/-- Either no frame of the modal length has been met, or the merged frame has
the length every such frame is cut to. -/
theorem mergeFold_length {input : List UInt16} {modal n : Nat} (hn : n ≤ modal)
    {frames : List Range} (hframes : ∀ f ∈ frames, f.OnMarks input.length)
    {start : Option (List UInt16)} (hstart : ∀ o, start = some o → o.length = n) :
    ∀ o, frames.foldl (mergeStep input modal n) start = some o → o.length = n := by
  induction frames generalizing start with
  | nil => exact hstart
  | cons f frames ih =>
      rw [List.foldl_cons]
      apply ih (fun g hg => hframes g (List.mem_cons_of_mem f hg))
      intro o ho
      unfold mergeStep at ho
      split_ifs at ho with hsize
      · exact hstart o ho
      · have hbody : (frameBody input f n).length = n :=
          frameBody_length (hframes f List.mem_cons_self) (by omega)
        cases hprev : start with
        | none =>
            simp only [hprev, Option.some.injEq] at ho
            rw [← ho, hbody]
        | some prev =>
            simp only [hprev, Option.some.injEq] at ho
            rw [← ho, mergeSlots_length, hstart prev hprev, hbody, Nat.min_self]

/-- The modal length is the length of some frame. -/
theorem modalOf_mem {frames : List Range} (hne : (modalOf frames).1 ≠ 0) :
    ∃ f ∈ frames, f.size = (modalOf frames).1 := by
  have hfold : ∀ (rest : List Range) (best : Nat × Nat),
      (best.1 ≠ 0 → ∃ f ∈ frames, f.size = best.1) → (∀ f ∈ rest, f ∈ frames) →
      (rest.foldl (modalStep frames) best).1 ≠ 0 →
      ∃ f ∈ frames, f.size = (rest.foldl (modalStep frames) best).1 := by
    intro rest
    induction rest with
    | nil => exact fun best hbest _ => hbest
    | cons a rest ih =>
        intro best hbest hrest
        apply ih
        · intro hnew
          unfold modalStep at hnew ⊢
          simp only at hnew ⊢
          split_ifs at hnew ⊢ with hbetter
          · exact ⟨a, hrest a List.mem_cons_self, rfl⟩
          · exact hbest hnew
        · exact fun f hf => hrest f (List.mem_cons_of_mem a hf)
  exact hfold frames (0, 0) (by simp) (fun _ h => h) hne

theorem declipFrames_length {input : List UInt16} (gaps : List UInt16)
    {frames : List Range} (hmarks : ∀ f ∈ frames, f.OnMarks input.length)
    (hout : 0 < (declipFrames input input.length gaps frames).out.length) :
    ∃ f ∈ frames,
      (declipFrames input input.length gaps frames).out.length = f.size := by
  have hsize : ∀ f ∈ frames, f.size ≤ input.length := by
    intro f hf
    have := (hmarks f hf).fin_le
    unfold Range.size
    omega
  match frames with
  | [] => simp [declipFrames] at hout
  | [f] =>
      refine ⟨f, List.mem_cons_self, ?_⟩
      simp only [declipFrames]
      rw [Nat.min_eq_left (hsize f List.mem_cons_self)]
      exact frameBody_length (hmarks f List.mem_cons_self) (Nat.le_refl _)
  | f :: g :: rest =>
      simp only [declipFrames] at hout ⊢
      split_ifs at hout ⊢ with hn
      · simp at hout
      · cases hmerge : List.foldl _ none (f :: g :: rest) with
        | none => simp [hmerge] at hout
        | some out =>
            have hlen := mergeFold_length (Nat.min_le_left _ _) hmarks
              (by simp) out hmerge
            have hmodal : (modalOf (f :: g :: rest)).1 ≠ 0 := by omega
            obtain ⟨a, ha, heq⟩ := modalOf_mem hmodal
            refine ⟨a, ha, ?_⟩
            rw [← heq, Nat.min_eq_left (hsize a ha)] at hlen
            exact hlen

/-- When the burst ends on a mark, a merged frame has an odd number of entries
and is no longer than the burst. -/
theorem declipBurst_length {input : List UInt16} (hodd : input.length % 2 = 1)
    (hout : 0 < (declipBurst input input.length).out.length) :
    (declipBurst input input.length).out.length % 2 = 1 ∧
      (declipBurst input input.length).out.length ≤ input.length := by
  unfold declipBurst at hout ⊢
  split_ifs at hout ⊢ with hempty
  · simp at hout
  · simp only at hout ⊢
    have hmarks := splitFrames_onMarks hodd
    obtain ⟨f, hf, hlen⟩ := declipFrames_length _ hmarks hout
    have hle := (hmarks f hf).fin_le
    refine ⟨?_, ?_⟩
    · rw [hlen]
      exact (hmarks f hf).size_odd
    · rw [hlen]
      unfold Range.size
      omega

end RfIrBlaster
