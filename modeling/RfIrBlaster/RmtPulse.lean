/-
`packPulsesToSymbols` of `rmt_pulse.h`: mark and space durations packed into RMT symbol
words, two half-cells a word, and the waveform the words key.
-/
import Mathlib.Algebra.Ring.Nat
import Mathlib.Data.List.Basic
import RfIrBlaster.RepeatedList

namespace RfIrBlaster

/-- RMT duration is a 15-bit field. -/
def kRmtMaxDur : Nat := 32767

/-- One half-cell: a level held for a number of microseconds. -/
structure HalfCell where
  level : Bool
  duration : BitVec 15
deriving DecidableEq, Repr

/-- `rmt_symbol_word_t`. -/
structure RmtSymbol where
  duration0 : BitVec 15
  level0 : Bool
  duration1 : BitVec 15
  level1 : Bool
deriving DecidableEq, Repr

/-- The half-cells of some words, in the order the peripheral plays them. -/
def halfCells : List RmtSymbol → List HalfCell
  | [] => []
  | w :: rest => ⟨w.level0, w.duration0⟩ :: ⟨w.level1, w.duration1⟩ :: halfCells rest

/-- The assignments of `pushHalf` to the word of half-cell `h`. -/
def writeHalf (out : List RmtSymbol) (h : Nat) (cell : HalfCell) : List RmtSymbol :=
  out.modify (h / 2) fun w =>
    if h % 2 = 1 then { w with level1 := cell.level, duration1 := cell.duration }
    else { w with level0 := cell.level, duration0 := cell.duration }

@[simp]
theorem length_writeHalf (out : List RmtSymbol) (h : Nat) (cell : HalfCell) :
    (writeHalf out h cell).length = out.length := by
  simp [writeHalf]

@[simp]
theorem length_halfCells (out : List RmtSymbol) :
    (halfCells out).length = out.length * 2 := by
  induction out with
  | nil => rfl
  | cons w rest ih =>
      simp only [halfCells, List.length_cons, ih]
      omega

theorem halfCells_writeHalf (out : List RmtSymbol) (h : Nat) (cell : HalfCell) :
    halfCells (writeHalf out h cell) = (halfCells out).set h cell := by
  induction out generalizing h with
  | nil => simp [writeHalf, halfCells]
  | cons w rest ih =>
      match h with
      | 0 => simp [writeHalf, halfCells]
      | 1 => simp [writeHalf, halfCells]
      | h + 2 =>
          have hdiv : (h + 2) / 2 = h / 2 + 1 := by omega
          have hmod : (h + 2) % 2 = h % 2 := by omega
          have hrest := ih h
          simp only [writeHalf] at hrest
          simp [writeHalf, halfCells, hdiv, hmod, hrest]

theorem halfCells_take (out : List RmtSymbol) (n : Nat) :
    halfCells (out.take n) = (halfCells out).take (n * 2) := by
  induction out generalizing n with
  | nil => simp [halfCells]
  | cons w rest ih =>
      cases n with
      | zero => simp [halfCells]
      | succ n => simp [halfCells, ih, Nat.succ_mul]

/-- The locals of `packPulsesToSymbols`: the caller's buffer, whatever it held before,
and the index of the next half-cell. -/
structure PackState (maxSymbols : Nat) where
  out : List RmtSymbol
  h : Nat
  size : out.length = maxSymbols
  bounded : h ≤ maxSymbols * 2

namespace PackState

variable {n : Nat}

def push (st : PackState n) (cell : HalfCell) (hroom : st.h < n * 2) : PackState n where
  out := writeHalf st.out st.h cell
  h := st.h + 1
  size := by rw [length_writeHalf, st.size]
  bounded := hroom

/-- The half-cells pushed so far. -/
def written (st : PackState n) : List HalfCell :=
  (halfCells st.out).take st.h

@[simp]
theorem length_written (st : PackState n) : st.written.length = st.h := by
  have hbound := st.bounded
  rw [written, List.length_take, length_halfCells, st.size]
  omega

@[simp]
theorem written_push (st : PackState n) (cell : HalfCell) (hroom : st.h < n * 2) :
    (st.push cell hroom).written = st.written ++ [cell] := by
  have hindex : st.h < (halfCells st.out).length := by
    rw [length_halfCells, st.size]
    exact hroom
  have hset : st.h < ((halfCells st.out).set st.h cell).length := by
    rw [List.length_set]
    exact hindex
  simp only [push, written, halfCells_writeHalf]
  rw [List.take_succ_eq_append_getElem hset, List.getElem_set_self, List.take_set_of_le]
  exact Nat.le_refl _

theorem take_written (st : PackState n) : st.written.take (n * 2) = st.written := by
  apply List.take_of_length_le
  rw [length_written]
  exact st.bounded

/-- Where there is no room left, nothing more is kept. -/
theorem take_written_full (st : PackState n) (hfull : ¬ st.h < n * 2)
    (cells : List HalfCell) : (st.written ++ cells).take (n * 2) = st.written := by
  have hlen : st.written.length = n * 2 := by
    have hbound := st.bounded
    rw [length_written]
    omega
  rw [← hlen, List.take_left]

end PackState

/-- The `pushHalf` loop: a duration past the field goes out in chunks of one level. -/
def pushHalf {n : Nat} (level : Bool) (dur : Nat) (st : PackState n) : PackState n :=
  if hloop : 0 < dur ∧ st.h < n * 2 then
    let chunk := if kRmtMaxDur < dur then kRmtMaxDur else dur
    pushHalf level (dur - chunk) (st.push ⟨level, BitVec.ofNat 15 chunk⟩ hloop.2)
  else st
termination_by dur
decreasing_by
  unfold kRmtMaxDur
  split <;> omega

/-- The loop over mark and space pairs. -/
def packPairs {n : Nat} : List UInt16 → PackState n → PackState n
  | mark :: space :: rest, st =>
      if st.h < n * 2 then
        packPairs rest (pushHalf false space.toNat (pushHalf true mark.toNat st))
      else st
  | _, st => st

/-- The buffer afterwards and the symbol count. -/
def packPulsesToSymbols (pulses : List UInt16) (length : Nat) {maxSymbols : Nat}
    (out : List RmtSymbol) (hsize : out.length = maxSymbols) : List RmtSymbol × Nat :=
  let st := packPairs (pulses.take length)
    { out := out, h := 0, size := hsize, bounded := Nat.zero_le (maxSymbols * 2) }
  if st.h = 0 then (st.out, 0)
  else if st.h % 2 = 1 then (writeHalf st.out st.h ⟨false, 0⟩, (st.h + 1) / 2)
  else (st.out, (st.h + 1) / 2)

/-- The microseconds of a half-cell; the zeroed padding half has none. -/
def HalfCell.levels (cell : HalfCell) : List Bool :=
  List.replicate cell.duration.toNat cell.level

/-- A half-cell that is no padding. -/
def HalfCell.Keyed (cell : HalfCell) : Prop :=
  1 ≤ cell.duration.toNat ∧ cell.duration.toNat ≤ kRmtMaxDur

/-- The waveform over time, one level for each microsecond, so that neighbouring halves
of one level merge. -/
def waveform (symbols : List RmtSymbol) : List Bool :=
  (halfCells symbols).flatMap HalfCell.levels

/-- The waveform some pulses describe: marks are level 1, spaces level 0. -/
def pulseLevels : List UInt16 → List Bool
  | mark :: space :: rest =>
      List.replicate mark.toNat true ++ List.replicate space.toNat false ++ pulseLevels rest
  | _ => []

/-- The half-cells a duration takes where room never runs out. -/
def splitDuration (level : Bool) (dur : Nat) : List HalfCell :=
  List.replicate (dur / kRmtMaxDur) ⟨level, BitVec.ofNat 15 kRmtMaxDur⟩ ++
    if dur % kRmtMaxDur = 0 then [] else [⟨level, BitVec.ofNat 15 (dur % kRmtMaxDur)⟩]

/-- The half-cells some pulses take where room never runs out. -/
def pulseCells : List UInt16 → List HalfCell
  | mark :: space :: rest =>
      splitDuration true mark.toNat ++ splitDuration false space.toNat ++ pulseCells rest
  | _ => []

/-- How many half-cells a duration takes. -/
def halfCount (dur : Nat) : Nat :=
  (dur + (kRmtMaxDur - 1)) / kRmtMaxDur

@[simp]
theorem splitDuration_zero (level : Bool) : splitDuration level 0 = [] := by
  simp [splitDuration]

/-- One round of the `pushHalf` loop takes the first half-cell. -/
theorem splitDuration_step (level : Bool) {dur : Nat} (hdur : 0 < dur) :
    splitDuration level dur =
      ⟨level, BitVec.ofNat 15 (if kRmtMaxDur < dur then kRmtMaxDur else dur)⟩ ::
        splitDuration level (dur - if kRmtMaxDur < dur then kRmtMaxDur else dur) := by
  by_cases hlong : kRmtMaxDur < dur
  · have hdiv : dur / kRmtMaxDur = (dur - kRmtMaxDur) / kRmtMaxDur + 1 := by
      unfold kRmtMaxDur at hlong ⊢
      omega
    have hmod : dur % kRmtMaxDur = (dur - kRmtMaxDur) % kRmtMaxDur := by
      unfold kRmtMaxDur at hlong ⊢
      omega
    rw [if_pos hlong, splitDuration, hdiv, hmod, List.replicate_succ, List.cons_append,
      splitDuration]
  · rw [if_neg hlong, Nat.sub_self, splitDuration_zero]
    by_cases hfull : dur = kRmtMaxDur
    · have hdiv : kRmtMaxDur / kRmtMaxDur = 1 := by decide
      simp [splitDuration, hfull, hdiv]
    · have hshort : dur < kRmtMaxDur := by omega
      have hdiv : dur / kRmtMaxDur = 0 := Nat.div_eq_of_lt hshort
      have hmod : dur % kRmtMaxDur = dur := Nat.mod_eq_of_lt hshort
      have hne : dur ≠ 0 := by omega
      simp [splitDuration, hdiv, hmod, hne]

theorem length_splitDuration (level : Bool) (dur : Nat) :
    (splitDuration level dur).length = halfCount dur := by
  rw [splitDuration, List.length_append, List.length_replicate]
  unfold halfCount kRmtMaxDur
  split
  · rw [List.length_nil]
    omega
  · rw [List.length_singleton]
    omega

/-- No half-cell of a split duration is empty or past the field. -/
theorem keyed_of_mem_splitDuration {level : Bool} {dur : Nat} {cell : HalfCell}
    (hcell : cell ∈ splitDuration level dur) : cell.Keyed := by
  rcases List.mem_append.mp hcell with hfull | hlast
  · have hmax : (BitVec.ofNat 15 kRmtMaxDur).toNat = kRmtMaxDur := by decide
    rw [(List.mem_replicate.mp hfull).2, HalfCell.Keyed, hmax]
    decide
  · split at hlast
    · cases hlast
    · next hne =>
      have hlt : dur % kRmtMaxDur < kRmtMaxDur := Nat.mod_lt dur (by decide)
      rw [List.mem_singleton.mp hlast]
      have hsmall : dur % kRmtMaxDur < 2 ^ 15 := Nat.lt_trans hlt (by decide)
      simp only [HalfCell.Keyed, BitVec.toNat_ofNat, Nat.mod_eq_of_lt hsmall]
      omega

/-- Splitting loses no microsecond. -/
theorem levels_splitDuration (level : Bool) (dur : Nat) :
    (splitDuration level dur).flatMap HalfCell.levels = List.replicate dur level := by
  induction dur using Nat.strongRecOn with
  | _ dur ih =>
      rcases Nat.eq_zero_or_pos dur with hzero | hpos
      · rw [hzero, splitDuration_zero]
        rfl
      · rw [splitDuration_step level hpos, List.flatMap_cons]
        generalize hchunk : (if kRmtMaxDur < dur then kRmtMaxDur else dur) = chunk
        have hle : chunk ≤ dur ∧ 0 < chunk ∧ chunk < 2 ^ 15 := by
          rw [← hchunk]
          unfold kRmtMaxDur
          split <;> omega
        rw [ih (dur - chunk) (by omega), HalfCell.levels, BitVec.toNat_ofNat,
          Nat.mod_eq_of_lt hle.2.2, List.replicate_append_replicate]
        congr 1
        omega

theorem levels_pulseCells (pulses : List UInt16) :
    (pulseCells pulses).flatMap HalfCell.levels = pulseLevels pulses := by
  induction pulses using pulseCells.induct with
  | case1 mark space rest ih =>
      simp only [pulseCells, pulseLevels, List.flatMap_append, levels_splitDuration, ih]
  | case2 pulses hshort => simp [pulseCells, pulseLevels]

theorem keyed_of_mem_pulseCells {pulses : List UInt16} {cell : HalfCell}
    (hcell : cell ∈ pulseCells pulses) : cell.Keyed := by
  induction pulses using pulseCells.induct with
  | case1 mark space rest ih =>
      rw [pulseCells] at hcell
      rcases List.mem_append.mp hcell with hpair | hrest
      · rcases List.mem_append.mp hpair with hmark | hspace
        · exact keyed_of_mem_splitDuration hmark
        · exact keyed_of_mem_splitDuration hspace
      · exact ih hrest
  | case2 pulses hshort => simp [pulseCells] at hcell

/-- Where the pair loops stop, an even list is used up. -/
theorem nil_of_even_unpaired {pulses : List UInt16} (heven : pulses.length % 2 = 0)
    (hshort : ∀ mark space rest, pulses = mark :: space :: rest → False) : pulses = [] := by
  match pulses, hshort, heven with
  | [], _, _ => rfl
  | [_], _, heven => simp at heven
  | mark :: space :: rest, hshort, _ => exact absurd rfl (hshort mark space rest)

/-- The half-cells of paired pulses: every duration is counted after the split. -/
theorem length_pulseCells {pulses : List UInt16} (heven : pulses.length % 2 = 0) :
    (pulseCells pulses).length = (pulses.map fun p => halfCount p.toNat).sum := by
  induction pulses using pulseCells.induct with
  | case1 mark space rest ih =>
      have hrest : rest.length % 2 = 0 := by
        simp only [List.length_cons] at heven
        omega
      rw [pulseCells, List.length_append, List.length_append, length_splitDuration,
        length_splitDuration, ih hrest, List.map_cons, List.map_cons, List.sum_cons, List.sum_cons,
        Nat.add_assoc]
  | case2 pulses hshort =>
      rw [nil_of_even_unpaired heven hshort]
      rfl

theorem pulseCells_append {xs : List UInt16} (heven : xs.length % 2 = 0)
    (ys : List UInt16) : pulseCells (xs ++ ys) = pulseCells xs ++ pulseCells ys := by
  induction xs using pulseCells.induct with
  | case1 mark space rest ih =>
      have hrest : rest.length % 2 = 0 := by
        simp only [List.length_cons] at heven
        omega
      simp [pulseCells, ih hrest]
  | case2 xs hshort =>
      rw [nil_of_even_unpaired heven hshort]
      rfl

theorem pulseCells_copies {xs : List UInt16} (heven : xs.length % 2 = 0) (n : Nat) :
    pulseCells (RepeatedList.copies n xs) = RepeatedList.copies n (pulseCells xs) := by
  induction n with
  | zero => rfl
  | succ n ih =>
      rw [RepeatedList.copies_succ, pulseCells_append heven, ih]
      rfl

/-- A list cut, extended and cut again is the extended list cut once. -/
theorem take_append_take {α : Type} (n : Nat) (xs ys : List α) :
    (xs.take n ++ ys).take n = (xs ++ ys).take n := by
  rw [List.take_append, List.take_append, List.take_take, Nat.min_self, List.length_take]
  congr 2
  omega

/-- The loop writes the half-cells of the duration as far as there is room. -/
theorem written_pushHalf {n : Nat} (level : Bool) (dur : Nat) (st : PackState n) :
    (pushHalf level dur st).written =
      (st.written ++ splitDuration level dur).take (n * 2) := by
  fun_induction pushHalf level dur st with
  | case1 dur st hloop chunk ih =>
      rw [ih, PackState.written_push, splitDuration_step level hloop.1, List.append_assoc]
      rfl
  | case2 dur st hloop =>
      rcases Nat.eq_zero_or_pos dur with hzero | hpos
      · rw [hzero, splitDuration_zero, List.append_nil, st.take_written]
      · have hfull : ¬ st.h < n * 2 := fun hroom => hloop ⟨hpos, hroom⟩
        exact (st.take_written_full hfull _).symm

/-- The pair loop writes the half-cells of the pulses as far as there is room. -/
theorem written_packPairs {n : Nat} (pulses : List UInt16) (st : PackState n) :
    (packPairs pulses st).written = (st.written ++ pulseCells pulses).take (n * 2) := by
  fun_induction packPairs pulses st with
  | case1 mark space rest st hroom ih =>
      rw [ih, written_pushHalf, written_pushHalf, take_append_take, List.append_assoc,
        take_append_take, pulseCells]
      simp only [List.append_assoc]
  | case2 mark space rest st hfull => exact (st.take_written_full hfull _).symm
  | case3 pulses st hshort =>
      have hnone : pulseCells pulses = [] := by
        unfold pulseCells
        split
        · next mark space rest => exact absurd rfl (hshort mark space rest)
        · rfl
      rw [hnone, List.append_nil, st.take_written]

/-- The half that the packer zeroes after an odd count. -/
def zeroPadding (count : Nat) : List HalfCell :=
  if count % 2 = 1 then [⟨false, 0⟩] else []

/-- What the returned words hold: the half-cells of the pulses cut at the size of the
buffer, then the padding.  Nothing the buffer held before is left. -/
theorem halfCells_packPulsesToSymbols {n : Nat} (pulses : List UInt16) (length : Nat)
    (out : List RmtSymbol) (hsize : out.length = n) :
    let packed := packPulsesToSymbols pulses length out hsize
    let cells := (pulseCells (pulses.take length)).take (n * 2)
    halfCells (packed.1.take packed.2) = cells ++ zeroPadding cells.length := by
  intro packed cells
  obtain ⟨st, hst⟩ : ∃ st : PackState n, packPairs (pulses.take length)
      { out := out, h := 0, size := hsize, bounded := Nat.zero_le (n * 2) } = st := ⟨_, rfl⟩
  have hwritten : st.written = cells := by
    rw [← hst, written_packPairs]
    rfl
  have hcount : st.h = cells.length := by
    rw [← hwritten, PackState.length_written]
  have hpacked : packed =
      if st.h = 0 then (st.out, 0)
      else if st.h % 2 = 1 then (writeHalf st.out st.h ⟨false, 0⟩, (st.h + 1) / 2)
      else (st.out, (st.h + 1) / 2) := by
    rw [← hst]
    rfl
  rw [hpacked, ← hcount, zeroPadding]
  by_cases hzero : st.h = 0
  · have hnil : cells = [] := List.length_eq_zero_iff.mp (hcount ▸ hzero)
    simp [hzero, hnil, halfCells]
  · by_cases hodd : st.h % 2 = 1
    · have hroom : st.h < n * 2 := by
        have hbound := st.bounded
        omega
      have hwords : (st.h + 1) / 2 * 2 = st.h + 1 := by omega
      have hpush := PackState.written_push st ⟨false, 0⟩ hroom
      rw [hwritten] at hpush
      simp only [if_neg hzero, if_pos hodd, halfCells_take, hwords]
      exact hpush
    · have hwords : (st.h + 1) / 2 * 2 = st.h := by omega
      simp only [if_neg hzero, if_neg hodd, halfCells_take, hwords, List.append_nil]
      exact hwritten

/-- The words key the half-cells that fit, microsecond by microsecond. -/
theorem waveform_packPulsesToSymbols {n : Nat} (pulses : List UInt16) (length : Nat)
    (out : List RmtSymbol) (hsize : out.length = n) :
    let packed := packPulsesToSymbols pulses length out hsize
    waveform (packed.1.take packed.2) =
      ((pulseCells (pulses.take length)).take (n * 2)).flatMap HalfCell.levels := by
  intro packed
  have hcells := halfCells_packPulsesToSymbols pulses length out hsize
  have hpadding : ∀ count, (zeroPadding count).flatMap HalfCell.levels = [] := by
    intro count
    unfold zeroPadding
    split <;> rfl
  simp only at hcells
  rw [waveform, hcells, List.flatMap_append, hpadding, List.append_nil]

/-- Pulses whose half-cells fit are keyed without a loss. -/
theorem waveform_of_fits {n : Nat} {pulses : List UInt16} {length : Nat}
    {out : List RmtSymbol} (hsize : out.length = n) (hlength : pulses.length ≤ length)
    (hfits : (pulseCells pulses).length ≤ n * 2) :
    let packed := packPulsesToSymbols pulses length out hsize
    waveform (packed.1.take packed.2) = pulseLevels pulses := by
  intro packed
  have hwave := waveform_packPulsesToSymbols pulses length out hsize
  rw [List.take_of_length_le hlength, List.take_of_length_le hfits, levels_pulseCells]
    at hwave
  exact hwave

end RfIrBlaster
