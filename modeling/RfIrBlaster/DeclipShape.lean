/-
What `declipBurst` returns on any burst that ends on a mark: a frame of a commonest length
without a reset gap in it, which de-clips to itself.
-/
import RfIrBlaster.DeclipRecovery

namespace RfIrBlaster

/-- A burst cut at its reset gaps: the first frame, then each gap with the frame behind it. -/
def cutFrames : List UInt16 → List UInt16 × List (UInt16 × List UInt16)
  | [] => ([], [])
  | [mark] => ([mark], [])
  | mark :: space :: rest =>
      let cut := cutFrames rest
      if kResetGapMinUs ≤ space.toNat then ([mark], (space, cut.1) :: cut.2)
      else (mark :: space :: cut.1, cut.2)

/-- The frames of a burst. -/
def framesOf (input : List UInt16) : List (List UInt16) :=
  piecesOf (cutFrames input).1 (cutFrames input).2

def gapsOf (input : List UInt16) : List UInt16 :=
  (cutFrames input).2.map Prod.fst

/-- The space of a burst at an odd position. -/
def HasSpace (input : List UInt16) (x : UInt16) : Prop :=
  ∃ i, i % 2 = 1 ∧ input[i]? = some x

/-- What a call reports of a burst. -/
structure DeclipShape (input : List UInt16) (d : Declip) : Prop where
  odd : d.out.length % 2 = 1
  bounds : 1 ≤ d.out.length ∧ d.out.length ≤ input.length
  some_frame : ∃ p ∈ framesOf input, p.length = d.out.length
  commonest : ∀ p ∈ framesOf input,
    piecesOfLength (framesOf input) p.length ≤ piecesOfLength (framesOf input) d.out.length
  spaces : SpacesBelow d.out
  counted : d.outFrames.toNat = piecesOfLength (framesOf input) d.out.length
  single_gap : (framesOf input).length = 1 → d.resetGapUs = 0
  longest_gap : (framesOf input).length ≠ 1 →
    (HasSpace input d.resetGapUs ∧ kResetGapMinUs ≤ d.resetGapUs.toNat) ∧
      ∀ x, HasSpace input x → kResetGapMinUs ≤ x.toNat → x ≤ d.resetGapUs

theorem spacesBelow_mark (mark : UInt16) : SpacesBelow [mark] := by
  intro i x hodd hx
  have hi := (List.getElem?_eq_some_iff.mp hx).1
  rw [List.length_singleton] at hi
  omega

theorem SpacesBelow.cons {mark space : UInt16} {frame : List UInt16}
    (hspace : space.toNat < kResetGapMinUs) (h : SpacesBelow frame) :
    SpacesBelow (mark :: space :: frame) := by
  intro i x hodd hx
  match i with
  | 0 => cases hodd
  | 1 =>
      obtain rfl : space = x := Option.some.inj hx
      exact hspace
  | i + 2 => exact h i x (by omega) hx

theorem hasSpace_cons {mark space x : UInt16} {rest : List UInt16} :
    HasSpace (mark :: space :: rest) x ↔ x = space ∨ HasSpace rest x := by
  constructor
  · rintro ⟨i, hodd, hx⟩
    match i with
    | 0 => cases hodd
    | 1 => exact Or.inl (Option.some.inj hx).symm
    | i + 2 => exact Or.inr ⟨i, by omega, hx⟩
  · rintro (rfl | ⟨i, hodd, hx⟩)
    · exact ⟨1, rfl, rfl⟩
    · exact ⟨i + 2, by omega, hx⟩

/-- The cut of a burst that ends on a mark: odd frames with short spaces, joined by exactly
the reset gaps. -/
structure CutSound (input : List UInt16) : Prop where
  joined : joinPieces (cutFrames input).1 (cutFrames input).2 = input
  odd : ∀ p ∈ framesOf input, p.length % 2 = 1
  spaces : ∀ p ∈ framesOf input, SpacesBelow p
  gaps : ∀ x, x ∈ gapsOf input ↔ kResetGapMinUs ≤ x.toNat ∧ HasSpace input x

theorem cutSound_mark (mark : UInt16) : CutSound [mark] := by
  have hframes : framesOf [mark] = [[mark]] := rfl
  refine ⟨rfl, ?_, ?_, ?_⟩
  · simp [hframes]
  · rw [hframes, List.forall_mem_singleton]
    exact spacesBelow_mark mark
  · intro x
    constructor
    · intro hx
      cases hx
    · rintro ⟨-, i, hodd, hx⟩
      have hi := (List.getElem?_eq_some_iff.mp hx).1
      rw [List.length_singleton] at hi
      omega

/-- A reset gap behind the first mark ends the first frame there. -/
theorem CutSound.gap {mark space : UInt16} {rest : List UInt16} (h : CutSound rest)
    (hgap : kResetGapMinUs ≤ space.toNat) : CutSound (mark :: space :: rest) := by
  have hcut : cutFrames (mark :: space :: rest) =
      ([mark], (space, (cutFrames rest).1) :: (cutFrames rest).2) := by
    rw [cutFrames]
    exact if_pos hgap
  have hframes : framesOf (mark :: space :: rest) = [mark] :: framesOf rest := by
    simp [framesOf, piecesOf, hcut]
  refine ⟨?_, ?_, ?_, ?_⟩
  · rw [hcut]
    simpa [joinPieces] using h.joined
  · rw [hframes, List.forall_mem_cons]
    exact ⟨rfl, h.odd⟩
  · rw [hframes, List.forall_mem_cons]
    exact ⟨spacesBelow_mark mark, h.spaces⟩
  · intro x
    have hgaps : gapsOf (mark :: space :: rest) = space :: gapsOf rest := by
      simp [gapsOf, hcut]
    rw [hgaps, List.mem_cons, h.gaps, hasSpace_cons]
    constructor
    · rintro (rfl | ⟨hlong, hspace⟩)
      · exact ⟨hgap, Or.inl rfl⟩
      · exact ⟨hlong, Or.inr hspace⟩
    · rintro ⟨hlong, rfl | hspace⟩
      · exact Or.inl rfl
      · exact Or.inr ⟨hlong, hspace⟩

/-- A short space behind the first mark stays in the first frame. -/
theorem CutSound.space {mark space : UInt16} {rest : List UInt16} (h : CutSound rest)
    (hshort : ¬kResetGapMinUs ≤ space.toNat) : CutSound (mark :: space :: rest) := by
  have hcut : cutFrames (mark :: space :: rest) =
      (mark :: space :: (cutFrames rest).1, (cutFrames rest).2) := by
    rw [cutFrames]
    exact if_neg hshort
  have hframes : framesOf (mark :: space :: rest) =
      (mark :: space :: (cutFrames rest).1) :: (cutFrames rest).2.map Prod.snd := by
    simp [framesOf, piecesOf, hcut]
  have hodd := h.odd
  have hspaces := h.spaces
  rw [framesOf, piecesOf, List.forall_mem_cons] at hodd hspaces
  refine ⟨?_, ?_, ?_, ?_⟩
  · rw [hcut]
    simpa [joinPieces] using h.joined
  · rw [hframes, List.forall_mem_cons]
    refine ⟨?_, hodd.2⟩
    have hfirst := hodd.1
    rw [List.length_cons, List.length_cons]
    omega
  · rw [hframes, List.forall_mem_cons]
    exact ⟨hspaces.1.cons (Nat.not_le.mp hshort), hspaces.2⟩
  · intro x
    have hgaps : gapsOf (mark :: space :: rest) = gapsOf rest := by
      simp [gapsOf, hcut]
    rw [hgaps, h.gaps, hasSpace_cons]
    constructor
    · exact fun hlong => ⟨hlong.1, Or.inr hlong.2⟩
    · rintro ⟨hlong, rfl | hspace⟩
      · exact absurd hlong hshort
      · exact ⟨hlong, hspace⟩

theorem cutSound {input : List UInt16} (hodd : input.length % 2 = 1) : CutSound input := by
  induction input using cutFrames.induct with
  | case1 => cases hodd
  | case2 mark => exact cutSound_mark mark
  | case3 mark space rest hgap ih =>
      rw [List.length_cons, List.length_cons] at hodd
      exact (ih (by omega)).gap hgap
  | case4 mark space rest hshort ih =>
      rw [List.length_cons, List.length_cons] at hodd
      exact (ih (by omega)).space hshort

/-- What the modal-length loop ends with: a length met, with its count, and no length of a
higher count. -/
structure Commonest (frames rest : List Range) (best : Nat × Nat) : Prop where
  met : best.2 ≠ 0 → ∃ f ∈ frames, f.size = best.1
  count : best.2 ≠ 0 → best.2 = frameCountOf frames best.1
  most : ∀ f ∈ frames, f ∉ rest → frameCountOf frames f.size ≤ best.2

theorem Commonest.step {frames rest : List Range} {best : Nat × Nat} {a : Range}
    (h : Commonest frames (a :: rest) best) (ha : a ∈ frames) :
    Commonest frames rest (modalStep frames best a) := by
  unfold modalStep
  simp only
  split_ifs with hbetter
  · refine ⟨fun _ => ⟨a, ha, rfl⟩, fun _ => rfl, ?_⟩
    intro f hf hrest
    by_cases hfa : f = a
    · rw [hfa]
    · have hless := h.most f hf (by simp [hfa, hrest])
      simp only
      omega
  · refine ⟨h.met, h.count, ?_⟩
    intro f hf hrest
    by_cases hfa : f = a
    · rw [hfa]
      omega
    · exact h.most f hf (by simp [hfa, hrest])

theorem Commonest.fold {frames : List Range} (rest : List Range) {best : Nat × Nat}
    (h : Commonest frames rest best) (hrest : ∀ f ∈ rest, f ∈ frames) :
    Commonest frames [] (rest.foldl (modalStep frames) best) := by
  induction rest generalizing best with
  | nil => exact h
  | cons a rest ih =>
      rw [List.foldl_cons]
      exact ih (h.step (hrest a List.mem_cons_self))
        fun f hf => hrest f (List.mem_cons_of_mem a hf)

/-- The modal length of a burst's frames. -/
theorem modalOf_spec {frames : List Range} (hne : frames ≠ []) :
    (∃ f ∈ frames, f.size = (modalOf frames).1) ∧
      (modalOf frames).2 = frameCountOf frames (modalOf frames).1 ∧
      ∀ f ∈ frames, frameCountOf frames f.size ≤ (modalOf frames).2 := by
  have hstart : Commonest frames frames (0, 0) :=
    ⟨fun h => absurd rfl h, fun h => absurd rfl h, fun f hf hnot => absurd hf hnot⟩
  have hend := hstart.fold frames fun f hf => hf
  have hmost : ∀ f ∈ frames, frameCountOf frames f.size ≤ (modalOf frames).2 :=
    fun f hf => hend.most f hf List.not_mem_nil
  have hsome : (modalOf frames).2 ≠ 0 := by
    obtain ⟨f, hf⟩ := List.exists_mem_of_ne_nil frames hne
    have hpos : 0 < frameCountOf frames f.size :=
      List.countP_pos_iff.mpr ⟨f, hf, beq_self_eq_true _⟩
    have hle := hmost f hf
    omega
  exact ⟨hend.met hsome, hend.count hsome, hmost⟩

/-- Merging a piece in keeps the spaces short. -/
theorem SpacesBelow.merge {o : List UInt16} (h : SpacesBelow o) (v : List UInt16) :
    SpacesBelow (mergeSlots true o v) := by
  intro i x hodd hx
  rw [mergeSlots_getElem?] at hx
  cases ho : o[i]? with
  | none => simp [ho] at hx
  | some a =>
      cases hv : v[i]? with
      | none => simp [ho, hv] at hx
      | some b =>
          have hspace : (i % 2 == 0) = false := by simp [hodd]
          have hmin : x = min a b := by simpa [ho, hv, hspace] using hx.symm
          have hshort := h i a hodd ho
          rw [hmin, uint16_toNat_min]
          omega

/-- The merging loop over frames that hold their pieces: once a piece of the modal length
has been met there is a working frame, of that length and with short spaces. -/
theorem mergeFold_shape {input : List UInt16} {modal : Nat} {frames : List Range}
    {pieces : List (List UInt16)} (hholds : List.Forall₂ (Range.Holds input) frames pieces)
    (hspaces : ∀ p ∈ pieces, SpacesBelow p) {out : Option (List UInt16)}
    (hout : ∀ o, out = some o → o.length = modal ∧ SpacesBelow o)
    (hmet : out.isSome = true ∨ ∃ p ∈ pieces, p.length = modal) :
    ∃ o, frames.foldl (mergeStep input modal modal) out = some o ∧ o.length = modal ∧
      SpacesBelow o := by
  induction hholds generalizing out with
  | nil =>
      rcases hmet with hsome | ⟨p, hp, -⟩
      · obtain ⟨o, ho⟩ := Option.isSome_iff_exists.mp hsome
        exact ⟨o, ho, hout o ho⟩
      · cases hp
  | @cons r piece rs ps hhead htail ih =>
      rw [List.forall_mem_cons] at hspaces
      rw [List.foldl_cons]
      apply ih hspaces.2
      · intro o ho
        unfold mergeStep at ho
        split_ifs at ho with hsize
        · exact hout o ho
        · have hbody := hhead.frameBody_eq (hhead.size.symm.trans (not_not.mp hsize))
          cases hprev : out with
          | none =>
              simp only [hprev, hbody, Option.some.injEq] at ho
              rw [← ho]
              exact ⟨hhead.size.symm.trans (not_not.mp hsize), hspaces.1⟩
          | some prev =>
              obtain ⟨hlen, hshort⟩ := hout prev hprev
              simp only [hprev, hbody, Option.some.injEq] at ho
              rw [← ho]
              refine ⟨?_, hshort.merge piece⟩
              rw [mergeSlots_length, hlen, ← hhead.size, not_not.mp hsize, Nat.min_self]
      · by_cases hsize : r.size = modal
        · left
          unfold mergeStep
          rw [if_neg (not_not.mpr hsize)]
          cases out <;> rfl
        · have hskip : mergeStep input modal modal out r = out := if_pos hsize
          rw [hskip]
          rcases hmet with hsome | ⟨p, hp, hlen⟩
          · exact Or.inl hsome
          · rcases List.mem_cons.mp hp with rfl | hp
            · exact absurd (hhead.size.trans hlen) hsize
            · exact Or.inr ⟨p, hp, hlen⟩

/-- A burst without a reset gap passes through. -/
theorem declipBurst_of_spacesBelow {frame : List UInt16} (hodd : frame.length % 2 = 1)
    (h : SpacesBelow frame) {outCap : Nat} (hcap : frame.length ≤ outCap) :
    declipBurst frame outCap = { out := frame, outFrames := 1 } := by
  have hsplit : splitFrames frame = ([⟨0, frame.length⟩], []) := by
    have hpieces := @splitFrames_pieces frame [] (by simpa [piecesOf] using hodd)
      (by simpa [piecesOf] using h) (by simp)
    simpa [joinPieces, pieceRanges] using hpieces
  have hne : frame ≠ [] := by
    rintro rfl
    cases hodd
  unfold declipBurst
  rw [if_neg (not_or.mpr ⟨by omega, hne⟩), hsplit]
  simp [declipFrames, Range.size, frameBody, Nat.min_eq_left hcap]

theorem length_le_of_frame {input p : List UInt16} (hcut : CutSound input)
    (hp : p ∈ framesOf input) : p.length ≤ input.length := by
  have hle := length_le_joinPieces hp
  rwa [hcut.joined] at hle

theorem gaps_le_joinPieces (first : List UInt16) (rest : List (UInt16 × List UInt16)) :
    first.length + rest.length ≤ (joinPieces first rest).length := by
  induction rest with
  | nil => simp [joinPieces]
  | cons head rest ih =>
      obtain ⟨gap, piece⟩ := head
      simp only [joinPieces, List.flatMap_cons, List.length_append, List.length_cons] at ih ⊢
      omega

/-- There are no more frames than entries. -/
theorem framesOf_length_le {input : List UInt16} (hcut : CutSound input) :
    (framesOf input).length ≤ input.length := by
  have hfirst := hcut.odd (cutFrames input).1 List.mem_cons_self
  have htotal := gaps_le_joinPieces (cutFrames input).1 (cutFrames input).2
  rw [hcut.joined] at htotal
  simp only [framesOf, piecesOf, List.length_cons, List.length_map]
  omega

/-- The whole call on a burst of several frames. -/
theorem declipBurst_several {input : List UInt16} (hcut : CutSound input)
    (hseveral : (cutFrames input).2 ≠ []) {outCap : Nat} (hcap : input.length ≤ outCap) :
    ∃ out, declipBurst input outCap =
        { out := out
          resetGapUs := (gapsOf input).foldl max 0
          outFrames := UInt16.ofNat (piecesOfLength (framesOf input) out.length) } ∧
      SpacesBelow out ∧ (∃ p ∈ framesOf input, p.length = out.length) ∧
      ∀ p ∈ framesOf input, piecesOfLength (framesOf input) p.length ≤
        piecesOfLength (framesOf input) out.length := by
  let frames := pieceRanges 0 (cutFrames input).1 (cutFrames input).2
  have hholds : List.Forall₂ (Range.Holds input) frames (framesOf input) := by
    have hall := pieceRanges_holds [] (cutFrames input).1 (cutFrames input).2
    rwa [List.nil_append, hcut.joined] at hall
  have hsplit : splitFrames input = (frames, gapsOf input) := by
    have hpieces := splitFrames_pieces hcut.odd hcut.spaces
      (fun g hg => ((hcut.gaps g).mp hg).1)
    rwa [hcut.joined] at hpieces
  obtain ⟨r, r', rs, hranges⟩ : ∃ r r' rs, frames = r :: r' :: rs := by
    obtain ⟨⟨gap, piece⟩, tail, htail⟩ := List.exists_cons_of_ne_nil hseveral
    simp only [frames, htail]
    cases tail with
    | nil => exact ⟨_, _, _, rfl⟩
    | cons _ _ => exact ⟨_, _, _, rfl⟩
  obtain ⟨hmet, hcount, hmost⟩ := @modalOf_spec frames (by simp [hranges])
  have hcounts := frameCountOf_holds hholds
  -- lengths of frames are lengths of pieces
  have hpiece : ∀ n, (∃ f ∈ frames, f.size = n) ↔ ∃ p ∈ framesOf input, p.length = n := by
    intro n
    have hpos : 0 < frameCountOf frames n ↔ 0 < piecesOfLength (framesOf input) n := by
      rw [hcounts]
    simpa [frameCountOf, piecesOfLength, List.countP_pos_iff] using hpos
  obtain ⟨p, hp, hlen⟩ := (hpiece _).mp hmet
  have hfits : (modalOf frames).1 ≤ outCap := by
    have := length_le_of_frame hcut hp
    omega
  have hpos : (modalOf frames).1 ≠ 0 := by
    have := hcut.odd p hp
    omega
  obtain ⟨out, hmerge, hout, hspaces⟩ :=
    @mergeFold_shape input (modalOf frames).1 frames (framesOf input) hholds hcut.spaces none
      (by simp) (Or.inr ⟨p, hp, hlen⟩)
  have hne : input ≠ [] := by
    rintro rfl
    exact hseveral rfl
  refine ⟨out, ?_, hspaces, ⟨p, hp, hlen.trans hout.symm⟩, ?_⟩
  · rw [hranges] at hmerge hfits hpos hcount hout hcounts
    unfold declipBurst
    rw [if_neg (not_or.mpr ⟨by omega, hne⟩), hsplit, hranges]
    simp only [declipFrames, Nat.min_eq_left hfits, if_neg hpos, hmerge, hcount, hcounts, hout]
  · intro q hq
    obtain ⟨f, hf, hsize⟩ := (hpiece q.length).mpr ⟨q, hq, rfl⟩
    rw [hout, ← hcounts, ← hcounts, ← hcount, ← hsize]
    exact hmost f hf

/-- The shape of a burst without a reset gap. -/
theorem shape_of_single {input : List UInt16} (hcut : CutSound input)
    (hodd : input.length % 2 = 1) (hsingle : (cutFrames input).2 = []) {outCap : Nat}
    (hcap : input.length ≤ outCap) : DeclipShape input (declipBurst input outCap) := by
  have hfirst : (cutFrames input).1 = input := by
    have hjoined := hcut.joined
    rwa [hsingle, joinPieces, List.flatMap_nil, List.append_nil] at hjoined
  have hframes : framesOf input = [input] := by
    simp [framesOf, piecesOf, hsingle, hfirst]
  have hspaces : SpacesBelow input := hcut.spaces input (by simp [hframes])
  rw [declipBurst_of_spacesBelow hodd hspaces hcap]
  exact
    { odd := hodd
      bounds := ⟨by simp only; omega, Nat.le_refl _⟩
      some_frame := ⟨input, by simp [hframes], rfl⟩
      commonest := by simp [hframes]
      spaces := hspaces
      counted := by simp [hframes, piecesOfLength]
      single_gap := fun _ => rfl
      longest_gap := fun hseveral => absurd (by simp [hframes]) hseveral }

/-- The longest gap is one of the gaps: a reset gap is never zero. -/
theorem longestGap_mem {input : List UInt16} (hcut : CutSound input)
    (hseveral : (cutFrames input).2 ≠ []) : (gapsOf input).foldl max 0 ∈ gapsOf input := by
  obtain ⟨hbound, hmem⟩ := foldl_max_spec (gapsOf input) 0
  obtain ⟨head, tail, htail⟩ := List.exists_cons_of_ne_nil hseveral
  have hgap : head.1 ∈ gapsOf input := by simp [gapsOf, htail]
  rcases List.mem_cons.mp hmem with hzero | hfound
  · have hlong := ((hcut.gaps head.1).mp hgap).1
    have hle := UInt16.le_iff_toNat_le.mp (hbound head.1 (List.mem_cons_of_mem _ hgap))
    rw [hzero] at hle
    unfold kResetGapMinUs at hlong
    simp at hle
    omega
  · exact hfound

/-- The shape of a burst of several frames. -/
theorem shape_of_several {input : List UInt16} (hcut : CutSound input)
    (hlength : input.length < 65536) (hseveral : (cutFrames input).2 ≠ []) {outCap : Nat}
    (hcap : input.length ≤ outCap) : DeclipShape input (declipBurst input outCap) := by
  obtain ⟨out, heq, hspaces, ⟨p, hp, hlen⟩, hmost⟩ := declipBurst_several hcut hseveral hcap
  have hpodd := hcut.odd p hp
  have hple := length_le_of_frame hcut hp
  rw [heq]
  refine
    { odd := hlen ▸ hpodd
      bounds := ⟨by simp only; omega, by simp only; omega⟩
      some_frame := ⟨p, hp, hlen⟩
      commonest := hmost
      spaces := hspaces
      counted := ?_
      single_gap := ?_
      longest_gap := ?_ }
  · have hfew : piecesOfLength (framesOf input) out.length ≤ input.length :=
      Nat.le_trans List.countP_le_length (framesOf_length_le hcut)
    simp only [UInt16.toNat_ofNat']
    exact Nat.mod_eq_of_lt (by omega)
  · intro hone
    simp [framesOf, piecesOf, hseveral] at hone
  · intro _
    obtain ⟨hlong, hspace⟩ := (hcut.gaps _).mp (longestGap_mem hcut hseveral)
    refine ⟨⟨hspace, hlong⟩, ?_⟩
    intro x hx hxlong
    exact (foldl_max_spec (gapsOf input) 0).1 x
      (List.mem_cons_of_mem _ ((hcut.gaps x).mpr ⟨hxlong, hx⟩))

/-- The shape of what comes back, and that it comes back from itself. -/
theorem declipBurst_shape (input : List UInt16) (hodd : input.length % 2 = 1)
    (hlength : input.length < 65536) (outCap : Nat) (hcap : input.length ≤ outCap) :
    DeclipShape input (declipBurst input outCap) ∧
      ∀ outCap', (declipBurst input outCap).out.length ≤ outCap' →
        declipBurst (declipBurst input outCap).out outCap' =
          { out := (declipBurst input outCap).out, resetGapUs := 0, outFrames := 1 } := by
  have hcut := cutSound hodd
  have hshape : DeclipShape input (declipBurst input outCap) := by
    by_cases hsingle : (cutFrames input).2 = []
    · exact shape_of_single hcut hodd hsingle hcap
    · exact shape_of_several hcut hlength hsingle hcap
  exact ⟨hshape, fun outCap' hcap' => declipBurst_of_spacesBelow hshape.odd hshape.spaces hcap'⟩

/-- Two frames of three entries with a ragged one between them. -/
theorem declipBurst_shape_ragged :
    let input : List UInt16 := [600, 510, 650, 3000, 40, 9000, 590, 500, 700]
    DeclipShape input (declipBurst input 9) ∧
      declipBurst (declipBurst input 9).out 9 = { out := [600, 500, 700], outFrames := 1 } := by
  intro input
  obtain ⟨hshape, hagain⟩ := declipBurst_shape input (by decide) (by decide) 9 (by decide)
  exact ⟨hshape, hagain 9 (by decide)⟩

end RfIrBlaster
