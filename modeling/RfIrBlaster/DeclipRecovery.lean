/-
What `declipBurst` recovers: a frame clipped differently in each of its copies comes
back whole, when the copies outnumber the ragged pieces among them.
-/
import RfIrBlaster.FrameMerge

namespace RfIrBlaster

/-- No space of the piece is as long as a reset gap; spaces have odd positions. -/
def SpacesBelow (piece : List UInt16) : Prop :=
  ∀ (i : Nat) (x : UInt16), i % 2 = 1 → piece[i]? = some x → x.toNat < kResetGapMinUs

instance (piece : List UInt16) : Decidable (SpacesBelow piece) :=
  decidable_of_iff
    (∀ i < piece.length, i % 2 = 1 → piece[i]?.all (fun x => x.toNat < kResetGapMinUs) = true) <| by
      constructor
      · intro h i x hodd hx
        simpa [hx] using h i (List.getElem?_eq_some_iff.mp hx).1 hodd
      · intro h i _ hodd
        cases hx : piece[i]? with
        | none => rfl
        | some x => simpa using h i x hodd hx

/-- Gain clipping shortens marks and lengthens spaces. -/
structure ClippedCopy (frame piece : List UInt16) : Prop where
  length : piece.length = frame.length
  marks : ∀ (i : Nat) (x y : UInt16), i % 2 = 0 → frame[i]? = some x → piece[i]? = some y → y ≤ x
  spaces : ∀ (i : Nat) (x y : UInt16), i % 2 = 1 → frame[i]? = some x → piece[i]? = some y → x ≤ y

instance (frame piece : List UInt16) : Decidable (ClippedCopy frame piece) :=
  decidable_of_iff
    (piece.length = frame.length ∧ ∀ i < frame.length, (frame[i]?.all fun x =>
      piece[i]?.all fun y => if i % 2 = 0 then y ≤ x else x ≤ y) = true) <| by
      constructor
      · rintro ⟨hlen, h⟩
        have hpair : ∀ (i : Nat) (x y : UInt16), frame[i]? = some x → piece[i]? = some y →
            if i % 2 = 0 then y ≤ x else x ≤ y := by
          intro i x y hx hy
          simpa [hx, hy] using h i (List.getElem?_eq_some_iff.mp hx).1
        constructor
        · exact hlen
        · intro i x y hmark hx hy
          simpa [hmark] using hpair i x y hx hy
        · intro i x y hspace hx hy
          simpa [hspace] using hpair i x y hx hy
      · intro h
        refine ⟨h.length, ?_⟩
        intro i _
        cases hx : frame[i]? with
        | none => rfl
        | some x =>
            cases hy : piece[i]? with
            | none => rfl
            | some y =>
                rcases Nat.mod_two_eq_zero_or_one i with hmark | hspace
                · simpa [hmark] using h.marks i x y hmark hx hy
                · simpa [hspace] using h.spaces i x y hspace hx hy

/-- A burst: a piece, then further pieces with a gap before each. -/
def joinPieces (first : List UInt16) (rest : List (UInt16 × List UInt16)) : List UInt16 :=
  first ++ rest.flatMap fun (gap, piece) => gap :: piece

def piecesOf (first : List UInt16) (rest : List (UInt16 × List UInt16)) : List (List UInt16) :=
  first :: rest.map Prod.snd

def piecesOfLength (pieces : List (List UInt16)) (n : Nat) : Nat :=
  pieces.countP fun piece => piece.length == n

/-- A burst from which `frame` can be recovered. -/
structure Recoverable (frame first : List UInt16) (rest : List (UInt16 × List UInt16)) :
    Prop where
  frame_odd : frame.length % 2 = 1
  frame_spaces : SpacesBelow frame
  pieces_odd : ∀ p ∈ piecesOf first rest, p.length % 2 = 1
  pieces_spaces : ∀ p ∈ piecesOf first rest, SpacesBelow p
  gaps : ∀ g ∈ rest.map Prod.fst, kResetGapMinUs ≤ g.toNat
  copies : ∀ p ∈ piecesOf first rest, p.length = frame.length → ClippedCopy frame p
  exact : ∀ (i : Nat) (x : UInt16), frame[i]? = some x →
    ∃ p ∈ piecesOf first rest, p.length = frame.length ∧ p[i]? = some x
  outnumber : ∀ n, n ≠ frame.length →
    piecesOfLength (piecesOf first rest) n < piecesOfLength (piecesOf first rest) frame.length
  joined : rest ≠ []

/-- The splitting loop passes over a piece. -/
theorem splitLoop_piece {piece : List UInt16} (tail : List UInt16) {i : Nat} (s : Split)
    (hspaces : ∀ (j : Nat) (x : UInt16), (i + j) % 2 = 1 → piece[j]? = some x →
      x.toNat < kResetGapMinUs) :
    splitLoop (piece ++ tail) i s = splitLoop tail (i + piece.length) s := by
  induction piece generalizing i with
  | nil => rfl
  | cons x xs ih =>
      have hstep : splitStep s i x = s := by
        unfold splitStep
        rw [if_neg]
        rintro ⟨hspace, hgap⟩
        have := hspaces 0 x (by simpa using hspace) rfl
        omega
      rw [List.cons_append, splitLoop, hstep, ih]
      · rw [List.length_cons, Nat.add_right_comm, Nat.add_assoc]
      · intro j y hodd hy
        exact hspaces (j + 1) y (by rw [← hodd]; congr 1; omega) (by simpa using hy)

/-- Where the pieces of a joined burst lie, from position `i` on. -/
def pieceRanges (i : Nat) (first : List UInt16) : List (UInt16 × List UInt16) → List Range
  | [] => [⟨i, i + first.length⟩]
  | (_, piece) :: rest => ⟨i, i + first.length⟩ :: pieceRanges (i + first.length + 1) piece rest

/-- The splitting loop finds every piece and every gap. -/
theorem splitLoop_joined {first : List UInt16} {rest : List (UInt16 × List UInt16)}
    (hodd : ∀ p ∈ piecesOf first rest, p.length % 2 = 1)
    (hspaces : ∀ p ∈ piecesOf first rest, SpacesBelow p)
    (hgaps : ∀ g ∈ rest.map Prod.fst, kResetGapMinUs ≤ g.toNat) {s : Split}
    (hstart : s.frameStart % 2 = 0) :
    let s' := splitLoop (joinPieces first rest) s.frameStart s
    let len := s.frameStart + (joinPieces first rest).length
    s'.gaps = s.gaps ++ rest.map Prod.fst ∧ s'.frameStart < len ∧
      s'.frames ++ [⟨s'.frameStart, len⟩] = s.frames ++ pieceRanges s.frameStart first rest := by
  induction rest generalizing first s with
  | nil =>
      have hfirst := hodd first (by simp [piecesOf])
      have hloop : splitLoop (joinPieces first []) s.frameStart s = s := by
        have hpass : splitLoop (first ++ []) s.frameStart s = splitLoop [] _ s :=
          splitLoop_piece [] s fun j x hj => hspaces first (by simp [piecesOf]) j x (by omega)
        simpa [joinPieces, splitLoop] using hpass
      simp only [hloop]
      simp [joinPieces, pieceRanges]
      omega
  | cons head rest ih =>
      obtain ⟨gap, piece⟩ := head
      have hfirst := hodd first (by simp [piecesOf])
      have hlong := hgaps gap (by simp)
      let s₁ : Split :=
        { frames := s.frames ++ [⟨s.frameStart, s.frameStart + first.length⟩]
          gaps := s.gaps ++ [gap]
          frameStart := s.frameStart + first.length + 1 }
      have hjoin : joinPieces first ((gap, piece) :: rest) =
          first ++ gap :: joinPieces piece rest := by
        simp [joinPieces]
      have hloop : splitLoop (joinPieces first ((gap, piece) :: rest)) s.frameStart s =
          splitLoop (joinPieces piece rest) s₁.frameStart s₁ := by
        have hstep : splitStep s (s.frameStart + first.length) gap = s₁ := by
          unfold splitStep
          rw [if_pos ⟨by omega, hlong⟩, if_pos (by omega)]
        rw [hjoin, splitLoop_piece, splitLoop, hstep]
        exact fun j x hj => hspaces first (by simp [piecesOf]) j x (by omega)
      have hstart₁ : s₁.frameStart % 2 = 0 := by
        simp only [s₁]
        omega
      have hrest := @ih piece
        (fun p hp => hodd p (List.mem_cons_of_mem _ (by simpa [piecesOf] using hp)))
        (fun p hp => hspaces p (List.mem_cons_of_mem _ (by simpa [piecesOf] using hp)))
        (fun g hg => hgaps g (List.mem_cons_of_mem _ hg)) s₁ hstart₁
      have hlen : s₁.frameStart + (joinPieces piece rest).length =
          s.frameStart + (joinPieces first ((gap, piece) :: rest)).length := by
        rw [hjoin, List.length_append, List.length_cons]
        simp only [s₁]
        omega
      simp only [hlen] at hrest
      obtain ⟨hgapsfound, hlast, hframes⟩ := hrest
      simp only [hloop]
      refine ⟨?_, hlast, ?_⟩
      · rw [hgapsfound]
        simp [s₁]
      · rw [hframes]
        simp [s₁, pieceRanges]

theorem splitFrames_pieces {first : List UInt16} {rest : List (UInt16 × List UInt16)}
    (hodd : ∀ p ∈ piecesOf first rest, p.length % 2 = 1)
    (hspaces : ∀ p ∈ piecesOf first rest, SpacesBelow p)
    (hgaps : ∀ g ∈ rest.map Prod.fst, kResetGapMinUs ≤ g.toNat) :
    splitFrames (joinPieces first rest) = (pieceRanges 0 first rest, rest.map Prod.fst) := by
  have hloop := splitLoop_joined hodd hspaces hgaps (s := {}) rfl
  simp only [Nat.zero_add, List.nil_append] at hloop
  obtain ⟨hfound, hlast, hframes⟩ := hloop
  unfold splitFrames
  simp only
  rw [if_pos hlast, hfound, hframes]

theorem splitFrames_joined {frame first : List UInt16} {rest : List (UInt16 × List UInt16)}
    (h : Recoverable frame first rest) :
    splitFrames (joinPieces first rest) = (pieceRanges 0 first rest, rest.map Prod.fst) :=
  splitFrames_pieces h.pieces_odd h.pieces_spaces h.gaps

/-- The range holds the piece. -/
structure Range.Holds (input : List UInt16) (r : Range) (piece : List UInt16) : Prop where
  size : r.size = piece.length
  body : (input.drop r.begin).take piece.length = piece

theorem pieceRanges_holds (front first : List UInt16) (rest : List (UInt16 × List UInt16)) :
    List.Forall₂ (Range.Holds (front ++ joinPieces first rest))
      (pieceRanges front.length first rest) (piecesOf first rest) := by
  induction rest generalizing front first with
  | nil =>
      refine .cons ⟨by simp [Range.size], ?_⟩ .nil
      simp [joinPieces]
  | cons head rest ih =>
      obtain ⟨gap, piece⟩ := head
      have hjoin : front ++ joinPieces first ((gap, piece) :: rest) =
          (front ++ first ++ [gap]) ++ joinPieces piece rest := by
        simp [joinPieces]
      have htail := ih (front ++ first ++ [gap]) piece
      rw [← hjoin] at htail
      simp only [List.length_append, List.length_singleton] at htail
      refine .cons ⟨by simp [Range.size], ?_⟩ htail
      simp [joinPieces]

theorem frameCountOf_holds {input : List UInt16} {frames : List Range}
    {pieces : List (List UInt16)} (h : List.Forall₂ (Range.Holds input) frames pieces) (n : Nat) :
    frameCountOf frames n = piecesOfLength pieces n := by
  unfold frameCountOf piecesOfLength
  induction h with
  | nil => rfl
  | cons hhead htail ih =>
      rw [List.countP_cons, List.countP_cons, ih, hhead.size]

/-- A length that outnumbers every other wins the loop, wherever its frames stand. -/
theorem modalFold_dominant {frames : List Range} {m : Nat}
    (hdominant : ∀ n, n ≠ m → frameCountOf frames n < frameCountOf frames m)
    (rest : List Range) {best : Nat × Nat}
    (hbest : best = (m, frameCountOf frames m) ∨
      best.2 < frameCountOf frames m ∧ ∃ f ∈ rest, f.size = m) :
    rest.foldl (modalStep frames) best = (m, frameCountOf frames m) := by
  induction rest generalizing best with
  | nil =>
      rcases hbest with heq | ⟨-, f, hf, -⟩
      · exact heq
      · cases hf
  | cons a rest ih =>
      apply ih
      unfold modalStep
      by_cases ha : a.size = m
      · -- its own frame: taken, or already there
        left
        rcases hbest with rfl | ⟨hfewer, -⟩
        · simp only [ha]
          split_ifs <;> rfl
        · simp only [ha]
          rw [if_pos (Or.inl hfewer)]
      · have hfewer := hdominant a.size ha
        rcases hbest with rfl | ⟨hless, f, hf, hsize⟩
        · left
          simp only
          rw [if_neg]
          omega
        · right
          refine ⟨?_, ?_⟩
          · simp only
            split_ifs
            · exact hfewer
            · exact hless
          · rcases List.mem_cons.mp hf with rfl | hmem
            · exact absurd hsize ha
            · exact ⟨f, hmem, hsize⟩

theorem uint16_toNat_min (a b : UInt16) : (min a b).toNat = min a.toNat b.toNat := by
  change (if a ≤ b then a else b).toNat = _
  by_cases hle : a ≤ b
  · rw [if_pos hle, Nat.min_eq_left (UInt16.le_iff_toNat_le.mp hle)]
  · have hlt := UInt16.lt_iff_toNat_lt.mp (UInt16.not_le.mp hle)
    rw [if_neg hle, Nat.min_eq_right (Nat.le_of_lt hlt)]

/-- The merge, slot by slot. -/
theorem mergeSlots_getElem? (isMark : Bool) (os vs : List UInt16) (i : Nat) :
    (mergeSlots isMark os vs)[i]? =
      match os[i]?, vs[i]? with
      | some o, some v => some (if (i % 2 == 0) == isMark then max o v else min o v)
      | _, _ => none := by
  induction os generalizing isMark vs i with
  | nil => simp [mergeSlots]
  | cons o os ih =>
      cases vs with
      | nil =>
          simp only [mergeSlots, List.getElem?_nil]
          cases (o :: os)[i]? <;> rfl
      | cons v vs =>
          cases i with
          | zero => cases isMark <;> simp [mergeSlots]
          | succ i =>
              have hflip : ((i + 1) % 2 == 0) = !(i % 2 == 0) := by
                rcases Nat.mod_two_eq_zero_or_one i with h | h <;> simp [Nat.add_mod, h]
              simp only [mergeSlots, List.getElem?_cons_succ, ih, hflip]
              cases hpar : (i % 2 == 0) <;> cases isMark <;> rfl

/-- A merge of clipped copies is one, exact wherever one of the two is. -/
theorem ClippedCopy.merge {frame o v : List UInt16} (ho : ClippedCopy frame o)
    (hv : ClippedCopy frame v) :
    ClippedCopy frame (mergeSlots true o v) ∧
      ∀ (i : Nat) (x : UInt16), frame[i]? = some x → o[i]? = some x ∨ v[i]? = some x →
        (mergeSlots true o v)[i]? = some x := by
  have hslot : ∀ (i : Nat) (y : UInt16), (mergeSlots true o v)[i]? = some y →
      ∃ a b, o[i]? = some a ∧ v[i]? = some b ∧ y = if i % 2 = 0 then max a b else min a b := by
    intro i y hy
    rw [mergeSlots_getElem?] at hy
    cases ha : o[i]? with
    | none => simp [ha] at hy
    | some a =>
        cases hb : v[i]? with
        | none => simp [ha, hb] at hy
        | some b =>
            refine ⟨a, b, rfl, rfl, ?_⟩
            simpa [ha, hb] using hy.symm
  refine ⟨⟨?_, ?_, ?_⟩, ?_⟩
  · rw [mergeSlots_length, ho.length, hv.length, Nat.min_self]
  · intro i x y hmark hx hy
    obtain ⟨a, b, ha, hb, rfl⟩ := hslot i y hy
    have hle := UInt16.le_iff_toNat_le.mp (ho.marks i x a hmark hx ha)
    have hle' := UInt16.le_iff_toNat_le.mp (hv.marks i x b hmark hx hb)
    rw [if_pos hmark, UInt16.le_iff_toNat_le, uint16_toNat_max]
    omega
  · intro i x y hspace hx hy
    obtain ⟨a, b, ha, hb, rfl⟩ := hslot i y hy
    have hle := UInt16.le_iff_toNat_le.mp (ho.spaces i x a hspace hx ha)
    have hle' := UInt16.le_iff_toNat_le.mp (hv.spaces i x b hspace hx hb)
    rw [if_neg (by omega), UInt16.le_iff_toNat_le, uint16_toNat_min]
    omega
  · intro i x hx hexact
    obtain ⟨hi, -⟩ := List.getElem?_eq_some_iff.mp hx
    obtain ⟨a, ha⟩ : ∃ a, o[i]? = some a := ⟨_, List.getElem?_eq_getElem (ho.length ▸ hi)⟩
    obtain ⟨b, hb⟩ : ∃ b, v[i]? = some b := ⟨_, List.getElem?_eq_getElem (hv.length ▸ hi)⟩
    rw [ha, hb, Option.some.injEq, Option.some.injEq] at hexact
    rw [mergeSlots_getElem?, ha, hb]
    simp only [beq_true, beq_iff_eq, Option.some.injEq]
    apply UInt16.toNat_inj.mp
    rcases Nat.mod_two_eq_zero_or_one i with hmark | hspace
    · have hle := UInt16.le_iff_toNat_le.mp (ho.marks i x a hmark hx ha)
      have hle' := UInt16.le_iff_toNat_le.mp (hv.marks i x b hmark hx hb)
      rw [if_pos hmark, uint16_toNat_max]
      rcases hexact with rfl | rfl <;> omega
    · have hle := UInt16.le_iff_toNat_le.mp (ho.spaces i x a hspace hx ha)
      have hle' := UInt16.le_iff_toNat_le.mp (hv.spaces i x b hspace hx hb)
      rw [if_neg (by omega), uint16_toNat_min]
      rcases hexact with rfl | rfl <;> omega

/-- What the merging loop holds after the pieces seen so far. -/
structure Merged (frame : List UInt16) (seen : List (List UInt16))
    (out : Option (List UInt16)) : Prop where
  none_yet : out = none → ∀ p ∈ seen, p.length ≠ frame.length
  copy : ∀ o, out = some o → ClippedCopy frame o
  exact : ∀ o, out = some o → ∀ (i : Nat) (x : UInt16), frame[i]? = some x →
    ∀ p ∈ seen, p.length = frame.length → p[i]? = some x → o[i]? = some x

theorem Range.Holds.frameBody_eq {input piece : List UInt16} {r : Range}
    (h : r.Holds input piece) {n : Nat} (hn : piece.length = n) : frameBody input r n = piece := by
  rw [← hn]
  exact h.body

theorem mergeStep_merged {input frame : List UInt16} {seen : List (List UInt16)}
    {out : Option (List UInt16)} (h : Merged frame seen out) {r : Range} {piece : List UInt16}
    (hholds : r.Holds input piece) (hcopy : piece.length = frame.length → ClippedCopy frame piece) :
    Merged frame (seen ++ [piece]) (mergeStep input frame.length frame.length out r) := by
  by_cases hlen : piece.length = frame.length
  · have hbody := hholds.frameBody_eq hlen
    cases out with
    | none =>
        -- the first copy met becomes the working frame
        have hstep : mergeStep input frame.length frame.length none r = some piece := by
          unfold mergeStep
          rw [if_neg (not_not.mpr (hholds.size.trans hlen)), hbody]
        rw [hstep]
        refine ⟨by simp, ?_, ?_⟩
        · rintro o ⟨rfl⟩
          exact hcopy hlen
        · rintro o ⟨rfl⟩ i x hx p hp hplen hexact
          rcases List.mem_append.mp hp with hseen | hlast
          · exact absurd hplen (h.none_yet rfl p hseen)
          · rwa [List.mem_singleton.mp hlast] at hexact
    | some o =>
        have hstep : mergeStep input frame.length frame.length (some o) r =
            some (mergeSlots true o piece) := by
          unfold mergeStep
          rw [if_neg (not_not.mpr (hholds.size.trans hlen)), hbody]
        obtain ⟨hmerged, hexacts⟩ := (h.copy o rfl).merge (hcopy hlen)
        rw [hstep]
        refine ⟨by simp, ?_, ?_⟩
        · rintro o' ⟨rfl⟩
          exact hmerged
        · rintro o' ⟨rfl⟩ i x hx p hp hplen hexact
          rcases List.mem_append.mp hp with hseen | hlast
          · exact hexacts i x hx (Or.inl (h.exact o rfl i x hx p hseen hplen hexact))
          · rw [List.mem_singleton.mp hlast] at hexact
            exact hexacts i x hx (Or.inr hexact)
  · have hstep : mergeStep input frame.length frame.length out r = out := by
      unfold mergeStep
      rw [if_pos (fun hsize => hlen (hholds.size.symm.trans hsize))]
    rw [hstep]
    refine ⟨?_, h.copy, ?_⟩
    · intro hnone p hp
      rcases List.mem_append.mp hp with hseen | hlast
      · exact h.none_yet hnone p hseen
      · rwa [List.mem_singleton.mp hlast]
    · intro o ho i x hx p hp hplen hexact
      rcases List.mem_append.mp hp with hseen | hlast
      · exact h.exact o ho i x hx p hseen hplen hexact
      · exact absurd (List.mem_singleton.mp hlast ▸ hplen) hlen

theorem mergeFold_merged {input frame : List UInt16} {frames : List Range}
    {pieces : List (List UInt16)} (hholds : List.Forall₂ (Range.Holds input) frames pieces)
    (hcopies : ∀ p ∈ pieces, p.length = frame.length → ClippedCopy frame p)
    {seen : List (List UInt16)} {out : Option (List UInt16)} (h : Merged frame seen out) :
    Merged frame (seen ++ pieces)
      (frames.foldl (mergeStep input frame.length frame.length) out) := by
  induction hholds generalizing seen out with
  | nil => simpa using h
  | @cons r piece rs ps hhead htail ih =>
      have hnext := ih (fun p hp => hcopies p (List.mem_cons_of_mem _ hp))
        (mergeStep_merged h hhead (hcopies piece List.mem_cons_self))
      simpa using hnext

/-- The loop over all the pieces ends on the frame itself. -/
theorem mergeFold_recovers {input frame : List UInt16} {frames : List Range}
    {pieces : List (List UInt16)} (hholds : List.Forall₂ (Range.Holds input) frames pieces)
    (hframe : frame ≠ [])
    (hcopies : ∀ p ∈ pieces, p.length = frame.length → ClippedCopy frame p)
    (hexact : ∀ (i : Nat) (x : UInt16), frame[i]? = some x →
      ∃ p ∈ pieces, p.length = frame.length ∧ p[i]? = some x) :
    frames.foldl (mergeStep input frame.length frame.length) none = some frame := by
  have hnone : Merged frame [] none := ⟨by simp, by simp, by simp⟩
  have hmerged := mergeFold_merged hholds hcopies hnone
  rw [List.nil_append] at hmerged
  cases hout : frames.foldl (mergeStep input frame.length frame.length) none with
  | none =>
      obtain ⟨x, hx⟩ : ∃ x, frame[0]? = some x :=
        ⟨_, List.getElem?_eq_getElem (List.length_pos_of_ne_nil hframe)⟩
      obtain ⟨p, hp, hlen, -⟩ := hexact 0 x hx
      exact absurd hlen (hmerged.none_yet hout p hp)
  | some o =>
      have hcopy := hmerged.copy o hout
      congr 1
      apply List.ext_getElem?
      intro i
      cases hi : frame[i]? with
      | none =>
          rw [List.getElem?_eq_none_iff] at hi ⊢
          rw [hcopy.length]
          exact hi
      | some x =>
          obtain ⟨p, hp, hlen, hslot⟩ := hexact i x hi
          exact hmerged.exact o hout i x hi p hp hlen hslot

/-- The running maximum is an upper bound, and is met when the list is not empty. -/
theorem foldl_max_spec (gaps : List UInt16) (start : UInt16) :
    (∀ g ∈ start :: gaps, g ≤ gaps.foldl max start) ∧ gaps.foldl max start ∈ start :: gaps := by
  induction gaps generalizing start with
  | nil =>
      refine ⟨?_, by simp⟩
      intro g hg
      rw [List.mem_singleton.mp hg]
      exact UInt16.le_refl _
  | cons a gaps ih =>
      obtain ⟨hbound, hmem⟩ := ih (max start a)
      have hmax := hbound (max start a) List.mem_cons_self
      rw [UInt16.le_iff_toNat_le, uint16_toNat_max] at hmax
      rw [List.foldl_cons]
      refine ⟨?_, ?_⟩
      · intro g hg
        rw [UInt16.le_iff_toNat_le]
        rcases List.mem_cons.mp hg with rfl | hg
        · omega
        · rcases List.mem_cons.mp hg with rfl | hg
          · omega
          · exact UInt16.le_iff_toNat_le.mp (hbound g (List.mem_cons_of_mem _ hg))
      · rcases List.mem_cons.mp hmem with heq | hlater
        · have hcase : max start a = start ∨ max start a = a := by
            by_cases hle : start ≤ a
            · exact Or.inr (if_pos hle)
            · exact Or.inl (if_neg hle)
          rw [heq]
          rcases hcase with h | h <;> rw [h] <;> simp
        · exact List.mem_cons_of_mem _ (List.mem_cons_of_mem _ hlater)

theorem length_le_joinPieces {first p : List UInt16} {rest : List (UInt16 × List UInt16)}
    (hp : p ∈ piecesOf first rest) : p.length ≤ (joinPieces first rest).length := by
  rcases List.mem_cons.mp hp with rfl | hp
  · simp [joinPieces]
  · obtain ⟨⟨gap, piece⟩, hmem, rfl⟩ := List.mem_map.mp hp
    have hsub : (gap :: piece).Sublist (rest.flatMap fun (gap, piece) => gap :: piece) :=
      List.sublist_flatten_of_mem (List.mem_map.mpr ⟨(gap, piece), hmem, rfl⟩)
    have := hsub.length_le
    simp only [joinPieces, List.length_append, List.length_cons] at this ⊢
    omega

/-- The commonest length among the pieces is the frame's. -/
theorem Recoverable.modalOf_ranges {frame first input : List UInt16}
    {rest : List (UInt16 × List UInt16)} (h : Recoverable frame first rest) {frames : List Range}
    (hholds : List.Forall₂ (Range.Holds input) frames (piecesOf first rest)) :
    modalOf frames = (frame.length, piecesOfLength (piecesOf first rest) frame.length) := by
  have hcount := frameCountOf_holds hholds
  rw [← hcount]
  apply modalFold_dominant
  · intro n hn
    rw [hcount, hcount]
    exact h.outnumber n hn
  · right
    have hpos : 0 < frameCountOf frames frame.length := by
      rw [hcount]
      exact Nat.lt_of_le_of_lt (Nat.zero_le _) (h.outnumber (frame.length + 1) (by omega))
    obtain ⟨r, hr, hsize⟩ := List.countP_pos_iff.mp hpos
    exact ⟨hpos, r, hr, by simpa using hsize⟩

/-- The whole call on a burst from which the frame can be recovered. -/
theorem declipBurst_joined {frame first : List UInt16} {rest : List (UInt16 × List UInt16)}
    (h : Recoverable frame first rest) {outCap : Nat}
    (hcap : (joinPieces first rest).length ≤ outCap) :
    declipBurst (joinPieces first rest) outCap =
      { out := frame
        resetGapUs := (rest.map Prod.fst).foldl max 0
        outFrames := UInt16.ofNat (piecesOfLength (piecesOf first rest) frame.length) } := by
  have hframe : frame ≠ [] := by
    rintro rfl
    exact absurd h.frame_odd (by simp)
  have hfirst : 0 < first.length := by
    have := h.pieces_odd first (by simp [piecesOf])
    omega
  have hholds : List.Forall₂ (Range.Holds (joinPieces first rest))
      (pieceRanges 0 first rest) (piecesOf first rest) := by
    simpa using pieceRanges_holds [] first rest
  have hmodal := h.modalOf_ranges hholds
  -- a copy of the frame fits the output
  have hlen : frame.length ≤ (joinPieces first rest).length := by
    obtain ⟨x, hx⟩ : ∃ x, frame[0]? = some x :=
      ⟨_, List.getElem?_eq_getElem (List.length_pos_of_ne_nil hframe)⟩
    obtain ⟨p, hp, hplen, -⟩ := h.exact 0 x hx
    rw [← hplen]
    exact length_le_joinPieces hp
  have hburst : joinPieces first rest ≠ [] := by
    intro hnil
    have : (joinPieces first rest).length = 0 := by rw [hnil, List.length_nil]
    simp only [joinPieces, List.length_append] at this
    omega
  have hpos := List.length_pos_of_ne_nil hframe
  have hmerge := mergeFold_recovers hholds hframe h.copies h.exact
  obtain ⟨r, r', rs, hranges⟩ : ∃ r r' rs, pieceRanges 0 first rest = r :: r' :: rs := by
    obtain ⟨⟨gap, piece⟩, tail, rfl⟩ := List.exists_cons_of_ne_nil h.joined
    cases tail with
    | nil => exact ⟨_, _, _, rfl⟩
    | cons _ _ => exact ⟨_, _, _, rfl⟩
  rw [hranges] at hmodal hmerge
  unfold declipBurst
  rw [if_neg (not_or.mpr ⟨by omega, hburst⟩), splitFrames_joined h, hranges]
  simp only [declipFrames, hmodal, Nat.min_eq_left (Nat.le_trans hlen hcap)]
  rw [if_neg (by omega), hmerge]

/-- The de-clipped frame is the true one, wherever the ragged pieces stand. -/
theorem declipBurst_recovers {frame first : List UInt16} {rest : List (UInt16 × List UInt16)}
    (h : Recoverable frame first rest) {outCap : Nat}
    (hcap : (joinPieces first rest).length ≤ outCap) :
    let d := declipBurst (joinPieces first rest) outCap
    d.out = frame ∧
      (d.resetGapUs ∈ rest.map Prod.fst ∧ ∀ g ∈ rest.map Prod.fst, g ≤ d.resetGapUs) ∧
      d.outFrames.toNat = piecesOfLength (piecesOf first rest) frame.length % 2 ^ 16 := by
  simp only
  rw [declipBurst_joined h hcap]
  obtain ⟨hbound, hmem⟩ := foldl_max_spec (rest.map Prod.fst) 0
  have hgaps : ∀ g ∈ rest.map Prod.fst, g ≤ (rest.map Prod.fst).foldl max 0 :=
    fun g hg => hbound g (List.mem_cons_of_mem _ hg)
  refine ⟨rfl, ⟨?_, hgaps⟩, by simp⟩
  rcases List.mem_cons.mp hmem with hzero | hfound
  · -- a joining gap is never zero
    obtain ⟨⟨gap, piece⟩, tail, rfl⟩ := List.exists_cons_of_ne_nil h.joined
    have hlong := h.gaps gap (by simp)
    have hle := UInt16.le_iff_toNat_le.mp (hgaps gap (by simp))
    rw [hzero] at hle
    unfold kResetGapMinUs at hlong
    simp at hle
    omega
  · exact hfound

/-- Two clipped copies with a ragged piece between them. -/
theorem declipBurst_recovers_two_copies :
    let frame : List UInt16 := [600, 500, 700]
    let first : List UInt16 := [600, 510, 650]
    let rest : List (UInt16 × List UInt16) := [(3000, [40]), (9000, [590, 500, 700])]
    let d := declipBurst (joinPieces first rest) 9
    d.out = frame ∧
      (d.resetGapUs ∈ rest.map Prod.fst ∧ ∀ g ∈ rest.map Prod.fst, g ≤ d.resetGapUs) ∧
      d.outFrames.toNat = piecesOfLength (piecesOf first rest) frame.length % 2 ^ 16 :=
  declipBurst_recovers
    { frame_odd := by decide
      frame_spaces := by decide
      pieces_odd := by decide
      pieces_spaces := by decide
      gaps := by simp [kResetGapMinUs]
      copies := by decide
      exact := by
        intro i x hx
        match i with
        | 0 => exact ⟨[600, 510, 650], by decide, rfl, hx⟩
        | 1 => exact ⟨[590, 500, 700], by decide, rfl, hx⟩
        | 2 => exact ⟨[590, 500, 700], by decide, rfl, hx⟩
        | i + 3 => simp at hx
      outnumber := by
        intro n hn
        rcases Decidable.em (n = 1) with rfl | hragged
        · decide
        · have hcopy : ¬3 = n := Ne.symm hn
          simp [piecesOf, piecesOfLength, hcopy, Ne.symm hragged]
      joined := by decide }
    (by decide)

/-- A one-mark frame, sent over and over, is recoverable from any number of copies. -/
theorem recoverable_replicate (k : Nat) :
    Recoverable [1] [1] (List.replicate (k + 1) (3000, [1])) ∧
      piecesOfLength (piecesOf [1] (List.replicate (k + 1) (3000, [1]))) 1 = k + 2 := by
  have hpieces : piecesOf [1] (List.replicate (k + 1) (3000, [1])) =
      List.replicate (k + 2) [1] := by
    rw [piecesOf, List.map_replicate, ← List.replicate_succ]
  have hpiece : ∀ p ∈ piecesOf [1] (List.replicate (k + 1) (3000, [1])), p = [1] := by
    rw [hpieces]
    exact fun p hp => List.eq_of_mem_replicate hp
  have hcount : ∀ n, piecesOfLength (piecesOf [1] (List.replicate (k + 1) (3000, [1]))) n =
      if n = 1 then k + 2 else 0 := by
    intro n
    rw [hpieces, piecesOfLength, List.countP_replicate, List.length_singleton]
    by_cases hn : n = 1
    · rw [hn, if_pos rfl]
      rfl
    · rw [if_neg hn, if_neg (by simpa using Ne.symm hn)]
  refine ⟨?_, by rw [hcount, if_pos rfl]⟩
  refine
    { frame_odd := rfl
      frame_spaces := by decide
      pieces_odd := ?_
      pieces_spaces := ?_
      gaps := ?_
      copies := ?_
      exact := fun i x hx => ⟨[1], by simp [piecesOf], rfl, hx⟩
      outnumber := ?_
      joined := by simp [List.replicate_succ] }
  · intro p hp
    rw [hpiece p hp]
    rfl
  · intro p hp
    rw [hpiece p hp]
    decide
  · intro g hg
    rw [List.map_replicate] at hg
    rw [List.eq_of_mem_replicate hg]
    decide
  · intro p hp _
    rw [hpiece p hp]
    decide
  · intro n hn
    rw [List.length_singleton] at hn ⊢
    rw [hcount, hcount, if_pos rfl, if_neg hn]
    exact Nat.succ_pos _

/-- The frame count is a `uint16_t`: 65536 copies are reported as none. -/
theorem declipBurst_count_wraps :
    ¬ ∀ (frame first : List UInt16) (rest : List (UInt16 × List UInt16)) (outCap : Nat),
      Recoverable frame first rest → (joinPieces first rest).length ≤ outCap →
      let d := declipBurst (joinPieces first rest) outCap
      d.out = frame ∧
        (d.resetGapUs ∈ rest.map Prod.fst ∧ ∀ g ∈ rest.map Prod.fst, g ≤ d.resetGapUs) ∧
        d.outFrames.toNat = piecesOfLength (piecesOf first rest) frame.length := by
  intro hclaim
  obtain ⟨hrecoverable, hcount⟩ := recoverable_replicate 65534
  obtain ⟨-, -, hframes⟩ := hclaim _ _ _ _ hrecoverable (Nat.le_refl _)
  rw [declipBurst_joined hrecoverable (Nat.le_refl _), List.length_singleton, hcount] at hframes
  exact absurd hframes (by decide)

end RfIrBlaster
