/-
Learn soundness: a capture rests on three matching bursts of its source, from two
presses when the source is RF.  The 16-bit press counter and the 64-bit clock are
tied to the presses and times of what was heard, as long as neither wraps.
-/
import Mathlib.Data.List.Chain
import RfIrBlaster.LearnLedger

namespace RfIrBlaster

namespace Learn

open LearnMachine (Event)

/-- `b` is the burst after `a`: it opens a new press exactly when it starts more
than `kPressGapMs` after `a` ended. -/
def Follows (a b : Heard) : Prop :=
  b.press = if b.start > a.fin + kPressGapMs then a.press + 1 else a.press

theorem Follows.press_le {a b : Heard} (h : Follows a b) : a.press ≤ b.press := by
  unfold Follows at h
  split_ifs at h <;> omega

/-- A press number moves only across a silence. -/
theorem Follows.start_of_press_ne {a b : Heard} (h : Follows a b)
    (hne : a.press ≠ b.press) : b.start > a.fin + kPressGapMs := by
  by_contra hsilence
  exact hne (h.trans (if_neg hsilence)).symm

/-- What `hear` builds: presses start at 1 and follow from burst to burst. -/
structure Numbered (H : List Heard) : Prop where
  first : ∀ h ∈ H.head?, h.press = 1
  chain : H.IsChain Follows

theorem Numbered.concat {H : List Heard} (h : Numbered H) {b : Heard}
    (hpress : b.press = pressAt H b.start) : Numbered (H ++ [b]) := by
  unfold pressAt at hpress
  cases hlast : H.getLast? with
  | none =>
      obtain rfl : H = [] := List.getLast?_eq_none_iff.mp hlast
      exact ⟨by simpa using hpress, List.isChain_singleton b⟩
  | some last =>
      rw [hlast] at hpress
      have hne : H ≠ [] := by
        rintro rfl
        cases hlast
      refine ⟨?_, ?_⟩
      · rw [List.head?_append_of_ne_nil _ hne]
        exact h.first
      · rw [List.isChain_append]
        refine ⟨h.chain, List.isChain_singleton b, ?_⟩
        intro x hx y hy
        rw [hlast, Option.mem_some_iff] at hx
        rw [List.head?_cons, Option.mem_some_iff] at hy
        rw [← hx, ← hy]
        exact hpress

theorem Numbered.pairwise {H : List Heard} (h : Numbered H) :
    H.Pairwise (fun a b => a.press ≤ b.press) :=
  (h.chain.imp fun _ _ hab => hab.press_le).pairwise

theorem Numbered.press_pos {H : List Heard} (h : Numbered H) {b : Heard} (hb : b ∈ H) :
    1 ≤ b.press := by
  cases H with
  | nil => cases hb
  | cons a rest =>
      have hfirst : a.press = 1 := h.first a rfl
      rcases List.mem_cons.mp hb with rfl | hmem
      · omega
      · have := List.rel_of_pairwise_cons h.pairwise hmem
        omega

/-- Two members of different presses lie on the two sides of a silence: the
history splits where the press of the later one begins. -/
theorem Numbered.separated {H : List Heard} (h : Numbered H) {members : List Heard}
    (hsub : members.Sublist H) {a b : Heard} (ha : a ∈ members) (hb : b ∈ members)
    (hlt : a.press < b.press) :
    ∃ before x y after early late, H = before ++ x :: y :: after ∧
      y.start > x.fin + kPressGapMs ∧ members = early ++ late ∧
      early.Sublist (before ++ [x]) ∧ late.Sublist (y :: after) ∧
      early ≠ [] ∧ late ≠ [] := by
  let old : Heard → Bool := fun g => decide (g.press < b.press)
  have hsplit : H = H.takeWhile old ++ H.dropWhile old := List.takeWhile_append_dropWhile.symm
  have hold : ∀ g ∈ H.takeWhile old, g.press < b.press := by
    intro g hg
    have hall := List.all_eq_true.mp (List.all_takeWhile (l := H)) g hg
    simpa [old] using hall
  have hpair := h.pairwise
  have hchain := h.chain
  rw [hsplit] at hpair hchain hsub
  obtain ⟨early, late, hmembers, hearly, hlate⟩ := List.sublist_append_iff.mp hsub
  cases hnew : H.dropWhile old with
  | nil =>
      rw [hnew, List.append_nil] at hsub
      exact absurd (hold b (hsub.subset hb)) (lt_irrefl _)
  | cons y after =>
      rw [hnew] at hpair hchain hlate
      have hy : b.press ≤ y.press := by
        have hne : H.dropWhile old ≠ [] := by simp [hnew]
        have hhead := List.head_dropWhile_not old hne
        simpa [hnew, old] using hhead
      have hlater : ∀ g ∈ y :: after, b.press ≤ g.press := by
        intro g hg
        rcases List.mem_cons.mp hg with rfl | hg
        · exact hy
        · have := List.rel_of_pairwise_cons (List.pairwise_append.mp hpair).2.1 hg
          omega
      have ha_early : a ∈ early := by
        rcases List.mem_append.mp (hmembers ▸ ha) with hmem | hmem
        · exact hmem
        · have := hlater a (hlate.subset hmem)
          omega
      have hb_late : b ∈ late := by
        rcases List.mem_append.mp (hmembers ▸ hb) with hmem | hmem
        · exact absurd (hold b (hearly.subset hmem)) (lt_irrefl _)
        · exact hmem
      have hne : H.takeWhile old ≠ [] := List.ne_nil_of_mem (hearly.subset ha_early)
      obtain ⟨before, x, hbefore⟩ := List.eq_nil_or_concat'
        (H.takeWhile old) |>.resolve_left hne
      rw [hbefore] at hchain hearly hold
      have hx : x.press < b.press := hold x (by simp)
      have hfollows : Follows x y := by
        have := (List.isChain_append.mp hchain).2.2 x (by simp) y (by simp)
        exact this
      refine ⟨before, x, y, after, early, late, ?_, ?_, hmembers, hearly, hlate,
        List.ne_nil_of_mem ha_early, List.ne_nil_of_mem hb_late⟩
      · rw [hsplit, hnew, hbefore]
        simp
      · exact hfollows.start_of_press_ne (by omega)

/-- Neither the press counter nor the clock wraps. -/
def Unwrapped (H : List Heard) : Prop :=
  ∀ h ∈ H, h.fin < 2 ^ 63 ∧ h.press < 65536

/-- The track's press fields describe the last burst heard. -/
def Track.Remembers (t : Track) (H : List Heard) : Prop :=
  match H.getLast? with
  | none => t.sawBurst = false ∧ t.curGroup = 0
  | some last => t.sawBurst = true ∧ t.lastEnd = last.fin ∧ t.curGroup = last.press

/-- What a cluster knows of its members' presses. -/
structure PressRecord (c : Cluster) (ev : Evidence) : Prop where
  last : ∃ h ∈ ev.members.getLast?, h.press = c.lastGroup
  spread : kRfPressesNeeded ≤ c.groupCount →
    ∃ a ∈ ev.members, ∃ b ∈ ev.members, a.press ≠ b.press

structure Track.Pressed (t : Track) (H : List Heard) (L : List Evidence) : Prop where
  remembers : t.Remembers H
  rows : List.Forall₂ PressRecord t.clusters L

/-- A burst advances the press counter as `pressAt` says. -/
theorem arrive_curGroup {t : Track} {H : List Heard} (h : t.Remembers H)
    (hbound : Unwrapped H) {start : Nat} (hpress : pressAt H start < 65536) :
    (t.arrive start).curGroup = pressAt H start := by
  have hgroup : (t.arrive start).curGroup =
      if t.opensGroup start then (t.curGroup + 1) % 65536 else t.curGroup := by
    rcases t.arrive_cases start with
      ⟨hopen, heq⟩ | ⟨hopen, -, heq⟩ | ⟨hopen, i, us, -, heq⟩ <;> simp [heq, hopen]
  rw [hgroup]
  unfold Track.Remembers at h
  unfold pressAt at hpress ⊢
  cases hlast : H.getLast? with
  | none =>
      simp only [hlast] at h
      simp [Track.opensGroup, h.1, h.2]
  | some last =>
      simp only [hlast] at h hpress ⊢
      obtain ⟨hsaw, hend, hcur⟩ := h
      have hfin := (hbound last (List.mem_of_getLast? hlast)).1
      have hopens : t.opensGroup start = decide (start > last.fin + kPressGapMs) := by
        have hclock : (last.fin + kPressGapMs) % 2 ^ 64 = last.fin + kPressGapMs := by
          simp only [kPressGapMs]
          omega
        simp only [Track.opensGroup, hsaw, Bool.not_true, Bool.false_or, hend, hclock]
      rw [hopens, hcur]
      by_cases hsilence : start > last.fin + kPressGapMs
      · simp only [hsilence, decide_true, if_true] at hpress ⊢
        omega
      · simp only [hsilence, decide_false, if_false, Bool.false_eq_true]

/-- Counting a burst of press `g` keeps the press record. -/
theorem PressRecord.countBurst {c : Cluster} {ev : Evidence} (h : PressRecord c ev)
    (b : Heard) :
    PressRecord (c.countBurst b.frame b.carrierHz b.press) (ev.addMember b) := by
  obtain ⟨prev, hprev, hgroup⟩ := h.last
  have hmem : prev ∈ ev.members := List.mem_of_getLast? hprev
  have hkept : (c.addMember b.frame b.carrierHz).lastGroup = c.lastGroup ∧
      (c.addMember b.frame b.carrierHz).groupCount = c.groupCount := by
    unfold Cluster.addMember
    split_ifs <;> exact ⟨rfl, rfl⟩
  have hlast : ∃ h ∈ (ev.addMember b).members.getLast?, h.press = b.press :=
    ⟨b, by simp [Evidence.addMember], rfl⟩
  unfold Cluster.countBurst Cluster.seenIn
  rw [hkept.1]
  by_cases hnew : c.lastGroup ≠ b.press
  · rw [if_pos hnew]
    refine ⟨hlast, fun _ => ?_⟩
    refine ⟨prev, List.mem_append_left _ hmem, b, by simp [Evidence.addMember], ?_⟩
    rw [hgroup]
    exact hnew
  · rw [if_neg hnew]
    refine ⟨?_, ?_⟩
    · rw [hkept.1, not_not.mp hnew]
      exact hlast
    · rw [hkept.2]
      intro hcount
      obtain ⟨x, hx, y, hy, hne⟩ := h.spread hcount
      exact ⟨x, List.mem_append_left _ hx, y, List.mem_append_left _ hy, hne⟩

/-- A cluster opened in press `g` has been seen in one press. -/
theorem PressRecord.start {b : Heard} (hpos : 1 ≤ b.press) :
    PressRecord ((Cluster.start b.frame).countBurst b.frame b.carrierHz b.press)
      (Evidence.addMember b {}) := by
  have hopen : (Cluster.start b.frame).countBurst b.frame b.carrierHz b.press =
      { (Cluster.start b.frame).addMember b.frame b.carrierHz with
        lastGroup := b.press, groupCount := 1 } := by
    have hnew : ((Cluster.start b.frame).addMember b.frame b.carrierHz).lastGroup ≠ b.press := by
      change 0 ≠ b.press
      omega
    exact if_pos hnew
  rw [hopen]
  refine ⟨⟨b, rfl, rfl⟩, ?_⟩
  intro hcount
  change 2 ≤ 1 at hcount
  omega

theorem Unwrapped.of_append {H H' : List Heard} (h : Unwrapped (H ++ H')) : Unwrapped H :=
  fun b hb => h b (List.mem_append_left _ hb)

/-- Feeding a track keeps its press bookkeeping true. -/
theorem feed_pressed {src : Source} {t : Track} {H : List Heard} {L : List Evidence}
    (h : t.Pressed H L) (pulses : List UInt16) (carrierHz : UInt16) (now : UInt64)
    (hnum : Numbered (H ++ [Heard.ofBurst src H pulses carrierHz now]))
    (hbound : Unwrapped (H ++ [Heard.ofBurst src H pulses carrierHz now])) :
    (t.feed src pulses carrierHz now).Pressed
      (H ++ [Heard.ofBurst src H pulses carrierHz now])
      (t.log src (Heard.ofBurst src H pulses carrierHz now) L) := by
  let b := Heard.ofBurst src H pulses carrierHz now
  have hmem : b ∈ H ++ [b] := by simp
  have hgroup : (t.arrive b.start).curGroup = b.press :=
    arrive_curGroup h.remembers hbound.of_append (hbound b hmem).2
  refine ⟨?_, ?_⟩
  · have hentered : (t.enter src pulses now).curGroup = b.press :=
      (noteDeclip_curGroup _ _).trans hgroup
    unfold Track.Remembers
    rw [List.getLast?_append_of_ne_nil _ (by simp), List.getLast?_singleton]
    by_cases hformed : wellFormed src b.frame b.carrierHz = true
    · rw [t.feed_formed carrierHz now hformed]
      exact ⟨rfl, rfl, (assign_curGroup _ _ carrierHz).trans hentered⟩
    · rw [t.feed_malformed carrierHz now hformed]
      exact ⟨rfl, rfl, hentered⟩
  · apply feed_rows h.rows pulses carrierHz now
    · exact fun _ _ hrow => hrow
    · exact fun c ev us hrow _ _ => ⟨hrow.last, hrow.spread⟩
    · rintro _ rfl _
      rw [hgroup]
      exact ⟨fun c ev hrow _ => hrow.countBurst b, PressRecord.start (hnum.press_pos hmem)⟩

/-- At a capture the winner's press record is true of its evidence. -/
theorem Entry.pressed {events : List Event} {src : Source} {pulses : List UInt16}
    {carrierHz : UInt16} {now : UInt64} {t : Track} {c : Cluster}
    (h : Entry events src pulses carrierHz now t c)
    (hbound : Unwrapped (heard src (events ++ [Event.feedBurst src pulses carrierHz now]))) :
    Numbered (heard src (events ++ [Event.feedBurst src pulses carrierHz now])) ∧
      List.Forall₂ PressRecord t.clusters
        (ledger (events ++ [Event.feedBurst src pulses carrierHz now]) src) := by
  have hholds := h.holds (I := fun _ t H L => Numbered H ∧ (Unwrapped H → t.Pressed H L))
    (fun _ => ⟨⟨by simp, List.isChain_nil⟩, fun _ => ⟨⟨rfl, rfl⟩, .nil⟩⟩)
    (fun src t H L pulses carrierHz now _ hI => by
      have hnum : Numbered (H ++ [Heard.ofBurst src H pulses carrierHz now]) :=
        hI.1.concat rfl
      exact ⟨hnum, fun hb => feed_pressed (hI.2 hb.of_append) pulses carrierHz now hnum hb⟩)
  exact ⟨hholds.1, (hholds.2 hbound).rows⟩

/-- What a capture of `code` on `src` promises of the bursts heard: `matched` are
the members of the captured cluster, `reference` its reference burst. -/
structure Sound (src : Source) (H : List Heard) (code : StoredCode)
    (reference : List UInt16) (matched : List Heard) : Prop where
  kind : code.kind = .rf ↔ src ≠ .ir
  heard : matched.Sublist H
  enough : kMatchesNeeded ≤ matched.length
  formed : ∀ h ∈ matched, wellFormed src h.frame h.carrierHz = true
  alike : ∀ h ∈ matched, burstsMatch reference h.frame = true
  member : ∃ h ∈ matched, h.frame = reference
  presses : src ≠ .ir → ∃ before x y after early late, H = before ++ x :: y :: after ∧
    y.start > x.fin + kPressGapMs ∧ matched = early ++ late ∧
    early.Sublist (before ++ [x]) ∧ late.Sublist (y :: after) ∧ early ≠ [] ∧ late ≠ []
  repeated : src ≠ .ir → ∃ a ∈ H, ∃ b ∈ H, a.press ≠ b.press ∧
    burstsMatch a.frame b.frame = true
  mean : ∀ i < reference.length, ∃ p, code.pulses[i]? = some p ∧
    p.toNat = (((matched.take kMaxClusterMembers).map (Heard.entry i)).sum +
      (matched.take kMaxClusterMembers).length / 2) / (matched.take kMaxClusterMembers).length ∧
    (∃ h ∈ matched.take kMaxClusterMembers, h.entry i ≤ p.toNat) ∧
    ∃ h ∈ matched.take kMaxClusterMembers, p.toNat ≤ h.entry i

/-- A stored entry below the reference's length is the mean of that entry. -/
theorem captureCode_getElem? (src : Source) (t : Track) {c : Cluster} {i : Nat}
    {p : UInt16} (hp : c.meanFrame[i]? = some p) :
    (captureCode src t c).pulses[i]? = some p := by
  obtain ⟨hi, -⟩ := List.getElem?_eq_some_iff.mp hp
  by_cases hir : src = .ir
  · simp only [captureCode, if_pos hir]
    by_cases hodd : c.repr.length % 2 ≠ 0
    · rw [if_pos hodd, List.getElem?_append_left hi]
      exact hp
    · rw [if_neg hodd]
      exact hp
  · simp only [captureCode, if_neg hir]
    rw [List.getElem?_append_left hi]
    exact hp

/-- Members of two presses that match one reference, itself a member, hold two
matching bursts of different presses. -/
theorem two_presses_match {reference : List UInt16} {members : List Heard}
    (hreference : ∃ h ∈ members, h.frame = reference)
    (hmatches : ∀ h ∈ members, burstsMatch reference h.frame = true)
    {x y : Heard} (hx : x ∈ members) (hy : y ∈ members) (hne : x.press ≠ y.press) :
    ∃ a ∈ members, ∃ b ∈ members, a.press ≠ b.press ∧
      burstsMatch a.frame b.frame = true := by
  obtain ⟨r, hr, hrepr⟩ := hreference
  by_cases hrx : r.press = x.press
  · refine ⟨r, hr, y, hy, hrx ▸ hne, ?_⟩
    rw [hrepr]
    exact hmatches y hy
  · refine ⟨r, hr, x, hx, hrx, ?_⟩
    rw [hrepr]
    exact hmatches x hx

/-- Learn soundness: whenever the machine enters `captured`, the capturing source
heard the evidence `Sound` asks for since the last `begin`. -/
theorem capture_sound (events : List Event) (e : Event)
    (hbound : ∀ src, Unwrapped (heard src (events ++ [e])))
    (hbefore : (LearnMachine.run events).state ≠ .captured)
    (hafter : (LearnMachine.run (events ++ [e])).state = .captured) :
    ∃ src pulses carrierHz now, e = .feedBurst src pulses carrierHz now ∧
      ∃ reference matched, Sound src (heard src (events ++ [e]))
        (LearnMachine.run (events ++ [e])).code reference matched := by
  obtain ⟨src, pulses, carrierHz, now, t, c, rfl, hentry⟩ := captured_entry hbefore hafter
  refine ⟨src, pulses, carrierHz, now, rfl, ?_⟩
  obtain ⟨i, ev, hc, hev, hexplains⟩ := hentry.explains
  obtain ⟨hnum, hrows⟩ := hentry.pressed (hbound src)
  obtain ⟨-, henough, hpresses⟩ := hentry.won
  obtain ⟨ev', hev', hrecord⟩ := PairedTables.forall₂_getElem? hrows hc
  obtain rfl : ev = ev' := Option.some.inj (hev.symm.trans hev')
  have hreference : ∃ h ∈ ev.members, h.frame = c.repr := by
    obtain ⟨h, hhead, hrepr⟩ := hexplains.first
    exact ⟨h, List.mem_of_mem_head? hhead, hrepr⟩
  have hspread : src ≠ .ir → ∃ x ∈ ev.members, ∃ y ∈ ev.members, x.press ≠ y.press :=
    fun hrf => hrecord.spread (hpresses.resolve_left hrf)
  have hpositive : 0 < c.count := Nat.lt_of_lt_of_le (by decide) henough
  have hcounted : ev.counted ≠ [] := by
    rw [hexplains.count] at hpositive
    exact List.ne_nil_of_length_pos hpositive
  refine ⟨c.repr, ev.members,
    { kind := ?_, heard := hexplains.sublist, enough := ?_, formed := hexplains.formed,
      alike := hexplains.matched, member := hreference, presses := ?_,
      repeated := ?_, mean := ?_ }⟩
  · rw [hentry.code]
    unfold captureCode
    by_cases hir : src = .ir <;> simp [hir]
  · rw [hexplains.count] at henough
    exact henough.trans ev.counted_sublist.length_le
  · intro hrf
    obtain ⟨x, hx, y, hy, hne⟩ := hspread hrf
    rcases Nat.lt_or_gt_of_ne hne with hlt | hgt
    · exact hnum.separated hexplains.sublist hx hy hlt
    · exact hnum.separated hexplains.sublist hy hx hgt
  · intro hrf
    obtain ⟨x, hx, y, hy, hne⟩ := hspread hrf
    obtain ⟨a, ha, b, hb, hab⟩ := two_presses_match hreference hexplains.matched hx hy hne
    exact ⟨a, hexplains.sublist.subset ha, b, hexplains.sublist.subset hb, hab⟩
  · intro j hj
    obtain ⟨p, hp, hmean⟩ := hexplains.meanFrame_getElem? hpositive hj
    have hentries : ev.counted.map (Heard.entry j) ≠ [] := by simpa using hcounted
    have hattained := PairedTables.mean_attained hentries
    refine ⟨p, ?_, hmean, ?_, ?_⟩
    · rw [hentry.code]
      exact captureCode_getElem? src t hp
    · obtain ⟨x, hx, hle⟩ := hattained.1
      obtain ⟨h, hh, rfl⟩ := List.mem_map.mp hx
      rw [List.length_map, ← hmean] at hle
      exact ⟨h, hh, hle⟩
    · obtain ⟨x, hx, hle⟩ := hattained.2
      obtain ⟨h, hh, rfl⟩ := List.mem_map.mp hx
      rw [List.length_map, ← hmean] at hle
      exact ⟨h, hh, hle⟩

/-- A burst of seventeen 400 us entries. -/
def steadyBurst : List UInt16 :=
  List.replicate 17 400

/-- Three presses of one fixed code: the third is captured. -/
theorem capture_sound_three_presses :
    (LearnMachine.run (([.begin 0, .feedBurst .rf433 steadyBurst 0 1000,
      .feedBurst .rf433 steadyBurst 0 2000] : List Event) ++
      [Event.feedBurst .rf433 steadyBurst 0 3000])).state = .captured ∧
    ∃ src pulses carrierHz now,
      Event.feedBurst .rf433 steadyBurst 0 3000 = .feedBurst src pulses carrierHz now ∧
      ∃ reference matched, Sound src
        (heard src (([.begin 0, .feedBurst .rf433 steadyBurst 0 1000,
          .feedBurst .rf433 steadyBurst 0 2000] : List Event) ++
          [Event.feedBurst .rf433 steadyBurst 0 3000]))
        (LearnMachine.run (([.begin 0, .feedBurst .rf433 steadyBurst 0 1000,
          .feedBurst .rf433 steadyBurst 0 2000] : List Event) ++
          [Event.feedBurst .rf433 steadyBurst 0 3000])).code reference matched := by
  have hcaptured : (LearnMachine.run (([.begin 0, .feedBurst .rf433 steadyBurst 0 1000,
      .feedBurst .rf433 steadyBurst 0 2000] : List Event) ++
      [Event.feedBurst .rf433 steadyBurst 0 3000])).state = .captured := by
    decide +kernel
  refine ⟨hcaptured, capture_sound _ _ ?_ ?_ hcaptured⟩
  · intro src
    cases src <;> unfold Unwrapped <;> decide +kernel
  · decide +kernel

end Learn

end RfIrBlaster
