/-
Which slot `allocate` gives up: a free one, else the oldest that is not locked, and a
locked one only when all sixteen are.  So no spray of fresh keys ends a lockout early.
-/
import RfIrBlaster.LoginThrottle

namespace RfIrBlaster.Runtime

namespace LoginThrottle

/-- A slot that can be given up without ending a lockout. -/
def Spare (now : UInt32) (e : Entry) : Prop :=
  e.used = false ∨ e.isLocked now = false

/-- Every slot is used and locked. -/
def AllLocked (now : UInt32) (entries : List Entry) : Prop :=
  ∀ e ∈ entries, e.used = true ∧ e.isLocked now = true

/-- What the loop of `allocate` knows after the slots of `front`, all of them used. -/
structure Scanned (now : UInt32) (front : List Entry)
    (oldestUnlocked oldestAny : Option (Nat × UInt32)) : Prop where
  unlocked : ∀ b ∈ oldestUnlocked, ∃ e, front[b.1]? = some e ∧ e.isLocked now = false
  locked : oldestUnlocked = none → AllLocked now front
  any : ∀ b ∈ oldestAny, ∃ e, front[b.1]? = some e

theorem AllLocked.concat {now : UInt32} {front : List Entry} {e : Entry}
    (h : AllLocked now front) (hused : e.used = true) (hlocked : e.isLocked now = true) :
    AllLocked now (front ++ [e]) := by
  intro e' he'
  rcases List.mem_append.mp he' with hold | hnew
  · exact h e' hold
  · rw [List.mem_singleton.mp hnew]
    exact ⟨hused, hlocked⟩

theorem getElem?_concat_of_some {front : List Entry} {e e' : Entry} {i : Nat}
    (h : front[i]? = some e) : (front ++ [e'])[i]? = some e := by
  obtain ⟨hi, -⟩ := List.getElem?_eq_some_iff.mp h
  rw [List.getElem?_append_left hi]
  exact h

/-- One more used slot. -/
theorem Scanned.concat {now : UInt32} {front : List Entry} {e : Entry}
    {oldestUnlocked oldestAny : Option (Nat × UInt32)}
    (h : Scanned now front oldestUnlocked oldestAny)
    (hused : e.used = true) (unlocked' any' : Prop) [Decidable unlocked'] [Decidable any']
    (hunlocked : unlocked' → e.isLocked now = false)
    (hfirst : oldestUnlocked = none → e.isLocked now = false → unlocked') :
    Scanned now (front ++ [e])
      (if unlocked' then some (front.length, e.lastSeenMs) else oldestUnlocked)
      (if any' then some (front.length, e.lastSeenMs) else oldestAny) where
  unlocked := by
    intro b hb
    by_cases hnew : unlocked'
    · rw [if_pos hnew] at hb
      obtain rfl := Option.some.inj hb
      exact ⟨e, List.getElem?_concat_length, hunlocked hnew⟩
    · rw [if_neg hnew] at hb
      obtain ⟨e', he', hfree⟩ := h.unlocked b hb
      exact ⟨e', getElem?_concat_of_some he', hfree⟩
  locked := by
    intro hnone
    by_cases hnew : unlocked'
    · rw [if_pos hnew] at hnone
      cases hnone
    · rw [if_neg hnew] at hnone
      apply (h.locked hnone).concat hused
      cases hlocked : e.isLocked now with
      | true => rfl
      | false => exact absurd (hfirst hnone hlocked) hnew
  any := by
    intro b hb
    by_cases hnew : any'
    · rw [if_pos hnew] at hb
      obtain rfl := Option.some.inj hb
      exact ⟨e, List.getElem?_concat_length⟩
    · rw [if_neg hnew] at hb
      obtain ⟨e', he'⟩ := h.any b hb
      exact ⟨e', getElem?_concat_of_some he'⟩

/-- The slot the scan ends on is spare, or every slot is locked. -/
theorem allocateScan_victim {now : UInt32} {rest front : List Entry}
    {oldestUnlocked oldestAny : Option (Nat × UInt32)} {i : Nat}
    (h : Scanned now front oldestUnlocked oldestAny)
    (hscan : allocateScan now rest front.length oldestUnlocked oldestAny = some i) :
    ∃ e, (front ++ rest)[i]? = some e ∧ (Spare now e ∨ AllLocked now (front ++ rest)) := by
  induction rest generalizing front oldestUnlocked oldestAny with
  | nil =>
      rw [allocateScan, Option.map_eq_some_iff] at hscan
      obtain ⟨b, hb, rfl⟩ := hscan
      rw [List.append_nil]
      cases hold : oldestUnlocked with
      | some free =>
          rw [hold, Option.some_or] at hb
          obtain rfl := Option.some.inj hb
          obtain ⟨e, he, hfree⟩ := h.unlocked free hold
          exact ⟨e, he, Or.inl (Or.inr hfree)⟩
      | none =>
          rw [hold, Option.none_or] at hb
          obtain ⟨e, he⟩ := h.any b hb
          exact ⟨e, he, Or.inr (h.locked hold)⟩
  | cons e rest ih =>
      rw [allocateScan] at hscan
      cases hused : e.used with
      | false =>
          rw [hused] at hscan
          obtain rfl := Option.some.inj hscan
          exact ⟨e, by simp, Or.inl (Or.inl hused)⟩
      | true =>
          simp only [hused, Bool.not_true, Bool.false_eq_true, if_false] at hscan
          have hnext : front.length + 1 = (front ++ [e]).length := by simp
          rw [hnext] at hscan
          rw [← List.singleton_append, ← List.append_assoc]
          refine ih (h.concat hused _ _ ?_ ?_) hscan
          · intro hnew
            rw [Entry.isLocked_eq]
            exact decide_eq_false hnew.1
          · rintro rfl hfree
            rw [Entry.isLocked_eq] at hfree
            exact ⟨of_decide_eq_false hfree, rfl⟩

/-- The scan ends on a slot unless there is none. -/
theorem allocateScan_isSome {now : UInt32} {rest : List Entry} {i : Nat}
    {oldestUnlocked oldestAny : Option (Nat × UInt32)}
    (h : rest ≠ [] ∨ oldestAny.isSome = true) :
    (allocateScan now rest i oldestUnlocked oldestAny).isSome = true := by
  induction rest generalizing i oldestUnlocked oldestAny with
  | nil =>
      rw [allocateScan, Option.isSome_map, Option.isSome_or]
      simp [h.resolve_left fun hne => hne rfl]
  | cons e rest ih =>
      rw [allocateScan]
      cases e.used with
      | false => rfl
      | true =>
          simp only [Bool.not_true, Bool.false_eq_true, if_false]
          apply ih
          right
          cases oldestAny with
          | none => rfl
          | some best => split_ifs <;> rfl

/-- The slot `allocate` gives up is spare, or every slot is locked. -/
theorem allocate_victim (t : LoginThrottle) (k now : UInt32) :
    ∃ e, t.entries[(t.allocate k now).1]? = some e ∧
      (Spare now e ∨ AllLocked now t.entries) := by
  have hstart : Scanned now [] none none :=
    ⟨by simp, fun _ e he => absurd he List.not_mem_nil, by simp⟩
  have hslots : t.entries ≠ [] := by
    intro hnil
    have hsize := t.size
    rw [hnil] at hsize
    cases hsize
  have hfound : (allocateScan now t.entries 0 none none).isSome = true :=
    allocateScan_isSome (Or.inl hslots)
  obtain ⟨i, hi⟩ := Option.isSome_iff_exists.mp hfound
  have hslot : (t.allocate k now).1 = i := by simp [allocate, hi]
  rw [hslot]
  have hvictim := allocateScan_victim hstart hi
  rw [List.nil_append] at hvictim
  exact hvictim

/-- A failure of another key that has to allocate finds a spare slot. -/
def SpareSlot (t : LoginThrottle) (op : ThrottleOp) : Prop :=
  ∀ k now, op = .recordFailure k now → t.find k = none → ∃ e ∈ t.entries, Spare now e

/-- An operation on another key leaves the entry of a locked key. -/
theorem step_keeps_locked {t : LoginThrottle} {op : ThrottleOp} {k : UInt32} {e : Entry}
    (he : t.entryOf k = some e) (hkey : op.clientKey ≠ k) (hlocked : e.isLocked op.now = true)
    (hspare : t.SpareSlot op) : (t.step op).entryOf k = some e := by
  have hused : e.used = true := by
    have hheld := List.find?_some he
    simp only [Bool.and_eq_true] at hheld
    exact hheld.1
  cases op with
  | isLocked k' now => exact he
  | timeRemainingMs k' now => exact he
  | recordFailure k' now =>
      simp only [step, recordFailure]
      cases hfind : t.find k' with
      | some slot =>
          rw [find_eq_slotOf] at hfind
          rw [entryOf_eq_lookup] at he ⊢
          have hkept := SlotTable.lookup_modify_slotOf hfind
            (fun a ha => (Entry.held_fail a now).trans ha) k
          exact hkept.trans ((if_neg (Ne.symm hkey)).trans he)
      | none =>
          obtain ⟨victim, hvictim, hgiven⟩ := t.allocate_victim k' now
          have hother : victim ≠ e := by
            rintro rfl
            rcases hgiven with (hfree | hexpired) | hall
            · exact absurd (hfree.symm.trans hused) Bool.false_ne_true
            · exact absurd (hexpired.symm.trans hlocked) Bool.false_ne_true
            · obtain ⟨e', he', hspare'⟩ := hspare k' now rfl hfind
              obtain ⟨hused', hlocked'⟩ := hall e' he'
              rcases hspare' with hfree | hexpired
              · exact absurd (hfree.symm.trans hused') Bool.false_ne_true
              · exact absurd (hexpired.symm.trans hlocked') Bool.false_ne_true
          have hnew : ((Entry.fresh k' now).fail now).held ≠ some k := by
            rw [Entry.held_fail]
            exact fun heq => hkey (Option.some.inj heq)
          rw [entryOf_eq_lookup] at he ⊢
          have hreplaced := SlotTable.lookup_replace he hvictim hother hnew
          simp only [allocate, modify_modify]
          exact hreplaced
  | recordSuccess k' now =>
      simp only [step, recordSuccess]
      cases hfind : t.find k' with
      | some slot =>
          rw [find_eq_slotOf] at hfind
          rw [entryOf_eq_lookup] at he ⊢
          have hkept := SlotTable.lookup_modify_slotOf hfind
            (fun a ha => (Entry.held_succeed a now).trans ha) k
          exact hkept.trans ((if_neg (Ne.symm hkey)).trans he)
      | none => exact he

/-- Operations one after the other, from any table. -/
def running (start : LoginThrottle) : StateMachine LoginThrottle ThrottleOp where
  init := start
  step := step

/-- Operations on other keys, all before the lockout of `k` ends. -/
theorem run_keeps_locked {start : LoginThrottle} {k : UInt32} {e : Entry}
    (he : start.entryOf k = some e) (ops : List ThrottleOp)
    (hkeys : ∀ op ∈ ops, op.clientKey ≠ k) (hlocked : ∀ op ∈ ops, e.isLocked op.now = true)
    (hspare : (running start).Guarded SpareSlot ops) :
    ((running start).run ops).entryOf k = some e := by
  refine (running start).guarded_run_induction
    (P := fun ops t => (∀ op ∈ ops, op.clientKey ≠ k ∧ e.isLocked op.now = true) →
      t.entryOf k = some e) (fun _ => he) ?_ ops hspare
    fun op hop => ⟨hkeys op hop, hlocked op hop⟩
  intro pre op hroom ih hall
  have hpre := ih fun op' hop' => hall op' (List.mem_append_left _ hop')
  obtain ⟨hkey, hnow⟩ := hall op (List.mem_append_right _ (List.mem_singleton.mpr rfl))
  exact step_keeps_locked hpre hkey hnow hroom

end LoginThrottle

open LoginThrottle in
/-- From any table, operations on other keys leave a lockout of `k` in force up to its
end, as long as every failure that allocates finds a spare slot; and a locked slot is
given up only when all sixteen are locked. -/
theorem lockout_survives_spray (start : LoginThrottle) (k now : UInt32)
    (hlocked : start.isLocked k now = true) (ops : List ThrottleOp)
    (hkeys : ∀ op ∈ ops, op.clientKey ≠ k)
    (hspare : (running start).Guarded SpareSlot ops) :
    (∃ e, start.entryOf k = some e ∧ now < e.lockedUntil ∧
      ∀ later, (∀ op ∈ ops, op.now ≤ later) → later < e.lockedUntil →
        let t := (running start).run ops
        t.entryOf k = some e ∧ t.isLocked k later = true ∧
          t.timeRemainingMs k later = e.lockedUntil - later) ∧
      ∀ (t : LoginThrottle) (k' now' : UInt32) (victim : Entry),
        t.entries[(t.allocate k' now').1]? = some victim → victim.used = true →
          victim.isLocked now' = true →
            t.entries.length = kMaxTrackedClients ∧ AllLocked now' t.entries := by
  refine ⟨?_, ?_⟩
  · rw [LoginThrottle.isLocked_eq] at hlocked
    cases he : start.entryOf k with
    | none =>
        rw [he] at hlocked
        cases hlocked
    | some e =>
        rw [he] at hlocked
        have hnow : now < e.lockedUntil :=
          UInt32.lt_iff_toNat_lt.mpr ((Entry.isLocked_iff e now).mp hlocked)
        refine ⟨e, rfl, hnow, ?_⟩
        intro later hclock hlater t
        have hkept : t.entryOf k = some e := by
          apply run_keeps_locked he ops hkeys _ hspare
          intro op hop
          rw [Entry.isLocked_iff]
          exact UInt32.lt_iff_toNat_lt.mp (UInt32.lt_of_le_of_lt (hclock op hop) hlater)
        refine ⟨hkept, ?_, ?_⟩
        · rw [LoginThrottle.isLocked_eq, hkept]
          exact (Entry.isLocked_iff e later).mpr (UInt32.lt_iff_toNat_lt.mp hlater)
        · rw [timeRemainingMs_eq, hkept]
          have hset : ¬(e.lockedUntil = 0 ∨ e.lockedUntil ≤ later) := by
            rintro (hzero | hover)
            · rw [hzero] at hlater
              exact UInt32.not_lt_zero hlater
            · exact absurd hlater (UInt32.not_lt.mpr hover)
          exact if_neg hset
  · intro t k' now' victim hvictim hused hvictimLocked
    refine ⟨t.size, ?_⟩
    obtain ⟨e, he, hgiven⟩ := t.allocate_victim k' now'
    obtain rfl : victim = e := Option.some.inj (hvictim.symm.trans he)
    rcases hgiven with (hfree | hexpired) | hall
    · exact absurd (hfree.symm.trans hused) Bool.false_ne_true
    · exact absurd (hexpired.symm.trans hvictimLocked) Bool.false_ne_true
    · exact hall

/-- Key 7 is locked out and fifteen other keys have failed once. -/
def sprayedTable : LoginThrottle :=
  LoginThrottle.machine.run (List.replicate 5 (.recordFailure 7 1000) ++
    (List.range 15).map fun i => .recordFailure (UInt32.ofNat (100 + i)) 2000)

/-- Two fresh keys evict the oldest of the fifteen; the lockout of key 7 stands. -/
theorem lockout_survives_spray_two_keys :
    let ops : List ThrottleOp := [.recordFailure 300 3000, .recordFailure 301 4000]
    let t := (LoginThrottle.running sprayedTable).run ops
    t.isLocked 7 900999 = true ∧ t.timeRemainingMs 7 900999 = 1 ∧
      t.find 300 = some 1 ∧ t.find 301 = some 2 := by
  intro ops t
  have hspare : (LoginThrottle.running sprayedTable).Guarded LoginThrottle.SpareSlot ops := by
    have hstart := StateMachine.Guarded.nil (LoginThrottle.running sprayedTable)
      LoginThrottle.SpareSlot
    have hfirst : (LoginThrottle.running sprayedTable).Guarded LoginThrottle.SpareSlot
        ([] ++ [.recordFailure 300 3000]) := by
      apply hstart.concat
      rintro k now heq -
      cases heq
      exact ⟨{ clientKey := 100, used := true, failures := 1, lastSeenMs := 2000 },
        by decide +kernel, Or.inr (by decide)⟩
    apply hfirst.concat
    rintro k now heq -
    cases heq
    exact ⟨{ clientKey := 101, used := true, failures := 1, lastSeenMs := 2000 },
      by decide +kernel, Or.inr (by decide)⟩
  have hlocked : sprayedTable.isLocked 7 2000 = true := by decide +kernel
  obtain ⟨e, he, -, hlater⟩ :=
    (lockout_survives_spray sprayedTable 7 2000 hlocked ops (by decide) hspare).1
  have hentry : sprayedTable.entryOf 7 = some
      { clientKey := 7, used := true, failures := 5, lockedUntil := 901000,
        lastSeenMs := 1000 } := by decide +kernel
  obtain rfl := Option.some.inj (hentry.symm.trans he)
  obtain ⟨-, hstill, hremaining⟩ := hlater 900999 (by decide) (by decide)
  exact ⟨hstill, hremaining, by decide +kernel, by decide +kernel⟩

end RfIrBlaster.Runtime
