/-
`runtime::LoginThrottle`: sixteen slots that count the failed logins of each
client, and why the clients do not interfere.
-/
import RfIrBlaster.StateMachine
import RfIrBlaster.SlotTable
import Mathlib.Data.Finset.Card

namespace RfIrBlaster.Runtime

def kMaxFailures : UInt8 := 5
def kLockoutMs : UInt32 := 15 * 60 * 1000
def kMaxTrackedClients : Nat := 16

structure Entry where
  clientKey : UInt32 := 0
  failures : UInt8 := 0
  lockedUntil : UInt32 := 0
  lastSeenMs : UInt32 := 0
  used : Bool := false
deriving DecidableEq, Repr

namespace Entry

/-- The client a slot is used for. -/
def held (e : Entry) : Option UInt32 :=
  if e.used then some e.clientKey else none

def isLocked (e : Entry) (now : UInt32) : Bool :=
  if e.lockedUntil = 0 then false else decide (now < e.lockedUntil)

def timeRemainingMs (e : Entry) (now : UInt32) : UInt32 :=
  if e.lockedUntil = 0 ∨ e.lockedUntil ≤ now then 0 else e.lockedUntil - now

/-- What `recordFailure` does to the entry it found or allocated. -/
def fail (e : Entry) (now : UInt32) : Entry :=
  let e := { e with lastSeenMs := now }
  if e.lockedUntil ≠ 0 ∧ now < e.lockedUntil then e
  else
    let e := if e.lockedUntil ≠ 0 then { e with failures := 0, lockedUntil := 0 } else e
    let e := if e.failures < 255 then { e with failures := e.failures + 1 } else e
    if kMaxFailures ≤ e.failures then { e with lockedUntil := now + kLockoutMs } else e

/-- What `recordSuccess` does to the entry it found. -/
def succeed (e : Entry) (now : UInt32) : Entry :=
  let e := { e with lastSeenMs := now }
  if e.lockedUntil ≠ 0 ∧ now < e.lockedUntil then e
  else { e with failures := 0, lockedUntil := 0 }

/-- A slot as `allocate` leaves it. -/
def fresh (clientKey now : UInt32) : Entry :=
  { clientKey := clientKey, used := true, lastSeenMs := now }

end Entry

/-- The loop of `allocate` from slot `i` on: the slots of the oldest unlocked and
of the oldest entry so far, each with its `lastSeenMs`. -/
def allocateScan (now : UInt32) :
    List Entry → Nat → Option (Nat × UInt32) → Option (Nat × UInt32) → Option Nat
  | [], _, oldestUnlocked, oldestAny => (oldestUnlocked.or oldestAny).map Prod.fst
  | e :: rest, i, oldestUnlocked, oldestAny =>
      if !e.used then some i
      else
        let locked := e.lockedUntil ≠ 0 ∧ now < e.lockedUntil
        let isOlder (best : Option (Nat × UInt32)) : Bool :=
          best.all fun b => e.lastSeenMs < b.2
        allocateScan now rest (i + 1)
          (if ¬locked ∧ isOlder oldestUnlocked then some (i, e.lastSeenMs)
            else oldestUnlocked)
          (if isOlder oldestAny then some (i, e.lastSeenMs) else oldestAny)

structure LoginThrottle where
  entries : List Entry := List.replicate kMaxTrackedClients {}
  size : entries.length = kMaxTrackedClients := by rfl

namespace LoginThrottle

/-- The slot of the entry `find` returns. -/
def find (t : LoginThrottle) (clientKey : UInt32) : Option Nat :=
  t.entries.findIdx? fun e => e.used && e.clientKey = clientKey

/-- The entry `find` returns. -/
def entryOf (t : LoginThrottle) (clientKey : UInt32) : Option Entry :=
  t.entries.find? fun e => e.used && e.clientKey = clientKey

def modify (t : LoginThrottle) (slot : Nat) (f : Entry → Entry) : LoginThrottle where
  entries := t.entries.modify slot f
  size := by rw [List.length_modify, t.size]

/-- The slot `allocate` takes, and the table with that slot reset. -/
def allocate (t : LoginThrottle) (clientKey now : UInt32) : Nat × LoginThrottle :=
  let slot := (allocateScan now t.entries 0 none none).getD 0
  (slot, t.modify slot fun _ => Entry.fresh clientKey now)

def isLocked (t : LoginThrottle) (clientKey now : UInt32) : Bool :=
  match t.entryOf clientKey with
  | none => false
  | some e => e.isLocked now

def timeRemainingMs (t : LoginThrottle) (clientKey now : UInt32) : UInt32 :=
  match t.entryOf clientKey with
  | none => 0
  | some e => e.timeRemainingMs now

def recordFailure (t : LoginThrottle) (clientKey now : UInt32) : LoginThrottle :=
  match t.find clientKey with
  | some slot => t.modify slot fun e => e.fail now
  | none =>
      let (slot, t) := t.allocate clientKey now
      t.modify slot fun e => e.fail now

def recordSuccess (t : LoginThrottle) (clientKey now : UInt32) : LoginThrottle :=
  match t.find clientKey with
  | some slot => t.modify slot fun e => e.succeed now
  | none => t

end LoginThrottle

inductive ThrottleOp where
  | isLocked (clientKey now : UInt32)
  | timeRemainingMs (clientKey now : UInt32)
  | recordFailure (clientKey now : UInt32)
  | recordSuccess (clientKey now : UInt32)
deriving DecidableEq, Repr

inductive ThrottleAnswer where
  | locked (yes : Bool)
  | remaining (ms : UInt32)
  | recorded
deriving DecidableEq, Repr

namespace ThrottleOp

def clientKey : ThrottleOp → UInt32
  | isLocked k _ | timeRemainingMs k _ | recordFailure k _ | recordSuccess k _ => k

def now : ThrottleOp → UInt32
  | isLocked _ t | timeRemainingMs _ t | recordFailure _ t | recordSuccess _ t => t

def isFailure : ThrottleOp → Bool
  | recordFailure _ _ => true
  | _ => false

end ThrottleOp

/-- One client's entry, were it the only one: what the operations on its key do. -/
def clientStep (e? : Option Entry) : ThrottleOp → Option Entry
  | .recordFailure k now => some ((e?.getD (.fresh k now)).fail now)
  | .recordSuccess _ now => e?.map fun e => e.succeed now
  | .isLocked _ _ | .timeRemainingMs _ _ => e?

def entryLocked (e? : Option Entry) (now : UInt32) : Bool :=
  e?.elim false fun e => e.isLocked now

def entryRemaining (e? : Option Entry) (now : UInt32) : UInt32 :=
  e?.elim 0 fun e => e.timeRemainingMs now

/-- What the throttle answers about a client with this entry. -/
def entryAnswer (e? : Option Entry) : ThrottleOp → ThrottleAnswer
  | .isLocked _ now => .locked (entryLocked e? now)
  | .timeRemainingMs _ now => .remaining (entryRemaining e? now)
  | .recordFailure _ _ | .recordSuccess _ _ => .recorded

/-- An unbounded map from clients to entries, in which each operation looks at
the entry of its own client alone. -/
def mapMachine : StateMachine (UInt32 → Option Entry) ThrottleOp where
  init := fun _ => none
  step m op := Function.update m op.clientKey (clientStep (m op.clientKey) op)

def mapAnswers (m : UInt32 → Option Entry) :
    List ThrottleOp → List (UInt32 × ThrottleAnswer)
  | [] => []
  | op :: ops =>
      (op.clientKey, entryAnswer (m op.clientKey) op) :: mapAnswers (mapMachine.step m op) ops

namespace LoginThrottle

def step (t : LoginThrottle) : ThrottleOp → LoginThrottle
  | .recordFailure k now => t.recordFailure k now
  | .recordSuccess k now => t.recordSuccess k now
  | .isLocked _ _ | .timeRemainingMs _ _ => t

def answer (t : LoginThrottle) : ThrottleOp → ThrottleAnswer
  | .isLocked k now => .locked (t.isLocked k now)
  | .timeRemainingMs k now => .remaining (t.timeRemainingMs k now)
  | .recordFailure _ _ | .recordSuccess _ _ => .recorded

def machine : StateMachine LoginThrottle ThrottleOp where
  init := {}
  step := step

/-- The answers to a list of operations, each with the key it is for. -/
def answers (t : LoginThrottle) : List ThrottleOp → List (UInt32 × ThrottleAnswer)
  | [] => []
  | op :: ops => (op.clientKey, t.answer op) :: answers (t.step op) ops

end LoginThrottle

/-- The keys `recordFailure` is called with. -/
def failingKeys (ops : List ThrottleOp) : List UInt32 :=
  (ops.filter ThrottleOp.isFailure).map ThrottleOp.clientKey

namespace Entry

theorem held_eq_some_iff (e : Entry) (k : UInt32) :
    e.held = some k ↔ (e.used && e.clientKey = k) = true := by
  cases hused : e.used with
  | false => simp [held, hused]
  | true => simp [held, hused]

theorem held_congr {e e' : Entry} (hused : e'.used = e.used)
    (hkey : e'.clientKey = e.clientKey) : e'.held = e.held := by
  rw [held, held, hused, hkey]

@[simp]
theorem held_fail (e : Entry) (now : UInt32) : (e.fail now).held = e.held := by
  apply held_congr
  · simp only [fail, apply_ite used, ite_self]
  · simp only [fail, apply_ite clientKey, ite_self]

@[simp]
theorem held_succeed (e : Entry) (now : UInt32) : (e.succeed now).held = e.held := by
  apply held_congr
  · simp only [succeed, apply_ite used, ite_self]
  · simp only [succeed, apply_ite clientKey, ite_self]

theorem isLocked_eq (e : Entry) (now : UInt32) :
    e.isLocked now = decide (e.lockedUntil ≠ 0 ∧ now < e.lockedUntil) := by
  unfold isLocked
  split_ifs with hzero
  · simp [hzero]
  · simp [hzero]

theorem isLocked_iff (e : Entry) (now : UInt32) :
    e.isLocked now = true ↔ now.toNat < e.lockedUntil.toNat := by
  rw [isLocked_eq, decide_eq_true_iff, UInt32.lt_iff_toNat_lt]
  constructor
  · exact And.right
  · intro hlt
    refine ⟨?_, hlt⟩
    rintro hzero
    rw [hzero] at hlt
    exact Nat.not_lt_zero _ hlt

end Entry

namespace LoginThrottle

theorem find_eq_slotOf (t : LoginThrottle) (k : UInt32) :
    t.find k = SlotTable.slotOf Entry.held k t.entries := by
  simp [find, SlotTable.slotOf, Entry.held_eq_some_iff]

theorem entryOf_eq_lookup (t : LoginThrottle) (k : UInt32) :
    t.entryOf k = SlotTable.lookup Entry.held k t.entries := by
  simp [entryOf, SlotTable.lookup, Entry.held_eq_some_iff]

theorem isLocked_eq (t : LoginThrottle) (k now : UInt32) :
    t.isLocked k now = entryLocked (t.entryOf k) now := by
  rw [isLocked]
  cases t.entryOf k <;> rfl

theorem timeRemainingMs_eq (t : LoginThrottle) (k now : UInt32) :
    t.timeRemainingMs k now = entryRemaining (t.entryOf k) now := by
  rw [timeRemainingMs]
  cases t.entryOf k <;> rfl

theorem answer_eq (t : LoginThrottle) (op : ThrottleOp) :
    t.answer op = entryAnswer (t.entryOf op.clientKey) op := by
  cases op with
  | isLocked k now => exact congrArg ThrottleAnswer.locked (isLocked_eq t k now)
  | timeRemainingMs k now =>
      exact congrArg ThrottleAnswer.remaining (timeRemainingMs_eq t k now)
  | recordFailure k now => rfl
  | recordSuccess k now => rfl

/-- The scan stops at the first free slot. -/
theorem allocateScan_free {now : UInt32} {entries : List Entry} {i : Nat}
    (h : SlotTable.freeSlot Entry.held entries = some i) (offset : Nat)
    (oldestUnlocked oldestAny : Option (Nat × UInt32)) :
    allocateScan now entries offset oldestUnlocked oldestAny = some (offset + i) := by
  induction entries generalizing i offset oldestUnlocked oldestAny with
  | nil => simp [SlotTable.freeSlot] at h
  | cons e rest ih =>
      rw [SlotTable.freeSlot, List.findIdx?_cons] at h
      rw [allocateScan]
      cases hused : e.used with
      | false =>
          have hfirst : 0 = i := by simpa [Entry.held, hused] using h
          simp [← hfirst]
      | true =>
          have hrest : ∃ j, SlotTable.freeSlot Entry.held rest = some j ∧ j + 1 = i := by
            simpa [Entry.held, hused, SlotTable.freeSlot] using h
          obtain ⟨j, hj, rfl⟩ := hrest
          simp only [Bool.not_true, Bool.false_eq_true, if_false]
          rw [ih hj, Nat.add_assoc, Nat.add_comm 1 j]

/-- Used slots are held under distinct keys, all of them keys that failed. -/
structure Tracks (t : LoginThrottle) (keys : List UInt32) : Prop where
  distinct : (SlotTable.heldKeys Entry.held t.entries).Nodup
  failed : ∀ k ∈ SlotTable.heldKeys Entry.held t.entries, k ∈ keys

theorem tracks_init (keys : List UInt32) : Tracks {} keys := by
  have hnone : SlotTable.heldKeys Entry.held ({} : LoginThrottle).entries = [] := by decide
  exact ⟨hnone ▸ List.nodup_nil, hnone ▸ fun k hk => absurd hk List.not_mem_nil⟩

theorem entryOf_init (k : UInt32) : entryOf {} k = none := by
  rw [entryOf_eq_lookup, SlotTable.lookup_eq_none_iff]
  exact fun hk => absurd ((tracks_init []).failed k hk) List.not_mem_nil

/-- A key that has none finds a free slot while at most sixteen keys fail. -/
theorem Tracks.exists_free {t : LoginThrottle} {keys : List UInt32} (h : t.Tracks keys)
    (hcard : keys.toFinset.card ≤ kMaxTrackedClients) {k : UInt32} (hk : k ∈ keys)
    (hnew : t.entryOf k = none) :
    ∃ i, SlotTable.freeSlot Entry.held t.entries = some i := by
  apply SlotTable.exists_freeSlot
  rw [entryOf_eq_lookup, SlotTable.lookup_eq_none_iff] at hnew
  have hnodup : (k :: SlotTable.heldKeys Entry.held t.entries).Nodup :=
    List.nodup_cons.mpr ⟨hnew, h.distinct⟩
  have hsub : (k :: SlotTable.heldKeys Entry.held t.entries).toFinset ⊆ keys.toFinset := by
    intro k' hk'
    rcases List.mem_cons.mp (List.mem_toFinset.mp hk') with rfl | hheld
    · exact List.mem_toFinset.mpr hk
    · exact List.mem_toFinset.mpr (h.failed k' hheld)
  have hle := (Finset.card_le_card hsub).trans hcard
  rw [List.toFinset_card_of_nodup hnodup, List.length_cons] at hle
  rw [t.size]
  exact hle

/-- Changing the entry found, under its own key. -/
theorem modify_found {t : LoginThrottle} {k : UInt32} {slot : Nat} {f : Entry → Entry}
    {keys : List UInt32} (hfind : t.find k = some slot) (hf : ∀ e, (f e).held = e.held)
    (h : t.Tracks keys) :
    (t.modify slot f).Tracks keys ∧
      ∀ k', (t.modify slot f).entryOf k' =
        if k' = k then (t.entryOf k).map f else t.entryOf k' := by
  rw [find_eq_slotOf] at hfind
  have hkeep : ∀ e, Entry.held e = some k → (f e).held = some k :=
    fun e he => (hf e).trans he
  have hkeys := SlotTable.heldKeys_modify_slotOf hfind hkeep
  refine ⟨⟨?_, ?_⟩, ?_⟩
  · exact hkeys.symm ▸ h.distinct
  · exact hkeys.symm ▸ h.failed
  · intro k'
    simp only [entryOf_eq_lookup]
    exact SlotTable.lookup_modify_slotOf hfind hkeep k'

/-- Filling a free slot for a key that has none. -/
theorem modify_free {t : LoginThrottle} {k : UInt32} {slot : Nat} {e : Entry}
    {keys : List UInt32} (hslot : SlotTable.freeSlot Entry.held t.entries = some slot)
    (hnew : t.entryOf k = none) (he : e.held = some k) (hk : k ∈ keys) (h : t.Tracks keys) :
    (t.modify slot fun _ => e).Tracks keys ∧
      ∀ k', (t.modify slot fun _ => e).entryOf k' =
        if k' = k then some e else t.entryOf k' := by
  rw [entryOf_eq_lookup] at hnew
  have hperm := SlotTable.heldKeys_fill_free hslot he
  refine ⟨⟨?_, ?_⟩, ?_⟩
  · refine hperm.nodup_iff.mpr (List.nodup_cons.mpr ⟨?_, h.distinct⟩)
    exact SlotTable.lookup_eq_none_iff.mp hnew
  · intro k' hk'
    rcases List.mem_cons.mp (hperm.mem_iff.mp hk') with rfl | hheld
    · exact hk
    · exact h.failed k' hheld
  · intro k'
    simp only [entryOf_eq_lookup]
    exact SlotTable.lookup_fill_free hslot hnew he k'

theorem find_eq_none_iff (t : LoginThrottle) (k : UInt32) :
    t.find k = none ↔ t.entryOf k = none := by
  rw [find_eq_slotOf, entryOf_eq_lookup, SlotTable.slotOf_eq_none_iff]

theorem entryOf_isSome_of_find {t : LoginThrottle} {k : UInt32} {slot : Nat}
    (h : t.find k = some slot) : ∃ e, t.entryOf k = some e := by
  cases hentry : t.entryOf k with
  | some e => exact ⟨e, rfl⟩
  | none =>
      rw [(find_eq_none_iff t k).mpr hentry] at h
      cases h

/-- `allocate` resets the first free slot, where there is one. -/
theorem allocate_free {t : LoginThrottle} {slot : Nat}
    (hslot : SlotTable.freeSlot Entry.held t.entries = some slot) (k now : UInt32) :
    t.allocate k now = (slot, t.modify slot fun _ => Entry.fresh k now) := by
  simp [allocate, allocateScan_free hslot]

theorem modify_modify (t : LoginThrottle) (slot : Nat) (e : Entry) (f : Entry → Entry) :
    (t.modify slot fun _ => e).modify slot f = t.modify slot fun _ => f e := by
  simp only [modify, List.modify_modify_eq]
  rfl

theorem entryOf_untouched (t : LoginThrottle) (k' k : UInt32) :
    t.entryOf k = if k = k' then t.entryOf k' else t.entryOf k := by
  by_cases hkey : k = k'
  · rw [if_pos hkey, hkey]
  · rw [if_neg hkey]

/-- Within the bound a step changes the entry of its own key alone, and as the
key's own machine does. -/
theorem step_spec {t : LoginThrottle} (op : ThrottleOp) {keys : List UInt32}
    (h : t.Tracks keys) (hcard : keys.toFinset.card ≤ kMaxTrackedClients)
    (hop : op.isFailure = true → op.clientKey ∈ keys) :
    (t.step op).Tracks keys ∧
      ∀ k, (t.step op).entryOf k =
        if k = op.clientKey then clientStep (t.entryOf op.clientKey) op else t.entryOf k := by
  cases op with
  | isLocked k' now => exact ⟨h, entryOf_untouched t k'⟩
  | timeRemainingMs k' now => exact ⟨h, entryOf_untouched t k'⟩
  | recordFailure k' now =>
      simp only [step, recordFailure, ThrottleOp.clientKey, clientStep]
      cases hfind : t.find k' with
      | some slot =>
          obtain ⟨e, he⟩ := entryOf_isSome_of_find hfind
          have hfound := modify_found hfind (fun e => Entry.held_fail e now) h
          simpa [he] using hfound
      | none =>
          have hnew := (find_eq_none_iff t k').mp hfind
          obtain ⟨slot, hslot⟩ := h.exists_free hcard (hop rfl) hnew
          have hfilled := modify_free (e := (Entry.fresh k' now).fail now) hslot hnew
            (Entry.held_fail _ now) (hop rfl) h
          simpa [allocate_free hslot, modify_modify, hnew] using hfilled
  | recordSuccess k' now =>
      simp only [step, recordSuccess, ThrottleOp.clientKey, clientStep]
      cases hfind : t.find k' with
      | some slot => exact modify_found hfind (fun e => Entry.held_succeed e now) h
      | none =>
          have hnew := (find_eq_none_iff t k').mp hfind
          refine ⟨h, fun k => ?_⟩
          by_cases hkey : k = k'
          · simp [hkey, hnew]
          · simp [hkey]

/-- Simulation: from a table and a map that agree, the answers are the same. -/
theorem answers_eq_mapAnswers {keys : List UInt32}
    (hcard : keys.toFinset.card ≤ kMaxTrackedClients) {ops : List ThrottleOp}
    (hops : ∀ op ∈ ops, op.isFailure = true → op.clientKey ∈ keys) {t : LoginThrottle}
    {m : UInt32 → Option Entry} (ht : t.Tracks keys) (hm : ∀ k, t.entryOf k = m k) :
    t.answers ops = mapAnswers m ops := by
  induction ops generalizing t m with
  | nil => rfl
  | cons op ops ih =>
      have hstep := step_spec op ht hcard (hops op (by simp))
      have hagree : ∀ k, (t.step op).entryOf k = mapMachine.step m op k := by
        intro k
        rw [hstep.2 k, hm, hm]
        by_cases hkey : k = op.clientKey
        · rw [if_pos hkey, hkey]
          exact (Function.update_self (f := m) ..).symm
        · rw [if_neg hkey]
          exact (Function.update_of_ne hkey ..).symm
      rw [answers, mapAnswers, answer_eq, hm,
        ih (fun op' hop' => hops op' (List.mem_cons_of_mem _ hop')) hstep.1 hagree]

end LoginThrottle

/-- In the map the answers for a key depend on the operations on it alone. -/
theorem mapAnswers_withKey (k : UInt32) {m m' : UInt32 → Option Entry} (hm : m k = m' k)
    (ops : List ThrottleOp) :
    (mapAnswers m ops).filter (fun a => a.1 = k) =
      mapAnswers m' (ops.filter fun op => op.clientKey = k) := by
  induction ops generalizing m m' with
  | nil => rfl
  | cons op ops ih =>
      by_cases hkey : op.clientKey = k
      · have hnext : mapMachine.step m op k = mapMachine.step m' op k := by
          rw [← hkey] at hm ⊢
          simp [mapMachine, hm]
        have hfilter : (op :: ops).filter (fun op => op.clientKey = k) =
            op :: ops.filter fun op => op.clientKey = k := by simp [hkey]
        rw [hfilter, mapAnswers, mapAnswers, List.filter_cons_of_pos (by simpa using hkey),
          ih hnext]
        rw [hkey, hm]
      · have hnext : mapMachine.step m op k = m' k := by
          rw [← hm]
          exact Function.update_of_ne (Ne.symm hkey) ..
        have hfilter : (op :: ops).filter (fun op => op.clientKey = k) =
            ops.filter fun op => op.clientKey = k := by simp [hkey]
        rw [hfilter, mapAnswers, List.filter_cons_of_neg (by simpa using hkey), ih hnext]

theorem mem_failingKeys {ops : List ThrottleOp} {op : ThrottleOp} (hop : op ∈ ops)
    (hfail : op.isFailure = true) : op.clientKey ∈ failingKeys ops :=
  List.mem_map_of_mem (List.mem_filter.mpr ⟨hop, hfail⟩)

/-- While at most sixteen keys fail, the table answers as an unbounded map does,
and a key is answered as by a throttle that sees its operations alone. -/
theorem keys_do_not_interfere (ops : List ThrottleOp)
    (hcard : (failingKeys ops).toFinset.card ≤ kMaxTrackedClients) :
    LoginThrottle.answers {} ops = mapAnswers (fun _ => none) ops ∧
      ∀ k, (LoginThrottle.answers {} ops).filter (fun a => a.1 = k) =
        LoginThrottle.answers {} (ops.filter fun op => op.clientKey = k) := by
  have hsim : ∀ ops' : List ThrottleOp, (∀ op ∈ ops', op ∈ ops) →
      LoginThrottle.answers {} ops' = mapAnswers (fun _ => none) ops' := fun ops' hsub =>
    LoginThrottle.answers_eq_mapAnswers hcard
      (fun op hop => mem_failingKeys (hsub op hop))
      (LoginThrottle.tracks_init _) LoginThrottle.entryOf_init
  refine ⟨hsim ops fun _ hop => hop, ?_⟩
  intro k
  calc (LoginThrottle.answers {} ops).filter (fun a => a.1 = k)
      = (mapAnswers (fun _ => none) ops).filter (fun a => a.1 = k) := by
        rw [hsim ops fun _ hop => hop]
    _ = mapAnswers (fun _ => none) (ops.filter fun op => op.clientKey = k) :=
        mapAnswers_withKey k rfl ops
    _ = LoginThrottle.answers {} (ops.filter fun op => op.clientKey = k) :=
        (hsim _ fun _ hop => List.mem_of_mem_filter hop).symm

/-- Two clients, a clock that runs backward, and a lockout of the first. -/
theorem keys_do_not_interfere_two_clients :
    let ops : List ThrottleOp :=
      [.recordFailure 1 100, .recordFailure 1 90, .recordFailure 2 200, .recordFailure 1 90,
        .recordFailure 1 300, .recordFailure 1 400, .recordSuccess 1 500, .isLocked 2 500,
        .isLocked 1 500, .timeRemainingMs 1 900400]
    (LoginThrottle.answers {} ops).filter (fun a => a.1 = 1) =
        LoginThrottle.answers {} (ops.filter fun op => op.clientKey = 1) ∧
      (1, .locked true) ∈ LoginThrottle.answers {} ops ∧
      (2, .locked false) ∈ LoginThrottle.answers {} ops :=
  ⟨(keys_do_not_interfere _ (by decide)).2 1, by decide, by decide⟩

end RfIrBlaster.Runtime
