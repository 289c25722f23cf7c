/-
Safe mode, `recovery.cpp` and `boot_recovery.cpp`: the boot counter and the one-shot
request that survive a restart, and the runs between two boots.
-/
import RfIrBlaster.LearnWindow

namespace RfIrBlaster

namespace Recovery

def kSafeModeBootThreshold : UInt8 := 3
def kStableRunMs : Nat := 10000
def kMaxBootCount : UInt8 := 250
def kSafeHoldMs : UInt32 := 5000
def kFactoryHoldMs : UInt32 := 10000
def kSafeHttps : Bool := false
def kSafeListenPort : UInt16 := 80
/-- The loop task is reset when it does not come round in time; see `setup`. -/
def kWatchdogMs : Nat := 60000

structure BootDecision where
  newCount : UInt8
  enterSafeMode : Bool
  clearAtMs : UInt32
deriving DecidableEq, Repr

def evaluateBoot (persistedCount : UInt8) (bootNowMs : UInt32) : BootDecision :=
  let newCount := if persistedCount < kMaxBootCount then persistedCount + 1 else kMaxBootCount
  { newCount := newCount
    enterSafeMode := decide (newCount ≥ kSafeModeBootThreshold)
    clearAtMs := bootNowMs + UInt32.ofNat kStableRunMs }

def shouldClearCounter (nowMs clearAtMs : UInt32) : Bool :=
  decide (nowMs ≥ clearAtMs)

/-- The two keys of the boot namespace; a missing key reads as its fallback. -/
structure BootStore where
  count : Option UInt8 := none
  safeReq : Option UInt8 := none
deriving DecidableEq, Repr

def readU8 (value : Option UInt8) (fallback : UInt8) : UInt8 :=
  value.getD fallback

def applySafeDefaults (s : Settings) : Settings :=
  { s with
    https := kSafeHttps
    listenPort := kSafeListenPort
    trustedProxy := false
    canonicalDomain := [] }

/-- What a release of the button asks for. -/
inductive ButtonAction where
  | factoryReset
  | requestSafeModeReboot
deriving DecidableEq, Repr

/-- The static locals of `pollButton`. -/
structure Button where
  pressed : Bool := false
  pressStart : UInt32 := 0
deriving DecidableEq, Repr

/-- The status display that `pollButton` updates is not modelled. -/
def pollButton (b : Button) (now : UInt32) (down : Bool) : Button × Option ButtonAction :=
  if down ∧ ¬b.pressed then ({ pressed := true, pressStart := now }, none)
  else if down ∧ b.pressed then (b, none)
  else if ¬down ∧ b.pressed then
    let held := now - b.pressStart
    ({ b with pressed := false },
      if held ≥ kFactoryHoldMs then some .factoryReset
      else if held ≥ kSafeHoldMs then some .requestSafeModeReboot
      else none)
  else (b, none)

/-- How a run came to its own end; a crash or a power cut ends it with `none`. -/
inductive Ending where
  | erased
  | requested
deriving DecidableEq, Repr

/-- The globals of `recovery.cpp` with the store they write through. -/
structure Run where
  store : BootStore
  safeMode : Bool
  clearAtMs : UInt32
  cleared : Bool := false
  button : Button := {}
  ending : Option Ending := none
deriving DecidableEq, Repr

/-- `recovery::begin`, with the reset reason and the clock it reads. -/
def begin (store : BootStore) (software : Bool) (now : UInt32) (settings : Settings) :
    Run × Settings :=
  let count := readU8 store.count 0
  let safeReq := readU8 store.safeReq 0
  let d := evaluateBoot count now
  let counted : BootStore := if software then store else { store with count := some d.newCount }
  let clearAtMs := if software then now + UInt32.ofNat kStableRunMs else d.clearAtMs
  let counterSafe := if software then false else d.enterSafeMode
  let safeMode := counterSafe || safeReq ≠ 0
  let consumed : BootStore := if safeReq ≠ 0 then { counted with safeReq := none } else counted
  ({ store := if safeMode then { consumed with count := some 0 } else consumed
     safeMode := safeMode
     clearAtMs := clearAtMs },
    if safeMode then applySafeDefaults settings else settings)

/-- The counter's part of `recovery::poll`. -/
def Run.clearCounter (s : Run) (now : UInt32) : Run :=
  if !s.cleared && shouldClearCounter now s.clearAtMs then
    { s with store := { s.store with count := some 0 }, cleared := true }
  else s

/-- What the released button does; either way the device restarts. -/
def Run.act (s : Run) : Option ButtonAction → Run
  | some .factoryReset => { s with store := {}, ending := some .erased }
  | some .requestSafeModeReboot =>
      { s with store := { s.store with safeReq := some 1 }, ending := some .requested }
  | none => s

def Run.poll (s : Run) (now : UInt32) (down : Bool) : Run :=
  let s := s.clearCounter now
  let (button, action) := pollButton s.button now down
  Run.act { s with button := button } action

/-- What the loop task does while it runs; times are real ones, in ms since the reset. -/
inductive RunEvent where
  | poll (time : Nat) (down : Bool)
  /-- The factory reset of the config API. -/
  | factory
deriving DecidableEq, Repr

/-- Nothing happens after a restart. -/
def Run.step (s : Run) (e : RunEvent) : Run :=
  if s.ending.isSome then s
  else
    match e with
    | .poll time down => s.poll (millis time) down
    | .factory => { s with store := {}, ending := some .erased }

/-- A boot that reaches `recovery::begin` at `boot`, and what follows it. -/
structure BootRun where
  software : Bool
  boot : Nat := 0
  events : List RunEvent := []
deriving DecidableEq, Repr

namespace BootRun

/-- The run from a store, as a machine over its events. -/
def machine (r : BootRun) (store : BootStore) : StateMachine Run RunEvent where
  init := (begin store r.software (millis r.boot) {}).1
  step := Run.step

def run (r : BootRun) (store : BootStore) : Run :=
  (r.machine store).run r.events

/-- The button alone, over the events of a run. -/
def buttonStep (s : Button × Option Ending) (e : RunEvent) : Button × Option Ending :=
  if s.2.isSome then s
  else
    match e with
    | .poll time down =>
        let (button, action) := pollButton s.1 (millis time) down
        (button, action.map fun
          | .factoryReset => .erased
          | .requestSafeModeReboot => .requested)
    | .factory => (s.1, some .erased)

def buttonMachine : StateMachine (Button × Option Ending) RunEvent where
  init := ({}, none)
  step := buttonStep

/-- How the events of a run end it. -/
def ending (events : List RunEvent) : Option Ending :=
  (buttonMachine.run events).2

/-- The run ends with a long press that asks for safe mode. -/
def Requests (r : BootRun) : Prop :=
  ending r.events = some .requested

/-- The run ends with the store erased. -/
def Erases (r : BootRun) : Prop :=
  ending r.events = some .erased

instance (r : BootRun) : Decidable r.Requests :=
  inferInstanceAs (Decidable (ending r.events = some .requested))

instance (r : BootRun) : Decidable r.Erases :=
  inferInstanceAs (Decidable (ending r.events = some .erased))

/-- The run reaches a poll `kStableRunMs` past its boot or later. -/
def ReachesStable (boot : Nat) (events : List RunEvent) : Prop :=
  ∃ front time down rest, events = front ++ .poll time down :: rest ∧ ending front = none ∧
    boot + kStableRunMs ≤ time

def Stable (r : BootRun) : Prop :=
  ReachesStable r.boot r.events

/-- Polls come in order and no further apart than the watchdog lets them. -/
def Paced : Nat → List RunEvent → Prop
  | _, [] => True
  | last, .poll time _ :: rest => last ≤ time ∧ time ≤ last + kWatchdogMs ∧ Paced time rest
  | last, .factory :: rest => Paced last rest

/-- What the surroundings of `recovery.cpp` promise about time: `setup` reaches `begin`
long before the clock wraps, and the watchdog keeps the polls coming. -/
structure OnTime (r : BootRun) : Prop where
  boot : r.boot + kStableRunMs + kWatchdogMs < 2 ^ 32
  paced : Paced r.boot r.events

end BootRun

/-- The store over a history of boots, erased before the first. -/
def boots : StateMachine BootStore BootRun where
  init := {}
  step := fun store r => (r.run store).store

/-- `recovery::begin` of boot `r` enters safe mode after the boots of `history`. -/
def EntersSafeMode (history : List BootRun) (r : BootRun) : Prop :=
  (begin (boots.run history) r.software (millis r.boot) {}).1.safeMode = true

/-- The boot counter starts over: in safe mode, by a stable run or in an erased store. -/
def Resets (history : List BootRun) (r : BootRun) : Prop :=
  EntersSafeMode history r ∨ r.Stable ∨ r.Erases

/-- None of the runs of `back`, which come after `front`, starts the counter over. -/
def Unreset (front back : List BootRun) : Prop :=
  ∀ mid r rest, back = mid ++ r :: rest → ¬Resets (front ++ mid) r

theorem evaluateBoot_newCount (count : UInt8) (now : UInt32) :
    (evaluateBoot count now).newCount.toNat = min (count.toNat + 1) 250 := by
  have hmax : kMaxBootCount.toNat = 250 := rfl
  have hcount := count.toNat_lt
  unfold evaluateBoot
  by_cases hroom : count < kMaxBootCount
  · have hsmall := UInt8.lt_iff_toNat_lt.mp hroom
    simp only [if_pos hroom, UInt8.toNat_add, UInt8.toNat_one]
    omega
  · have hlarge := UInt8.le_iff_toNat_le.mp (UInt8.not_lt.mp hroom)
    simp only [if_neg hroom]
    omega

theorem evaluateBoot_enters (count : UInt8) (now : UInt32) :
    (evaluateBoot count now).enterSafeMode = true ↔ 2 ≤ count.toNat := by
  have hnew := evaluateBoot_newCount count now
  have hthreshold : kSafeModeBootThreshold.toNat = 3 := rfl
  have henter : (evaluateBoot count now).enterSafeMode =
      decide ((evaluateBoot count now).newCount ≥ kSafeModeBootThreshold) := rfl
  rw [henter, decide_eq_true_iff, ge_iff_le, UInt8.le_iff_toNat_le]
  omega

/-- When `begin` enters safe mode. -/
theorem begin_safeMode (store : BootStore) (software : Bool) (now : UInt32) (settings : Settings) :
    (begin store software now settings).1.safeMode = true ↔
      (software = false ∧ 2 ≤ (readU8 store.count 0).toNat) ∨ readU8 store.safeReq 0 ≠ 0 := by
  cases software with
  | true => simp [begin]
  | false => simp [begin, evaluateBoot_enters]

/-- The counter that `begin` leaves: consumed in safe mode, else one higher after a
crash or a power cycle. -/
theorem begin_count (store : BootStore) (software : Bool) (now : UInt32) (settings : Settings) :
    (readU8 (begin store software now settings).1.store.count 0).toNat =
      if (begin store software now settings).1.safeMode then 0
      else if software then (readU8 store.count 0).toNat
      else min ((readU8 store.count 0).toNat + 1) 250 := by
  cases hsafe : (begin store software now settings).1.safeMode with
  | true =>
      have hstore : (begin store software now settings).1.store.count = some 0 := by
        simp only [begin] at hsafe ⊢
        rw [if_pos hsafe]
      rw [hstore]
      rfl
  | false =>
      have hquiet := mt (begin_safeMode store software now settings).mpr (by simp [hsafe])
      rw [not_or, not_not] at hquiet
      have hstore : (begin store software now settings).1.store =
          if software then store
          else { store with count := some (evaluateBoot (readU8 store.count 0) now).newCount } := by
        simp only [begin] at hsafe ⊢
        rw [hsafe, if_neg Bool.false_ne_true, if_neg (not_not.mpr hquiet.2)]
      rw [hstore, if_neg Bool.false_ne_true]
      cases software with
      | true => rfl
      | false => exact evaluateBoot_newCount _ now

/-- `begin` leaves no request behind. -/
theorem begin_safeReq (store : BootStore) (software : Bool) (now : UInt32) (settings : Settings) :
    readU8 (begin store software now settings).1.store.safeReq 0 = 0 := by
  by_cases hpending : readU8 store.safeReq 0 ≠ 0
  · simp only [begin]
    rw [if_pos hpending]
    split_ifs <;> rfl
  · have hnone : readU8 store.safeReq 0 = 0 := not_not.mp hpending
    simp only [begin]
    rw [if_neg hpending]
    split_ifs <;> exact hnone

namespace BootRun

theorem ending_concat (events : List RunEvent) (e : RunEvent) :
    ending (events ++ [e]) = (buttonStep (buttonMachine.run events) e).2 := by
  rw [ending, StateMachine.run_concat]
  rfl

/-- A restart is final. -/
theorem ending_stays {events : List RunEvent} {e : RunEvent} (h : ending events ≠ none) :
    ending (events ++ [e]) = ending events := by
  have hover : (buttonMachine.run events).2.isSome = true := Option.isSome_iff_ne_none.mpr h
  have hstep : buttonStep (buttonMachine.run events) e = buttonMachine.run events := if_pos hover
  rw [ending_concat, hstep]
  rfl

theorem clearCounter_button (s : Run) (now : UInt32) :
    (s.clearCounter now).button = s.button ∧ (s.clearCounter now).ending = s.ending := by
  unfold Run.clearCounter
  split_ifs <;> exact ⟨rfl, rfl⟩

/-- The button and the end of a run go their own way, whatever the store holds. -/
theorem step_button (s : Run) (e : RunEvent) :
    ((s.step e).button, (s.step e).ending) = buttonStep (s.button, s.ending) e := by
  unfold Run.step buttonStep
  cases hending : s.ending with
  | some ending => simp [hending]
  | none =>
      cases e with
      | factory => rfl
      | poll time down =>
          obtain ⟨hbutton, hkept⟩ := clearCounter_button s (millis time)
          rw [hending] at hkept
          simp only [Option.isSome_none, Bool.false_eq_true, if_false, Run.poll, hbutton]
          cases haction : (pollButton s.button (millis time) down).2 with
          | none => simp [Run.act, hkept]
          | some action => cases action <;> rfl

theorem run_button (r : BootRun) (store : BootStore) (events : List RunEvent) :
    (((r.machine store).run events).button, ((r.machine store).run events).ending) =
      buttonMachine.run events := by
  apply (r.machine store).run_induction
    (P := fun events s => (s.button, s.ending) = buttonMachine.run events)
  · rfl
  · intro events e ih
    rw [StateMachine.run_concat, ← ih]
    exact step_button _ e

/-- The time of the last poll, `boot` before the first. -/
def lastPoll (boot : Nat) (events : List RunEvent) : Nat :=
  events.foldl (fun last e =>
    match e with
    | .poll time _ => time
    | .factory => last) boot

theorem Paced.of_concat {last : Nat} {events : List RunEvent} {e : RunEvent}
    (h : Paced last (events ++ [e])) : Paced last events := by
  induction events generalizing last with
  | nil => trivial
  | cons head rest ih =>
      cases head with
      | poll time down => exact ⟨h.1, h.2.1, ih h.2.2⟩
      | factory => exact ih h

theorem Paced.last {boot : Nat} {events : List RunEvent} {time : Nat} {down : Bool}
    (h : Paced boot (events ++ [RunEvent.poll time down])) :
    time ≤ lastPoll boot events + kWatchdogMs := by
  induction events generalizing boot with
  | nil => exact h.2.1
  | cons head rest ih =>
      cases head with
      | poll time' down' => exact ih h.2.2
      | factory => exact ih h

theorem reachesStable_concat {boot : Nat} {events : List RunEvent} {e : RunEvent} :
    ReachesStable boot (events ++ [e]) ↔ ReachesStable boot events ∨
      ∃ time down, e = .poll time down ∧ ending events = none ∧ boot + kStableRunMs ≤ time := by
  constructor
  · rintro ⟨front, time, down, rest, heq, hrunning, hlate⟩
    rcases StateMachine.concat_eq_append_cons heq with ⟨rfl, rfl⟩ | ⟨mid, rfl⟩
    · exact Or.inr ⟨time, down, rfl, hrunning, hlate⟩
    · exact Or.inl ⟨front, time, down, mid, rfl, hrunning, hlate⟩
  · rintro (⟨front, time, down, rest, rfl, hrunning, hlate⟩ | ⟨time, down, rfl, hrunning, hlate⟩)
    · exact ⟨front, time, down, rest ++ [e], by simp, hrunning, hlate⟩
    · exact ⟨events, time, down, [], rfl, hrunning, hlate⟩

/-- Before the wrap the clock reaches the clear time just when `kStableRunMs` have
passed. -/
theorem shouldClearCounter_iff {boot time : Nat}
    (hboot : boot + kStableRunMs + kWatchdogMs < 2 ^ 32)
    (htime : time < 2 ^ 32) :
    shouldClearCounter (millis time) (millis boot + UInt32.ofNat kStableRunMs) = true ↔
      boot + kStableRunMs ≤ time := by
  simp only [kStableRunMs, kWatchdogMs] at hboot ⊢
  simp only [shouldClearCounter, decide_eq_true_eq, ge_iff_le, UInt32.le_iff_toNat_le, millis,
    UInt32.toNat_add, UInt32.toNat_ofNat']
  omega

/-- Where a run stands after some of its events: what it wrote over the store that
`begin` left, and whether the counter was cleared. -/
structure Tracked (r : BootRun) (store : BootStore) (events : List RunEvent) (s : Run) :
    Prop where
  clearAt : s.clearAtMs = millis r.boot + UInt32.ofNat kStableRunMs
  cleared_iff : s.cleared = true ↔ ReachesStable r.boot events
  early : ending events = none → s.cleared = true ∨ lastPoll r.boot events < r.boot + kStableRunMs
  count : ending events ≠ some .erased →
    s.store.count = if s.cleared then some 0
      else (begin store r.software (millis r.boot) {}).1.store.count
  safeReq : ending events ≠ some .erased →
    s.store.safeReq = if ending events = some .requested then some 1
      else (begin store r.software (millis r.boot) {}).1.store.safeReq
  erased : ending events = some .erased → s.store = {}

theorem tracked_begin (r : BootRun) (store : BootStore) :
    Tracked r store [] ((r.machine store).run []) := by
  have hclear : (begin store r.software (millis r.boot) {}).1.clearAtMs =
      millis r.boot + UInt32.ofNat kStableRunMs := by
    cases hsoftware : r.software <;> rfl
  refine ⟨hclear, ?_, fun _ => Or.inr (Nat.lt_add_of_pos_right (by decide)), fun _ => rfl,
    fun _ => rfl, ?_⟩
  · constructor
    · intro hcleared
      cases hcleared
    · rintro ⟨front, time, down, rest, heq, -⟩
      simp at heq
  · intro herased
    cases herased

/-- An event after a restart changes nothing. -/
theorem Tracked.over {r : BootRun} {store : BootStore} {events : List RunEvent} {s : Run}
    (h : Tracked r store events s) (hending : s.ending = ending events)
    (hover : ending events ≠ none) (e : RunEvent) :
    Tracked r store (events ++ [e]) (s.step e) := by
  have hstep : s.step e = s := by
    have hsome : s.ending.isSome = true := by
      rw [hending]
      exact Option.isSome_iff_ne_none.mpr hover
    exact if_pos hsome
  have hstays : ending (events ++ [e]) = ending events := ending_stays hover
  rw [hstep]
  refine ⟨h.clearAt, ?_, ?_, ?_, ?_, ?_⟩
  · rw [reachesStable_concat, h.cleared_iff]
    simp [hover]
  · rw [hstays]
    exact fun hnone => absurd hnone hover
  · rw [hstays]
    exact h.count
  · rw [hstays]
    exact h.safeReq
  · rw [hstays]
    exact h.erased

/-- The counter's part of a poll. -/
theorem Tracked.clear {r : BootRun} {store : BootStore} {events : List RunEvent} {s : Run}
    (h : Tracked r store events s) (hrunning : ending events = none)
    (hboot : r.boot + kStableRunMs + kWatchdogMs < 2 ^ 32) {time : Nat} {down : Bool}
    (hpaced : Paced r.boot (events ++ [RunEvent.poll time down])) :
    let s' := s.clearCounter (millis time)
    s'.clearAtMs = s.clearAtMs ∧ s'.store.safeReq = s.store.safeReq ∧
      (s'.cleared = true ↔ ReachesStable r.boot (events ++ [RunEvent.poll time down])) ∧
      s'.store.count = (if s'.cleared then some 0
        else (begin store r.software (millis r.boot) {}).1.store.count) := by
  intro s'
  have hcount := h.count (by simp [hrunning])
  have hreaches : ReachesStable r.boot (events ++ [RunEvent.poll time down]) ↔
      s.cleared = true ∨ r.boot + kStableRunMs ≤ time := by
    rw [reachesStable_concat, h.cleared_iff]
    simp [hrunning]
  cases hcleared : s.cleared with
  | true =>
      have hsame : s' = s := by simp [s', Run.clearCounter, hcleared]
      rw [hsame, hreaches, hcleared]
      simpa [hcleared] using hcount
  | false =>
      have hclock : shouldClearCounter (millis time) s.clearAtMs = true ↔
          r.boot + kStableRunMs ≤ time := by
        rw [h.clearAt]
        apply shouldClearCounter_iff hboot
        have hlast := (h.early hrunning).resolve_left (by simp [hcleared])
        have := hpaced.last
        omega
      by_cases hdue : r.boot + kStableRunMs ≤ time
      · have hclear : s' =
            { s with store := { s.store with count := some 0 }, cleared := true } := by
          simp [s', Run.clearCounter, hcleared, hclock.mpr hdue]
        rw [hclear, hreaches]
        simp [hdue]
      · have hwait : s' = s := by
          have hnot : shouldClearCounter (millis time) s.clearAtMs = false := by
            simpa using mt hclock.mp hdue
          simp [s', Run.clearCounter, hcleared, hnot]
        rw [hwait, hreaches, hcleared]
        simpa [hdue, hcleared] using hcount

theorem lastPoll_concat (boot : Nat) (events : List RunEvent) (time : Nat) (down : Bool) :
    lastPoll boot (events ++ [RunEvent.poll time down]) = time := by
  simp [lastPoll]

/-- What one more event leaves of a run that is still going. -/
theorem Tracked.running {r : BootRun} {store : BootStore} {events : List RunEvent} {s : Run}
    (h : Tracked r store events s) (hbutton : (s.button, s.ending) = buttonMachine.run events)
    (hrunning : ending events = none) (htime : r.boot + kStableRunMs + kWatchdogMs < 2 ^ 32)
    (e : RunEvent) (hpaced : Paced r.boot (events ++ [e])) :
    Tracked r store (events ++ [e]) (s.step e) := by
  have hnone : s.ending = none := (congrArg Prod.snd hbutton).trans hrunning
  have hending : (s.step e).ending = ending (events ++ [e]) := by
    rw [ending_concat, ← hbutton, ← step_button]
  cases e with
  | factory =>
      have hstep : s.step .factory = { s with store := {}, ending := some .erased } := by
        simp [Run.step, hnone]
      rw [hstep] at hending ⊢
      simp only at hending
      refine ⟨h.clearAt, ?_, ?_, ?_, ?_, fun _ => rfl⟩
      · rw [reachesStable_concat, h.cleared_iff]
        simp
      · rw [← hending]
        exact fun hgoing => by cases hgoing
      · exact fun hkept => absurd hending.symm hkept
      · exact fun hkept => absurd hending.symm hkept
  | poll time down =>
      obtain ⟨hclearAt, hsafeReq, hcleared, hcount⟩ := h.clear hrunning htime hpaced
      have hstill : (s.clearCounter (millis time)).ending = none :=
        (clearCounter_button s (millis time)).2.trans hnone
      have hkept := h.safeReq (by simp [hrunning])
      rw [hrunning, if_neg (by simp)] at hkept
      have hstep : s.step (.poll time down) = Run.act
          { s.clearCounter (millis time) with
            button := (pollButton (s.clearCounter (millis time)).button (millis time) down).1 }
          (pollButton (s.clearCounter (millis time)).button (millis time) down).2 := by
        simp [Run.step, hnone, Run.poll]
      have hearly : (s.clearCounter (millis time)).cleared = true ∨
          lastPoll r.boot (events ++ [RunEvent.poll time down]) < r.boot + kStableRunMs := by
        rw [hcleared, lastPoll_concat, reachesStable_concat]
        by_cases hdue : r.boot + kStableRunMs ≤ time
        · exact Or.inl (Or.inr ⟨time, down, rfl, hrunning, hdue⟩)
        · exact Or.inr (Nat.not_le.mp hdue)
      rw [hstep] at hending ⊢
      cases haction : (pollButton (s.clearCounter (millis time)).button (millis time) down).2 with
      | none =>
          simp only [haction, Run.act, hstill] at hending ⊢
          refine ⟨hclearAt.trans h.clearAt, hcleared, fun _ => hearly, fun _ => hcount, ?_, ?_⟩
          · rw [← hending, if_neg (by simp)]
            exact fun _ => hsafeReq.trans hkept
          · rw [← hending]
            exact fun hgoing => by cases hgoing
      | some action =>
          cases action with
          | factoryReset =>
              simp only [haction, Run.act] at hending ⊢
              refine ⟨hclearAt.trans h.clearAt, hcleared, fun _ => hearly, ?_, ?_, fun _ => rfl⟩
              · exact fun hlost => absurd hending.symm hlost
              · exact fun hlost => absurd hending.symm hlost
          | requestSafeModeReboot =>
              simp only [haction, Run.act] at hending ⊢
              refine ⟨hclearAt.trans h.clearAt, hcleared, fun _ => hearly, fun _ => hcount, ?_, ?_⟩
              · rw [← hending, if_pos rfl]
                exact fun _ => rfl
              · rw [← hending]
                exact fun hlost => by cases hlost

/-- What a run leaves in the store. -/
theorem run_tracked {r : BootRun} (hontime : r.OnTime) (store : BootStore) :
    Tracked r store r.events (r.run store) := by
  have hrule := (r.machine store).run_induction
    (P := fun events s => Paced r.boot events → Tracked r store events s)
    (fun _ => tracked_begin r store)
    (fun events e ih hpaced => by
      have hearlier := ih hpaced.of_concat
      have hbutton := run_button r store events
      by_cases hrunning : ending events = none
      · exact hearlier.running hbutton hrunning hontime.boot e hpaced
      · exact hearlier.over (congrArg Prod.snd hbutton) hrunning e)
    r.events
  exact hrule hontime.paced

/-- The boot counter after a run: cleared by a stable or an erasing one, else as `begin`
left it. -/
theorem run_count {r : BootRun} (hontime : r.OnTime) (store : BootStore) :
    (readU8 (r.run store).store.count 0).toNat =
      if (r.run store).cleared = true ∨ r.Erases then 0
      else (readU8 (begin store r.software (millis r.boot) {}).1.store.count 0).toNat := by
  have htracked := run_tracked hontime store
  by_cases herased : r.Erases
  · rw [htracked.erased herased, if_pos (Or.inr herased)]
    rfl
  · rw [htracked.count herased]
    by_cases hcleared : (r.run store).cleared = true
    · rw [if_pos hcleared, if_pos (Or.inl hcleared)]
      rfl
    · rw [if_neg hcleared, if_neg (not_or.mpr ⟨hcleared, herased⟩)]

/-- A run leaves a request exactly when it ends with one. -/
theorem run_safeReq {r : BootRun} (hontime : r.OnTime) (store : BootStore) :
    readU8 (r.run store).store.safeReq 0 ≠ 0 ↔ r.Requests := by
  have htracked := run_tracked hontime store
  unfold Requests
  by_cases herased : ending r.events = some .erased
  · rw [htracked.erased herased, herased]
    simp [readU8]
  · rw [htracked.safeReq herased]
    by_cases hrequested : ending r.events = some .requested
    · rw [if_pos hrequested]
      simp [readU8, hrequested]
    · rw [if_neg hrequested]
      have hnone := begin_safeReq store r.software (millis r.boot) {}
      simp [hnone, hrequested]

end BootRun

/-- The last run of the history left a request. -/
def RequestPending (history : List BootRun) : Prop :=
  ∃ r ∈ history.getLast?, r.Requests

/-- The runs since the counter last started over that count: no software restarts. -/
def unstableBoots (back : List BootRun) : Nat :=
  back.countP fun r => !r.software

/-- What the store says of the boots so far. -/
structure Tallied (history : List BootRun) (store : BootStore) : Prop where
  pending : readU8 store.safeReq 0 ≠ 0 ↔ RequestPending history
  few : (readU8 store.count 0).toNat ≤ 2
  tally : ∀ n, n ≤ (readU8 store.count 0).toNat ↔
    ∃ front back, history = front ++ back ∧ Unreset front back ∧ n ≤ unstableBoots back

theorem unreset_nil (front : List BootRun) : Unreset front [] := by
  intro mid r rest heq
  simp at heq

theorem unreset_concat {front back : List BootRun} {r : BootRun} :
    Unreset front (back ++ [r]) ↔ Unreset front back ∧ ¬Resets (front ++ back) r := by
  constructor
  · intro h
    refine ⟨fun mid r' rest heq => ?_, h back r [] rfl⟩
    exact h mid r' (rest ++ [r]) (by simp [heq])
  · rintro ⟨hback, hlast⟩ mid r' rest heq
    rcases StateMachine.concat_eq_append_cons heq with ⟨rfl, rfl⟩ | ⟨rest', heq'⟩
    · exact hlast
    · exact hback mid r' rest' heq'

/-- The runs since the last reset, one run later. -/
theorem since_reset_concat {history : List BootRun} {r : BootRun} {n : Nat} :
    (∃ front back, history ++ [r] = front ++ back ∧ Unreset front back ∧
        n ≤ unstableBoots back) ↔
      n = 0 ∨ ¬Resets history r ∧ ∃ front back, history = front ++ back ∧ Unreset front back ∧
        n ≤ unstableBoots back + if r.software then 0 else 1 := by
  have hcount : ∀ back, unstableBoots (back ++ [r]) =
      unstableBoots back + if r.software then 0 else 1 := by
    intro back
    cases hsoftware : r.software <;> simp [unstableBoots, List.countP_append, hsoftware]
  constructor
  · rintro ⟨front, back, heq, hunreset, hn⟩
    rcases List.eq_nil_or_concat' back with rfl | ⟨back', last, rfl⟩
    · exact Or.inl (Nat.le_zero.mp hn)
    · rw [← List.append_assoc] at heq
      obtain ⟨rfl, hlast⟩ := List.append_inj' heq rfl
      obtain rfl : r = last := (List.cons.inj hlast).1
      obtain ⟨hearlier, hkept⟩ := unreset_concat.mp hunreset
      exact Or.inr ⟨hkept, front, back', rfl, hearlier, hcount back' ▸ hn⟩
  · rintro (rfl | ⟨hkept, front, back, rfl, hunreset, hn⟩)
    · exact ⟨history ++ [r], [], by simp, unreset_nil _, Nat.zero_le _⟩
    · refine ⟨front, back ++ [r], by simp, unreset_concat.mpr ⟨hunreset, hkept⟩, ?_⟩
      rw [hcount]
      exact hn

/-- The boot counter, one boot later. -/
theorem boots_count {history : List BootRun} {r : BootRun} (hontime : r.OnTime)
    (hfew : (readU8 (boots.run history).count 0).toNat ≤ 2) :
    (Resets history r → (readU8 (boots.run (history ++ [r])).count 0).toNat = 0) ∧
      (¬Resets history r → (readU8 (boots.run (history ++ [r])).count 0).toNat =
        (readU8 (boots.run history).count 0).toNat + if r.software then 0 else 1) := by
  have htracked := BootRun.run_tracked hontime (boots.run history)
  have hrun : boots.run (history ++ [r]) = (r.run (boots.run history)).store :=
    StateMachine.run_concat _ _ _
  have hcount := BootRun.run_count hontime (boots.run history)
  have hbegin := begin_count (boots.run history) r.software (millis r.boot) {}
  have hcleared : (r.run (boots.run history)).cleared = true ↔ r.Stable := htracked.cleared_iff
  rw [hrun, hcount]
  constructor
  · rintro (hsafe | hstable | herased)
    · have hentered : (begin (boots.run history) r.software (millis r.boot) {}).1.safeMode =
          true := hsafe
      rw [hbegin, if_pos hentered, ite_self]
    · rw [if_pos (Or.inl (hcleared.mpr hstable))]
    · rw [if_pos (Or.inr herased)]
  · intro hkept
    simp only [Resets, not_or] at hkept
    obtain ⟨hcalm, hunstable, hwhole⟩ := hkept
    have huncleared := mt hcleared.mp hunstable
    have hsafe : (begin (boots.run history) r.software (millis r.boot) {}).1.safeMode = false :=
      Bool.eq_false_iff.mpr hcalm
    rw [if_neg (not_or.mpr ⟨huncleared, hwhole⟩), hbegin, if_neg (by simp [hsafe])]
    cases r.software with
    | true => rfl
    | false =>
        simp only [Bool.false_eq_true, if_false]
        omega

/-- One more boot keeps the tally. -/
theorem tallied_concat {history : List BootRun} {r : BootRun}
    (h : Tallied history (boots.run history)) (hontime : r.OnTime) :
    Tallied (history ++ [r]) (boots.run (history ++ [r])) := by
  obtain ⟨hreset, hkept⟩ := boots_count hontime h.few
  have hrun : boots.run (history ++ [r]) = (r.run (boots.run history)).store :=
    StateMachine.run_concat _ _ _
  refine ⟨?_, ?_, fun n => ?_⟩
  · rw [hrun, BootRun.run_safeReq hontime]
    simp [RequestPending]
  · by_cases hresets : Resets history r
    · rw [hreset hresets]
      decide
    · rw [hkept hresets]
      cases hsoftware : r.software with
      | true => exact h.few
      | false =>
          -- a third crash or power cycle would have entered safe mode
          have hcalm : ¬EntersSafeMode history r := fun hsafe => hresets (Or.inl hsafe)
          unfold EntersSafeMode at hcalm
          rw [begin_safeMode, not_or] at hcalm
          have htwo : ¬2 ≤ (readU8 (boots.run history).count 0).toNat :=
            fun hmany => hcalm.1 ⟨hsoftware, hmany⟩
          simp only [Bool.false_eq_true, if_false]
          omega
  · rw [since_reset_concat]
    by_cases hresets : Resets history r
    · rw [hreset hresets]
      simp [hresets]
    · rw [hkept hresets]
      simp only [hresets, not_false_eq_true, true_and]
      rw [← Nat.sub_le_iff_le_add, h.tally]
      simp only [Nat.sub_le_iff_le_add]
      constructor
      · exact fun hsince => Or.inr hsince
      · rintro (rfl | hsince)
        · exact ⟨history, [], by simp, unreset_nil _, Nat.zero_le _⟩
        · exact hsince

theorem run_tallied {history : List BootRun} (hontime : ∀ r ∈ history, r.OnTime) :
    Tallied history (boots.run history) := by
  have hrule := boots.run_induction
    (P := fun history store => (∀ r ∈ history, r.OnTime) → Tallied history store)
    (fun _ => by
      refine ⟨by simp [boots, readU8, RequestPending], Nat.zero_le 2, fun n => ?_⟩
      constructor
      · exact fun hn => ⟨[], [], rfl, unreset_nil _, hn.trans (Nat.zero_le _)⟩
      · rintro ⟨front, back, heq, -, hn⟩
        obtain ⟨-, rfl⟩ := List.append_eq_nil_iff.mp heq.symm
        exact hn)
    (fun history r ih hontime => by
      have hlast : boots.step (boots.run history) r = boots.run (history ++ [r]) :=
        (StateMachine.run_concat _ _ _).symm
      rw [hlast]
      exact tallied_concat (ih fun b hb => hontime b (List.mem_append_left _ hb))
        (hontime r (by simp)))
    history
  exact hrule hontime

/-- Safe mode is entered exactly on a request of the previous run, or on a crash or power
cycle that is at least the third since the counter last started over.  A run in safe
mode is followed by another only on a request of its own. -/
theorem safe_mode_iff (history : List BootRun) (r : BootRun)
    (hontime : ∀ b ∈ history ++ [r], b.OnTime) :
    (EntersSafeMode history r ↔ RequestPending history ∨
      (r.software = false ∧ ∃ front back, history = front ++ back ∧ Unreset front back ∧
        2 ≤ unstableBoots back)) ∧
    (EntersSafeMode history r → ∀ next, EntersSafeMode (history ++ [r]) next → r.Requests) := by
  have hbefore : Tallied history (boots.run history) :=
    run_tallied fun b hb => hontime b (List.mem_append_left _ hb)
  have hafter : Tallied (history ++ [r]) (boots.run (history ++ [r])) := run_tallied hontime
  constructor
  · unfold EntersSafeMode
    rw [begin_safeMode, hbefore.pending, hbefore.tally, or_comm]
  · intro hsafe next hagain
    unfold EntersSafeMode at hagain
    rw [begin_safeMode, hafter.pending, hafter.tally] at hagain
    rcases hagain with ⟨-, hthree⟩ | hrequest
    · -- the counter started over with this boot
      rw [since_reset_concat] at hthree
      rcases hthree with hzero | ⟨hkept, -⟩
      · cases hzero
      · exact absurd (Or.inl hsafe) hkept
    · simpa [RequestPending] using hrequest

/-- Three power cycles, one of them with a software restart before it: the third enters
safe mode and the boot after it does not. -/
theorem safe_mode_iff_power_cycles :
    EntersSafeMode [{ software := false, events := [.poll 500 false] },
        { software := true, events := [.poll 9999 false] }, { software := false }]
      { software := false } ∧
    ¬EntersSafeMode ([{ software := false, events := [.poll 500 false] },
        { software := true, events := [.poll 9999 false] }, { software := false }] ++
        [{ software := false }]) { software := false } := by
  have hontime : ∀ b ∈ ([{ software := false, events := [.poll 500 false] },
      { software := true, events := [.poll 9999 false] }, { software := false }] : List BootRun) ++
      [{ software := false }], b.OnTime := by
    intro b hb
    simp only [List.cons_append, List.nil_append, List.mem_cons, List.not_mem_nil, or_false] at hb
    rcases hb with rfl | rfl | rfl | rfl <;>
      exact ⟨by decide, by simp [BootRun.Paced, kWatchdogMs]⟩
  have hthird : EntersSafeMode [{ software := false, events := [.poll 500 false] },
      { software := true, events := [.poll 9999 false] }, { software := false }]
      { software := false } := by
    unfold EntersSafeMode
    decide
  refine ⟨hthird, fun hagain => ?_⟩
  have hrequest := (safe_mode_iff _ _ hontime).2 hthird _ hagain
  exact absurd hrequest (by decide)

end Recovery

end RfIrBlaster
