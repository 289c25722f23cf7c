/-
The status LED (`ui.cpp`) and what it tells while the BOOT button is held
(`recovery.cpp`): the key that saves re-driving it, and the gesture behind each color.
-/
import RfIrBlaster.BootRecovery

namespace RfIrBlaster.Recovery

/-- A value of HomeSpan's `HS_STATUS`, which has fewer than a hundred. -/
abbrev HsStatus := Fin 100

/-- The values that `ui.cpp` names. -/
structure HsNames where
  wifiNeeded : HsStatus
  pairingNeeded : HsStatus
  paired : HsStatus
  connected : HsStatus
  otaStarted : HsStatus
  distinct : [wifiNeeded, pairingNeeded, paired, connected, otaStarted].Nodup

inductive UiState where
  | normal
  | safeModeArmed
  | factoryArmed
  | safeMode
deriving DecidableEq, Repr

/-- `Pixel::RGB`. -/
structure Color where
  r : UInt8
  g : UInt8
  b : UInt8
deriving DecidableEq, Repr

def kOtaStaleSec : Nat := 90

def statusColor (hs : HsNames) (s : HsStatus) : Color :=
  if s = hs.pairingNeeded then ⟨0, 255, 255⟩
  else if s = hs.paired ∨ s = hs.connected then ⟨0, 255, 0⟩
  else ⟨255, 0, 255⟩

/-- `homeSpan.getStatus()`, the seconds it has lasted second. -/
abbrev StatusSince := HsStatus × Nat

/-- The globals of `ui.cpp`; `lastKey` is `none` where the source has -1, `pixel` where the
LED has not been driven yet. -/
structure Led where
  started : Bool := false
  state : UiState := .normal
  ledEnabled : Bool := true
  lastKey : Option Nat := none
  lastRealStatus : HsStatus
  pixel : Option Color := none
deriving DecidableEq, Repr

/-- What one pass of `render` decides to show, with the key of that picture. -/
structure Picture where
  key : Nat
  color : Color
deriving DecidableEq, Repr

/-- The status an OTA that has failed leaves behind is not taken for real. -/
def Led.effective (hs : HsNames) (led : Led) (st : StatusSince) : HsStatus :=
  if st.1 = hs.otaStarted then if kOtaStaleSec ≤ st.2 then led.lastRealStatus else st.1
  else st.1

def healthy (hs : HsNames) (s : HsStatus) : Bool :=
  s = hs.paired || s = hs.connected

def Led.picture (hs : HsNames) (led : Led) (st : StatusSince) : Picture :=
  match led.state with
  | .safeModeArmed => ⟨1, ⟨255, 120, 0⟩⟩
  | .factoryArmed => ⟨2, ⟨255, 0, 0⟩⟩
  | .safeMode => ⟨3, ⟨0, 60, 255⟩⟩
  | .normal =>
      let eff := led.effective hs st
      if healthy hs eff then
        if led.ledEnabled then ⟨201, statusColor hs eff⟩ else ⟨200, ⟨0, 0, 0⟩⟩
      else ⟨100 + eff.val, statusColor hs eff⟩

namespace Led

def render (hs : HsNames) (st : StatusSince) (led : Led) : Led :=
  if !led.started then led
  else
    let shown := led.picture hs st
    let seen : Led :=
      if led.state = .normal ∧ st.1 ≠ hs.otaStarted then { led with lastRealStatus := st.1 }
      else led
    if some shown.key ≠ led.lastKey then
      { seen with pixel := some shown.color, lastKey := some shown.key }
    else seen

def setUiState (hs : HsNames) (st : StatusSince) (s : UiState) (led : Led) : Led :=
  { led with state := s }.render hs st

def setLedEnabled (hs : HsNames) (st : StatusSince) (enabled : Bool) (led : Led) : Led :=
  { led with ledEnabled := enabled }.render hs st

def initUI (hs : HsNames) (st : StatusSince) (led : Led) : Led :=
  { led with started := true }.setUiState hs st .normal

end Led

/-- What `pollButton` makes the LED show. -/
def buttonUi (b : Button) (safeMode : Bool) (now : UInt32) (down : Bool) : Option UiState :=
  let held := now - b.pressStart
  if !b.pressed then none
  else if down then
    if held ≥ kFactoryHoldMs then some .factoryArmed
    else if held ≥ kSafeHoldMs then some .safeModeArmed
    else none
  else if held ≥ kSafeHoldMs then none
  else some (if safeMode then .safeMode else .normal)

/-- The button, the LED and what a release has asked for.  The last two fields only record
the real times of the press and of the last poll. -/
structure Panel where
  button : Button := {}
  led : Led
  safeMode : Bool
  asked : Option ButtonAction := none
  pressedAt : Nat := 0
  polledAt : Nat := 0
deriving DecidableEq, Repr

/-- The calls of `loop()`, each with the status HomeSpan has at that moment. -/
inductive PanelEvent where
  | poll (time : Nat) (down : Bool) (st : StatusSince)
  | ledEnabled (enabled : Bool) (st : StatusSince)
  | update (st : StatusSince)

namespace Panel

variable (hs : HsNames)

def poll (p : Panel) (time : Nat) (down : Bool) (st : StatusSince) : Panel :=
  let polled := pollButton p.button (millis time) down
  { p with
    button := polled.1
    asked := polled.2
    led :=
      match buttonUi p.button p.safeMode (millis time) down with
      | none => p.led
      | some s => p.led.setUiState hs st s
    pressedAt := if down && !p.button.pressed then time else p.pressedAt
    polledAt := time }

/-- A release that asks for something restarts the device. -/
def step (p : Panel) (e : PanelEvent) : Panel :=
  if p.asked.isSome then p
  else
    match e with
    | .poll time down st => p.poll hs time down st
    | .ledEnabled enabled st => { p with led := p.led.setLedEnabled hs st enabled }
    | .update st => { p with led := p.led.render hs st }

/-- `setup()`: the LED starts, safe mode shows, and the stored preference is read. -/
def boot (safeMode ledEnabled : Bool) (ui recovery enabled : StatusSince) : Panel :=
  let led : Led := ({ lastRealStatus := hs.wifiNeeded } : Led).initUI hs ui
  { led := (if safeMode then led.setUiState hs recovery .safeMode else led).setLedEnabled hs
      enabled ledEnabled
    safeMode := safeMode }

def machine (safeMode ledEnabled : Bool) (ui recovery enabled : StatusSince) :
    StateMachine Panel PanelEvent where
  init := boot hs safeMode ledEnabled ui recovery enabled
  step := step hs

end Panel

section Render

variable {hs : HsNames}

theorem healthy_color {s : HsStatus} (h : healthy hs s = true) :
    statusColor hs s = ⟨0, 255, 0⟩ := by
  have hgreen : s = hs.paired ∨ s = hs.connected := by simpa [healthy] using h
  have hother : s ≠ hs.pairingNeeded := by
    have hdistinct := hs.distinct
    simp only [List.nodup_cons, List.mem_cons, not_or] at hdistinct
    rcases hgreen with rfl | rfl
    · exact fun heq => hdistinct.2.1.1 heq.symm
    · exact fun heq => hdistinct.2.1.2.1 heq.symm
  rw [statusColor, if_neg hother, if_pos hgreen]

/-- The color that goes with a key. -/
def keyColor (hs : HsNames) (key : Nat) : Color :=
  if key = 1 then ⟨255, 120, 0⟩
  else if key = 2 then ⟨255, 0, 0⟩
  else if key = 3 then ⟨0, 60, 255⟩
  else if key = 200 then ⟨0, 0, 0⟩
  else if key = 201 then ⟨0, 255, 0⟩
  else statusColor hs (Fin.ofNat 100 (key - 100))

/-- Not driving the LED again for the same key is no loss: the key says which color it is. -/
theorem picture_color (led : Led) (st : StatusSince) :
    (led.picture hs st).color = keyColor hs (led.picture hs st).key := by
  unfold Led.picture
  cases led.state with
  | safeModeArmed => rfl
  | factoryArmed => rfl
  | safeMode => rfl
  | normal =>
      have hsmall := (led.effective hs st).isLt
      simp only
      cases hhealthy : healthy hs (led.effective hs st) with
      | true =>
          cases led.ledEnabled with
          | true => exact healthy_color hhealthy
          | false => rfl
      | false =>
          have hkey : 100 + (led.effective hs st).val - 100 = (led.effective hs st).val := by
            omega
          have hfin : Fin.ofNat 100 (led.effective hs st).val = led.effective hs st :=
            Fin.ext (Nat.mod_eq_of_lt hsmall)
          simp only [Bool.false_eq_true, if_false]
          rw [keyColor, if_neg (by omega), if_neg (by omega), if_neg (by omega),
            if_neg (by omega), if_neg (by omega), hkey, hfin]

theorem statusColor_cases (hs : HsNames) (s : HsStatus) :
    statusColor hs s ∈ [⟨0, 255, 255⟩, ⟨0, 255, 0⟩, ⟨255, 0, 255⟩] := by
  unfold statusColor
  split_ifs <;> simp

/-- The colors that no HomeKit status has tell the recovery states apart. -/
theorem picture_state (hs : HsNames) (led : Led) (st : StatusSince) :
    ((led.picture hs st).color = ⟨255, 120, 0⟩ ↔ led.state = .safeModeArmed) ∧
      ((led.picture hs st).color = ⟨255, 0, 0⟩ ↔ led.state = .factoryArmed) ∧
      ((led.picture hs st).color = ⟨0, 60, 255⟩ ↔ led.state = .safeMode) ∧
      ((led.picture hs st).color = ⟨0, 0, 0⟩ → led.state = .normal ∧ led.ledEnabled = false) := by
  unfold Led.picture
  cases led.state with
  | safeModeArmed => simp
  | factoryArmed => simp
  | safeMode => simp
  | normal =>
      have hcolor := statusColor_cases hs (led.effective hs st)
      simp only [List.mem_cons, List.not_mem_nil, or_false] at hcolor
      simp only
      split_ifs with hhealthy henabled
      · rcases hcolor with h | h | h <;> simp [h]
      · simpa using henabled
      · rcases hcolor with h | h | h <;> simp [h]

/-- What the LED shows is a picture for the state it is in. -/
def Shows (hs : HsNames) (led : Led) : Prop :=
  led.started = true ∧ ∃ (before : Led) (st : StatusSince),
    led.lastKey = some (before.picture hs st).key ∧
    led.pixel = some (before.picture hs st).color ∧ before.state = led.state ∧
    before.ledEnabled = led.ledEnabled

/-- The LED has not been driven, or shows the color of the key kept. -/
def Keyed (hs : HsNames) (led : Led) : Prop :=
  ∀ key, led.lastKey = some key → led.pixel = some (keyColor hs key)

theorem Shows.keyed {led : Led} (h : Shows hs led) : Keyed hs led := by
  obtain ⟨-, before, st, hkey, hpixel, -, -⟩ := h
  intro key hlast
  rw [hkey] at hlast
  rw [hpixel, picture_color, Option.some.inj hlast]

theorem render_state (hs : HsNames) (led : Led) (st : StatusSince) :
    (led.render hs st).state = led.state ∧ (led.render hs st).ledEnabled = led.ledEnabled := by
  simp only [Led.render]
  split_ifs <;> exact ⟨rfl, rfl⟩

/-- A pass of `render` shows what driving the LED every time would. -/
theorem Keyed.render {led : Led} (h : Keyed hs led) (hstarted : led.started = true)
    (st : StatusSince) :
    (led.render hs st).lastKey = some (led.picture hs st).key ∧
      (led.render hs st).pixel = some (led.picture hs st).color ∧
      Shows hs (led.render hs st) := by
  obtain ⟨hstate, henabled⟩ := render_state hs led st
  have hshown : (led.render hs st).started = true ∧
      (led.render hs st).lastKey = some (led.picture hs st).key ∧
      (led.render hs st).pixel = some (led.picture hs st).color := by
    simp only [Led.render, hstarted, Bool.not_true, Bool.false_eq_true, if_false]
    have hkept : some (led.picture hs st).key = led.lastKey →
        led.pixel = some (led.picture hs st).color := by
      intro hsame
      rw [picture_color]
      exact h _ hsame.symm
    split_ifs with hchanged
    · exact ⟨rfl, rfl, rfl⟩
    · exact ⟨hstarted, rfl, rfl⟩
    · have hsame := not_not.mp hchanged
      exact ⟨rfl, hsame.symm, hkept hsame⟩
    · have hsame := not_not.mp hchanged
      exact ⟨hstarted, hsame.symm, hkept hsame⟩
  exact ⟨hshown.2.1, hshown.2.2, hshown.1, led, st, hshown.2.1, hshown.2.2, hstate.symm,
    henabled.symm⟩

end Render

namespace Panel

/-- How long the button was down at the last poll. -/
def held (p : Panel) : Nat :=
  if p.button.pressed then p.polledAt - p.pressedAt else 0

/-- What a gesture of that length comes to, going by the real time. -/
def gestureOf (safeMode : Bool) (held : Nat) : UiState :=
  if kFactoryHoldMs.toNat ≤ held then .factoryArmed
  else if kSafeHoldMs.toNat ≤ held then .safeModeArmed
  else if safeMode then .safeMode
  else .normal

theorem gestureOf_iff (safeMode : Bool) (held : Nat) :
    (gestureOf safeMode held = .safeModeArmed ↔
        kSafeHoldMs.toNat ≤ held ∧ held < kFactoryHoldMs.toNat) ∧
      (gestureOf safeMode held = .factoryArmed ↔ kFactoryHoldMs.toNat ≤ held) ∧
      (gestureOf safeMode held = .safeMode ↔ safeMode = true ∧ held < kSafeHoldMs.toNat) ∧
      (gestureOf safeMode held = .normal ↔ safeMode = false ∧ held < kSafeHoldMs.toNat) := by
  have hfive : kSafeHoldMs.toNat = 5000 := rfl
  have hten : kFactoryHoldMs.toNat = 10000 := rfl
  unfold gestureOf
  rw [hfive, hten]
  split_ifs with hfactory hsafe hmode
  · refine ⟨?_, ?_, ?_, ?_⟩ <;> simp <;> omega
  · refine ⟨?_, ?_, ?_, ?_⟩ <;> simp <;> omega
  · refine ⟨?_, ?_, ?_, ?_⟩ <;> simp [hmode] <;> omega
  · refine ⟨?_, ?_, ?_, ?_⟩ <;> simp [hmode] <;> omega

/-- Polls come in order, and nobody holds the button until the clock has come round. -/
def Timely (p : Panel) : PanelEvent → Prop
  | .poll time _ _ =>
      p.polledAt ≤ time ∧ (p.button.pressed = true → time < p.pressedAt + 2 ^ 32)
  | _ => True

structure Sound (hs : HsNames) (p : Panel) : Prop where
  shows : Shows hs p.led
  gesture : p.asked = none → p.led.state = gestureOf p.safeMode p.held
  pressed : p.button.pressed = true →
    p.button.pressStart = millis p.pressedAt ∧ p.pressedAt ≤ p.polledAt

/-- The button's own clock tells the real time. -/
theorem held_toNat {start time : Nat} (horder : start ≤ time) (hwrap : time < start + 2 ^ 32) :
    (millis time - millis start).toNat = time - start := by
  have hstart : (millis start).toNat = start % 2 ^ 32 := UInt32.toNat_ofNat'
  have htime : (millis time).toNat = time % 2 ^ 32 := UInt32.toNat_ofNat'
  rw [UInt32.toNat_sub, hstart, htime]
  omega

section Run

variable {hs : HsNames} {p : Panel}

/-- The LED after a call that sets the state and draws it. -/
theorem shows_set (h : Shows hs p.led) (st : StatusSince) (s : UiState) :
    Shows hs (p.led.setUiState hs st s) ∧ (p.led.setUiState hs st s).state = s := by
  have hkeyed : Keyed hs { p.led with state := s } := h.keyed
  exact ⟨(hkeyed.render h.1 st).2.2, (render_state hs _ st).1⟩

theorem hold_le {start time : Nat} (horder : start ≤ time) (hwrap : time < start + 2 ^ 32)
    (k : UInt32) : millis time - millis start ≥ k ↔ k.toNat ≤ time - start := by
  rw [ge_iff_le, UInt32.le_iff_toNat_le, held_toNat horder hwrap]

/-- A poll of a button that is up, or goes down. -/
theorem Sound.poll_free (h : p.Sound hs) (hasked : p.asked = none)
    (hfree : p.button.pressed = false) (time : Nat) (down : Bool) (st : StatusSince) :
    (p.poll hs time down st).Sound hs ∧ (p.poll hs time down st).asked = none := by
  have hstate := h.gesture hasked
  have hrest : p.held = 0 := by rw [held, hfree]; rfl
  rw [hrest] at hstate
  cases down with
  | false =>
      have hpoll : p.poll hs time false st = { p with polledAt := time } := by
        simp [Panel.poll, pollButton, buttonUi, hfree, hasked.symm]
      rw [hpoll]
      refine ⟨⟨h.shows, fun _ => ?_, fun hno => absurd (hfree.symm.trans hno) (by simp)⟩, hasked⟩
      rw [held, hfree]
      exact hstate
  | true =>
      have hpoll : p.poll hs time true st =
          { p with
            button := { pressed := true, pressStart := millis time }
            asked := none, pressedAt := time, polledAt := time } := by
        simp [Panel.poll, pollButton, buttonUi, hfree]
      rw [hpoll]
      refine ⟨⟨h.shows, fun _ => ?_, fun _ => ⟨rfl, le_rfl⟩⟩, rfl⟩
      have hnow : ({ p with
            button := { pressed := true, pressStart := millis time }
            asked := none, pressedAt := time, polledAt := time } : Panel).held = 0 := by
        simp [held]
      rw [hnow]
      exact hstate

/-- A poll of a button that is held: the LED follows the real time. -/
theorem Sound.poll_held (h : p.Sound hs) (hasked : p.asked = none)
    (hpressed : p.button.pressed = true) {time : Nat} {st : StatusSince}
    (htimely : p.Timely (.poll time true st)) : (p.poll hs time true st).Sound hs := by
  obtain ⟨hstart, horder⟩ := h.pressed hpressed
  have hlater : p.pressedAt ≤ time := horder.trans htimely.1
  have hle := hold_le hlater (htimely.2 hpressed)
  have hpoll : p.poll hs time true st =
      { p with
        asked := none
        polledAt := time
        led :=
          match buttonUi p.button p.safeMode (millis time) true with
          | none => p.led
          | some s => p.led.setUiState hs st s } := by
    simp [Panel.poll, pollButton, hpressed]
  have hui : buttonUi p.button p.safeMode (millis time) true =
      if kFactoryHoldMs.toNat ≤ time - p.pressedAt then some .factoryArmed
      else if kSafeHoldMs.toNat ≤ time - p.pressedAt then some .safeModeArmed
      else none := by
    simp only [buttonUi, hpressed, hstart, hle, Bool.not_true, Bool.false_eq_true, if_false,
      if_true]
  rw [hpoll, hui]
  have hheld : ∀ led : Led, ({ p with asked := none, polledAt := time, led := led } : Panel).held =
      time - p.pressedAt := by
    intro led
    rw [held]
    exact if_pos hpressed
  by_cases hfactory : kFactoryHoldMs.toNat ≤ time - p.pressedAt
  · rw [if_pos hfactory]
    obtain ⟨hshows, hset⟩ := shows_set h.shows st .factoryArmed
    refine ⟨hshows, fun _ => ?_, fun _ => ⟨hstart, hlater⟩⟩
    rw [hheld, gestureOf, if_pos hfactory]
    exact hset
  · rw [if_neg hfactory]
    by_cases hsafe : kSafeHoldMs.toNat ≤ time - p.pressedAt
    · rw [if_pos hsafe]
      obtain ⟨hshows, hset⟩ := shows_set h.shows st .safeModeArmed
      refine ⟨hshows, fun _ => ?_, fun _ => ⟨hstart, hlater⟩⟩
      rw [hheld, gestureOf, if_neg hfactory, if_pos hsafe]
      exact hset
    · rw [if_neg hsafe]
      refine ⟨h.shows, fun _ => ?_, fun _ => ⟨hstart, hlater⟩⟩
      have hbefore : p.held ≤ time - p.pressedAt := by
        rw [held, hpressed]
        exact Nat.sub_le_sub_right htimely.1 _
      have hstate := h.gesture hasked
      rw [gestureOf, if_neg (by omega), if_neg (by omega)] at hstate
      rw [hheld, gestureOf, if_neg hfactory, if_neg hsafe]
      exact hstate

/-- What a release asks for, by the real time the button was held. -/
theorem release_asked (h : p.Sound hs) (hpressed : p.button.pressed = true) {time : Nat}
    {st : StatusSince} (htimely : p.Timely (.poll time false st)) :
    (p.poll hs time false st).asked =
      if kFactoryHoldMs.toNat ≤ time - p.pressedAt then some .factoryReset
      else if kSafeHoldMs.toNat ≤ time - p.pressedAt then some .requestSafeModeReboot
      else none := by
  obtain ⟨hstart, horder⟩ := h.pressed hpressed
  have hle := hold_le (horder.trans htimely.1) (htimely.2 hpressed)
  simp only [Panel.poll, pollButton, hpressed, hstart, hle]
  simp

theorem Sound.poll_release (h : p.Sound hs) (hpressed : p.button.pressed = true) {time : Nat}
    {st : StatusSince} (htimely : p.Timely (.poll time false st)) :
    (p.poll hs time false st).Sound hs := by
  obtain ⟨hstart, horder⟩ := h.pressed hpressed
  have hle := hold_le (horder.trans htimely.1) (htimely.2 hpressed)
  have hreleased : (p.poll hs time false st).button.pressed = false := by
    simp [Panel.poll, pollButton, hpressed]
  have hled : (p.poll hs time false st).led =
      match buttonUi p.button p.safeMode (millis time) false with
      | none => p.led
      | some s => p.led.setUiState hs st s :=
    rfl
  have hui : buttonUi p.button p.safeMode (millis time) false =
      if kSafeHoldMs.toNat ≤ time - p.pressedAt then none
      else some (if p.safeMode then .safeMode else .normal) := by
    simp only [buttonUi, hpressed, hstart, hle, Bool.not_true, Bool.false_eq_true, if_false]
  have hup : (p.poll hs time false st).held = 0 := by
    rw [held, hreleased]
    rfl
  rw [hui] at hled
  by_cases hsafe : kSafeHoldMs.toNat ≤ time - p.pressedAt
  · rw [if_pos hsafe] at hled
    refine ⟨hled ▸ h.shows, fun hnone => ?_, fun hno => ?_⟩
    · rw [release_asked h hpressed htimely] at hnone
      split_ifs at hnone
    · rw [hreleased] at hno
      cases hno
  · rw [if_neg hsafe] at hled
    obtain ⟨hshows, hset⟩ :=
      shows_set h.shows st (if p.safeMode then .safeMode else .normal)
    refine ⟨hled ▸ hshows, fun _ => ?_, fun hno => ?_⟩
    · rw [hup, hled]
      exact hset
    · rw [hreleased] at hno
      cases hno

/-- Drawing again, or with another preference, keeps the state. -/
theorem Sound.redraw (h : p.Sound hs) (led : Led) (hkeyed : Keyed hs led)
    (hstarted : led.started = true) (hstate : led.state = p.led.state) (st : StatusSince) :
    ({ p with led := led.render hs st } : Panel).Sound hs := by
  refine ⟨(hkeyed.render hstarted st).2.2, fun hasked => ?_, h.pressed⟩
  change (led.render hs st).state = gestureOf p.safeMode p.held
  rw [(render_state hs led st).1, hstate]
  exact h.gesture hasked

theorem Sound.step (h : p.Sound hs) {e : PanelEvent} (htimely : p.Timely e) :
    (p.step hs e).Sound hs := by
  cases hasked : p.asked with
  | some action =>
      have hstays : p.step hs e = p := by simp [Panel.step, hasked]
      rw [hstays]
      exact h
  | none =>
      cases e with
      | poll time down st =>
          have hpoll : p.step hs (.poll time down st) = p.poll hs time down st := by
            simp [Panel.step, hasked]
          rw [hpoll]
          cases hpressed : p.button.pressed with
          | false => exact (h.poll_free hasked hpressed time down st).1
          | true =>
              cases down with
              | true => exact h.poll_held hasked hpressed htimely
              | false => exact h.poll_release hpressed htimely
      | ledEnabled enabled st =>
          have hdraw : p.step hs (.ledEnabled enabled st) =
              { p with led := { p.led with ledEnabled := enabled }.render hs st } := by
            simp [Panel.step, hasked, Led.setLedEnabled]
          rw [hdraw]
          exact h.redraw { p.led with ledEnabled := enabled } h.shows.keyed h.shows.1 rfl st
      | update st =>
          have hdraw : p.step hs (.update st) = { p with led := p.led.render hs st } := by
            simp [Panel.step, hasked]
          rw [hdraw]
          exact h.redraw p.led h.shows.keyed h.shows.1 rfl st

theorem boot_sound (safeMode ledEnabled : Bool) (ui recovery enabled : StatusSince) :
    (boot hs safeMode ledEnabled ui recovery enabled).Sound hs := by
  let fresh : Panel := { led := { lastRealStatus := hs.wifiNeeded, started := true }, safeMode }
  have hinit : Shows hs (fresh.led.setUiState hs ui .normal) ∧
      (fresh.led.setUiState hs ui .normal).state = .normal := by
    have hkeyed : Keyed hs { fresh.led with state := .normal } := by
      intro key hkey
      cases hkey
    exact ⟨(hkeyed.render rfl ui).2.2, (render_state hs _ ui).1⟩
  let began : Panel :=
    { fresh with
      led :=
        if safeMode then (fresh.led.setUiState hs ui .normal).setUiState hs recovery .safeMode
        else fresh.led.setUiState hs ui .normal }
  have hbegan : began.Sound hs := by
    cases safeMode with
    | false => exact ⟨hinit.1, fun _ => hinit.2, fun hno => (by cases hno)⟩
    | true =>
        obtain ⟨hshows, hstate⟩ := shows_set
          (p := { fresh with led := fresh.led.setUiState hs ui .normal }) hinit.1 recovery .safeMode
        exact ⟨hshows, fun _ => hstate, fun hno => (by cases hno)⟩
  exact hbegan.redraw { began.led with ledEnabled := ledEnabled } hbegan.shows.keyed
    hbegan.shows.1 rfl enabled

theorem run_sound (safeMode ledEnabled : Bool) (ui recovery enabled : StatusSince)
    {events : List PanelEvent}
    (htimely : (machine hs safeMode ledEnabled ui recovery enabled).Guarded Timely events) :
    ((machine hs safeMode ledEnabled ui recovery enabled).run events).Sound hs :=
  StateMachine.guarded_run_induction _ (P := fun _ p => p.Sound hs)
    (boot_sound safeMode ledEnabled ui recovery enabled) (fun _ _ he h => h.step he) events htimely

/-- A button that was down for some time is still down, and letting go counts the rest. -/
theorem Sound.release (h : p.Sound hs) (hasked : p.asked = none) (hheld : 0 < p.held) {time : Nat}
    {st : StatusSince} (htimely : p.Timely (.poll time false st)) :
    p.held ≤ time - p.pressedAt ∧
      (p.step hs (.poll time false st)).asked =
        if kFactoryHoldMs.toNat ≤ time - p.pressedAt then some .factoryReset
        else if kSafeHoldMs.toNat ≤ time - p.pressedAt then some .requestSafeModeReboot
        else none := by
  have hpressed : p.button.pressed = true := by
    by_contra hup
    rw [held, if_neg hup] at hheld
    exact absurd hheld (Nat.lt_irrefl 0)
  have hpoll : p.step hs (.poll time false st) = p.poll hs time false st := by
    simp [Panel.step, hasked]
  refine ⟨?_, ?_⟩
  · rw [held, if_pos hpressed]
    exact Nat.sub_le_sub_right htimely.1 _
  · rw [hpoll]
    exact release_asked h hpressed htimely

/-- While the device runs, the LED is amber exactly when the BOOT button has been down for at
least five seconds and less than ten, red from ten seconds on, and else blue exactly in safe
mode; it is dark only outside these when the user has switched it off.  Letting go then resets
the device when the LED is red, and restarts it (into safe mode, or reset when the ten seconds
have passed meanwhile) when it is amber. -/
theorem led_tells (safeMode ledEnabled : Bool) (ui recovery enabled : StatusSince)
    {events : List PanelEvent}
    (htimely : (machine hs safeMode ledEnabled ui recovery enabled).Guarded Timely events) :
    let p := (machine hs safeMode ledEnabled ui recovery enabled).run events
    p.asked = none →
      (p.led.pixel = some ⟨255, 120, 0⟩ ↔
          kSafeHoldMs.toNat ≤ p.held ∧ p.held < kFactoryHoldMs.toNat) ∧
        (p.led.pixel = some ⟨255, 0, 0⟩ ↔ kFactoryHoldMs.toNat ≤ p.held) ∧
        (p.led.pixel = some ⟨0, 60, 255⟩ ↔ p.safeMode = true ∧ p.held < kSafeHoldMs.toNat) ∧
        (p.led.pixel = some ⟨0, 0, 0⟩ → p.safeMode = false ∧ p.held < kSafeHoldMs.toNat ∧
          p.led.ledEnabled = false) ∧
        ∀ time st, p.Timely (.poll time false st) →
          (p.led.pixel = some ⟨255, 0, 0⟩ →
            (p.step hs (.poll time false st)).asked = some .factoryReset) ∧
          (p.led.pixel = some ⟨255, 120, 0⟩ →
            (p.step hs (.poll time false st)).asked =
              some (if kFactoryHoldMs.toNat ≤ time - p.pressedAt then .factoryReset
                else .requestSafeModeReboot)) := by
  intro p hasked
  have hsound : p.Sound hs := run_sound safeMode ledEnabled ui recovery enabled htimely
  obtain ⟨-, before, shown, -, hpixel, hbefore, henabled⟩ := hsound.shows
  obtain ⟨hamber, hred, hblue, hdark⟩ := picture_state hs before shown
  obtain ⟨hsafe, hfactory, hmode, hnormal⟩ := gestureOf_iff p.safeMode p.held
  rw [hbefore, hsound.gesture hasked] at hamber hred hblue hdark
  simp only [hpixel, Option.some.injEq]
  refine ⟨hamber.trans hsafe, hred.trans hfactory, hblue.trans hmode, fun h => ?_,
    fun time st htime => ⟨fun h => ?_, fun h => ?_⟩⟩
  · obtain ⟨hstate, hoff⟩ := hdark h
    obtain ⟨hno, hshort⟩ := hnormal.mp hstate
    exact ⟨hno, hshort, henabled ▸ hoff⟩
  · have hlong := hfactory.mp (hred.mp h)
    have hten : kFactoryHoldMs.toNat = 10000 := rfl
    obtain ⟨hmore, hrelease⟩ := hsound.release hasked (by omega) htime
    rw [hrelease, if_pos (hlong.trans hmore)]
  · obtain ⟨hlong, -⟩ := hsafe.mp (hamber.mp h)
    have hfive : kSafeHoldMs.toNat = 5000 := rfl
    obtain ⟨hmore, hrelease⟩ := hsound.release hasked (by omega) htime
    rw [hrelease, if_pos (hlong.trans hmore)]
    split_ifs <;> rfl

theorem someNames_distinct : ([0, 2, 3, 4, 15] : List HsStatus).Nodup := by decide

def someNames : HsNames where
  wifiNeeded := 0
  pairingNeeded := 2
  paired := 3
  connected := 4
  otaStarted := 15
  distinct := someNames_distinct

/-- The button is pressed at one second and still down at twelve. -/
def longPress : List PanelEvent :=
  [.poll 1000 true (3, 5), .update (3, 5), .poll 12000 true (3, 16), .update (4, 0)]

theorem led_tells_long_press :
    ((machine someNames false true (0, 0) (0, 0) (3, 1)).run longPress).led.pixel =
        some ⟨255, 0, 0⟩ ∧
      (((machine someNames false true (0, 0) (0, 0) (3, 1)).run longPress).step someNames
        (.poll 13000 false (4, 1))).asked = some .factoryReset := by
  have hfirst : (machine someNames false true (0, 0) (0, 0) (3, 1)).Guarded Timely
      [PanelEvent.poll 1000 true (3, 5)] :=
    (StateMachine.Guarded.nil _ Timely).concat ⟨by decide, fun _ => by decide⟩
  have hdrawn : (machine someNames false true (0, 0) (0, 0) (3, 1)).Guarded Timely
      ([PanelEvent.poll 1000 true (3, 5)] ++ [PanelEvent.update (3, 5)]) :=
    hfirst.concat trivial
  have hlong : (machine someNames false true (0, 0) (0, 0) (3, 1)).Guarded Timely
      ([PanelEvent.poll 1000 true (3, 5), .update (3, 5)] ++
        [PanelEvent.poll 12000 true (3, 16)]) :=
    hdrawn.concat ⟨by decide, fun _ => by decide⟩
  have hall : (machine someNames false true (0, 0) (0, 0) (3, 1)).Guarded Timely
      ([PanelEvent.poll 1000 true (3, 5), .update (3, 5), .poll 12000 true (3, 16)] ++
        [PanelEvent.update (4, 0)]) :=
    hlong.concat trivial
  obtain ⟨-, hred, -, -, hrelease⟩ :=
    led_tells false true (0, 0) (0, 0) (3, 1) hall (by decide)
  have hshown := hred.mpr (by decide)
  exact ⟨hshown, (hrelease 13000 (4, 1) ⟨by decide, fun _ => by decide⟩).1 hshown⟩

end Run

end Panel

end RfIrBlaster.Recovery
