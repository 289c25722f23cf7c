/-
The receivers and transmitters over whole runs: whatever is armed, disarmed, polled and sent in
whatever order, and whatever each call answers, the firmware keeps to the order of use and
leaves nothing behind.
-/
import RfIrBlaster.RadioHardware
import RfIrBlaster.StateMachine

namespace RfIrBlaster.Transmit

/-- The IR side as the learn window sees it. -/
def RxSide.irReceiver (s : RxSide) : IrReceiver :=
  ⟨s.rx, s.rxEnabled, s.enabled_has_channel⟩

/-- The side of a band as the learn window sees it. -/
def RxSide.rfBand (s : RxSide) : RfIrBlaster.RfBand :=
  ⟨s.rx, s.rxEnabled⟩

def Radios.receivers (d : Radios) : Receivers where
  ir := d.ir.irReceiver
  band315 := (d.band .band315).rfBand
  band433 := (d.band .band433).rfBand

/-- What the senders read of the statics. -/
def Radios.transmitter (d : Radios) (driver : RmtDriver) : Transmitter where
  rx := fun b => (d.band b).rx
  rxEnabled := d.ir.rxEnabled
  rfTxBuf := d.rfTxBuf
  irTxBuf := d.irTxBuf
  driver := driver

/-- `startLearn` on the receivers. -/
def Radios.startLearn (d : Radios) : CallProgram Call Radios :=
  d.startIRRx.andThen fun d => (d.startRFRx 315).andThen fun d => d.startRFRx 433

/-- `cancelLearn` on the receivers. -/
def Radios.cancelLearn (d : Radios) : CallProgram Call Radios :=
  d.stopIRRx.andThen fun d => (d.stopRFRx 315).andThen fun d => d.stopRFRx 433

def Keying.frame (k : Keying) : Frame :=
  ⟨k.channel, k.symbols⟩

/-- The frame of a send that is ready to go: the driver has it where the send answers `true`. -/
def keyedFrames (keying : Option Keying) (sent : Bool) : List Frame :=
  if sent then keying.toList.map Keying.frame else []

/-- One call of the radio code by the rest of the firmware, or a frame coming in. -/
inductive RadioEvent where
  | startIRRx
  | stopIRRx
  | pollIRBurst
  | irFrame
  | startRFRx (freqMHz : UInt16)
  | stopRFRx (freqMHz : UInt16)
  | pollRFBurst (freqMHz : UInt16)
  | rfFrame (b : RfBand)
  | sendRFCode (freqMHz : UInt16) (code : RFCode)
  | sendIR (code : IRCode)

/-- The statics, and for each send that answered `true` the frame it had to send. -/
structure RadioRun where
  radios : Radios
  sent : List (Option Frame)

namespace RadioRun

def received (r : RadioRun) (d : Radios) : CallProgram Call RadioRun :=
  .done { r with radios := d }

def answered (r : RadioRun) (keying : Option Keying) (out : Radios × Bool) :
    CallProgram Call RadioRun :=
  .done { radios := out.1, sent := r.sent ++ if out.2 then [keying.map Keying.frame] else [] }

/-- `setup` parks the LED before anything else. -/
def boot : CallProgram Call RadioRun :=
  .call .parkIRTx fun _ =>
    Radios.initRadios.andThen fun _ => (Radios.initIR {}).andThen fun d => .done ⟨d, []⟩

def program (r : RadioRun) : RadioEvent → CallProgram Call RadioRun
  | .startIRRx => r.radios.startIRRx.andThen r.received
  | .stopIRRx => r.radios.stopIRRx.andThen r.received
  | .pollIRBurst => r.radios.pollIRBurst.andThen r.received
  | .irFrame => r.received { r.radios with ir := Radios.received r.radios.ir }
  | .startRFRx freqMHz => (r.radios.startRFRx freqMHz).andThen r.received
  | .stopRFRx freqMHz => (r.radios.stopRFRx freqMHz).andThen r.received
  | .pollRFBurst freqMHz => (r.radios.pollRFBurst freqMHz).andThen r.received
  | .rfFrame b => r.received (r.radios.setBand b (Radios.received (r.radios.band b)))
  | .sendRFCode freqMHz code =>
      (r.radios.sendRFCode freqMHz code).andThen
        (r.answered (Transmit.sendRFCode (r.radios.transmitter {}) freqMHz code))
  | .sendIR code =>
      (r.radios.sendIR code).andThen
        (r.answered (Transmit.sendIR (r.radios.transmitter {}) code))

/-- What is held fits the statics, and each send that answered `true` had a frame accepted. -/
structure Fits (r : RadioRun) (s : Held) : Prop where
  held : s = Held.of r.radios s.accepted
  sent : r.sent = s.accepted.map some

end RadioRun

/-- After a reset nothing is held; the radios go on with what they were last told. -/
def Held.atReset (radio : RfBand → Marc) (parked : Bool) : Held where
  tx := fun _ => none
  rx := fun _ => none
  encoder := false
  radio := radio
  parked := parked
  accepted := []

theorem deaf_of_free {s : RxSide} (hfree : s.rx = false) : s.rxEnabled = false := by
  by_contra hon
  rw [s.enabled_has_channel (Bool.eq_true_of_not_eq_false hon)] at hfree
  cases hfree

section Places

variable (d : Radios) (accepted : List Frame)

theorem of_irRx : Held.of d accepted = (Held.of d accepted).put .irRx none d.ir.channel :=
  (put_self (Held.of d accepted) .irRx).symm

theorem of_led : Held.of d accepted = (Held.of d accepted).put .irTx none none :=
  (put_self (Held.of d accepted) .irTx).symm

theorem of_band (b : RfBand) :
    Held.of d accepted = (Held.of d accepted).put (.gdo0 b) none (d.band b).channel :=
  (put_self (Held.of d accepted) (.gdo0 b)).symm

theorem of_free {b : RfBand} (hfree : (d.band b).rx = false) :
    Held.of d accepted = (Held.of d accepted).put (.gdo0 b) none none := by
  have hnone : (d.band b).channel = none := by simp [RxSide.channel, hfree]
  rw [← hnone]
  exact of_band d accepted b

/-- Each radio has been told what its side is for. -/
theorem tell_marc (b : RfBand) :
    (Held.of d accepted).tell b (d.band b).marc = Held.of d accepted := by
  unfold Held.tell
  exact congrArg (fun radio => ({ Held.of d accepted with radio := radio } : Held))
    (Function.update_eq_self b (Held.of d accepted).radio)

theorem tell_idle {b : RfBand} (hoff : (d.band b).rxEnabled = false) :
    (Held.of d accepted).tell b .idle = Held.of d accepted := by
  have hmarc : (d.band b).marc = .idle := by simp [RxSide.marc, hoff]
  rw [← hmarc, tell_marc]

theorem of_setBand (b : RfBand) (side : RxSide) :
    Held.of (d.setBand b side) accepted =
      ((Held.of d accepted).tell b side.marc).put (.gdo0 b) none side.channel := by
  unfold Held.of Held.put Held.tell Radios.setBand
  congr 1
  · simp
  · funext pad
    cases pad with
    | gdo0 b' =>
        by_cases hb : b' = b
        · simp [hb]
        · simp [Function.update_of_ne, hb]
    | _ => simp
  · funext b'
    by_cases hb : b' = b
    · simp [hb]
    · simp [Function.update_of_ne, hb]

theorem of_setIr (side : RxSide) :
    Held.of { d with ir := side } accepted =
      (Held.of d accepted).put .irRx none side.channel := by
  unfold Held.of Held.put
  congr 1
  · simp
  · funext pad
    cases pad <;> simp

end Places

section Receive

variable {d : Radios} {accepted : List Frame} {b : RfBand}

/-- What arming a band comes to: the statics name what is held, and the side of the band is one
that the learn window has for some answers. -/
structure Armed (d : Radios) (b : RfBand) (accepted : List Frame) (d' : Radios) (s : Held) :
    Prop where
  held : s = Held.of d' accepted
  others : d' = d.setBand b (d'.band b)
  window : ∃ answers, (d'.band b).rfBand = RfIrBlaster.armBand (d.band b).rfBand answers

theorem armed_setBand {side : RxSide} (answers : ArmAnswers)
    (hwindow : side.rfBand = RfIrBlaster.armBand (d.band b).rfBand answers) :
    Armed d b accepted (d.setBand b side)
      (((Held.of d accepted).tell b side.marc).put (.gdo0 b) none side.channel) := by
  have hside : (d.setBand b side).band b = side := by simp [Radios.setBand]
  exact ⟨(of_setBand d accepted b side).symm, by rw [hside], answers, by rw [hside]; exact hwindow⟩

/-- Where no channel is left. -/
theorem armed_off (hoff : (d.band b).rxEnabled = false) (answers : ArmAnswers)
    (hwindow : RxSide.off.rfBand = RfIrBlaster.armBand (d.band b).rfBand answers) :
    Armed d b accepted (d.setBand b .off) ((Held.of d accepted).put (.gdo0 b) none none) := by
  have harmed := @armed_setBand d accepted b .off answers hwindow
  change Armed d b accepted _ (((Held.of d accepted).tell b .idle).put (.gdo0 b) none none)
    at harmed
  rwa [tell_idle d accepted hoff] at harmed

theorem ensures_listenBand (d : Radios) (accepted : List Frame) (b : RfBand) :
    rmtOrder.Ensures (d.listenBand b) (Armed d b accepted)
      ((Held.of d accepted).put (.gdo0 b) none (some (d.band b).rxEnabled)) := by
  have hlisten : rmtOrder.Ensures
      (.call (.strobe b .srx) fun _ =>
        .call (.receive (.gdo0 b)) fun _ => .done (d.setBand b { rx := true, rxEnabled := true }))
      (Armed d b accepted) ((Held.of d accepted).put (.gdo0 b) none (some true)) := by
    refine ensures_strobeRx fun _ => ensures_receive fun _ => .done ?_
    apply armed_setBand ⟨true, true, true⟩
    have hchannel := (d.band b).enabled_has_channel
    unfold RxSide.rfBand RfIrBlaster.armBand
    cases hrx : (d.band b).rx <;> cases henabled : (d.band b).rxEnabled <;> simp_all
  unfold Radios.listenBand
  cases henabled : (d.band b).rxEnabled with
  | true => exact hlisten
  | false =>
      refine ensures_enableRx ?_ hlisten
      refine ensures_delRx fun _ => .done (armed_off henabled ⟨true, true, false⟩ ?_)
      unfold RxSide.rfBand RfIrBlaster.armBand
      cases hrx : (d.band b).rx <;> simp [henabled]

theorem ensures_armBand (d : Radios) (accepted : List Frame) (b : RfBand) :
    rmtOrder.Ensures (d.armBand b) (Armed d b accepted) (Held.of d accepted) := by
  unfold Radios.armBand
  have hlisten := ensures_listenBand d accepted b
  cases hrx : (d.band b).rx with
  | true =>
      have hchannel : (d.band b).channel = some (d.band b).rxEnabled := by
        simp [RxSide.channel, hrx]
      rw [of_band d accepted b, hchannel]
      exact hlisten
  | false =>
      have hoff := deaf_of_free hrx
      rw [hoff] at hlisten
      rw [of_free d accepted hrx]
      refine ensures_newRx ?_ ?_
      · refine .done (armed_off hoff ⟨false, true, true⟩ ?_)
        simp [RxSide.rfBand, RfIrBlaster.armBand, hrx, hoff]
      refine ensures_registerEventCallbacks fun ok => ?_
      cases ok with
      | true => exact hlisten
      | false =>
          refine ensures_delRx fun _ => .done (armed_off hoff ⟨true, false, true⟩ ?_)
          simp [RxSide.rfBand, RfIrBlaster.armBand, hrx, hoff]

theorem ensures_disarmBand (d : Radios) (accepted : List Frame) (b : RfBand) :
    rmtOrder.Ensures (d.disarmBand b) (fun d' s => d' = d.setBand b .off ∧ s = Held.of d' accepted)
      (Held.of d accepted) := by
  have hdone : ∀ s, s = ((Held.of d accepted).tell b .idle).put (.gdo0 b) none none →
      d.setBand b .off = d.setBand b .off ∧ s = Held.of (d.setBand b .off) accepted :=
    fun s hs => ⟨rfl, hs.trans (of_setBand d accepted b .off).symm⟩
  unfold Radios.disarmBand
  rw [of_band d accepted b]
  refine ensures_strobeIdle rfl fun _ => ?_
  change rmtOrder.Ensures _ _ (((Held.of d accepted).tell b .idle).put (.gdo0 b) none _)
  cases hrx : (d.band b).rx with
  | false =>
      have hoff := deaf_of_free hrx
      rw [hoff]
      refine .done (hdone _ ?_)
      simp [RxSide.channel, hrx]
  | true =>
      have hchannel : (d.band b).channel = some (d.band b).rxEnabled := by
        simp [RxSide.channel, hrx]
      rw [hchannel]
      cases (d.band b).rxEnabled with
      | false => exact ensures_delRx fun _ => .done (hdone _ rfl)
      | true => exact ensures_disableRx fun _ => ensures_delRx fun _ => .done (hdone _ rfl)

theorem ensures_startRFRx (d : Radios) (accepted : List Frame) (freqMHz : UInt16) :
    rmtOrder.Ensures (d.startRFRx freqMHz) (fun d' s => s = Held.of d' accepted)
      (Held.of d accepted) := by
  unfold Radios.startRFRx
  cases bandFor freqMHz with
  | none => exact .done rfl
  | some b => exact (ensures_armBand d accepted b).mono fun _ _ harmed => harmed.held

theorem ensures_stopRFRx (d : Radios) (accepted : List Frame) (freqMHz : UInt16) :
    rmtOrder.Ensures (d.stopRFRx freqMHz) (fun d' s => s = Held.of d' accepted)
      (Held.of d accepted) := by
  unfold Radios.stopRFRx
  cases bandFor freqMHz with
  | none => exact .done rfl
  | some b => exact (ensures_disarmBand d accepted b).mono fun _ _ hoff => hoff.2

theorem ensures_pollRFBurst (d : Radios) (accepted : List Frame) (freqMHz : UInt16) :
    rmtOrder.Ensures (d.pollRFBurst freqMHz) (fun d' s => s = Held.of d' accepted)
      (Held.of d accepted) := by
  unfold Radios.pollRFBurst
  cases bandFor freqMHz with
  | none => exact .done rfl
  | some b =>
      dsimp only
      split_ifs with hnone
      · exact .done rfl
      · have hready : (d.band b).frameReady = true := by
          simp only [Bool.or_eq_true, not_or, Bool.not_eq_true, Bool.not_eq_false'] at hnone
          exact hnone.2
        have henabled := (d.band b).ready_is_enabled hready
        have hrx := (d.band b).enabled_has_channel henabled
        have hchannel : (d.band b).channel = some true := by
          simp [RxSide.channel, hrx, henabled]
        rw [of_band d accepted b, hchannel]
        refine ensures_receive fun _ => .done ?_
        rw [of_setBand, ← hchannel]
        exact congrArg (fun s => Held.put s (.gdo0 b) none (d.band b).channel)
          (tell_marc d accepted b).symm

/-- What arming the IR receiver comes to. -/
structure IrSet (d : Radios) (accepted : List Frame) (side : IrReceiver) (d' : Radios)
    (s : Held) : Prop where
  held : s = Held.of d' accepted
  others : d'.band = d.band
  window : d'.ir.irReceiver = side

theorem ensures_startIRRx (d : Radios) (accepted : List Frame) :
    rmtOrder.Ensures d.startIRRx (fun d' s => ∃ answers,
      IrSet d accepted (RfIrBlaster.startIRRx d.ir.irReceiver answers) d' s)
      (Held.of d accepted) := by
  have henabled := d.ir.enabled_has_channel
  unfold Radios.startIRRx
  cases hrx : d.ir.rx with
  | false => exact .done ⟨{}, rfl, rfl, by simp [RfIrBlaster.startIRRx, RxSide.irReceiver, hrx]⟩
  | true =>
      have hdone : IrSet d accepted (RfIrBlaster.startIRRx d.ir.irReceiver {})
          { d with ir := { rx := true, rxEnabled := true } }
          ((Held.of d accepted).put .irRx none (some true)) := by
        refine ⟨(of_setIr d accepted { rx := true, rxEnabled := true }).symm, rfl, ?_⟩
        cases hon : d.ir.rxEnabled <;> simp [RfIrBlaster.startIRRx, RxSide.irReceiver, hrx, hon]
      have hchannel : d.ir.channel = some d.ir.rxEnabled := by simp [RxSide.channel, hrx]
      cases hon : d.ir.rxEnabled with
      | true =>
          rw [of_irRx d accepted, hchannel, hon]
          exact ensures_receive fun _ => .done ⟨{}, hdone⟩
      | false =>
          rw [of_irRx d accepted, hchannel, hon]
          refine ensures_enableRx (.done ⟨{ enable := false }, ?_, rfl, ?_⟩)
            (ensures_receive fun _ => .done ⟨{}, hdone⟩)
          · rw [← hon, ← hchannel, ← of_irRx]
          · simp [RfIrBlaster.startIRRx, RxSide.irReceiver, hrx, hon]

theorem ensures_stopIRRx (d : Radios) (accepted : List Frame) :
    rmtOrder.Ensures d.stopIRRx
      (IrSet d accepted (RfIrBlaster.stopIRRx d.ir.irReceiver)) (Held.of d accepted) := by
  unfold Radios.stopIRRx
  cases hon : d.ir.rxEnabled with
  | false =>
      rw [Bool.not_false, Bool.or_true, if_pos rfl]
      exact .done ⟨rfl, rfl, by simp [RfIrBlaster.stopIRRx, RxSide.irReceiver, hon]⟩
  | true =>
      have hrx := d.ir.enabled_has_channel hon
      have hchannel : d.ir.channel = some true := by simp [RxSide.channel, hrx, hon]
      rw [hrx, of_irRx d accepted, hchannel]
      refine ensures_disableRx fun _ => .done ⟨(of_setIr d accepted { rx := true }).symm, rfl, ?_⟩
      simp [RfIrBlaster.stopIRRx, RxSide.irReceiver, hrx, hon]

theorem ensures_pollIRBurst (d : Radios) (accepted : List Frame) :
    rmtOrder.Ensures d.pollIRBurst (fun d' s => s = Held.of d' accepted) (Held.of d accepted) := by
  unfold Radios.pollIRBurst
  split_ifs with hnone
  · exact .done rfl
  · have hready : d.ir.frameReady = true := by
      simp only [Bool.or_eq_true, not_or, Bool.not_eq_true, Bool.not_eq_false'] at hnone
      exact hnone.2
    have henabled := d.ir.ready_is_enabled hready
    have hchannel : d.ir.channel = some true := by
      simp [RxSide.channel, d.ir.enabled_has_channel henabled, henabled]
    rw [of_irRx d accepted, hchannel]
    refine ensures_receive fun _ => .done ?_
    rw [← hchannel]
    exact (of_setIr d accepted _).symm

@[simp]
theorem received_channel (s : RxSide) : (Radios.received s).channel = s.channel := by
  unfold Radios.received
  split_ifs <;> rfl

@[simp]
theorem received_marc (s : RxSide) : (Radios.received s).marc = s.marc := by
  unfold Radios.received
  split_ifs <;> rfl

/-- A frame that waits to be read changes nothing that is held. -/
theorem of_irFrame (d : Radios) (accepted : List Frame) :
    Held.of { d with ir := Radios.received d.ir } accepted = Held.of d accepted := by
  rw [of_setIr, received_channel, ← of_irRx]

theorem of_rfFrame (d : Radios) (accepted : List Frame) (b : RfBand) :
    Held.of (d.setBand b (Radios.received (d.band b))) accepted = Held.of d accepted := by
  rw [of_setBand, received_channel, received_marc, tell_marc, ← of_band]

end Receive

section Learn

variable (d : Radios) (accepted : List Frame)

/-- The answers of the three sources together. -/
def sourceAnswers (ir rf315 rf433 : ArmAnswers) : Source → ArmAnswers
  | .ir => ir
  | .rf315 => rf315
  | .rf433 => rf433

theorem setBand_other (b b' : RfBand) (side : RxSide) (h : b' ≠ b) :
    (d.setBand b side).band b' = d.band b' :=
  Function.update_of_ne h _ _

/-- Arming everything is what the learn window's own model says, for some answers. -/
theorem ensures_startLearn :
    rmtOrder.Ensures d.startLearn
      (fun d' s => s = Held.of d' accepted ∧
        ∃ answers, d'.receivers = d.receivers.startAll answers)
      (Held.of d accepted) := by
  refine (ensures_startIRRx d accepted).andThen fun d₁ s₁ hir => ?_
  obtain ⟨ir, rfl, hband, hside⟩ := hir
  refine (ensures_armBand d₁ accepted .band315).andThen fun d₂ s₂ h315 => ?_
  obtain ⟨rfl, hset315, rf315, hrf315⟩ := h315
  refine (ensures_armBand d₂ accepted .band433).mono fun d₃ s₃ h433 => ?_
  obtain ⟨hheld, hset433, rf433, hrf433⟩ := h433
  refine ⟨hheld, sourceAnswers ir rf315 rf433, ?_⟩
  unfold Radios.receivers Receivers.startAll
  congr 1
  · rw [hset433, hset315]
    exact hside
  · rw [hset433, setBand_other _ _ _ _ (by decide), hrf315, hband]
    rfl
  · rw [hrf433, hset315, setBand_other _ _ _ _ (by decide), hband]
    rfl

/-- And so is disarming it. -/
theorem ensures_cancelLearn :
    rmtOrder.Ensures d.cancelLearn
      (fun d' s => s = Held.of d' accepted ∧ d'.receivers = d.receivers.stopAll)
      (Held.of d accepted) := by
  refine (ensures_stopIRRx d accepted).andThen fun d₁ s₁ hir => ?_
  obtain ⟨rfl, hband, hside⟩ := hir
  refine (ensures_disarmBand d₁ accepted .band315).andThen fun d₂ s₂ h315 => ?_
  obtain ⟨rfl, rfl⟩ := h315
  refine (ensures_disarmBand _ accepted .band433).mono fun d₃ s₃ h433 => ?_
  obtain ⟨rfl, hheld⟩ := h433
  refine ⟨hheld, ?_⟩
  unfold Radios.receivers Receivers.stopAll
  congr 1

end Learn

section Send

variable {d : Radios} {accepted : List Frame} {b : RfBand}

/-- How a send comes out that fires `fire` of the driver's answers: it answers what it does for
some of them, and what is held changes by its frame where it answers `true`. -/
structure Sent (fire : RmtDriver → Option Keying) (accepted : List Frame) (out : Radios × Bool)
    (s : Held) : Prop where
  answered : ∃ driver, out.2 = (fire driver).any Keying.sent
  fired : out.2 = true → (fire {}).isSome
  held : s = Held.of out.1 (accepted ++ keyedFrames (fire {}) out.2)

theorem sent_refused {fire : RmtDriver → Option Keying} (driver : RmtDriver)
    (hfire : fire driver = none) : Sent fire accepted (d, false) (Held.of d accepted) := by
  refine ⟨⟨driver, by rw [hfire]; rfl⟩, fun h => absurd h Bool.false_ne_true, ?_⟩
  rw [keyedFrames, if_neg Bool.false_ne_true, List.append_nil]

/-- What is held once a frame has been handed over, or has not. -/
def Held.keyed (s : Held) (frame : Frame) (sent : Bool) : Held :=
  { s with accepted := s.accepted ++ if sent then [frame] else [] }

theorem keyed_false (s : Held) (frame : Frame) : s.keyed frame false = s := by
  simp [Held.keyed]

theorem ensures_transmitWords {s : Held} {pad : Pad} {t : TxHandle} {rx : Option Bool}
    (frame : Frame) (henc : s.encoder = true) (hon : t.enabled = true)
    (hcarrier : (s.put pad (some t) rx).carrier t pad = some frame.channel) :
    rmtOrder.Ensures (Radios.transmitWords pad frame.words)
      (fun sent s' => s' = (s.keyed frame sent).put pad (some t) rx) (s.put pad (some t) rx) := by
  refine ensures_transmit henc hon hcarrier (.done ?_)
    (ensures_waitAllDone hon fun _ => .done rfl)
  rw [keyed_false]

/-- After a send on a band that no receiver holds. -/
theorem left_band (hfree : (d.band b).rx = false) (m : Marc) (frame : Frame) (sent : Bool)
    (buf : TxBuffer) :
    ((((((Held.of d accepted).setEncoder true).tell b m).keyed frame sent).tell b .idle
      |>.setEncoder false).unpark (.gdo0 b)).put (.gdo0 b) none none =
      Held.of { d with rfTxBuf := buf } (accepted ++ if sent then [frame] else []) := by
  have hoff := deaf_of_free hfree
  have htwice : Function.update (Function.update (Held.of d accepted).radio b m) b .idle =
      Function.update (Held.of d accepted).radio b .idle :=
    Function.update_idem ..
  calc
    _ = (((Held.of d accepted).tell b .idle).put (.gdo0 b) none none).keyed frame sent := by
      unfold Held.tell Held.setEncoder Held.keyed Held.unpark Held.put
      rw [← htwice]
      rfl
    _ = (Held.of d accepted).keyed frame sent := by
      rw [tell_idle d accepted hoff, ← of_free d accepted hfree]
    _ = _ := rfl

/-- The place after the keying of a band, with the radio told to transmit if there was a word. -/
structure BandKeyed (d : Radios) (accepted : List Frame) (b : RfBand) (k : Keying) (sent : Bool)
    (s : Held) : Prop where
  words : sent = true → 0 < k.count
  place : ∃ m, s = ((((Held.of d accepted).setEncoder true).tell b m).keyed k.frame sent).put
    (.gdo0 b) (some { enabled := true }) none

theorem ensures_keyBand (k : Keying) (hchannel : k.channel = .rf b) :
    rmtOrder.Ensures
      (if 0 < k.count then
        .call (.strobe b .stx) fun _ => Radios.transmitWords (.gdo0 b) k.symbols
      else .done false)
      (BandKeyed d accepted b k)
      (((Held.of d accepted).setEncoder true).put (.gdo0 b) (some { enabled := true }) none) := by
  split_ifs with hcount
  · refine ensures_strobeTx rfl fun _ => ?_
    refine (ensures_transmitWords k.frame rfl rfl ?_).mono ?_
    · rw [Keying.frame, hchannel]
      simp [Held.carrier, Held.put, Held.tell]
    · rintro sent s' rfl
      exact ⟨fun _ => hcount, .tx, rfl⟩
  · refine .done ⟨fun h => absurd h Bool.false_ne_true, (Held.of d accepted).radio b, ?_⟩
    have htold : Function.update (Held.of d accepted).radio b ((Held.of d accepted).radio b) =
        (Held.of d accepted).radio :=
      Function.update_eq_self b _
    rw [keyed_false]
    unfold Held.setEncoder Held.tell
    rw [htold]

/-- The teardown, of the place the keying left. -/
theorem ensures_closeBand (hfree : (d.band b).rx = false) {k : Keying} {sent : Bool}
    {s : Held} (hkeyed : BandKeyed d accepted b k sent s) (buf : TxBuffer)
    {post : Radios × Bool → Held → Prop}
    (hpost : post ({ d with rfTxBuf := buf }, sent)
      (Held.of { d with rfTxBuf := buf } (accepted ++ if sent then [k.frame] else []))) :
    rmtOrder.Ensures
      (.call (.strobe b .sidle) fun _ =>
        .call (.disableTx (.gdo0 b)) fun _ =>
        .call .delEncoder fun _ =>
        .call (.delTx (.gdo0 b)) fun _ => .done ({ d with rfTxBuf := buf }, sent)) post s := by
  obtain ⟨-, m, rfl⟩ := hkeyed
  refine ensures_strobeIdle rfl fun _ => ?_
  change rmtOrder.Ensures _ post
    (((((Held.of d accepted).setEncoder true).tell b m).keyed k.frame sent).tell b .idle
      |>.put (.gdo0 b) (some { enabled := true }) none)
  refine ensures_disableTx rfl fun _ => ensures_delEncoder rfl fun _ => ?_
  refine ensures_delTx rfl fun _ => .done ?_
  rw [← left_band hfree m k.frame sent buf] at hpost
  exact hpost

theorem ensures_transmitOOK (hfree : (d.band b).rx = false) (code : RFCode) :
    rmtOrder.Ensures (d.transmitOOK b code)
      (Sent (fun driver => Transmit.transmitOOK (d.transmitter driver) b code) accepted)
      (Held.of d accepted) := by
  have hoff := deaf_of_free hfree
  have hidle : ∀ b', Pad.gdo0 b = .gdo0 b' → (Held.of d accepted).radio b' = .idle := by
    rintro b' ⟨⟩
    simp [Held.of, RxSide.marc, hoff]
  have hrefused : ∀ driver, Transmit.transmitOOK (d.transmitter driver) b code = none →
      Sent (fun driver => Transmit.transmitOOK (d.transmitter driver) b code) accepted (d, false)
        ((Held.of d accepted).put (.gdo0 b) none none) := by
    intro driver hfire
    rw [← of_free d accepted hfree]
    exact sent_refused driver hfire
  unfold Radios.transmitOOK
  refine ensures_writePaTable fun _ => ensures_strobeIdle rfl fun _ => ?_
  rw [tell_idle d accepted hoff, of_free d accepted hfree]
  refine ensures_newTx hidle (.done (hrefused { newTxChannel := false } rfl)) ?_
  refine ensures_newEncoder rfl
    (ensures_delTx rfl fun _ => .done (hrefused { newCopyEncoder := false } rfl)) ?_
  refine ensures_enableTx rfl
    (ensures_delEncoder rfl fun _ => ensures_delTx rfl fun _ =>
      .done (hrefused { enable := false } rfl)) ?_
  refine (ensures_keyBand _ rfl).andThen fun sent s' hkeyed => ensures_closeBand hfree hkeyed _ ?_
  refine ⟨⟨{ transmit := sent }, ?_⟩, fun _ => rfl, rfl⟩
  have hwords := hkeyed.words
  cases sent with
  | false => exact (Bool.and_false _).symm
  | true => exact (decide_eq_true (hwords rfl)).symm.trans (Bool.and_true _).symm

theorem ensures_sendRFCode (d : Radios) (accepted : List Frame) (freqMHz : UInt16)
    (code : RFCode) :
    rmtOrder.Ensures (d.sendRFCode freqMHz code)
      (Sent (fun driver => Transmit.sendRFCode (d.transmitter driver) freqMHz code) accepted)
      (Held.of d accepted) := by
  unfold Radios.sendRFCode
  split_ifs with hform
  · exact .done (sent_refused {} (if_pos hform))
  cases hband : bandFor freqMHz with
  | none => exact .done (sent_refused {} (by simp [Transmit.sendRFCode, hband]))
  | some b =>
      have hfire : ∀ driver, Transmit.sendRFCode (d.transmitter driver) freqMHz code =
          if (d.band b).rx then none else Transmit.transmitOOK (d.transmitter driver) b code := by
        intro driver
        simp only [Transmit.sendRFCode, if_neg hform, hband]
        rfl
      simp only [hfire]
      cases hrx : (d.band b).rx with
      | true => exact .done (sent_refused {} rfl)
      | false => exact ensures_transmitOOK hrx code

/-- The LED is keyed with its carrier, while the receiver is deaf. -/
theorem ensures_keyLed (hdeaf : d.ir.rxEnabled = false) {carrierHz : UInt16} (k : Keying)
    (hchannel : k.channel = .ir carrierHz) :
    rmtOrder.Ensures
      (if 0 < k.count then Radios.transmitWords .irTx k.symbols else .done false)
      (fun sent s => (sent = true → 0 < k.count) ∧
        s = ((((Held.of d accepted).unpark .irTx).setEncoder true).keyed k.frame sent).put .irTx
          (some { enabled := true, carrierHz := some carrierHz }) none)
      ((((Held.of d accepted).unpark .irTx).setEncoder true).put .irTx
        (some { enabled := true, carrierHz := some carrierHz }) none) := by
  have hquiet : d.ir.channel ≠ some true := by
    unfold RxSide.channel
    rw [hdeaf]
    split_ifs <;> simp
  split_ifs with hcount
  · refine (ensures_transmitWords k.frame rfl rfl ?_).mono ?_
    · rw [Keying.frame, hchannel]
      simp [Held.carrier, Held.put, Held.setEncoder, Held.unpark, Held.of, hquiet]
    · rintro sent s' rfl
      exact ⟨fun _ => hcount, rfl⟩
  · refine .done ⟨fun h => absurd h Bool.false_ne_true, ?_⟩
    rw [keyed_false]

/-- After a send over the LED. -/
theorem left_led (frame : Frame) (sent : Bool) (buf : TxBuffer) :
    ({ ((((Held.of d accepted).unpark .irTx).setEncoder true).keyed frame sent
      |>.setEncoder false).unpark .irTx with parked := true } : Held).put .irTx none none =
      Held.of { d with irTxBuf := buf } (accepted ++ if sent then [frame] else []) :=
  congrArg (fun s => Held.keyed s frame sent) (of_led d accepted).symm

theorem ensures_sendIR (d : Radios) (accepted : List Frame) (code : IRCode) :
    rmtOrder.Ensures (d.sendIR code)
      (Sent (fun driver => Transmit.sendIR (d.transmitter driver) code) accepted)
      (Held.of d accepted) := by
  unfold Radios.sendIR
  split_ifs with hform hlisten
  · exact .done (sent_refused {} (if_pos hform))
  · exact .done (sent_refused {} (by rw [Transmit.sendIR, if_neg hform]; exact if_pos hlisten))
  have hfire : ∀ driver, Transmit.sendIR (d.transmitter driver) code =
      if !driver.newTxChannel then none
      else if !driver.newCopyEncoder then none
      else if !driver.applyCarrier then none
      else if !driver.enable then none
      else some (keyPulses (.ir (Radios.carrier code)) code.pulses code.length d.irTxBuf
        driver.transmit) := by
    intro driver
    rw [Transmit.sendIR, if_neg hform]
    exact if_neg hlisten
  have hrefused : ∀ driver, Transmit.sendIR (d.transmitter driver) code = none →
      Sent (fun driver => Transmit.sendIR (d.transmitter driver) code) accepted (d, false)
        ((Held.of d accepted).put .irTx none none) := by
    intro driver hnone
    rw [← of_led d accepted]
    exact sent_refused driver hnone
  rw [of_led d accepted]
  refine ensures_newTx (fun b hb => Pad.noConfusion hb)
    (.done (hrefused { newTxChannel := false } (hfire _))) ?_
  refine ensures_newEncoder rfl
    (ensures_delTx rfl fun _ => ensures_parkIRTx fun _ =>
      .done (hrefused { newCopyEncoder := false } (hfire _))) ?_
  refine ensures_applyCarrier rfl
    (ensures_delEncoder rfl fun _ => ensures_delTx rfl fun _ => ensures_parkIRTx fun _ =>
      .done (hrefused { applyCarrier := false } (hfire _))) ?_
  refine ensures_enableTx rfl
    (ensures_delEncoder rfl fun _ => ensures_delTx rfl fun _ => ensures_parkIRTx fun _ =>
      .done (hrefused { enable := false } (hfire _))) ?_
  refine (ensures_keyLed (Bool.eq_false_of_not_eq_true hlisten) _ rfl).andThen
    fun sent s' hkeyed => ?_
  obtain ⟨hwords, rfl⟩ := hkeyed
  refine ensures_disableTx rfl fun _ => ensures_delEncoder rfl fun _ => ?_
  refine ensures_delTx rfl fun _ => ensures_parkIRTx fun _ => .done
    ⟨⟨{ transmit := sent }, ?_⟩, fun _ => ?_, ?_⟩
  · rw [hfire]
    cases sent with
    | false => exact (Bool.and_false _).symm
    | true => exact (decide_eq_true (hwords rfl)).symm.trans (Bool.and_true _).symm
  · rw [hfire]
    rfl
  · rw [hfire]
    exact left_led _ sent _

end Send

section Runs

variable {d : Radios} {accepted : List Frame} {r : RadioRun} {s : Held}

theorem ensures_received {p : CallProgram Call Radios} {post : Radios → Held → Prop}
    (h : r.Fits s) (hp : rmtOrder.Ensures p post (Held.of r.radios s.accepted))
    (hpost : ∀ d' s', post d' s' → s' = Held.of d' s.accepted) :
    rmtOrder.Ensures (p.andThen r.received) RadioRun.Fits s := by
  rw [← h.held] at hp
  refine hp.andThen fun d' s' hmid => .done ?_
  have hheld := hpost d' s' hmid
  subst hheld
  exact ⟨rfl, h.sent⟩

theorem ensures_answered {p : CallProgram Call (Radios × Bool)}
    {fire : RmtDriver → Option Keying} (h : r.Fits s)
    (hp : rmtOrder.Ensures p (Sent fire s.accepted) (Held.of r.radios s.accepted)) :
    rmtOrder.Ensures (p.andThen (r.answered (fire {}))) RadioRun.Fits s := by
  rw [← h.held] at hp
  refine hp.andThen fun out s' hsent => .done ?_
  have haccepted : s'.accepted = s.accepted ++ keyedFrames (fire {}) out.2 :=
    congrArg Held.accepted hsent.held
  refine ⟨?_, ?_⟩
  · rw [haccepted]
    exact hsent.held
  · rw [haccepted, List.map_append, ← h.sent]
    refine congrArg (r.sent ++ ·) ?_
    cases hout : out.2 with
    | false => rfl
    | true =>
        obtain ⟨k, hk⟩ := Option.isSome_iff_exists.mp (hsent.fired hout)
        simp [keyedFrames, hk]

/-- Each event keeps to the order, whatever its calls answer. -/
theorem ensures_program (h : r.Fits s) (e : RadioEvent) :
    rmtOrder.Ensures (r.program e) RadioRun.Fits s := by
  have hsame : ∀ d' s', s' = Held.of d' s.accepted → s' = Held.of d' s.accepted :=
    fun _ _ hheld => hheld
  cases e with
  | startIRRx =>
      exact ensures_received h (ensures_startIRRx _ _) fun _ _ ⟨_, hset⟩ => hset.held
  | stopIRRx => exact ensures_received h (ensures_stopIRRx _ _) fun _ _ hset => hset.held
  | pollIRBurst => exact ensures_received h (ensures_pollIRBurst _ _) hsame
  | irFrame => exact .done ⟨h.held.trans (of_irFrame _ _).symm, h.sent⟩
  | startRFRx freqMHz => exact ensures_received h (ensures_startRFRx _ _ freqMHz) hsame
  | stopRFRx freqMHz => exact ensures_received h (ensures_stopRFRx _ _ freqMHz) hsame
  | pollRFBurst freqMHz => exact ensures_received h (ensures_pollRFBurst _ _ freqMHz) hsame
  | rfFrame b => exact .done ⟨h.held.trans (of_rfFrame _ _ b).symm, h.sent⟩
  | sendRFCode freqMHz code => exact ensures_answered h (ensures_sendRFCode _ _ freqMHz code)
  | sendIR code => exact ensures_answered h (ensures_sendIR _ _ code)

/-- The strobes bring both radios to idle, whatever they were told before. -/
theorem ensures_initRadios (s : Held) :
    rmtOrder.Ensures Radios.initRadios (fun _ s' => s' = { s with radio := fun _ => .idle }) s := by
  refine ensures_strobeIdle rfl fun _ => ensures_strobeIdle rfl fun _ =>
    ensures_strobeIdle rfl fun _ => ensures_strobeIdle rfl fun _ => .done ?_
  unfold Held.tell
  congr 1
  funext b
  cases b <;> rfl

theorem ensures_initIR (d : Radios) (hnone : d.ir = .off) :
    rmtOrder.Ensures (Radios.initIR d) (fun d' s => s = Held.of d' accepted)
      (Held.of d accepted) := by
  have hchannel : d.ir.channel = none := by rw [hnone]; rfl
  have hmade : (Held.of d accepted).put .irRx none (some false) =
      Held.of { d with ir := { rx := true } } accepted :=
    (of_setIr d accepted { rx := true }).symm
  have hplace := of_irRx d accepted
  rw [hchannel] at hplace
  unfold Radios.initIR
  rw [hplace]
  refine ensures_newRx (.done hplace.symm) (ensures_registerEventCallbacks fun ok => ?_)
  exact .done hmade

theorem ensures_boot (radio : RfBand → Marc) (parked : Bool) :
    rmtOrder.Ensures RadioRun.boot RadioRun.Fits (Held.atReset radio parked) := by
  have hleds : Held.atReset radio parked = (Held.atReset radio parked).put .irTx none none :=
    (put_self _ .irTx).symm
  rw [hleds]
  refine ensures_parkIRTx fun _ => ?_
  refine (ensures_initRadios _).andThen fun _ s hidle => ?_
  have hfirst : s = Held.of {} [] := by
    rw [hidle, Held.put, Held.of]
    congr 1
    · simp [Held.atReset]
    · funext pad
      cases pad <;> rfl
  rw [hfirst]
  refine (ensures_initIR {} rfl).andThen fun d s hheld => .done ?_
  subst hheld
  exact ⟨rfl, rfl⟩

/-- Over any run of the receivers and the transmitters, whatever the driver and the radios
answer to each call: every call comes in its order; afterwards only the receive channels of the
statics are held, each radio is idle unless its channel listens and the LED is parked; and the
frames the driver accepted are those of the sends that answered `true`. -/
theorem radios_keep_order {δ : Type} (S : Service Call δ) (service : δ) (radio : RfBand → Marc)
    (parked : Bool) (events : List RadioEvent) :
    let r := (CallSession.machine S service RadioRun.boot RadioRun.program).run events
    let first := Held.atReset radio parked
    rmtOrder.Kept first r.log ∧
      ∃ frames, rmtOrder.reached first r.log = Held.of r.data.radios frames ∧
        r.data.sent = frames.map some := by
  obtain ⟨hkept, hfits⟩ := CallSession.run_orderly (ensures_boot radio parked)
    (fun _ e _ h => ensures_program h e) S service events
  exact ⟨hkept, _, hfits.held, hfits.sent⟩

end Runs

end RfIrBlaster.Transmit
