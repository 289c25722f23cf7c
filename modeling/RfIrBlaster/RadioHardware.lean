/-
The calls that `ir.cpp` and `radios.cpp` make to the RMT driver and the two radios: the order
in which these are to be used, and the programs of arming, disarming, polling and sending.
-/
import RfIrBlaster.CallProgram
import RfIrBlaster.FireCode
import RfIrBlaster.LearnWindow
import Mathlib.Logic.Function.Basic

namespace RfIrBlaster.Transmit

/-- The pins the peripheral drives or reads. -/
inductive Pad where
  | irTx
  | irRx
  | gdo0 (band : RfBand)
deriving DecidableEq, Repr

/-- A command strobe of the CC1101. -/
inductive Strobe where
  | sres
  | srx
  | stx
  | sidle
deriving DecidableEq, Repr

/-- What a radio was last told to do. -/
inductive Marc where
  | idle
  | rx
  | tx
deriving DecidableEq, Repr

def Strobe.marc : Strobe → Marc
  | .sres | .sidle => .idle
  | .srx => .rx
  | .stx => .tx

/-- One call of the RMT driver or of a radio. -/
inductive Call where
  | newTxChannel (pad : Pad)
  | newRxChannel (pad : Pad)
  | registerEventCallbacks (pad : Pad)
  | newCopyEncoder
  | applyCarrier (carrierHz : UInt16)
  | enableTx (pad : Pad)
  | enableRx (pad : Pad)
  | receive (pad : Pad)
  | transmit (pad : Pad) (words : List RmtSymbol)
  | waitAllDone (pad : Pad) (timeoutMs : Nat)
  | disableTx (pad : Pad)
  | disableRx (pad : Pad)
  | delEncoder
  | delTx (pad : Pad)
  | delRx (pad : Pad)
  | writePaTable (band : RfBand)
  | strobe (band : RfBand) (cmd : Strobe)
  | parkIRTx
deriving DecidableEq, Repr

/-- A transmit channel the firmware has made. -/
structure TxHandle where
  enabled : Bool := false
  carrierHz : Option UInt16 := none
deriving DecidableEq, Repr

/-- Words handed to the driver and what is to carry them. -/
structure Frame where
  channel : Channel
  words : List RmtSymbol
deriving DecidableEq, Repr

/-- What the firmware holds, by its own calls and what they answered: the channels it has made
and not deleted, with whether it has enabled them, what it last told each radio, and the frames
that the driver has accepted. -/
structure Held where
  tx : Pad → Option TxHandle
  rx : Pad → Option Bool
  encoder : Bool
  radio : RfBand → Marc
  parked : Bool
  accepted : List Frame

namespace Held

/-- What carries a transmission on a pin that is ready for one: the LED has its carrier and no
receiver is enabled to hear it, the radio is told to transmit and takes the bare levels. -/
def carrier (s : Held) (t : TxHandle) : Pad → Option Channel
  | .irTx => if s.rx .irRx = some true then none else t.carrierHz.map Channel.ir
  | .irRx => none
  | .gdo0 b => if s.radio b = .tx ∧ t.carrierHz = none then some (.rf b) else none

/-- The order of use: a channel is made on a pin that has none, enabled while it is not, used
while it is, disabled before it is deleted; a radio is told to receive while nothing drives its
data line, and to transmit once the channel that does is enabled. -/
def Allows (s : Held) : Call → Prop
  | .newTxChannel pad =>
      s.tx pad = none ∧ s.rx pad = none ∧ ∀ b, pad = .gdo0 b → s.radio b = .idle
  | .newRxChannel pad => s.tx pad = none ∧ s.rx pad = none
  | .registerEventCallbacks pad => s.rx pad = some false
  | .newCopyEncoder => s.encoder = false
  | .applyCarrier _ => ∃ t, s.tx .irTx = some t ∧ t.enabled = false
  | .enableTx pad => ∃ t, s.tx pad = some t ∧ t.enabled = false
  | .enableRx pad => s.rx pad = some false
  | .receive pad => s.rx pad = some true
  | .transmit pad _ =>
      s.encoder = true ∧ ∃ t, s.tx pad = some t ∧ t.enabled = true ∧ s.carrier t pad ≠ none
  | .waitAllDone pad _ => ∃ t, s.tx pad = some t ∧ t.enabled = true
  | .disableTx pad => ∃ t, s.tx pad = some t ∧ t.enabled = true
  | .disableRx pad => s.rx pad = some true
  | .delEncoder => s.encoder = true
  | .delTx pad => ∃ t, s.tx pad = some t ∧ t.enabled = false
  | .delRx pad => s.rx pad = some false
  | .writePaTable _ => True
  | .strobe b .srx => s.tx (.gdo0 b) = none
  | .strobe b .stx =>
      s.rx (.gdo0 b) = none ∧ ∃ t, s.tx (.gdo0 b) = some t ∧ t.enabled = true
  | .strobe _ .sres | .strobe _ .sidle => True
  | .parkIRTx => s.tx .irTx = none

def setTx (s : Held) (pad : Pad) (t : Option TxHandle) : Held :=
  { s with tx := Function.update s.tx pad t }

def setRx (s : Held) (pad : Pad) (enabled : Option Bool) : Held :=
  { s with rx := Function.update s.rx pad enabled }

def tell (s : Held) (b : RfBand) (m : Marc) : Held :=
  { s with radio := Function.update s.radio b m }

def setEncoder (s : Held) (made : Bool) : Held :=
  { s with encoder := made }

def accept (s : Held) (frame : Frame) : Held :=
  { s with accepted := s.accepted ++ [frame] }

/-- A channel that is made on the LED's pin or deleted there takes the pin out of its gate. -/
def unpark (s : Held) (pad : Pad) : Held :=
  { s with parked := s.parked && pad ≠ .irTx }

/-- What a call and its answer change.  A channel that is told to go counts as gone, whatever
the driver says to it. -/
def after (s : Held) (c : Call) (ok : Bool) : Held :=
  match c with
  | .newTxChannel pad => if ok then (s.unpark pad).setTx pad (some {}) else s
  | .newRxChannel pad => if ok then s.setRx pad (some false) else s
  | .newCopyEncoder => s.setEncoder ok
  | .applyCarrier carrierHz =>
      if ok then s.setTx .irTx ((s.tx .irTx).map fun t => { t with carrierHz := some carrierHz })
      else s
  | .enableTx pad =>
      if ok then s.setTx pad ((s.tx pad).map fun t => { t with enabled := true }) else s
  | .enableRx pad => if ok then s.setRx pad (some true) else s
  | .transmit pad words =>
      match (s.tx pad).bind fun t => s.carrier t pad with
      | none => s
      | some channel => if ok then s.accept ⟨channel, words⟩ else s
  | .disableTx pad => s.setTx pad ((s.tx pad).map fun t => { t with enabled := false })
  | .disableRx pad => s.setRx pad (some false)
  | .delEncoder => s.setEncoder false
  | .delTx pad => (s.unpark pad).setTx pad none
  | .delRx pad => s.setRx pad none
  | .strobe b cmd => s.tell b cmd.marc
  | .parkIRTx => { s with parked := true }
  | .registerEventCallbacks _ | .receive _ | .waitAllDone _ _ | .writePaTable _ => s

end Held

def rmtOrder : OrderOfUse Call Held where
  allows := Held.Allows
  after := Held.after

/-- The receive side of one source: the channel, whether it is enabled, and whether a frame
waits to be read. -/
structure RxSide where
  rx : Bool := false
  rxEnabled : Bool := false
  frameReady : Bool := false
  enabled_has_channel : rxEnabled = true → rx = true := by simp
  ready_is_enabled : frameReady = true → rxEnabled = true := by simp

theorem off_consistent : false = true → false = true :=
  id

def RxSide.off : RxSide where
  enabled_has_channel := off_consistent
  ready_is_enabled := off_consistent

@[simp] theorem RxSide.off_rx : RxSide.off.rx = false := rfl

@[simp] theorem RxSide.off_rxEnabled : RxSide.off.rxEnabled = false := rfl

@[simp] theorem RxSide.off_frameReady : RxSide.off.frameReady = false := rfl

/-- The channel the driver has for a side. -/
def RxSide.channel (s : RxSide) : Option Bool :=
  if s.rx then some s.rxEnabled else none

def RxSide.marc (s : RxSide) : Marc :=
  if s.rxEnabled then .rx else .idle

def zeroedWords : List RmtSymbol :=
  List.replicate kMaxSymbols ⟨0, false, 0, false⟩

theorem length_zeroedWords : zeroedWords.length = kMaxSymbols :=
  List.length_replicate

def zeroedBuffer : TxBuffer where
  words := zeroedWords
  size := length_zeroedWords

/-- The statics of `ir.cpp` and `radios.cpp`. -/
structure Radios where
  ir : RxSide := .off
  band : RfBand → RxSide := fun _ => .off
  rfTxBuf : TxBuffer := zeroedBuffer
  irTxBuf : TxBuffer := zeroedBuffer

namespace Radios

def setBand (d : Radios) (b : RfBand) (s : RxSide) : Radios :=
  { d with band := Function.update d.band b s }

/-- Without its callback the receiver stays, and hears nothing. -/
def initIR (d : Radios) : CallProgram Call Radios :=
  .call (.newRxChannel .irRx) fun ok =>
    if !ok then .done d
    else .call (.registerEventCallbacks .irRx) fun _ => .done { d with ir := { rx := true } }

def initRadios : CallProgram Call Unit :=
  .call (.strobe .band315 .sres) fun _ =>
  .call (.strobe .band433 .sres) fun _ =>
  .call (.strobe .band315 .sidle) fun _ =>
  .call (.strobe .band433 .sidle) fun _ => .done ()

def startIRRx (d : Radios) : CallProgram Call Radios :=
  if !d.ir.rx then .done d
  else
    let listen : CallProgram Call Radios :=
      .call (.receive .irRx) fun _ => .done { d with ir := { rx := true, rxEnabled := true } }
    if d.ir.rxEnabled then listen
    else .call (.enableRx .irRx) fun ok => if !ok then .done d else listen

def stopIRRx (d : Radios) : CallProgram Call Radios :=
  if !d.ir.rx || !d.ir.rxEnabled then .done d
  else .call (.disableRx .irRx) fun _ => .done { d with ir := { rx := true } }

/-- The end of `armBand`, with its channel made. -/
def listenBand (d : Radios) (b : RfBand) : CallProgram Call Radios :=
  let listen : CallProgram Call Radios :=
    .call (.strobe b .srx) fun _ =>
    .call (.receive (.gdo0 b)) fun _ => .done (d.setBand b { rx := true, rxEnabled := true })
  if (d.band b).rxEnabled then listen
  else
    .call (.enableRx (.gdo0 b)) fun ok =>
      if !ok then .call (.delRx (.gdo0 b)) fun _ => .done (d.setBand b .off)
      else listen

def armBand (d : Radios) (b : RfBand) : CallProgram Call Radios :=
  if (d.band b).rx then d.listenBand b
  else
    .call (.newRxChannel (.gdo0 b)) fun ok =>
      if !ok then .done (d.setBand b .off)
      else
        .call (.registerEventCallbacks (.gdo0 b)) fun ok =>
          if !ok then .call (.delRx (.gdo0 b)) fun _ => .done (d.setBand b .off)
          else d.listenBand b

def disarmBand (d : Radios) (b : RfBand) : CallProgram Call Radios :=
  .call (.strobe b .sidle) fun _ =>
    let delete : CallProgram Call Radios :=
      if (d.band b).rx then .call (.delRx (.gdo0 b)) fun _ => .done (d.setBand b .off)
      else .done (d.setBand b .off)
    if (d.band b).rxEnabled then .call (.disableRx (.gdo0 b)) fun _ => delete else delete

def startRFRx (d : Radios) (freqMHz : UInt16) : CallProgram Call Radios :=
  match bandFor freqMHz with
  | none => .done d
  | some b => d.armBand b

def stopRFRx (d : Radios) (freqMHz : UInt16) : CallProgram Call Radios :=
  match bandFor freqMHz with
  | none => .done d
  | some b => d.disarmBand b

/-- `pollIRBurst`, up to the burst it reads. -/
def pollIRBurst (d : Radios) : CallProgram Call Radios :=
  if !d.ir.rx || !d.ir.frameReady then .done d
  else
    .call (.receive .irRx) fun _ =>
      .done { d with ir := { d.ir with frameReady := false, ready_is_enabled := by simp } }

/-- `pollRFBurst`, up to the burst it reads. -/
def pollRFBurst (d : Radios) (freqMHz : UInt16) : CallProgram Call Radios :=
  match bandFor freqMHz with
  | none => .done d
  | some b =>
      if !(d.band b).rx || !(d.band b).frameReady then .done d
      else
        .call (.receive (.gdo0 b)) fun _ =>
          .done (d.setBand b { d.band b with frameReady := false, ready_is_enabled := by simp })

/-- The receive interrupt; a channel that is not enabled has none. -/
def received (s : RxSide) : RxSide :=
  if h : s.rxEnabled = true then { s with frameReady := true, ready_is_enabled := fun _ => h }
  else s

/-- Hand the words over and wait for them; neither the wait nor its answer decides anything. -/
def transmitWords (pad : Pad) (words : List RmtSymbol) : CallProgram Call Bool :=
  .call (.transmit pad words) fun ok =>
    if !ok then .done false else .call (.waitAllDone pad kTxWaitMs) fun _ => .done true

/-- The scratch array after the packer. -/
def packedBuffer (pulses : List UInt16) (length : UInt16) (buf : TxBuffer) : TxBuffer where
  words := (packPulsesToSymbols pulses length.toNat buf.words buf.size).1
  size := by
    unfold packPulsesToSymbols
    dsimp only
    split_ifs
    · exact PackState.size _
    · rw [length_writeHalf]
      exact PackState.size _
    · exact PackState.size _

def transmitOOK (d : Radios) (b : RfBand) (code : RFCode) : CallProgram Call (Radios × Bool) :=
  .call (.writePaTable b) fun _ =>
  .call (.strobe b .sidle) fun _ =>
  .call (.newTxChannel (.gdo0 b)) fun ok =>
  if !ok then .done (d, false)
  else
    .call .newCopyEncoder fun ok =>
    if !ok then .call (.delTx (.gdo0 b)) fun _ => .done (d, false)
    else
      .call (.enableTx (.gdo0 b)) fun ok =>
      if !ok then
        .call .delEncoder fun _ => .call (.delTx (.gdo0 b)) fun _ => .done (d, false)
      else
        let k := keyPulses (.rf b) code.pulses code.length d.rfTxBuf true
        let key : CallProgram Call Bool :=
          if 0 < k.count then .call (.strobe b .stx) fun _ => transmitWords (.gdo0 b) k.symbols
          else .done false
        key.andThen fun sent =>
          .call (.strobe b .sidle) fun _ =>
          .call (.disableTx (.gdo0 b)) fun _ =>
          .call .delEncoder fun _ =>
          .call (.delTx (.gdo0 b)) fun _ =>
          .done ({ d with rfTxBuf := packedBuffer code.pulses code.length d.rfTxBuf }, sent)

def sendRFCode (d : Radios) (freqMHz : UInt16) (code : RFCode) :
    CallProgram Call (Radios × Bool) :=
  if code.pulses.isEmpty ∨ code.length < 2 ∨ code.length % 2 = 1 then .done (d, false)
  else
    match bandFor freqMHz with
    | none => .done (d, false)
    | some b => if (d.band b).rx then .done (d, false) else d.transmitOOK b code

/-- The carrier of a code, or the default one where it is out of range. -/
def carrier (code : IRCode) : UInt16 :=
  if code.carrierHz < kCarrierMinHz ∨ kCarrierMaxHz < code.carrierHz then kDefaultCarrierHz
  else code.carrierHz

def sendIR (d : Radios) (code : IRCode) : CallProgram Call (Radios × Bool) :=
  if code.pulses.isEmpty ∨ code.length < 2 ∨ code.length % 2 = 1 then .done (d, false)
  else if d.ir.rxEnabled then .done (d, false)
  else
    .call (.newTxChannel .irTx) fun ok =>
    if !ok then .done (d, false)
    else
      .call .newCopyEncoder fun ok =>
      if !ok then .call (.delTx .irTx) fun _ => .call .parkIRTx fun _ => .done (d, false)
      else
        .call (.applyCarrier (carrier code)) fun ok =>
        if !ok then
          .call .delEncoder fun _ => .call (.delTx .irTx) fun _ =>
          .call .parkIRTx fun _ => .done (d, false)
        else
          .call (.enableTx .irTx) fun ok =>
          if !ok then
            .call .delEncoder fun _ => .call (.delTx .irTx) fun _ =>
            .call .parkIRTx fun _ => .done (d, false)
          else
            let k := keyPulses (.ir (carrier code)) code.pulses code.length d.irTxBuf true
            let key : CallProgram Call Bool :=
              if 0 < k.count then transmitWords .irTx k.symbols else .done false
            key.andThen fun sent =>
              .call (.disableTx .irTx) fun _ =>
              .call .delEncoder fun _ =>
              .call (.delTx .irTx) fun _ =>
              .call .parkIRTx fun _ =>
              .done ({ d with irTxBuf := packedBuffer code.pulses code.length d.irTxBuf }, sent)

end Radios

/-- What is held between two calls of these functions: the receive channels of the statics and
no other, each radio told to receive where its channel is enabled, and the LED's gate low. -/
def Held.of (d : Radios) (accepted : List Frame) : Held where
  tx := fun _ => none
  rx := fun
    | .irTx => none
    | .irRx => d.ir.channel
    | .gdo0 b => (d.band b).channel
  encoder := false
  radio := fun b => (d.band b).marc
  parked := true
  accepted := accepted


section Rules

/-- What is held with the pin `pad` in the states given. -/
def Held.put (s : Held) (pad : Pad) (tx : Option TxHandle) (rx : Option Bool) : Held :=
  { s with tx := Function.update s.tx pad tx, rx := Function.update s.rx pad rx }

variable {s : Held} {pad : Pad} {tx : Option TxHandle} {rx : Option Bool}

@[simp]
theorem put_tx : (s.put pad tx rx).tx pad = tx := by
  simp [Held.put]

@[simp]
theorem put_rx : (s.put pad tx rx).rx pad = rx := by
  simp [Held.put]

@[simp]
theorem put_setTx (t : Option TxHandle) : (s.put pad tx rx).setTx pad t = s.put pad t rx := by
  simp [Held.put, Held.setTx]

@[simp]
theorem put_setRx (r : Option Bool) : (s.put pad tx rx).setRx pad r = s.put pad tx r := by
  simp [Held.put, Held.setRx]

@[simp]
theorem put_unpark : (s.put pad tx rx).unpark pad = (s.unpark pad).put pad tx rx :=
  rfl

theorem put_self (s : Held) (pad : Pad) : s.put pad (s.tx pad) (s.rx pad) = s := by
  simp [Held.put]

variable {α : Type} {post : α → Held → Prop} {next : Bool → CallProgram Call α} {t : TxHandle}

theorem ensures_newTx (hidle : ∀ b, pad = .gdo0 b → s.radio b = .idle)
    (hno : rmtOrder.Ensures (next false) post (s.put pad none none))
    (hyes : rmtOrder.Ensures (next true) post ((s.unpark pad).put pad (some {}) none)) :
    rmtOrder.Ensures (.call (.newTxChannel pad) next) post (s.put pad none none) := by
  refine .call ⟨put_tx, put_rx, hidle⟩ fun ok => ?_
  cases ok with
  | false => exact hno
  | true =>
      have hafter : rmtOrder.after (s.put pad none none) (.newTxChannel pad) true =
          (s.unpark pad).put pad (some {}) none := by
        simp [rmtOrder, Held.after]
      rw [hafter]
      exact hyes

theorem ensures_newEncoder (hnone : s.encoder = false)
    (hno : rmtOrder.Ensures (next false) post (s.put pad tx rx))
    (hyes : rmtOrder.Ensures (next true) post ((s.setEncoder true).put pad tx rx)) :
    rmtOrder.Ensures (.call .newCopyEncoder next) post (s.put pad tx rx) := by
  refine .call hnone fun ok => ?_
  cases ok with
  | true => exact hyes
  | false =>
      have hafter : rmtOrder.after (s.put pad tx rx) .newCopyEncoder false = s.put pad tx rx := by
        change (s.setEncoder false).put pad tx rx = s.put pad tx rx
        rw [Held.setEncoder, ← hnone]
      rw [hafter]
      exact hno

theorem ensures_applyCarrier {carrierHz : UInt16} (hoff : t.enabled = false)
    (hno : rmtOrder.Ensures (next false) post (s.put .irTx (some t) rx))
    (hyes : rmtOrder.Ensures (next true) post
      (s.put .irTx (some { t with carrierHz := some carrierHz }) rx)) :
    rmtOrder.Ensures (.call (.applyCarrier carrierHz) next) post (s.put .irTx (some t) rx) := by
  refine .call ⟨t, put_tx, hoff⟩ fun ok => ?_
  cases ok with
  | false => exact hno
  | true =>
      have hafter : rmtOrder.after (s.put .irTx (some t) rx) (.applyCarrier carrierHz) true =
          s.put .irTx (some { t with carrierHz := some carrierHz }) rx := by
        simp [rmtOrder, Held.after]
      rw [hafter]
      exact hyes

theorem ensures_enableTx (hoff : t.enabled = false)
    (hno : rmtOrder.Ensures (next false) post (s.put pad (some t) rx))
    (hyes : rmtOrder.Ensures (next true) post (s.put pad (some { t with enabled := true }) rx)) :
    rmtOrder.Ensures (.call (.enableTx pad) next) post (s.put pad (some t) rx) := by
  refine .call ⟨t, put_tx, hoff⟩ fun ok => ?_
  cases ok with
  | false => exact hno
  | true =>
      have hafter : rmtOrder.after (s.put pad (some t) rx) (.enableTx pad) true =
          s.put pad (some { t with enabled := true }) rx := by
        simp [rmtOrder, Held.after]
      rw [hafter]
      exact hyes

theorem ensures_transmit {words : List RmtSymbol} {channel : Channel} (henc : s.encoder = true)
    (hon : t.enabled = true) (hcarrier : (s.put pad (some t) rx).carrier t pad = some channel)
    (hno : rmtOrder.Ensures (next false) post (s.put pad (some t) rx))
    (hyes : rmtOrder.Ensures (next true) post
      ((s.accept ⟨channel, words⟩).put pad (some t) rx)) :
    rmtOrder.Ensures (.call (.transmit pad words) next) post (s.put pad (some t) rx) := by
  refine .call ⟨henc, t, put_tx, hon, by simp [hcarrier]⟩ fun ok => ?_
  have hafter : rmtOrder.after (s.put pad (some t) rx) (.transmit pad words) ok =
      if ok then (s.accept ⟨channel, words⟩).put pad (some t) rx else s.put pad (some t) rx := by
    simp only [rmtOrder, Held.after, put_tx, Option.bind_some, hcarrier]
    rfl
  rw [hafter]
  cases ok with
  | false => exact hno
  | true => exact hyes

theorem ensures_waitAllDone {timeoutMs : Nat} (hon : t.enabled = true)
    (hnext : ∀ ok, rmtOrder.Ensures (next ok) post (s.put pad (some t) rx)) :
    rmtOrder.Ensures (.call (.waitAllDone pad timeoutMs) next) post (s.put pad (some t) rx) :=
  .call ⟨t, put_tx, hon⟩ hnext

theorem ensures_disableTx (hon : t.enabled = true)
    (hnext : ∀ ok, rmtOrder.Ensures (next ok) post
      (s.put pad (some { t with enabled := false }) rx)) :
    rmtOrder.Ensures (.call (.disableTx pad) next) post (s.put pad (some t) rx) := by
  refine .call ⟨t, put_tx, hon⟩ fun ok => ?_
  have hafter : rmtOrder.after (s.put pad (some t) rx) (.disableTx pad) ok =
      s.put pad (some { t with enabled := false }) rx := by
    simp [rmtOrder, Held.after]
  rw [hafter]
  exact hnext ok

theorem ensures_delEncoder (hmade : s.encoder = true)
    (hnext : ∀ ok, rmtOrder.Ensures (next ok) post ((s.setEncoder false).put pad tx rx)) :
    rmtOrder.Ensures (.call .delEncoder next) post (s.put pad tx rx) :=
  .call hmade hnext

theorem ensures_delTx (hoff : t.enabled = false)
    (hnext : ∀ ok, rmtOrder.Ensures (next ok) post ((s.unpark pad).put pad none rx)) :
    rmtOrder.Ensures (.call (.delTx pad) next) post (s.put pad (some t) rx) := by
  refine .call ⟨t, put_tx, hoff⟩ fun ok => ?_
  have hafter : rmtOrder.after (s.put pad (some t) rx) (.delTx pad) ok =
      (s.unpark pad).put pad none rx := by
    simp [rmtOrder, Held.after]
  rw [hafter]
  exact hnext ok

theorem ensures_newRx (hno : rmtOrder.Ensures (next false) post (s.put pad none none))
    (hyes : rmtOrder.Ensures (next true) post (s.put pad none (some false))) :
    rmtOrder.Ensures (.call (.newRxChannel pad) next) post (s.put pad none none) := by
  refine .call ⟨put_tx, put_rx⟩ fun ok => ?_
  cases ok with
  | false => exact hno
  | true =>
      have hafter : rmtOrder.after (s.put pad none none) (.newRxChannel pad) true =
          s.put pad none (some false) := by
        simp [rmtOrder, Held.after]
      rw [hafter]
      exact hyes

theorem ensures_registerEventCallbacks
    (hnext : ∀ ok, rmtOrder.Ensures (next ok) post (s.put pad tx (some false))) :
    rmtOrder.Ensures (.call (.registerEventCallbacks pad) next) post
      (s.put pad tx (some false)) :=
  .call put_rx hnext

theorem ensures_enableRx (hno : rmtOrder.Ensures (next false) post (s.put pad tx (some false)))
    (hyes : rmtOrder.Ensures (next true) post (s.put pad tx (some true))) :
    rmtOrder.Ensures (.call (.enableRx pad) next) post (s.put pad tx (some false)) := by
  refine .call put_rx fun ok => ?_
  cases ok with
  | false => exact hno
  | true =>
      have hafter : rmtOrder.after (s.put pad tx (some false)) (.enableRx pad) true =
          s.put pad tx (some true) := by
        simp [rmtOrder, Held.after]
      rw [hafter]
      exact hyes

theorem ensures_receive
    (hnext : ∀ ok, rmtOrder.Ensures (next ok) post (s.put pad tx (some true))) :
    rmtOrder.Ensures (.call (.receive pad) next) post (s.put pad tx (some true)) :=
  .call put_rx hnext

theorem ensures_disableRx
    (hnext : ∀ ok, rmtOrder.Ensures (next ok) post (s.put pad tx (some false))) :
    rmtOrder.Ensures (.call (.disableRx pad) next) post (s.put pad tx (some true)) := by
  refine .call put_rx fun ok => ?_
  have hafter : rmtOrder.after (s.put pad tx (some true)) (.disableRx pad) ok =
      s.put pad tx (some false) := by
    simp [rmtOrder, Held.after]
  rw [hafter]
  exact hnext ok

theorem ensures_delRx
    (hnext : ∀ ok, rmtOrder.Ensures (next ok) post (s.put pad tx none)) :
    rmtOrder.Ensures (.call (.delRx pad) next) post (s.put pad tx (some false)) := by
  refine .call put_rx fun ok => ?_
  have hafter : rmtOrder.after (s.put pad tx (some false)) (.delRx pad) ok =
      s.put pad tx none := by
    simp [rmtOrder, Held.after]
  rw [hafter]
  exact hnext ok

theorem ensures_writePaTable {b : RfBand} (hnext : ∀ ok, rmtOrder.Ensures (next ok) post s) :
    rmtOrder.Ensures (.call (.writePaTable b) next) post s :=
  .call trivial hnext

/-- A reset and the idle strobe are allowed at any time. -/
theorem ensures_strobeIdle {b : RfBand} {cmd : Strobe} (hcmd : cmd.marc = .idle)
    (hnext : ∀ ok, rmtOrder.Ensures (next ok) post (s.tell b .idle)) :
    rmtOrder.Ensures (.call (.strobe b cmd) next) post s := by
  have hallows : rmtOrder.allows s (.strobe b cmd) := by
    cases cmd with
    | sres => exact trivial
    | sidle => exact trivial
    | srx => cases hcmd
    | stx => cases hcmd
  refine .call hallows fun ok => ?_
  rw [← hcmd] at hnext
  exact hnext ok

theorem ensures_strobeRx {b : RfBand}
    (hnext : ∀ ok, rmtOrder.Ensures (next ok) post
      ((s.tell b .rx).put (.gdo0 b) none rx)) :
    rmtOrder.Ensures (.call (.strobe b .srx) next) post (s.put (.gdo0 b) none rx) :=
  .call put_tx hnext

theorem ensures_strobeTx {b : RfBand} (hon : t.enabled = true)
    (hnext : ∀ ok, rmtOrder.Ensures (next ok) post
      ((s.tell b .tx).put (.gdo0 b) (some t) none)) :
    rmtOrder.Ensures (.call (.strobe b .stx) next) post (s.put (.gdo0 b) (some t) none) :=
  .call ⟨put_rx, t, put_tx, hon⟩ hnext

theorem ensures_parkIRTx
    (hnext : ∀ ok, rmtOrder.Ensures (next ok) post
      (({ s with parked := true } : Held).put .irTx none rx)) :
    rmtOrder.Ensures (.call .parkIRTx next) post (s.put .irTx none rx) :=
  .call put_tx hnext

end Rules

end RfIrBlaster.Transmit
