/-
`fireCode` of `accessory_builder.cpp` and the senders under it, `sendRFCode` of
`radios.cpp` and `sendIR` of `ir.cpp`: what one learned code keys on the air.
-/
import RfIrBlaster.ConfigValidate
import RfIrBlaster.RmtPulse

namespace RfIrBlaster

namespace Transmit

open RepeatedList

structure RFCode where
  pulses : List UInt16
  length : UInt16
  freqMHz : UInt16
deriving DecidableEq, Repr

structure IRCode where
  pulses : List UInt16
  length : UInt16
  carrierHz : UInt16
deriving DecidableEq, Repr

def asRFCode (sc : StoredCode) : RFCode :=
  ⟨sc.pulses, UInt16.ofNat sc.pulses.length, sc.freqMHz⟩

def asIRCode (sc : StoredCode) : IRCode :=
  ⟨sc.pulses, UInt16.ofNat sc.pulses.length, sc.carrierHz⟩

inductive RfBand where
  | band315
  | band433
deriving DecidableEq, Repr

def bandFor (freqMHz : UInt16) : Option RfBand :=
  if freqMHz = 315 then some .band315
  else if freqMHz = 433 then some .band433
  else none

/-- `kMaxSymbols` of `ir.cpp` and `kRfMaxSymbols` of `radios.cpp`. -/
def kMaxSymbols : Nat := maxPulses / 2

/-- What both senders give `rmt_tx_wait_all_done` before they disable the channel. -/
def kTxWaitMs : Nat := 1000

def kDefaultCarrierHz : UInt16 := 38000
def kCarrierMinHz : UInt16 := 20000
def kCarrierMaxHz : UInt16 := 60000

/-- A static scratch array of symbol words; it keeps the words of earlier sends. -/
structure TxBuffer where
  words : List RmtSymbol
  size : words.length = kMaxSymbols

/-- What the RMT driver answers to the calls of one send, `true` for `ESP_OK`. -/
structure RmtDriver where
  newTxChannel : Bool := true
  newCopyEncoder : Bool := true
  applyCarrier : Bool := true
  enable : Bool := true
  transmit : Bool := true

/-- What a send reads: `rx` tells the bands whose receive channel is held by a learn. -/
structure Transmitter where
  rx : RfBand → Bool
  rxEnabled : Bool
  rfTxBuf : TxBuffer
  irTxBuf : TxBuffer
  driver : RmtDriver

inductive Channel where
  | rf (band : RfBand)
  | ir (carrierHz : UInt16)
deriving DecidableEq, Repr

/-- A send that reached the packer: the scratch array and the symbol count it left, and
whether the words went out. -/
structure Keying where
  channel : Channel
  out : List RmtSymbol
  count : Nat
  sent : Bool

/-- The words handed to `rmt_transmit`. -/
def Keying.symbols (keying : Keying) : List RmtSymbol :=
  keying.out.take keying.count

/-- The end both senders share: pack, and transmit if there is a symbol. -/
def keyPulses (channel : Channel) (pulses : List UInt16) (length : UInt16)
    (buf : TxBuffer) (transmit : Bool) : Keying :=
  let packed := packPulsesToSymbols pulses length.toNat buf.words buf.size
  { channel := channel
    out := packed.1
    count := packed.2
    sent := decide (0 < packed.2) && transmit }

def transmitOOK (tx : Transmitter) (b : RfBand) (code : RFCode) : Option Keying :=
  if !tx.driver.newTxChannel then none
  else if !tx.driver.newCopyEncoder then none
  else if !tx.driver.enable then none
  else some (keyPulses (.rf b) code.pulses code.length tx.rfTxBuf tx.driver.transmit)

def sendRFCode (tx : Transmitter) (freqMHz : UInt16) (code : RFCode) : Option Keying :=
  if code.pulses.isEmpty ∨ code.length < 2 ∨ code.length % 2 = 1 then none
  else
    match bandFor freqMHz with
    | none => none
    | some b => if tx.rx b then none else transmitOOK tx b code

def sendIR (tx : Transmitter) (code : IRCode) : Option Keying :=
  if code.pulses.isEmpty ∨ code.length < 2 ∨ code.length % 2 = 1 then none
  else if tx.rxEnabled then none
  else
    let carrier :=
      if code.carrierHz < kCarrierMinHz ∨ kCarrierMaxHz < code.carrierHz then
        kDefaultCarrierHz
      else code.carrierHz
    if !tx.driver.newTxChannel then none
    else if !tx.driver.newCopyEncoder then none
    else if !tx.driver.applyCarrier then none
    else if !tx.driver.enable then none
    else some (keyPulses (.ir carrier) code.pulses code.length tx.irTxBuf tx.driver.transmit)

/-- `reps` of `fireCode` after the clamp: the clamp counts pulse entries. -/
def clampedRepeat (sc : StoredCode) : UInt8 :=
  let reps := if sc.frameRepeat < 1 then 1 else sc.frameRepeat
  let unit := sc.pulses.length
  let maxRep := if 0 < unit then maxPulses / unit else 1
  let maxRep := if maxRep < 1 then 1 else maxRep
  if maxRep < reps.toNat then UInt8.ofNat maxRep else reps

/-- Fire one resolved code; `none` where nothing is packed. -/
def fireCode (tx : Transmitter) : Option StoredCode → Option Keying
  | none => none
  | some sc =>
      if !sc.isLearned then none
      else
        match sc.kind with
        | .rf =>
            let reps := clampedRepeat sc
            if reps ≤ 1 then sendRFCode tx sc.freqMHz (asRFCode sc)
            else
              let burst := copies reps.toNat sc.pulses
              sendRFCode tx sc.freqMHz ⟨burst, UInt16.ofNat burst.length, sc.freqMHz⟩
        | .ir => sendIR tx (asIRCode sc)
        | .none => none

/-- Every microsecond keyed belongs to a complete copy of the code. -/
def WholeCopies (code : StoredCode) (symbols : List RmtSymbol) : Prop :=
  ∃ k, waveform symbols = pulseLevels (copies k code.pulses)

/-- The halves are keyed ones, up to a zeroed half at the end. -/
def HalvesKeyed (symbols : List RmtSymbol) : Prop :=
  ∃ cells, (∀ cell ∈ cells, cell.Keyed) ∧
    halfCells symbols = cells ++ zeroPadding cells.length

/-- The copies a code asks for: one for IR, and for RF as many of `frameRepeat` as the
buffer has room for if each pulse entry takes one half-cell. -/
def copiesAsked (code : StoredCode) : Nat :=
  match code.kind with
  | .rf => min code.frameRepeat.toNat (maxPulses / code.pulses.length)
  | _ => 1

/-- The half-cells of one copy, after the split of long durations. -/
def halfCellCount (code : StoredCode) : Nat :=
  (code.pulses.map fun p => halfCount p.toNat).sum

/-- Either all half-cells fit, or the buffer ends between two copies. -/
def FitsTxBuffer (code : StoredCode) : Prop :=
  copiesAsked code * halfCellCount code ≤ maxPulses ∨ halfCellCount code ∣ maxPulses

instance (code : StoredCode) : Decidable (FitsTxBuffer code) :=
  inferInstanceAs (Decidable (_ ∨ _))

variable {tx : Transmitter} {sc : StoredCode} {keying : Keying}

theorem transmitOOK_some {b : RfBand} {code : RFCode}
    (hsend : transmitOOK tx b code = some keying) :
    keying = keyPulses (.rf b) code.pulses code.length tx.rfTxBuf tx.driver.transmit := by
  unfold transmitOOK at hsend
  split_ifs at hsend
  exact (Option.some.inj hsend).symm

theorem sendRFCode_some {freqMHz : UInt16} {code : RFCode}
    (hsend : sendRFCode tx freqMHz code = some keying) :
    ∃ b, keying =
      keyPulses (.rf b) code.pulses code.length tx.rfTxBuf tx.driver.transmit := by
  unfold sendRFCode at hsend
  split_ifs at hsend
  cases hband : bandFor freqMHz with
  | none => simp [hband] at hsend
  | some b =>
      simp only [hband] at hsend
      split_ifs at hsend
      exact ⟨b, transmitOOK_some hsend⟩

theorem sendIR_some {code : IRCode} (hsend : sendIR tx code = some keying) :
    ∃ carrier, keying =
      keyPulses (.ir carrier) code.pulses code.length tx.irTxBuf tx.driver.transmit := by
  unfold sendIR at hsend
  split_ifs at hsend
  all_goals exact ⟨_, (Option.some.inj hsend).symm⟩

/-- A learned code that passes the per-code checks. -/
structure Storable (sc : StoredCode) : Prop where
  nonempty : 0 < sc.pulses.length
  even : sc.pulses.length % 2 = 0
  room : sc.pulses.length ≤ maxPulses
  band : sc.kind = .rf → sc.freqMHz = 315 ∨ sc.freqMHz = 433
  frames : 1 ≤ sc.frameRepeat

theorem storable_of_valid (hkind : sc.kind ≠ .none) (hvalid : validateCode sc = .ok) :
    Storable sc := by
  rcases (validateCode_eq_ok_iff sc).mp hvalid with hnone | hok
  · exact absurd hnone hkind
  · obtain ⟨hne, heven, hroom, hrf, -, hframes, -⟩ := hok
    exact ⟨List.length_pos_iff.mpr hne, heven, hroom, fun h => (hrf h).1, hframes⟩

/-- On a valid code the clamp is the plain minimum. -/
theorem clampedRepeat_eq (h : Storable sc) (hrf : sc.kind = .rf) :
    (clampedRepeat sc).toNat = copiesAsked sc := by
  have hframes : ¬ sc.frameRepeat < 1 := UInt8.not_lt.mpr h.frames
  have hrep : 1 ≤ maxPulses / sc.pulses.length :=
    (Nat.one_le_div_iff h.nonempty).mpr h.room
  have hmax : ¬ maxPulses / sc.pulses.length < 1 := by omega
  have hbyte := sc.frameRepeat.toNat_lt
  simp only [clampedRepeat, copiesAsked, hrf, if_neg hframes, if_pos h.nonempty, if_neg hmax]
  split
  · next hclamp =>
    rw [UInt8.toNat_ofNat']
    omega
  · omega

theorem one_le_copiesAsked (h : Storable sc) : 1 ≤ copiesAsked sc := by
  have hframes : 1 ≤ sc.frameRepeat.toNat := UInt8.le_iff_toNat_le.mp h.frames
  have hrep : 1 ≤ maxPulses / sc.pulses.length :=
    (Nat.one_le_div_iff h.nonempty).mpr h.room
  unfold copiesAsked
  split
  · exact Nat.le_min.mpr ⟨hframes, hrep⟩
  · exact Nat.le_refl 1

/-- What is keyed has at most `MAX_PULSES` entries, so no length is truncated. -/
theorem copiesAsked_mul_le (h : Storable sc) :
    copiesAsked sc * sc.pulses.length ≤ maxPulses := by
  unfold copiesAsked
  split
  · have hmin : min sc.frameRepeat.toNat (maxPulses / sc.pulses.length) ≤
        maxPulses / sc.pulses.length := Nat.min_le_right _ _
    exact Nat.le_trans (Nat.mul_le_mul_right _ hmin) (Nat.div_mul_le_self _ _)
  · rw [Nat.one_mul]
    exact h.room

/-- The pulses `fireCode` hands on. -/
def firedPulses (sc : StoredCode) : List UInt16 :=
  copies (copiesAsked sc) sc.pulses

/-- The pulses handed on pass the length guards of both senders. -/
theorem firedPulses_guards (h : Storable sc) :
    ¬ ((firedPulses sc).isEmpty ∨ UInt16.ofNat (firedPulses sc).length < 2 ∨
      UInt16.ofNat (firedPulses sc).length % 2 = 1) ∧
    (UInt16.ofNat (firedPulses sc).length).toNat = (firedPulses sc).length := by
  have hlen : (firedPulses sc).length = copiesAsked sc * sc.pulses.length :=
    length_copies _ _
  have hbound : (firedPulses sc).length < 65536 := by
    rw [hlen]
    exact Nat.lt_of_le_of_lt (copiesAsked_mul_le h) (by decide)
  have hnat : (UInt16.ofNat (firedPulses sc).length).toNat = (firedPulses sc).length := by
    rw [UInt16.toNat_ofNat']
    exact Nat.mod_eq_of_lt hbound
  have heven : (firedPulses sc).length % 2 = 0 := by
    rw [hlen, Nat.mul_mod, h.even, Nat.mul_zero, Nat.zero_mod]
  have hpos : 0 < (firedPulses sc).length := by
    rw [hlen]
    exact Nat.mul_pos (one_le_copiesAsked h) h.nonempty
  refine ⟨?_, hnat⟩
  rintro (hempty | hshort | hodd)
  · rw [List.isEmpty_iff] at hempty
    rw [hempty] at hpos
    exact Nat.lt_irrefl 0 hpos
  · have htwo := UInt16.lt_iff_toNat_lt.mp hshort
    rw [hnat] at htwo
    change _ < 2 at htwo
    omega
  · have hone := congrArg UInt16.toNat hodd
    rw [UInt16.toNat_mod, hnat] at hone
    change _ % 2 = 1 at hone
    omega

theorem isLearned_of_storable (h : Storable sc) (hkind : sc.kind ≠ .none) :
    sc.isLearned = true := by
  have hne : sc.pulses ≠ [] := List.length_pos_iff.mp h.nonempty
  simp [StoredCode.isLearned, hkind, hne]

/-- `fireCode` hands `sendRFCode` the copies the code asks for. -/
theorem fireCode_rf (h : Storable sc) (hrf : sc.kind = .rf) :
    fireCode tx (some sc) = sendRFCode tx sc.freqMHz
      ⟨firedPulses sc, UInt16.ofNat (firedPulses sc).length, sc.freqMHz⟩ := by
  have hlearned : sc.isLearned = true := isLearned_of_storable h (by simp [hrf])
  have hclamp := clampedRepeat_eq h hrf
  have hone := one_le_copiesAsked h
  simp only [fireCode, hlearned, hrf, Bool.not_true, Bool.false_eq_true, if_false]
  split_ifs with hreps
  · have hsingle : copiesAsked sc = 1 := by
      have hle : (clampedRepeat sc).toNat ≤ 1 := UInt8.le_iff_toNat_le.mp hreps
      omega
    rw [firedPulses, hsingle, copies_one]
    rfl
  · rw [hclamp]
    rfl

theorem fireCode_ir (h : Storable sc) (hir : sc.kind = .ir) :
    fireCode tx (some sc) = sendIR tx
      ⟨firedPulses sc, UInt16.ofNat (firedPulses sc).length, sc.carrierHz⟩ := by
  have hlearned : sc.isLearned = true := isLearned_of_storable h (by simp [hir])
  have hsingle : copiesAsked sc = 1 := by
    simp [copiesAsked, hir]
  rw [firedPulses, hsingle, copies_one]
  simp only [fireCode, hlearned, hir, Bool.not_true, Bool.false_eq_true, if_false]
  rfl

/-- Whatever reaches the packer is the code's copies, at their full length. -/
theorem fireCode_some (h : Storable sc) (hkind : sc.kind ≠ .none)
    (hfired : fireCode tx (some sc) = some keying) :
    ∃ channel buf, keying =
      keyPulses channel (firedPulses sc) (UInt16.ofNat (firedPulses sc).length) buf
        tx.driver.transmit := by
  cases hk : sc.kind with
  | none => exact absurd hk hkind
  | rf =>
      rw [fireCode_rf h hk] at hfired
      obtain ⟨b, hkeying⟩ := sendRFCode_some hfired
      exact ⟨.rf b, tx.rfTxBuf, hkeying⟩
  | ir =>
      rw [fireCode_ir h hk] at hfired
      obtain ⟨carrier, hkeying⟩ := sendIR_some hfired
      exact ⟨.ir carrier, tx.irTxBuf, hkeying⟩

/-- The receiver of the code's channel is free and the driver sets the channel up. -/
def Transmitter.Ready (tx : Transmitter) (sc : StoredCode) : Prop :=
  match sc.kind with
  | .rf => (∀ b, bandFor sc.freqMHz = some b → tx.rx b = false) ∧
      tx.driver.newTxChannel ∧ tx.driver.newCopyEncoder ∧ tx.driver.enable
  | .ir => tx.rxEnabled = false ∧ tx.driver.newTxChannel ∧ tx.driver.newCopyEncoder ∧
      tx.driver.applyCarrier ∧ tx.driver.enable
  | .none => False

/-- A valid code reaches the packer exactly when the transmitter is ready for it: no
valid code is refused for its own sake. -/
theorem fireCode_isSome_iff (hkind : sc.kind ≠ .none) (hvalid : validateCode sc = .ok) :
    (fireCode tx (some sc)).isSome ↔ tx.Ready sc := by
  have h := storable_of_valid hkind hvalid
  obtain ⟨hguards, -⟩ := firedPulses_guards h
  cases hk : sc.kind with
  | none => exact absurd hk hkind
  | rf =>
      obtain ⟨b, hband⟩ : ∃ b, bandFor sc.freqMHz = some b := by
        rcases h.band hk with hfreq | hfreq
        · exact ⟨.band315, by simp [bandFor, hfreq]⟩
        · exact ⟨.band433, by simp [bandFor, hfreq]⟩
      rw [fireCode_rf h hk]
      simp only [sendRFCode, if_neg hguards, hband, transmitOOK, Transmitter.Ready, hk]
      split_ifs <;> simp_all
  | ir =>
      rw [fireCode_ir h hk]
      simp only [sendIR, if_neg hguards, Transmitter.Ready, hk]
      split_ifs <;> simp_all

/-- The half-cells of what a code keys: those of its copies, cut at the buffer's size. -/
theorem fired_halfCells (h : Storable sc) (hkind : sc.kind ≠ .none)
    (hfired : fireCode tx (some sc) = some keying) :
    ∃ cells, cells = (copies (copiesAsked sc) (pulseCells sc.pulses)).take maxPulses ∧
      halfCells keying.symbols = cells ++ zeroPadding cells.length ∧
      waveform keying.symbols = cells.flatMap HalfCell.levels := by
  obtain ⟨channel, buf, rfl⟩ := fireCode_some h hkind hfired
  obtain ⟨-, hlength⟩ := firedPulses_guards h
  have hcells := halfCells_packPulsesToSymbols (firedPulses sc) (firedPulses sc).length
    buf.words buf.size
  have hwave := waveform_packPulsesToSymbols (firedPulses sc) (firedPulses sc).length
    buf.words buf.size
  have hroom : kMaxSymbols * 2 = maxPulses := by decide
  have hfiredCells : pulseCells (firedPulses sc) =
      copies (copiesAsked sc) (pulseCells sc.pulses) := pulseCells_copies h.even _
  simp only [List.take_length, hfiredCells, hroom] at hcells hwave
  refine ⟨_, rfl, ?_, ?_⟩
  · simp only [Keying.symbols, keyPulses, hlength]
    exact hcells
  · simp only [Keying.symbols, keyPulses, hlength]
    exact hwave

theorem halvesKeyed_of_fired (h : Storable sc) (hkind : sc.kind ≠ .none)
    (hfired : fireCode tx (some sc) = some keying) : HalvesKeyed keying.symbols := by
  obtain ⟨cells, hcells, hhalves, -⟩ := fired_halfCells h hkind hfired
  refine ⟨cells, ?_, hhalves⟩
  intro cell hcell
  rw [hcells] at hcell
  apply keyed_of_mem_pulseCells
  exact mem_of_mem_copies (List.mem_of_mem_take hcell)

theorem wholeCopies_of_fired_iff (h : Storable sc) (hkind : sc.kind ≠ .none)
    (hfired : fireCode tx (some sc) = some keying) :
    WholeCopies sc keying.symbols ↔ FitsTxBuffer sc := by
  obtain ⟨cells, hcells, -, hwave⟩ := fired_halfCells h hkind hfired
  have hne : ∀ cell ∈ pulseCells sc.pulses, cell.levels ≠ [] := by
    intro cell hcell hnil
    have hpos := (keyed_of_mem_pulseCells hcell).1
    have hzero := congrArg List.length hnil
    rw [HalfCell.levels, List.length_replicate, List.length_nil] at hzero
    omega
  have hcount : (pulseCells sc.pulses).length = halfCellCount sc :=
    length_pulseCells h.even
  have hiff := flatMap_take_copies_iff hne (copiesAsked sc) maxPulses
  rw [hcount] at hiff
  have hcopies : ∀ k, pulseLevels (copies k sc.pulses) =
      copies k ((pulseCells sc.pulses).flatMap HalfCell.levels) := by
    intro k
    rw [← levels_pulseCells, pulseCells_copies h.even, flatMap_copies]
  simp only [WholeCopies, hwave, hcells, hcopies]
  exact hiff

/-- A valid code is keyed as whole copies exactly when its half-cells fit the buffer or
the buffer ends between two copies. -/
theorem fired_waveform_iff (hkind : sc.kind ≠ .none) (hvalid : validateCode sc = .ok)
    (hfired : fireCode tx (some sc) = some keying) :
    (WholeCopies sc keying.symbols ∧ HalvesKeyed keying.symbols) ↔ FitsTxBuffer sc := by
  have h := storable_of_valid hkind hvalid
  constructor
  · rintro ⟨hwhole, -⟩
    exact (wholeCopies_of_fired_iff h hkind hfired).mp hwhole
  · intro hfits
    exact ⟨(wholeCopies_of_fired_iff h hkind hfired).mpr hfits,
      halvesKeyed_of_fired h hkind hfired⟩

theorem sum_halfCount_le {pulses : List UInt16}
    (hshort : ∀ p ∈ pulses, p.toNat ≤ kRmtMaxDur) :
    (pulses.map fun p => halfCount p.toNat).sum ≤ pulses.length := by
  induction pulses with
  | nil => simp
  | cons p rest ih =>
      have hhead : halfCount p.toNat ≤ 1 := by
        have hp := hshort p List.mem_cons_self
        unfold halfCount
        unfold kRmtMaxDur at hp ⊢
        omega
      have hrest := ih fun q hq => hshort q (List.mem_cons_of_mem p hq)
      simp only [List.map_cons, List.sum_cons, List.length_cons]
      omega

/-- The two limits disagree only past the duration field: a code without such a long
pulse fits, whatever its length and repeat count. -/
theorem fitsTxBuffer_of_short (hkind : sc.kind ≠ .none) (hvalid : validateCode sc = .ok)
    (hshort : ∀ p ∈ sc.pulses, p.toNat ≤ kRmtMaxDur) : FitsTxBuffer sc := by
  have h := storable_of_valid hkind hvalid
  have hcount : halfCellCount sc ≤ sc.pulses.length := sum_halfCount_le hshort
  left
  exact Nat.le_trans (Nat.mul_le_mul_left _ hcount) (copiesAsked_mul_le h)

/-- Nothing receives and every driver call succeeds. -/
def idleTransmitter : Transmitter where
  rx := fun _ => false
  rxEnabled := false
  rfTxBuf := ⟨List.replicate kMaxSymbols ⟨0, false, 0, false⟩, List.length_replicate⟩
  irTxBuf := ⟨List.replicate kMaxSymbols ⟨0, false, 0, false⟩, List.length_replicate⟩
  driver := {}

/-- Two marks with a long reset gap, asked for eight times. -/
def doorbellCode : StoredCode where
  kind := .rf
  pulses := [350, 1050, 350, 40000]
  freqMHz := 433
  frameRepeat := 8

theorem fired_waveform_iff_doorbell :
    ∃ keying, fireCode idleTransmitter (some doorbellCode) = some keying ∧
      WholeCopies doorbellCode keying.symbols ∧ HalvesKeyed keying.symbols := by
  have hvalid : validateCode doorbellCode = .ok := by decide
  have hready : idleTransmitter.Ready doorbellCode :=
    ⟨fun _ _ => rfl, rfl, rfl, rfl⟩
  obtain ⟨keying, hfired⟩ := Option.isSome_iff_exists.mp
    ((fireCode_isSome_iff (by decide) hvalid).mpr hready)
  exact ⟨keying, hfired, (fired_waveform_iff (by decide) hvalid hfired).mpr (by decide)⟩

/-- 64 entries with a reset gap of 40 ms: eight copies are 512 entries, which the clamp
lets through, but 520 half-cells. -/
def longGapCode : StoredCode where
  kind := .rf
  pulses := List.replicate 63 350 ++ [40000]
  freqMHz := 433
  frameRepeat := 8

/-- The last copy is cut short. -/
theorem long_gap_cut_short :
    longGapCode.kind = .rf ∧ validateCode longGapCode = .ok ∧
      ∃ keying, fireCode idleTransmitter (some longGapCode) = some keying ∧
        ¬ WholeCopies longGapCode keying.symbols := by
  have hvalid : validateCode longGapCode = .ok := by decide
  have hkind : longGapCode.kind ≠ .none := by decide
  have hready : idleTransmitter.Ready longGapCode :=
    ⟨fun _ _ => rfl, rfl, rfl, rfl⟩
  obtain ⟨keying, hfired⟩ := Option.isSome_iff_exists.mp
    ((fireCode_isSome_iff hkind hvalid).mpr hready)
  refine ⟨rfl, hvalid, keying, hfired, ?_⟩
  rw [wholeCopies_of_fired_iff (storable_of_valid hkind hvalid) hkind hfired]
  decide +kernel

end Transmit

end RfIrBlaster
