/-
The configuration records of `config_model.h`: learned codes, commands,
devices, settings, and the bounds every layer above shares.
-/
import Mathlib.Algebra.Ring.Nat
import Mathlib.Data.List.Basic

namespace RfIrBlaster

/-- A `std::string` or a byte buffer: any bytes, NUL included. -/
abbrev Bytes := List UInt8

/-- The bytes of an ASCII literal of the source. -/
def ascii (s : String) : Bytes :=
  s.toList.map fun c => UInt8.ofNat c.toNat

-- The kernel reads a long literal off its UTF-8 bytes; these give it the characters.
theorem ascii_ofList (cs : List Char) :
    ascii (String.ofList cs) = cs.map fun c => UInt8.ofNat c.toNat := by
  rw [ascii, String.toList_ofList]

theorem ascii_append (s t : String) : ascii (s ++ t) = ascii s ++ ascii t := by
  simp only [ascii, String.toList_append, List.map_append]

def schemaVersionNow : UInt16 := 2
def maxConfigBytes : Nat := 16384
def maxDevices : Nat := 32
def maxNameLen : Nat := 32
def maxPulses : Nat := 512
def nestingLimit : Nat := 6
def maxRepeatCount : UInt8 := 10
def maxRepeatDelayMs : UInt16 := 5000
def maxFrameRepeat : UInt8 := 10
def maxDomainLen : Nat := 253
def maxLabelLen : Nat := 63
def otaPort : UInt16 := 3232
def mdnsPort : UInt16 := 5353
def hapPort : UInt16 := 1201

inductive CodeKind where
  | none
  | rf
  | ir
deriving DecidableEq, Repr

/-- Owns its pulse buffer: microsecond mark and space durations in turn. -/
structure StoredCode where
  kind : CodeKind := .none
  pulses : List UInt16 := []
  freqMHz : UInt16 := 0
  carrierHz : UInt16 := 0
  rolling : Bool := false
  frameRepeat : UInt8 := 1
deriving DecidableEq, Repr

def StoredCode.isLearned (code : StoredCode) : Bool :=
  code.kind ≠ .none && !code.pulses.isEmpty

structure CommandSlot where
  name : Bytes := []
  code : StoredCode := {}
  repeatCount : UInt8 := 1
  repeatDelayMs : UInt16 := 0
deriving DecidableEq, Repr

structure VirtualDevice where
  id : UInt16 := 0
  service : Bytes := []
  name : Bytes := []
  commands : List CommandSlot := []
deriving DecidableEq, Repr

structure Settings where
  https : Bool := true
  listenPort : UInt16 := 443
  trustedProxy : Bool := false
  canonicalDomain : Bytes := []
  ledEnabled : Bool := true
deriving DecidableEq, Repr

/-- The whole configuration; id 1 is the bridge accessory, so device ids
start at 2. -/
structure Config where
  schemaVersion : UInt16 := schemaVersionNow
  settings : Settings := {}
  nextDeviceId : UInt16 := 2
  devices : List VirtualDevice := []
deriving DecidableEq, Repr

end RfIrBlaster
