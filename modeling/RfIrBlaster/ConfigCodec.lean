/-
`config_codec.cpp`: the stored envelope (magic, version, length, checksum, JSON
payload), and saving to and loading from a blob store.
-/
import Mathlib.Data.Nat.Bitwise
import RfIrBlaster.ConfigJson
import RfIrBlaster.ConfigValidate

namespace RfIrBlaster

/-- ASCII "RFB1". -/
def blobMagic : UInt32 := 0x52464231
def blobHeaderSize : Nat := 4 + 2 + 4 + 4

def crcBit (crc : UInt32) : UInt32 :=
  if crc &&& 1 ≠ 0 then (crc >>> 1) ^^^ 0xEDB88320 else crc >>> 1

/-- CRC-32/ISO-HDLC. -/
def crc32 (data : Bytes) : UInt32 :=
  data.foldl (fun crc b => Nat.iterate crcBit 8 (crc ^^^ b.toUInt32)) 0xFFFFFFFF ^^^ 0xFFFFFFFF

/-- Little endian, as are the reads below. -/
def putU16 (v : UInt16) : Bytes :=
  [v.toUInt8, (v >>> 8).toUInt8]

def putU32 (v : UInt32) : Bytes :=
  [v.toUInt8, (v >>> 8).toUInt8, (v >>> 16).toUInt8, (v >>> 24).toUInt8]

/-- The read at offset `off`; the caller has checked that the bytes are there. -/
def getU16 (b : Bytes) (off : Nat) : UInt16 :=
  (b.getD off 0).toUInt16 ||| ((b.getD (off + 1) 0).toUInt16 <<< 8)

def getU32 (b : Bytes) (off : Nat) : UInt32 :=
  (b.getD off 0).toUInt32 ||| ((b.getD (off + 1) 0).toUInt32 <<< 8) |||
    ((b.getD (off + 2) 0).toUInt32 <<< 16) ||| ((b.getD (off + 3) 0).toUInt32 <<< 24)

inductive DecodeStatus where
  | ok
  | absent
  | badHeader
  | badMagic
  | badVersion
  | badCrc
  | badJson
  | failedValidation
deriving DecidableEq, Repr

structure DecodeResult where
  config : Config := {}
  status : DecodeStatus := .absent
  usedDefaults : Bool := true
  migrated : Bool := false
deriving DecidableEq, Repr

def header (version : UInt16) (payload : Bytes) : Bytes :=
  putU32 blobMagic ++ putU16 version ++ putU32 (UInt32.ofNat payload.length) ++
    putU32 (crc32 payload)

def encode (A : ArduinoJson) (cfg : Config) : Option Bytes :=
  (toJson A cfg).map fun payload => header cfg.schemaVersion payload ++ payload

def decode (A : ArduinoJson) (blob : Bytes) : DecodeResult :=
  if blob.isEmpty then { status := .absent }
  else if blob.length < blobHeaderSize then { status := .badHeader }
  else if getU32 blob 0 ≠ blobMagic then { status := .badMagic }
  else if schemaVersionNow < getU16 blob 4 then { status := .badVersion }
  else if maxConfigBytes < (getU32 blob 6).toNat ∨
      blobHeaderSize + (getU32 blob 6).toNat ≠ blob.length then { status := .badHeader }
  else
    let payload := blob.drop blobHeaderSize
    if crc32 payload ≠ getU32 blob 10 then { status := .badCrc }
    else
      match fromJson A payload with
      | none => { status := .badJson }
      | some parsed =>
          if !isValid parsed then { status := .failedValidation }
          else
            { config := parsed
              status := .ok
              usedDefaults := false
              migrated := decide (getU16 blob 4 < schemaVersionNow) }

/-- The calls made into the one-blob store; `σ` is its state. -/
structure BlobStore (σ : Type) where
  get : σ → Option Bytes
  put : σ → Bytes → Bool × σ

/-- A write persists the blob exactly or is rejected and leaves the prior one. -/
structure BlobStore.Lawful {σ : Type} (S : BlobStore σ) : Prop where
  accepted : ∀ s data, (S.put s data).1 = true → S.get (S.put s data).2 = some data
  rejected : ∀ s data, (S.put s data).1 = false → S.get (S.put s data).2 = S.get s

/-- `MemoryBlobStore`: the state is the blob when present. -/
def memoryBlobStore (capacity : Nat) : BlobStore (Option Bytes) where
  get s := s
  put s data := if capacity < data.length then (false, s) else (true, some data)

theorem memoryBlobStore_lawful (capacity : Nat) : (memoryBlobStore capacity).Lawful where
  accepted s data h := by
    unfold memoryBlobStore at h ⊢
    by_cases hfull : capacity < data.length
    · simp [hfull] at h
    · simp [hfull]
  rejected s data h := by
    unfold memoryBlobStore at h ⊢
    by_cases hfull : capacity < data.length
    · simp [hfull]
    · simp [hfull] at h

section Store

variable {σ : Type}

def save (A : ArduinoJson) (S : BlobStore σ) (s : σ) (cfg : Config) : Bool × σ :=
  match encode A cfg with
  | none => (false, s)
  | some blob => S.put s blob

/-- The result, and the store after the best-effort write of an upgrade. -/
def load (A : ArduinoJson) (S : BlobStore σ) (s : σ) : DecodeResult × σ :=
  match S.get s with
  | none => ({}, s)
  | some blob =>
      let r := decode A blob
      if r.status = .ok ∧ r.migrated then (r, (save A S s r.config).2) else (r, s)

end Store

/-- Whether a memory store takes a configuration does not depend on what it holds. -/
theorem memoryBlobStore_save (A : ArduinoJson) (capacity : Nat) (s s' : Option Bytes)
    (cfg : Config) :
    (save A (memoryBlobStore capacity) s cfg).1 = (save A (memoryBlobStore capacity) s' cfg).1 := by
  unfold save
  cases encode A cfg with
  | none => rfl
  | some blob =>
      change (if _ then _ else _ : Bool × Option Bytes).1 =
        (if _ then _ else _ : Bool × Option Bytes).1
      split_ifs <;> rfl

/-- A rejected save leaves the stored blob. -/
theorem save_rejected {σ : Type} {A : ArduinoJson} {S : BlobStore σ} (hS : S.Lawful) {s : σ}
    {cfg : Config} (h : (save A S s cfg).1 = false) :
    S.get (save A S s cfg).2 = S.get s := by
  unfold save at h ⊢
  cases henc : encode A cfg with
  | none => rfl
  | some blob =>
      simp only [henc] at h ⊢
      exact hS.rejected s blob h

/-- An accepted save persists the encoded configuration. -/
theorem save_accepted {σ : Type} {A : ArduinoJson} {S : BlobStore σ} (hS : S.Lawful) {s : σ}
    {cfg : Config} (h : (save A S s cfg).1 = true) :
    ∃ blob, encode A cfg = some blob ∧ S.get (save A S s cfg).2 = some blob := by
  unfold save at h ⊢
  cases henc : encode A cfg with
  | none => simp [henc] at h
  | some blob =>
      simp only [henc] at h ⊢
      exact ⟨blob, rfl, hS.accepted s blob h⟩

theorem or_shifted {low high k : Nat} (h : low < 2 ^ k) :
    low ||| high <<< k = low + high * 2 ^ k := by
  rw [Nat.or_comm, ← Nat.shiftLeft_add_eq_or_of_lt h, Nat.shiftLeft_eq, Nat.add_comm]

/-- A byte is shifted above the bits below it, so `|` adds the next byte of `n`. -/
theorem or_next_byte (n k : Nat) :
    n % 2 ^ k ||| (n / 2 ^ k % 2 ^ 8) <<< k = n % 2 ^ (k + 8) := by
  have hlow : n % 2 ^ k < 2 ^ k := Nat.mod_lt n (Nat.two_pow_pos k)
  rw [or_shifted hlow, Nat.pow_add, Nat.mod_mul, Nat.mul_comm]

/-- A byte shifted within the word loses no bit. -/
theorem byte_shift_fits {b k w : Nat} (hb : b < 2 ^ 8) (hk : k + 8 ≤ w) :
    b <<< k % 2 ^ w = b <<< k := by
  rw [Nat.shiftLeft_eq]
  apply Nat.mod_eq_of_lt
  calc b * 2 ^ k < 2 ^ 8 * 2 ^ k := Nat.mul_lt_mul_of_pos_right hb (Nat.two_pow_pos k)
    _ = 2 ^ (k + 8) := by rw [← Nat.pow_add, Nat.add_comm]
    _ ≤ 2 ^ w := Nat.pow_le_pow_right (by decide) hk

theorem getU16_putU16 (v : UInt16) (tail : Bytes) : getU16 (putU16 v ++ tail) 0 = v := by
  change v.toUInt8.toUInt16 ||| ((v >>> 8).toUInt8.toUInt16 <<< 8) = v
  apply UInt16.toNat_inj.mp
  simp only [UInt16.toNat_or, UInt16.toNat_shiftLeft, UInt8.toNat_toUInt16,
    UInt16.toNat_toUInt8, UInt16.toNat_shiftRight, Nat.shiftRight_eq_div_pow]
  have hshift : UInt16.toNat 8 % 16 = 8 := by decide
  have hbyte : v.toNat / 2 ^ 8 % 2 ^ 8 < 2 ^ 8 := Nat.mod_lt _ (by decide)
  rw [hshift, byte_shift_fits hbyte (by decide), or_next_byte]
  exact Nat.mod_eq_of_lt v.toNat_lt

theorem getU32_putU32 (v : UInt32) (tail : Bytes) : getU32 (putU32 v ++ tail) 0 = v := by
  change v.toUInt8.toUInt32 ||| ((v >>> 8).toUInt8.toUInt32 <<< 8) |||
    ((v >>> 16).toUInt8.toUInt32 <<< 16) ||| ((v >>> 24).toUInt8.toUInt32 <<< 24) = v
  apply UInt32.toNat_inj.mp
  simp only [UInt32.toNat_or, UInt32.toNat_shiftLeft, UInt8.toNat_toUInt32,
    UInt32.toNat_toUInt8, UInt32.toNat_shiftRight, Nat.shiftRight_eq_div_pow]
  have hshift8 : UInt32.toNat 8 % 32 = 8 := by decide
  have hshift16 : UInt32.toNat 16 % 32 = 16 := by decide
  have hshift24 : UInt32.toNat 24 % 32 = 24 := by decide
  have hbyte : ∀ k, v.toNat / 2 ^ k % 2 ^ 8 < 2 ^ 8 := fun k => Nat.mod_lt _ (by decide)
  rw [hshift8, hshift16, hshift24, byte_shift_fits (hbyte 8) (by decide),
    byte_shift_fits (hbyte 16) (by decide), byte_shift_fits (hbyte 24) (by decide),
    or_next_byte, or_next_byte, or_next_byte]
  exact Nat.mod_eq_of_lt v.toNat_lt

theorem getD_append_add (front tail : Bytes) (off : Nat) :
    (front ++ tail).getD (front.length + off) 0 = tail.getD off 0 := by
  rw [List.getD_append_right _ _ _ _ (Nat.le_add_right _ _), Nat.add_sub_cancel_left]

theorem getU16_append (front tail : Bytes) (off : Nat) :
    getU16 (front ++ tail) (front.length + off) = getU16 tail off := by
  simp only [getU16, Nat.add_assoc, getD_append_add]

theorem getU32_append (front tail : Bytes) (off : Nat) :
    getU32 (front ++ tail) (front.length + off) = getU32 tail off := by
  simp only [getU32, Nat.add_assoc, getD_append_add]

theorem header_length (version : UInt16) (payload : Bytes) :
    (header version payload).length = blobHeaderSize :=
  rfl

/-- The four fields of an envelope are read back. -/
theorem header_fields (version : UInt16) (payload : Bytes) :
    getU32 (header version payload ++ payload) 0 = blobMagic ∧
      getU16 (header version payload ++ payload) 4 = version ∧
      getU32 (header version payload ++ payload) 6 = UInt32.ofNat payload.length ∧
      getU32 (header version payload ++ payload) 10 = crc32 payload := by
  unfold header
  simp only [List.append_assoc]
  refine ⟨getU32_putU32 _ _, ?_, ?_, ?_⟩
  · have happ := getU16_append (putU32 blobMagic)
      (putU16 version ++ (putU32 (UInt32.ofNat payload.length) ++
        (putU32 (crc32 payload) ++ payload))) 0
    exact happ.trans (getU16_putU16 _ _)
  · have happ := getU32_append (putU32 blobMagic ++ putU16 version)
      (putU32 (UInt32.ofNat payload.length) ++ (putU32 (crc32 payload) ++ payload)) 0
    rw [List.append_assoc] at happ
    exact happ.trans (getU32_putU32 _ _)
  · have happ := getU32_append (putU32 blobMagic ++ (putU16 version ++
      putU32 (UInt32.ofNat payload.length))) (putU32 (crc32 payload) ++ payload) 0
    simp only [List.append_assoc] at happ
    exact happ.trans (getU32_putU32 _ _)

section Codec

variable {A : ArduinoJson} {cfg : Config} {blob : Bytes}

/-- The header of the blob has the magic and these fields, and `length` is what follows it. -/
structure HeaderReads (blob : Bytes) (version : UInt16) (length : Nat) (crc : UInt32) : Prop where
  size : blob.length = blobHeaderSize + length
  ceiling : length ≤ maxConfigBytes
  magic : getU32 blob 0 = blobMagic
  version : getU16 blob 4 = version
  length : (getU32 blob 6).toNat = length
  crc : getU32 blob 10 = crc

theorem toJson_length {payload : Bytes} (h : toJson A cfg = some payload) :
    payload.length ≤ maxConfigBytes := by
  unfold toJson at h
  simp only at h
  split_ifs at h with hlong
  rw [← Option.some.inj h]
  exact Nat.le_of_not_lt hlong

/-- What `encode` wrote is the document's text behind its header. -/
theorem encode_reads (henc : encode A cfg = some blob) :
    ∃ payload, toJson A cfg = some payload ∧ blob.drop blobHeaderSize = payload ∧
      HeaderReads blob cfg.schemaVersion payload.length (crc32 payload) := by
  unfold encode at henc
  obtain ⟨payload, htext, rfl⟩ := Option.map_eq_some_iff.mp henc
  have hshort := toJson_length htext
  obtain ⟨hmagic, hstored, hlength, hcrc⟩ := header_fields cfg.schemaVersion payload
  refine ⟨payload, htext, List.drop_left' (header_length cfg.schemaVersion payload), ?_⟩
  exact
    { size := by rw [List.length_append, header_length]
      ceiling := hshort
      magic := hmagic
      version := hstored
      length := by
        rw [hlength]
        exact UInt32.toNat_ofNat_of_lt (Nat.lt_of_le_of_lt hshort (by decide))
      crc := hcrc }

/-- Behind such a header, of a version that is known, the checksum and the document decide. -/
theorem decode_of_reads {version : UInt16} {length : Nat} {crc : UInt32}
    (h : HeaderReads blob version length crc) (hknown : ¬schemaVersionNow < version) :
    decode A blob =
      if crc32 (blob.drop blobHeaderSize) ≠ crc then { status := .badCrc }
      else
        match fromJson A (blob.drop blobHeaderSize) with
        | none => { status := .badJson }
        | some parsed =>
            if !isValid parsed then { status := .failedValidation }
            else
              { config := parsed
                status := .ok
                usedDefaults := false
                migrated := decide (version < schemaVersionNow) } := by
  have hlong : ¬blob.length < blobHeaderSize := by
    rw [h.size]
    exact Nat.not_lt.mpr (Nat.le_add_right _ _)
  have hnonempty : blob.isEmpty = false := by
    rw [List.isEmpty_eq_false_iff, ← List.length_pos_iff, h.size]
    exact Nat.lt_of_lt_of_le (by decide) (Nat.le_add_right blobHeaderSize length)
  have hfits : ¬(maxConfigBytes < length ∨
      blobHeaderSize + length ≠ blobHeaderSize + length) := by
    rintro (hover | hother)
    · exact Nat.not_lt.mpr h.ceiling hover
    · exact hother rfl
  unfold decode
  rw [hnonempty, if_neg Bool.false_ne_true, if_neg hlong, h.magic, if_neg (not_not_intro rfl),
    h.version, if_neg hknown, h.length, h.size, if_neg hfits, h.crc]

/-- What `decode` makes of a blob `encode` wrote: the document read back, if it is valid. -/
theorem decode_encode (hA : A.Lawful) (hversion : cfg.schemaVersion = 1 ∨ cfg.schemaVersion = 2)
    (henc : encode A cfg = some blob) :
    decode A blob =
      let parsed := configOf A (configDoc { cfg with schemaVersion := schemaVersionNow })
      if !isValid parsed then { status := .failedValidation }
      else
        { config := parsed
          status := .ok
          usedDefaults := false
          migrated := decide (cfg.schemaVersion = 1) } := by
  obtain ⟨payload, htext, hdrop, hreads⟩ := encode_reads henc
  have hknown : ¬schemaVersionNow < cfg.schemaVersion := by
    rcases hversion with h | h <;> rw [h] <;> decide
  have hmigrated : decide (cfg.schemaVersion < schemaVersionNow) =
      decide (cfg.schemaVersion = 1) := by
    rcases hversion with h | h <;> rw [h] <;> decide
  rw [decode_of_reads hreads hknown, hdrop, if_neg (not_not_intro rfl)]
  simp only [fromJson_toJson hA htext hversion, hmigrated]

/-- A blob written for a valid, canonical configuration with distinct names. -/
theorem decode_encode_ok (hA : A.Lawful) (hvalid : validate cfg = .ok)
    (hversion : cfg.schemaVersion = 1 ∨ cfg.schemaVersion = 2) (hnames : cfg.NamesDistinct)
    (hcanon : cfg.Canonical) (henc : encode A cfg = some blob) :
    decode A blob =
      { config := { cfg with schemaVersion := schemaVersionNow }
        status := .ok
        usedDefaults := false
        migrated := decide (cfg.schemaVersion = 1) } := by
  have hcanonNow : Config.Canonical { cfg with schemaVersion := schemaVersionNow } :=
    ⟨hcanon.domain, hcanon.devices⟩
  have hback := configOf_configDoc hA hcanonNow hnames
  have hvalidNow : isValid { cfg with schemaVersion := schemaVersionNow } = true := by
    unfold isValid
    rw [validate_schemaVersion, hvalid]
    decide
  rw [decode_encode hA hversion henc]
  simp only [hback, hvalidNow, Bool.not_true, Bool.false_eq_true, if_false]

/-- A load reports what the stored blob decodes to. -/
theorem load_decode {σ : Type} (A : ArduinoJson) (S : BlobStore σ) (s : σ) :
    (load A S s).1 = ((S.get s).map (decode A)).getD {} := by
  unfold load
  cases S.get s with
  | none => rfl
  | some blob =>
      change (if _ then _ else _ : DecodeResult × σ).1 = decode A blob
      split_ifs <;> rfl

/-- Of the configurations a parse can give, those with distinct names are loaded as
they were saved, and no others. -/
theorem load_save_iff {σ : Type} (hA : A.Lawful) {S : BlobStore σ} (hS : S.Lawful) {s : σ}
    (hvalid : validate cfg = .ok) (hversion : cfg.schemaVersion = schemaVersionNow)
    (hcanon : cfg.Canonical) (hsaved : (save A S s cfg).1 = true) :
    ((load A S (save A S s cfg).2).1.status = .ok ∧
      (load A S (save A S s cfg).2).1.config = cfg) ↔ cfg.NamesDistinct := by
  cases henc : encode A cfg with
  | none => simp [save, henc] at hsaved
  | some blob =>
      have hput : save A S s cfg = S.put s blob := by
        simp only [save, henc]
      rw [hput] at hsaved ⊢
      have hload : (load A S (S.put s blob).2).1 = decode A blob := by
        rw [load_decode, hS.accepted s blob hsaved]
        rfl
      have hcurrent : { cfg with schemaVersion := schemaVersionNow } = cfg := by
        rw [← hversion]
      have hnow : cfg.schemaVersion = 1 ∨ cfg.schemaVersion = 2 := Or.inr hversion
      rw [hload]
      constructor
      · rintro ⟨hstatus, hconfig⟩
        rw [decode_encode hA hnow henc, hcurrent] at hstatus hconfig
        simp only at hstatus hconfig
        split_ifs at hstatus hconfig
        exact (configOf_configDoc_iff hA hcanon).mp hconfig
      · intro hnames
        rw [decode_encode_ok hA hvalid hnow hnames hcanon henc, hcurrent]
        exact ⟨rfl, rfl⟩

/-- What is encoded decodes to itself at the current layout version, also through a
store, and a second load finds the upgrade if the store took it. -/
theorem codec_round_trip {σ : Type} (A : ArduinoJson) (hA : A.Lawful) (S : BlobStore σ)
    (hS : S.Lawful) (cfg : Config) (hvalid : validate cfg = .ok)
    (hversion : cfg.schemaVersion = 1 ∨ cfg.schemaVersion = 2) (hnames : cfg.NamesDistinct)
    (hcanon : cfg.Canonical) (blob : Bytes) (henc : encode A cfg = some blob) :
    let upgraded : Config := { cfg with schemaVersion := schemaVersionNow }
    let result : DecodeResult :=
      { config := upgraded
        status := .ok
        usedDefaults := false
        migrated := decide (cfg.schemaVersion = 1) }
    decode A blob = result ∧
      ∀ s : σ, S.get s = some blob →
        (load A S s).1 = result ∧
          ((cfg.schemaVersion = 1 → (save A S s upgraded).1 = true) →
            (load A S (load A S s).2).1 = { result with migrated := false }) := by
  intro upgraded result
  have hdecode : decode A blob = result :=
    decode_encode_ok hA hvalid hversion hnames hcanon henc
  refine ⟨hdecode, ?_⟩
  intro s hs
  rcases hversion with hold | hnow
  · have hmigrated : result.status = .ok ∧ result.migrated = true :=
      ⟨rfl, decide_eq_true hold⟩
    have hload : load A S s = (result, (save A S s upgraded).2) := by
      unfold load
      simp only [hs, hdecode]
      exact if_pos hmigrated
    rw [hload]
    refine ⟨rfl, ?_⟩
    intro haccepted
    have hsaved := haccepted hold
    cases hagain : encode A upgraded with
    | none => simp [save, hagain] at hsaved
    | some newer =>
        have hput : save A S s upgraded = S.put s newer := by
          simp only [save, hagain]
        rw [hput] at hsaved ⊢
        have hstored := hS.accepted s newer hsaved
        have hcanonNow : upgraded.Canonical := ⟨hcanon.domain, hcanon.devices⟩
        have hdecodeNow := @decode_encode_ok A upgraded newer hA hvalid (Or.inr rfl) hnames
          hcanonNow hagain
        unfold load
        simp only [hstored, hdecodeNow]
        rfl
  · have hmigrated : result.migrated = false := by
      change decide (cfg.schemaVersion = 1) = false
      rw [hnow]
      decide
    have hload : load A S s = (result, s) := by
      unfold load
      simp only [hs, hdecode, hmigrated]
      exact if_neg fun h => Bool.false_ne_true h.2
    rw [hload]
    refine ⟨rfl, ?_⟩
    intro _
    rw [hload]
    change result = { result with migrated := false }
    rw [← hmigrated]

/-- A version 1 configuration with one RF command. -/
def remoteConfig : Config :=
  { schemaVersion := 1
    nextDeviceId := 3
    devices := [{
      id := 2
      service := ascii "Switch"
      name := ascii "Lamp"
      commands := [{
        name := ascii "on"
        code := { kind := .rf, pulses := [350, 1050], freqMHz := 433, frameRepeat := 4 } }] }] }

theorem remoteConfig_canonical : remoteConfig.Canonical := by
  refine ⟨List.not_mem_nil, ?_⟩
  intro d hd
  obtain rfl := List.mem_singleton.mp hd
  refine ⟨by decide, by decide, ?_⟩
  intro slot hslot
  obtain rfl := List.mem_singleton.mp hslot
  exact ⟨by decide, fun hkind => absurd rfl hkind, fun _ => rfl⟩

def remoteBlob : Bytes :=
  (encode strictJson remoteConfig).getD []

theorem codec_round_trip_remote :
    encode strictJson remoteConfig = some remoteBlob ∧
      (load strictJson (memoryBlobStore 20480) (some remoteBlob)).1 =
        { config := { remoteConfig with schemaVersion := 2 }, status := .ok, usedDefaults := false
          migrated := true } ∧
      (load strictJson (memoryBlobStore 20480)
        (load strictJson (memoryBlobStore 20480) (some remoteBlob)).2).1 =
        { config := { remoteConfig with schemaVersion := 2 }, status := .ok, usedDefaults := false
          migrated := false } := by
  have hblob : encode strictJson remoteConfig = some remoteBlob := by
    have hsome : (encode strictJson remoteConfig).isSome = true := by decide +kernel
    obtain ⟨blob, hblob⟩ := Option.isSome_iff_exists.mp hsome
    rw [remoteBlob, hblob]
    rfl
  have htrip := codec_round_trip strictJson strictJson_lawful (memoryBlobStore 20480)
    (memoryBlobStore_lawful 20480) remoteConfig (by decide) (Or.inl rfl)
    (by unfold Config.NamesDistinct; decide) remoteConfig_canonical remoteBlob hblob
  obtain ⟨hfirst, hsecond⟩ := htrip.2 (some remoteBlob) rfl
  exact ⟨hblob, hfirst, hsecond fun _ => by decide +kernel⟩

end Codec

end RfIrBlaster
