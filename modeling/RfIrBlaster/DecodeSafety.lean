/-
`decode` and `load` of `config_codec.cpp` on arbitrary bytes: every read stays inside
the blob, every way out but the last gives the defaults, and a load writes only an
accepted upgrade.
-/
import RfIrBlaster.ConfigCodec

namespace RfIrBlaster

/-- The two-byte read with its bounds checked: `none` when a byte lies outside the blob. -/
def readU16 (b : Bytes) (off : Nat) : Option UInt16 :=
  match b[off]?, b[off + 1]? with
  | some b0, some b1 => some (b0.toUInt16 ||| (b1.toUInt16 <<< 8))
  | _, _ => none

def readU32 (b : Bytes) (off : Nat) : Option UInt32 :=
  match b[off]?, b[off + 1]?, b[off + 2]?, b[off + 3]? with
  | some b0, some b1, some b2, some b3 =>
      some (b0.toUInt32 ||| (b1.toUInt32 <<< 8) ||| (b2.toUInt32 <<< 16) |||
        (b3.toUInt32 <<< 24))
  | _, _, _, _ => none

/-- The `len` bytes from `off` on that `crc32` and `fromJson` are given. -/
def readBytes (b : Bytes) (off len : Nat) : Option Bytes :=
  if off + len ≤ b.length then some ((b.drop off).take len) else none

/-- `decode` over the checked reads, each made where the source makes it. -/
def checkedDecode (A : ArduinoJson) (blob : Bytes) : Option DecodeResult :=
  if blob.isEmpty then some { status := .absent }
  else if blob.length < blobHeaderSize then some { status := .badHeader }
  else
    (readU32 blob 0).bind fun magic =>
      if magic ≠ blobMagic then some { status := .badMagic }
      else (readU16 blob 4).bind fun storedVer =>
        if schemaVersionNow < storedVer then some { status := .badVersion }
        else (readU32 blob 6).bind fun len =>
          if maxConfigBytes < len.toNat ∨ blobHeaderSize + len.toNat ≠ blob.length then
            some { status := .badHeader }
          else (readU32 blob 10).bind fun crc =>
            (readBytes blob blobHeaderSize len.toNat).bind fun payload =>
              if crc32 payload ≠ crc then some { status := .badCrc }
              else
                match fromJson A payload with
                | none => some { status := .badJson }
                | some parsed =>
                    if !isValid parsed then some { status := .failedValidation }
                    else
                      some
                        { config := parsed
                          status := .ok
                          usedDefaults := false
                          migrated := decide (storedVer < schemaVersionNow) }

theorem getElem?_eq_getD {b : Bytes} {off : Nat} (h : off < b.length) :
    b[off]? = some (b.getD off 0) := by
  rw [List.getElem?_eq_getElem h, List.getD_eq_getElem b 0 h]

theorem readU16_eq {b : Bytes} {off : Nat} (h : off + 2 ≤ b.length) :
    readU16 b off = some (getU16 b off) := by
  unfold readU16
  rw [getElem?_eq_getD (by omega), getElem?_eq_getD (by omega)]
  rfl

theorem readU32_eq {b : Bytes} {off : Nat} (h : off + 4 ≤ b.length) :
    readU32 b off = some (getU32 b off) := by
  unfold readU32
  rw [getElem?_eq_getD (by omega), getElem?_eq_getD (by omega), getElem?_eq_getD (by omega),
    getElem?_eq_getD (by omega)]
  rfl

/-- A read up to the end of the blob is the rest of it. -/
theorem readBytes_rest {b : Bytes} {off len : Nat} (h : off + len = b.length) :
    readBytes b off len = some (b.drop off) := by
  unfold readBytes
  rw [if_pos (Nat.le_of_eq h), List.take_of_length_le]
  rw [List.length_drop]
  omega

/-- No read of `decode` leaves the blob. -/
theorem checkedDecode_eq (A : ArduinoJson) (blob : Bytes) :
    checkedDecode A blob = some (decode A blob) := by
  unfold checkedDecode decode
  by_cases hempty : blob.isEmpty = true
  · rw [if_pos hempty, if_pos hempty]
  · rw [if_neg hempty, if_neg hempty]
    by_cases hshort : blob.length < blobHeaderSize
    · rw [if_pos hshort, if_pos hshort]
    · have hlength : 14 ≤ blob.length := Nat.le_of_not_lt hshort
      rw [if_neg hshort, if_neg hshort, readU32_eq (by omega), readU16_eq (by omega),
        readU32_eq (by omega), readU32_eq (by omega)]
      simp only [Option.bind_some]
      by_cases hmagic : getU32 blob 0 ≠ blobMagic
      · rw [if_pos hmagic, if_pos hmagic]
      · rw [if_neg hmagic, if_neg hmagic]
        by_cases hversion : schemaVersionNow < getU16 blob 4
        · rw [if_pos hversion, if_pos hversion]
        · rw [if_neg hversion, if_neg hversion]
          by_cases hlen : maxConfigBytes < (getU32 blob 6).toNat ∨
              blobHeaderSize + (getU32 blob 6).toNat ≠ blob.length
          · rw [if_pos hlen, if_pos hlen]
          · -- The declared length ends the payload at the last byte of the blob.
            have hrest : blobHeaderSize + (getU32 blob 6).toNat = blob.length := by
              by_contra hne
              exact hlen (Or.inr hne)
            rw [if_neg hlen, if_neg hlen, readBytes_rest hrest, Option.bind_some]
            by_cases hcrc : crc32 (blob.drop blobHeaderSize) ≠ getU32 blob 10
            · rw [if_pos hcrc, if_pos hcrc]
            · rw [if_neg hcrc, if_neg hcrc]
              cases fromJson A (blob.drop blobHeaderSize) with
              | none => rfl
              | some parsed =>
                  by_cases hvalid : (!isValid parsed) = true
                  · exact (if_pos hvalid).trans (congrArg some (if_pos hvalid).symm)
                  · exact (if_neg hvalid).trans (congrArg some (if_neg hvalid).symm)

/-- The blob is a whole envelope around the configuration that was taken from it. -/
structure Accepted (blob : Bytes) (r : DecodeResult) : Prop where
  status : r.status = .ok
  usedDefaults : r.usedDefaults = false
  valid : validate r.config = .ok
  version : r.config.schemaVersion = schemaVersionNow
  length : blob.length = blobHeaderSize + (getU32 blob 6).toNat
  ceiling : (getU32 blob 6).toNat ≤ maxConfigBytes
  checksum : crc32 (blob.drop blobHeaderSize) = getU32 blob 10

/-- Any other way out reports why and gives the defaults. -/
structure Defaulted (r : DecodeResult) : Prop where
  status : r.status ≠ .ok
  config : r.config = {}
  usedDefaults : r.usedDefaults = true
  migrated : r.migrated = false

theorem defaulted_of_status {status : DecodeStatus} (h : status ≠ .ok) :
    Defaulted { status := status } :=
  ⟨h, rfl, rfl, rfl⟩

theorem decode_accepted_or_defaulted (A : ArduinoJson) (blob : Bytes) :
    Accepted blob (decode A blob) ∨ Defaulted (decode A blob) := by
  unfold decode
  by_cases hempty : blob.isEmpty = true
  · rw [if_pos hempty]
    exact Or.inr (defaulted_of_status (by decide))
  rw [if_neg hempty]
  by_cases hshort : blob.length < blobHeaderSize
  · rw [if_pos hshort]
    exact Or.inr (defaulted_of_status (by decide))
  rw [if_neg hshort]
  by_cases hmagic : getU32 blob 0 ≠ blobMagic
  · rw [if_pos hmagic]
    exact Or.inr (defaulted_of_status (by decide))
  rw [if_neg hmagic]
  by_cases hversion : schemaVersionNow < getU16 blob 4
  · rw [if_pos hversion]
    exact Or.inr (defaulted_of_status (by decide))
  rw [if_neg hversion]
  by_cases hlen : maxConfigBytes < (getU32 blob 6).toNat ∨
      blobHeaderSize + (getU32 blob 6).toNat ≠ blob.length
  · rw [if_pos hlen]
    exact Or.inr (defaulted_of_status (by decide))
  rw [if_neg hlen]
  obtain ⟨hceiling, hrest⟩ := not_or.mp hlen
  by_cases hcrc : crc32 (blob.drop blobHeaderSize) ≠ getU32 blob 10
  · simp only [if_pos hcrc]
    exact Or.inr (defaulted_of_status (by decide))
  simp only [if_neg hcrc]
  cases hparse : fromJson A (blob.drop blobHeaderSize) with
  | none => exact Or.inr (defaulted_of_status (by decide))
  | some parsed =>
      by_cases hvalid : validate parsed = .ok
      · have hok : isValid parsed = true := decide_eq_true hvalid
        simp only [hok, Bool.not_true, Bool.false_eq_true, if_false]
        left
        exact
          { status := rfl
            usedDefaults := rfl
            valid := hvalid
            version := (fromJson_spec hparse).2.1
            length := (not_not.mp hrest).symm
            ceiling := Nat.le_of_not_lt hceiling
            checksum := not_not.mp hcrc }
      · have hbad : isValid parsed = false := decide_eq_false hvalid
        simp only [hbad, Bool.not_false, if_true]
        exact Or.inr (defaulted_of_status (by decide))

section Load

variable {σ : Type} {A : ArduinoJson} {S : BlobStore σ}

/-- The blob changes under a load only where an old one was upgraded and written back. -/
theorem load_store (hS : S.Lawful) (s : σ) :
    S.get (load A S s).2 = S.get s ∨
      ∃ blob, S.get s = some blob ∧ (decode A blob).status = .ok ∧
        (decode A blob).migrated = true ∧ (save A S s (decode A blob).config).1 = true := by
  unfold load
  cases hstored : S.get s with
  | none => exact Or.inl hstored
  | some blob =>
      by_cases hupgrade : (decode A blob).status = .ok ∧ (decode A blob).migrated = true
      · simp only [if_pos hupgrade]
        cases hsaved : (save A S s (decode A blob).config).1 with
        | false =>
            left
            rw [save_rejected hS hsaved, hstored]
        | true => exact Or.inr ⟨blob, rfl, hupgrade.1, hupgrade.2, hsaved⟩
      · simp only [if_neg hupgrade]
        exact Or.inl hstored

end Load

/-- Arbitrary bytes are decoded from inside the blob, to a valid configuration of the
current version or to the defaults, and booting from them overwrites nothing but an old
blob with its own upgrade. -/
theorem decode_safe {σ : Type} (A : ArduinoJson) (S : BlobStore σ) (hS : S.Lawful) :
    (∀ blob, checkedDecode A blob = some (decode A blob) ∧
        (Accepted blob (decode A blob) ∨ Defaulted (decode A blob))) ∧
      ∀ s, S.get (load A S s).2 = S.get s ∨
        ∃ blob, S.get s = some blob ∧ (decode A blob).status = .ok ∧
          (decode A blob).migrated = true ∧ (save A S s (decode A blob).config).1 = true :=
  ⟨fun blob => ⟨checkedDecode_eq A blob, decode_accepted_or_defaulted A blob⟩, load_store hS⟩

/-- The envelope of a layout newer than the firmware. -/
def newerBlob : Bytes :=
  putU32 blobMagic ++ putU16 3 ++ putU32 0 ++ putU32 0

theorem decode_safe_newer :
    (load strictJson (memoryBlobStore 20480) (some newerBlob)).2 = some newerBlob := by
  have hstatus : (decode strictJson newerBlob).status = .badVersion := by decide
  rcases (decode_safe strictJson (memoryBlobStore 20480) (memoryBlobStore_lawful 20480)).2
    (some newerBlob) with hsame | ⟨blob, hblob, hok, -⟩
  · exact hsame
  · obtain rfl : newerBlob = blob := Option.some.inj hblob
    rw [hstatus] at hok
    cases hok

end RfIrBlaster
