/-
Flash corruption of a stored blob: the checksum sees every change within four consecutive
payload bytes, and a change inside one header field is refused or makes no difference to the
configuration.
-/
import RfIrBlaster.DecodeSafety
import RfIrBlaster.ShiftRegister

namespace RfIrBlaster

open ShiftRegister

/-- A blob of the same length with the same bytes outside `len` of them from `start` on. -/
def SameOutside (start len : Nat) (b b' : Bytes) : Prop :=
  b'.length = b.length ∧ ∀ j, j < start ∨ start + len ≤ j → b'[j]? = b[j]?

/-- The header fields as `encode` lays them out: where each starts, and how long it is. -/
def headerFields : List (Nat × Nat) :=
  [(0, 4), (4, 2), (6, 4), (10, 4)]

section Crc

def crcPoly : BitVec 32 := 0xEDB88320#32

theorem low_bit (crc : UInt32) : crc &&& 1 ≠ 0 ↔ crc.toBitVec.getLsbD 0 = true := by
  have hmask : (crc &&& 1).toBitVec =
      BitVec.setWidth 32 (BitVec.ofBool (crc.toBitVec.getLsbD 0)) := by
    rw [UInt32.toBitVec_and]
    exact BitVec.and_one_eq_setWidth_ofBool_getLsbD
  rw [ne_eq, ← UInt32.toBitVec_inj, hmask]
  cases crc.toBitVec.getLsbD 0 <;> decide

theorem crcBit_toBitVec (crc : UInt32) :
    (crcBit crc).toBitVec = step crcPoly crc.toBitVec := by
  unfold crcBit step
  simp only [low_bit]
  split_ifs
  · rfl
  · rfl

theorem crcBits_toBitVec (n : Nat) (crc : UInt32) :
    (Nat.iterate crcBit n crc).toBitVec = steps crcPoly n crc.toBitVec := by
  induction n generalizing crc with
  | zero => rfl
  | succ n ih =>
      rw [Function.iterate_succ_apply, ih, crcBit_toBitVec]
      rfl

/-- `crc32` is the register of its polynomial, started and ended with all bits flipped. -/
theorem crc32_toBitVec (data : Bytes) :
    (crc32 data).toBitVec =
      absorb crcPoly 0xFFFFFFFF#32 (data.map UInt8.toBitVec) ^^^ 0xFFFFFFFF#32 := by
  have hfold : ∀ crc : UInt32,
      (data.foldl (fun crc b => Nat.iterate crcBit 8 (crc ^^^ b.toUInt32)) crc).toBitVec =
        absorb crcPoly crc.toBitVec (data.map UInt8.toBitVec) := by
    induction data with
    | nil => exact fun crc => rfl
    | cons b data ih =>
        intro crc
        rw [List.foldl_cons, ih, crcBits_toBitVec]
        rfl
  unfold crc32
  rw [UInt32.toBitVec_xor, hfold]
  rfl

/-- No two payloads that differ only within four consecutive bytes have one checksum. -/
theorem crc32_burst {burst burst' : Bytes} (hlength : burst.length = burst'.length)
    (hroom : burst.length ≤ 4) (front back : Bytes)
    (h : crc32 (front ++ (burst ++ back)) = crc32 (front ++ (burst' ++ back))) :
    burst = burst' := by
  have hbits := congrArg UInt32.toBitVec h
  rw [crc32_toBitVec, crc32_toBitVec, BitVec.xor_left_inj] at hbits
  simp only [List.map_append] at hbits
  have hsame := absorb_burst (by decide) (by simpa using hlength)
    (by rw [List.length_map]; omega) _ _ _ hbits
  exact List.map_injective_iff.mpr (fun a b => UInt8.toBitVec_inj.mp) hsame

end Crc

section Window

variable {start len : Nat} {b b' : Bytes}

theorem SameOutside.drop (h : SameOutside start len b b') {n : Nat} (hn : n ≤ start) :
    SameOutside (start - n) len (b.drop n) (b'.drop n) := by
  refine ⟨by rw [List.length_drop, List.length_drop, h.1], ?_⟩
  intro j hj
  rw [List.getElem?_drop, List.getElem?_drop]
  exact h.2 (n + j) (by omega)

theorem SameOutside.take (h : SameOutside start len b b') {n : Nat} (hn : n ≤ start) :
    b'.take n = b.take n := by
  apply List.ext_getElem?
  intro j
  rw [List.getElem?_take, List.getElem?_take]
  split_ifs with hj
  · exact h.2 j (Or.inl (by omega))
  · rfl

/-- Both blobs are the window's bytes between the same ones. -/
theorem SameOutside.split (h : SameOutside start len b b') :
    ∃ front burst burst' back, b = front ++ (burst ++ back) ∧ b' = front ++ (burst' ++ back) ∧
      burst.length = burst'.length ∧ burst.length ≤ len := by
  have hfront : b'.take start = b.take start := h.take (Nat.le_refl start)
  have hback : b'.drop (start + len) = b.drop (start + len) := by
    apply List.ext_getElem?
    intro j
    rw [List.getElem?_drop, List.getElem?_drop]
    exact h.2 _ (Or.inr (Nat.le_add_right _ _))
  have hparts : ∀ s : Bytes,
      s = s.take start ++ ((s.drop start).take len ++ s.drop (start + len)) := by
    intro s
    rw [← List.drop_drop, List.take_append_drop, List.take_append_drop]
  refine ⟨b.take start, (b.drop start).take len, (b'.drop start).take len, b.drop (start + len),
    hparts b, ?_, ?_, ?_⟩
  · rw [← hfront, ← hback]
    exact hparts b'
  · simp [h.1]
  · rw [List.length_take]
    exact Nat.min_le_left _ _

theorem SameOutside.getD_eq (h : SameOutside start len b b') {j : Nat}
    (hj : j < start ∨ start + len ≤ j) : b'.getD j 0 = b.getD j 0 := by
  rw [List.getD_eq_getElem?_getD, List.getD_eq_getElem?_getD, h.2 j hj]

theorem SameOutside.getU16_eq (h : SameOutside start len b b') {off : Nat}
    (hoff : off + 2 ≤ start) : getU16 b' off = getU16 b off := by
  have hread : ∀ k, k < 2 → b'.getD (off + k) 0 = b.getD (off + k) 0 :=
    fun k hk => h.getD_eq (Or.inl (by omega))
  unfold getU16
  rw [hread 1 (by decide), show b'.getD off 0 = b.getD off 0 from hread 0 (by decide)]

theorem SameOutside.getU32_eq (h : SameOutside start len b b') {off : Nat}
    (hoff : off + 4 ≤ start) : getU32 b' off = getU32 b off := by
  have hread : ∀ k, k < 4 → b'.getD (off + k) 0 = b.getD (off + k) 0 :=
    fun k hk => h.getD_eq (Or.inl (by omega))
  unfold getU32
  rw [hread 1 (by decide), hread 2 (by decide), hread 3 (by decide),
    show b'.getD off 0 = b.getD off 0 from hread 0 (by decide)]

/-- A change behind the header leaves what it reads. -/
theorem SameOutside.headerReads (h : SameOutside start len b b') (hstart : blobHeaderSize ≤ start)
    {version : UInt16} {length : Nat} {crc : UInt32} (hreads : HeaderReads b version length crc) :
    HeaderReads b' version length crc := by
  have hheader : blobHeaderSize = 14 := rfl
  exact
    { size := h.1.trans hreads.size
      ceiling := hreads.ceiling
      magic := (h.getU32_eq (by omega)).trans hreads.magic
      version := (h.getU16_eq (by omega)).trans hreads.version
      length := (congrArg UInt32.toNat (h.getU32_eq (by omega))).trans hreads.length
      crc := (h.getU32_eq (by omega)).trans hreads.crc }

/-- The checksum sees any change within four consecutive bytes. -/
theorem SameOutside.crc32_ne (h : SameOutside start 4 b b') (hne : b' ≠ b) :
    crc32 b' ≠ crc32 b := by
  intro hsum
  obtain ⟨front, burst, burst', back, rfl, rfl, hlengths, hroom⟩ := h.split
  apply hne
  rw [crc32_burst hlengths.symm (hlengths ▸ hroom) front back hsum]

end Window

section Decode

variable {A : ArduinoJson} {cfg : Config} {blob blob' : Bytes}

/-- An accepted blob gives what its payload is parsed to. -/
theorem decode_parsed (h : (decode A blob).status = .ok) :
    fromJson A (blob.drop blobHeaderSize) = some (decode A blob).config := by
  unfold decode at h ⊢
  simp only at h ⊢
  split_ifs at h ⊢ with hempty hshort hmagic hversion hlength hcrc
  cases hparse : fromJson A (blob.drop blobHeaderSize) with
  | none => simp [hparse] at h
  | some parsed =>
      simp only [hparse] at h ⊢
      split_ifs at h ⊢ with hvalid
      rfl

/-- A blob with the payload of an accepted one is refused or gives the same configuration. -/
theorem decode_same_payload (hpayload : blob'.drop blobHeaderSize = blob.drop blobHeaderSize)
    (h : (decode A blob).status = .ok) :
    Defaulted (decode A blob') ∨
      ((decode A blob').status = .ok ∧ (decode A blob').config = (decode A blob).config) := by
  rcases decode_accepted_or_defaulted A blob' with haccepted | hdefaulted
  · have hparsed := decode_parsed haccepted.status
    rw [hpayload, decode_parsed h] at hparsed
    exact Or.inr ⟨haccepted.status, (Option.some.inj hparsed).symm⟩
  · exact Or.inl hdefaulted

/-- An encoded blob whose payload was changed within four consecutive bytes. -/
theorem decode_burst (hversion : cfg.schemaVersion = schemaVersionNow)
    (henc : encode A cfg = some blob) {start : Nat} (hstart : blobHeaderSize ≤ start)
    (h : SameOutside start 4 blob blob') (hne : blob' ≠ blob) :
    decode A blob' = { status := .badCrc } := by
  obtain ⟨payload, -, hdrop, hreads⟩ := encode_reads henc
  have hknown : ¬schemaVersionNow < cfg.schemaVersion := by
    rw [hversion]
    decide
  have hpayload : blob'.drop blobHeaderSize ≠ blob.drop blobHeaderSize := by
    intro hsame
    apply hne
    rw [← List.take_append_drop blobHeaderSize blob', h.take hstart, hsame,
      List.take_append_drop]
  have hchanged := (h.drop hstart).crc32_ne hpayload
  rw [hdrop] at hchanged
  rw [decode_of_reads (h.headerReads hstart hreads) hknown]
  exact if_pos hchanged

end Decode

/-- Corruption of the blob of a configuration that is read back: a change within four
consecutive payload bytes fails the checksum, and a change inside one header field gives the
defaults or the same configuration. -/
theorem decode_corrupted (A : ArduinoJson) (hA : A.Lawful) (cfg : Config)
    (hvalid : validate cfg = .ok) (hversion : cfg.schemaVersion = 2) (hnames : cfg.NamesDistinct)
    (hcanon : cfg.Canonical) (blob : Bytes) (henc : encode A cfg = some blob) (blob' : Bytes) :
    (∀ start, blobHeaderSize ≤ start → SameOutside start 4 blob blob' → blob' ≠ blob →
      (decode A blob').status = .badCrc) ∧
    ∀ field ∈ headerFields, SameOutside field.1 field.2 blob blob' →
      Defaulted (decode A blob') ∨
        ((decode A blob').status = .ok ∧ (decode A blob').config = (decode A blob).config) := by
  constructor
  · intro start hstart hsame hne
    rw [decode_burst hversion henc hstart hsame hne]
  · intro field hfield hsame
    have hok : (decode A blob).status = .ok := by
      rw [decode_encode_ok hA hvalid (Or.inr hversion) hnames hcanon henc]
    have hinside : ∀ field ∈ headerFields, field.1 + field.2 ≤ blobHeaderSize := by decide
    apply decode_same_payload _ hok
    apply List.ext_getElem?
    intro j
    rw [List.getElem?_drop, List.getElem?_drop]
    apply hsame.2
    have hin := hinside field hfield
    omega

/-- The one-lamp configuration at the current version. -/
def lampConfig : Config :=
  { remoteConfig with schemaVersion := 2 }

def lampBlob : Bytes :=
  (encode strictJson lampConfig).getD []

/-- A byte of the lamp's payload erased in flash. -/
theorem decode_corrupted_lamp :
    encode strictJson lampConfig = some lampBlob ∧
      (decode strictJson (lampBlob.set 20 255)).status = .badCrc := by
  have hblob : encode strictJson lampConfig = some lampBlob := by
    have hsome : (encode strictJson lampConfig).isSome = true := by decide +kernel
    obtain ⟨blob, hblob⟩ := Option.isSome_iff_exists.mp hsome
    rw [lampBlob, hblob]
    rfl
  have hcanon : lampConfig.Canonical :=
    ⟨remoteConfig_canonical.domain, remoteConfig_canonical.devices⟩
  have hsame : SameOutside 20 4 lampBlob (lampBlob.set 20 255) := by
    refine ⟨List.length_set, ?_⟩
    intro j hj
    exact List.getElem?_set_ne (by omega)
  have hlong : 20 < lampBlob.length := by decide +kernel
  have hbyte : lampBlob.getD 20 0 ≠ 255 := by decide +kernel
  have hne : lampBlob.set 20 255 ≠ lampBlob := by
    intro heq
    rw [← heq, List.getD_eq_getElem _ _ (by rwa [List.length_set]),
      List.getElem_set_self] at hbyte
    exact hbyte rfl
  exact ⟨hblob, (decode_corrupted strictJson strictJson_lawful lampConfig (by decide) rfl
    (by unfold Config.NamesDistinct; decide) hcanon lampBlob hblob _).1 20 (by decide) hsame hne⟩

end RfIrBlaster
