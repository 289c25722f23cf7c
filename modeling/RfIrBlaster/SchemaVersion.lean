/-
Documents of a newer schema: the version goes through `|` into 16 bits before
`migrateDoc` compares it, so exactly the versions of 16 bits are seen to be newer.
-/
import RfIrBlaster.ConfigApi
import RfIrBlaster.DecodeSafety

namespace RfIrBlaster

/-- `fromJson` with its out parameter: what it returns, and `out` after it. -/
def fromJsonInto (A : ArduinoJson) (data : Bytes) (out : Config) : Bool × Config :=
  if maxConfigBytes < data.length then (false, out)
  else
    match A.deserializeJson nestingLimit data with
    | none => (false, out)
    | some doc =>
        let fromVersion := orUInt16 (doc.get (ascii "schemaVersion")) schemaVersionNow
        match migrateDoc doc fromVersion with
        | none => (false, out)  -- unknown future version
        | some migrated => (true, configOf A migrated)

theorem fromJsonInto_eq (A : ArduinoJson) (data : Bytes) (out : Config) :
    fromJsonInto A data out = ((fromJson A data).isSome, (fromJson A data).getD out) := by
  unfold fromJsonInto fromJson
  split_ifs with hlong
  · rfl
  · cases A.deserializeJson nestingLimit data with
    | none => rfl
    | some doc =>
        simp only
        cases migrateDoc doc (orUInt16 (doc.get (ascii "schemaVersion")) schemaVersionNow) <;> rfl

/-- No reader takes the document: `fromJson` leaves `out`, a blob with this payload boots
the defaults, and an import of it changes no configuration. -/
structure Refused (A : ArduinoJson) (data : Bytes) : Prop where
  parse : ∀ out, fromJsonInto A data out = (false, out)
  stored : ∀ blob : Bytes, blob.drop blobHeaderSize = data → Defaulted (decode A blob)
  imported : ∀ {σ : Type} (S : BlobStore σ) (req : HttpRequest) (s : ApiState σ),
    req.body = data → (handlePostConfig A S req s).1.accepted = false ∧
      (handlePostConfig A S req s).2.config = s.config

/-- Both other readers ask `fromJson`. -/
theorem refused_of_fromJson {A : ArduinoJson} {data : Bytes} (h : fromJson A data = none) :
    Refused A data where
  parse out := by
    rw [fromJsonInto_eq, h]
    rfl
  stored blob hpayload := by
    have hnot : (decode A blob).status ≠ .ok := by
      unfold decode
      simp only [hpayload, h]
      split_ifs <;> simp
    rcases decode_accepted_or_defaulted A blob with haccepted | hdefaulted
    · exact absurd haccepted.status hnot
    · exact hdefaulted
  imported S req s hbody := by
    rcases handlePostConfig_cases A S req s with
      ⟨incoming, -, -, -, -, hparsed, -⟩ | ⟨hrefused, hsame | ⟨incoming, -, hstate⟩⟩
    · rw [hbody, h] at hparsed
      cases hparsed
    · exact ⟨hrefused, by rw [hsame]⟩
    · exact ⟨hrefused, by rw [hstate]⟩

theorem migrateDoc_newer {doc : Json} {version : UInt16} (h : schemaVersionNow < version) :
    migrateDoc doc version = none := by
  unfold migrateDoc
  rw [if_pos h]

/-- At the current version there is nothing to migrate. -/
theorem migrateDoc_now (doc : Json) :
    migrateDoc doc schemaVersionNow =
      some (setRootMember (ascii "schemaVersion") (.int schemaVersionNow.toNat) doc) := by
  rfl

/-- A version of 16 bits is read as it is. -/
theorem orUInt16_small {v : Int} (hnew : 2 < v) (hsmall : v ≤ 65535) :
    schemaVersionNow < orUInt16 (.int v) schemaVersionNow := by
  have hread : orUInt16 (.int v) schemaVersionNow = UInt16.ofNat v.toNat := by
    unfold orUInt16
    exact if_pos (by omega)
  rw [hread, UInt16.lt_iff_toNat_lt, UInt16.toNat_ofNat']
  have htwo : schemaVersionNow.toNat = 2 := rfl
  omega

/-- A larger one is read as the current version. -/
theorem orUInt16_large {v : Int} (hlarge : 65535 < v) :
    orUInt16 (.int v) schemaVersionNow = schemaVersionNow := by
  unfold orUInt16
  exact if_neg (by omega)

/-- A document of a newer schema is refused exactly when its version has 16 bits or its
text is over the ceiling. -/
theorem refused_newer_iff (A : ArduinoJson) (data : Bytes) (doc : Json) (v : Int)
    (hdoc : A.deserializeJson nestingLimit data = some doc)
    (hversion : doc.get (ascii "schemaVersion") = .int v) (hnew : 2 < v) :
    Refused A data ↔ v ≤ 65535 ∨ maxConfigBytes < data.length := by
  constructor
  · intro hrefused
    by_contra hnone
    obtain ⟨hlarge, hfits⟩ := not_or.mp hnone
    have hparsed : (fromJsonInto A data {}).1 = true := by
      unfold fromJsonInto
      rw [if_neg hfits, hdoc]
      simp only [hversion, orUInt16_large (Int.not_le.mp hlarge), migrateDoc_now]
    rw [hrefused.parse] at hparsed
    cases hparsed
  · intro hcondition
    apply refused_of_fromJson
    unfold fromJson
    split_ifs with hlong
    · rfl
    · have hsmall : v ≤ 65535 := hcondition.resolve_right hlong
      rw [hdoc]
      simp only [hversion, migrateDoc_newer (orUInt16_small hnew hsmall)]
      rfl

/-- A document that says its version and nothing else. -/
def versionDoc (version : Nat) : Json :=
  .obj [(ascii "schemaVersion", .int version)]

theorem versionDoc_parse {version : Nat} (h : version < 2 ^ 32) :
    strictJson.deserializeJson nestingLimit (Json.serialize (versionDoc version)) =
      some (versionDoc version) := by
  have hplain : (versionDoc version).Plain :=
    .obj (by simp) (by simpa using Json.Plain.int h)
  exact Json.parse_serialize hplain
    (by simp [versionDoc, Json.depth, Json.depthMembers, nestingLimit])

/-- Version 3 is refused. -/
theorem refused_newer_iff_three : Refused strictJson (Json.serialize (versionDoc 3)) :=
  (refused_newer_iff strictJson _ (versionDoc 3) 3 (versionDoc_parse (by decide)) rfl
    (by decide)).mpr (Or.inl (by decide))

/-- Version 65538 is taken for the current one. -/
theorem newer_schema_accepted :
    let text := ascii "\x7b\"schemaVersion\":65538\x7d"
    strictJson.deserializeJson nestingLimit text = some (versionDoc 65538) ∧
      fromJsonInto strictJson text { nextDeviceId := 9 } = (true, {}) := by
  have htext : Json.serialize (versionDoc 65538) = ascii "\x7b\"schemaVersion\":65538\x7d" := by
    decide
  have hparse := @versionDoc_parse 65538 (by decide)
  rw [htext] at hparse
  have hversion : (versionDoc 65538).get (ascii "schemaVersion") = .int 65538 := rfl
  have hread : orUInt16 (.int 65538) schemaVersionNow = schemaVersionNow :=
    orUInt16_large (by decide)
  have hmigrated : setRootMember (ascii "schemaVersion") (.int schemaVersionNow.toNat)
      (versionDoc 65538) = versionDoc 2 := rfl
  have hconfig : configOf strictJson (versionDoc 2) = {} := by decide
  refine ⟨hparse, ?_⟩
  unfold fromJsonInto
  rw [if_neg (by decide), hparse]
  simp only [hversion, hread, migrateDoc_now, hmigrated, hconfig]

end RfIrBlaster
