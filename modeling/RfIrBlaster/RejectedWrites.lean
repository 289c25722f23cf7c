/-
`writeConfig` of `data.js` against the device's `handlePostConfig`, and what the pages do
with the value it resolves with.
-/
import RfIrBlaster.PageEdits

namespace RfIrBlaster

/-- The device answers a POST without committing it, and without a conflict or the login. -/
def PostResult.rejects : PostResult → Bool
  | .size | .forbidden | .parse | .invalid | .store => true
  | .auth | .conflict _ | .written _ _ _ => false

namespace Browser

namespace Data

/-- `cachedConfig`, `cachedRev` and `csrfToken`. -/
structure Cache where
  cachedConfig : Json := .null
  cachedRev : Json := .int 0
  csrfToken : Option Bytes := none

/-- What one attempt meets: the answer to `/api/csrf`, `none` for a 401, and what the
device finds of the POST. -/
structure Exchange where
  csrfText : Option Bytes
  session : Bool
  csrfValid : Bytes → Bool
  recvFails : Bool

/-- The token and the cache that keeps it, `none` where the page goes to the login. -/
def csrf (cache : Cache) (x : Exchange) : Option (Bytes × Cache) :=
  match cache.csrfToken.filter fun tok => !tok.isEmpty with
  | some tok => some (tok, cache)
  | none => x.csrfText.map fun text => (text, { cache with csrfToken := some text })

def request (cfg : Json) (baseRev : UInt32) (tok : Bytes) (x : Exchange) : HttpRequest where
  session := x.session
  csrf := x.csrfValid tok
  rev := some (Json.natText baseRev.toNat)
  body := Json.serialize cfg
  recvFails := x.recvFails

/-- A promise: `pending` for the one of `toLogin`, which never resolves. -/
inductive Promise where
  | pending
  | rejected
  | resolved (res : Json)

/-- What `writeConfig` leads to, with the answer of the device it ends on. -/
structure Written (σ : Type) where
  answer : Option PostResult
  promise : Promise
  cache : Cache
  device : ApiState σ

/-- `r.json()` and what `writeConfig` makes of it. -/
def settle (cache : Cache) (response : Response) : Promise × Cache :=
  match jsonParse (decodeUtf8 response.body) with
  | none => (.rejected, cache)
  | some res =>
      if truthy ((prop res "conflict").getD .null) then (.resolved res, cache)
      else if truthy ((prop res "config").getD .null) then
        (.resolved res, { cache with
          cachedConfig := (prop res "config").getD .null
          cachedRev := (prop res "rev").getD .null })
      else
        (.resolved (.obj [(ascii "conflict", .bool false), (ascii "rev", cache.cachedRev),
          (ascii "config", cache.cachedConfig)]), cache)

section WriteConfig

variable {σ : Type} (A : ArduinoJson) (S : BlobStore σ)

/-- The last `then` of `writeConfig`, once a 403 is not tried again. -/
def answered (cache : Cache) (answer : PostResult × ApiState σ) : Written σ :=
  if answer.1.response.status = "401 Unauthorized" then ⟨some answer.1, .pending, cache, answer.2⟩
  else
    let settled := settle cache answer.1.response
    ⟨some answer.1, settled.1, settled.2, answer.2⟩

/-- `x` is what the attempt meets and `retry` what its repetition meets. -/
def writeConfig (cache : Cache) (cfg : Json) (baseRev : UInt32) (x retry : Exchange)
    (device : ApiState σ) : Written σ :=
  match csrf cache x with
  | none => ⟨none, .pending, cache, device⟩
  | some (tok, cache) =>
      let answer := handlePostConfig A S (request cfg baseRev tok x) device
      if answer.1.response.status = "403 Forbidden" then
        match csrf { cache with csrfToken := none } retry with
        | none => ⟨none, .pending, { cache with csrfToken := none }, answer.2⟩
        | some (tok, cache) =>
            answered cache (handlePostConfig A S (request cfg baseRev tok retry) answer.2)
      else answered cache answer

/-- The value `writeMerged` hands on: `addDevice` adds the new id. -/
def merged (id : Option Json) (res : Json) : Json :=
  match id with
  | none => res
  | some id => if truthy ((prop res "conflict").getD .null) then res else setProp "id" id res

end WriteConfig

end Data

/-- What a page holds and shows. -/
structure Page where
  rev : Option Json := none
  config : Option Json := none
  toasts : List String := []
  reloading : Bool := false
  restarting : Bool := false
  dialogOpen : Bool := true
  location : Option String := none

/-- The callers of a write: on a conflict they say so and reload. -/
def unlessConflict (message : String) (res : Json) (done : Page → Page) (page : Page) : Page :=
  if truthy ((prop res "conflict").getD .null) then
    { page with toasts := page.toasts ++ [message], reloading := true }
  else done page

/-- `afterWrite` of the device page. -/
def afterWrite (okMsg : Option String) (res : Json) : Page → Page :=
  unlessConflict "This config changed in another tab. Reloading…" res fun page =>
    { page with
      rev := prop res "rev"
      config := prop res "config"
      toasts := page.toasts ++ okMsg.toList }

/-- The end of `deleteDevice` of the device page. -/
def afterDelete (res : Json) : Page → Page :=
  unlessConflict "This config changed in another tab. Reloading…" res fun page =>
    { page with location := some "dashboard.html" }

/-- The end of the learn dialog's save. -/
def afterLearn (res : Json) : Page → Page :=
  unlessConflict "This config changed in another tab. Reloading…" res fun page =>
    { page with dialogOpen := false, toasts := page.toasts ++ ["Saved"] }

/-- The end of `save` of the settings page. -/
def afterSettings (settings : Json) (res : Json) : Page → Page :=
  unlessConflict "Settings changed in another tab. Reloading…" res fun page =>
    let page := { page with
      rev := prop res "rev"
      config := page.config.map (setProp "settings" settings) }
    if truthy ((prop res "restart").getD .null) then { page with restarting := true }
    else { page with toasts := page.toasts ++ ["Settings saved."] }

/-- The end of `saveLed`. -/
def afterLed (on : Bool) (settings : Json) (res : Json) : Page → Page :=
  unlessConflict "Settings changed in another tab. Reloading…" res fun page =>
    { page with
      rev := prop res "rev"
      config := page.config.map (setProp "settings" settings)
      toasts := page.toasts ++ [if on then "Status light on." else "Status light off."] }

/-- The end of `doImport`. -/
def afterImport (res : Json) : Page → Page :=
  unlessConflict "Config changed in another tab. Reloading…" res fun page =>
    { page with
      toasts := page.toasts ++ ["Configuration imported."]
      location := some "dashboard.html" }

/-- The device page, the learn dialog, the settings and the import report no success on the
value. -/
structure NoneReport (res : Json) : Prop where
  afterWrite : ∀ okMsg, okMsg ∉ (afterWrite (some okMsg) res {}).toasts
  afterLearn : "Saved" ∉ (afterLearn res {}).toasts
  afterSettings : ∀ settings page, (afterSettings settings res page).config = page.config
  afterImport : "Configuration imported." ∉ (afterImport res {}).toasts

/-- Every caller reports success on the value. -/
structure AllReport (res : Json) : Prop where
  afterWrite : ∀ okMsg page, (afterWrite (some okMsg) res page).toasts = page.toasts ++ [okMsg]
  afterDelete : ∀ page, (afterDelete res page).location = some "dashboard.html"
  afterLearn : ∀ page, (afterLearn res page).toasts = page.toasts ++ ["Saved"]
  afterSettings : ∀ settings page ms, page.config = some (.obj ms) →
    ((afterSettings settings res page).config.bind fun cfg => prop cfg "settings") = some settings
  afterLed : ∀ on settings page, (afterLed on settings res page).toasts =
    page.toasts ++ [if on then "Status light on." else "Status light off."]
  afterImport : ∀ page,
    (afterImport res page).toasts = page.toasts ++ ["Configuration imported."]

theorem AllReport.not_noneReport {res : Json} (h : AllReport res) : ¬NoneReport res := by
  intro hnone
  apply hnone.afterLearn
  rw [h.afterLearn]
  exact List.mem_append_right _ (List.mem_singleton.mpr rfl)

theorem allReport_of_no_conflict {res : Json}
    (h : truthy ((prop res "conflict").getD .null) = false) : AllReport res := by
  have hdone : ∀ message (done : Page → Page) page,
      unlessConflict message res done page = done page := by
    intro message done page
    rw [unlessConflict, h, if_neg Bool.false_ne_true]
  refine ⟨?_, ?_, ?_, ?_, ?_, ?_⟩
  · intro okMsg page
    rw [Browser.afterWrite, hdone]
    rfl
  · intro page
    rw [Browser.afterDelete, hdone]
  · intro page
    rw [Browser.afterLearn, hdone]
  · intro settings page ms hconfig
    rw [Browser.afterSettings, hdone]
    split_ifs
    · simp [hconfig, setProp, prop, Json.lookup_setMember]
    · simp [hconfig, setProp, prop, Json.lookup_setMember]
  · intro on settings page
    rw [Browser.afterLed, hdone]
  · intro page
    rw [Browser.afterImport, hdone]

namespace Data

/-- The document of an error answer. -/
def errorDoc (error : String) : Json :=
  .obj [(ascii "ok", .bool false), (ascii "error", .str (ascii error))]

theorem errorDoc_plain (error : String) : (errorDoc error).Plain := by
  have hkeys : [ascii "ok", ascii "error"].Nodup := by decide
  refine .obj hkeys ?_
  intro m hm
  rcases List.mem_cons.mp hm with rfl | hm
  · exact .bool false
  · rw [List.mem_singleton.mp hm]
    exact .str _

theorem errorResponse_ascii (status : String) {error : String}
    (h : ∀ c ∈ ascii error, c < 0x80) : ∀ c ∈ (errorResponse status error).body, c < 0x80 := by
  have hopen : ∀ c ∈ ascii "\x7b\"ok\":false,\"error\":\"", c < 0x80 := by
    rw [ascii_ofList]
    decide +kernel
  have hclose : ∀ c ∈ ascii "\"\x7d", c < 0x80 := by decide +kernel
  unfold errorResponse
  simp only [ascii_append, List.mem_append]
  rintro c ((hc | hc) | hc)
  · exact hopen c hc
  · exact h c hc
  · exact hclose c hc

/-- Every rejection is an error document, in ASCII. -/
theorem response_of_rejects {result : PostResult} (h : result.rejects = true) :
    ∃ error, result.response.body = Json.serialize (errorDoc error) ∧
      (∀ c ∈ result.response.body, c < 0x80) ∧ result.response.status ≠ "401 Unauthorized" := by
  cases result with
  | auth => cases h
  | conflict rev => cases h
  | written rev restart config => cases h
  | size =>
      exact ⟨"size", by decide, errorResponse_ascii _ (by decide +kernel), by decide⟩
  | forbidden =>
      exact ⟨"forbidden", by decide, errorResponse_ascii _ (by decide +kernel), by decide⟩
  | parse =>
      exact ⟨"parse", by decide, errorResponse_ascii _ (by decide +kernel), by decide⟩
  | invalid =>
      exact ⟨"invalid", by decide, errorResponse_ascii _ (by decide +kernel), by decide⟩
  | store =>
      exact ⟨"store", by decide, errorResponse_ascii _ (by decide +kernel), by decide⟩

/-- The value a rejected write resolves with. -/
def cachedResult (cache : Cache) : Json :=
  .obj [(ascii "conflict", .bool false), (ascii "rev", cache.cachedRev),
    (ascii "config", cache.cachedConfig)]

/-- An error document names neither a conflict nor a configuration, so the write resolves
with the cached one. -/
theorem settle_of_rejects {result : PostResult} (h : result.rejects = true) (cache : Cache) :
    settle cache result.response = (.resolved (cachedResult cache), cache) := by
  obtain ⟨error, hbody, hascii, -⟩ := response_of_rejects h
  have hparse : jsonParse (decodeUtf8 result.response.body) = some (errorDoc error) := by
    rw [decodeUtf8_ascii hascii, hbody]
    exact parse_serialize_length (errorDoc_plain error)
  have hconflict : prop (errorDoc error) "conflict" = none := by
    have hok : ascii "ok" ≠ ascii "conflict" := by decide
    have herror : ascii "error" ≠ ascii "conflict" := by decide
    simp [prop, errorDoc, Json.lookup, hok, herror]
  have hconfig : prop (errorDoc error) "config" = none := by
    have hok : ascii "ok" ≠ ascii "config" := by decide
    have herror : ascii "error" ≠ ascii "config" := by decide
    simp [prop, errorDoc, Json.lookup, hok, herror]
  simp only [settle, hparse, hconflict, hconfig]
  rfl

theorem merged_no_conflict (cache : Cache) (id : Option Json) :
    truthy ((prop (merged id (cachedResult cache)) "conflict").getD .null) = false := by
  have hfirst : prop (cachedResult cache) "conflict" = some (.bool false) := by
    simp [prop, cachedResult, Json.lookup]
  have hother : ascii "conflict" ≠ ascii "id" := by decide
  cases id with
  | none => simp [merged, hfirst, truthy]
  | some id =>
      have hset : prop (setProp "id" id (cachedResult cache)) "conflict" =
          some (.bool false) := by
        rw [← hfirst]
        simp [prop, setProp, cachedResult, Json.lookup_setMember, hother]
      simp [merged, hfirst, hset, truthy]

section WriteConfig

variable {σ : Type} (A : ArduinoJson) (S : BlobStore σ)

/-- A rejected answer resolves. -/
theorem answered_of_rejects {answer : PostResult × ApiState σ} (h : answer.1.rejects = true)
    (cache : Cache) :
    answered cache answer = ⟨some answer.1, .resolved (cachedResult cache), cache, answer.2⟩ := by
  obtain ⟨-, -, -, hstatus⟩ := response_of_rejects h
  rw [answered, if_neg hstatus, settle_of_rejects h]

/-- A POST that is not accepted leaves the configuration and the revision. -/
theorem device_of_not_accepted (req : HttpRequest) (device : ApiState σ)
    (h : (handlePostConfig A S req device).1.accepted = false) :
    (handlePostConfig A S req device).2.config = device.config ∧
      (handlePostConfig A S req device).2.rev = device.rev := by
  rcases handlePostConfig_cases A S req device with
    ⟨incoming, -, -, -, -, -, -, -, heq⟩ | ⟨-, hsame | ⟨incoming, -, hstore⟩⟩
  · rw [heq] at h
    cases h
  · rw [hsame]
    exact ⟨rfl, rfl⟩
  · rw [hstore]
    exact ⟨rfl, rfl⟩

theorem accepted_of_rejects {result : PostResult} (h : result.rejects = true) :
    result.accepted = false := by
  cases result with
  | written rev restart config => cases h
  | auth | size | forbidden | conflict | parse | invalid | store => rfl

theorem accepted_of_forbidden {result : PostResult} (h : result.response.status = "403 Forbidden") :
    result.accepted = false := by
  cases result with
  | written rev restart config =>
      have hstatus : (PostResult.written rev restart config).response.status = "200 OK" := rfl
      rw [hstatus] at h
      exact absurd h (by decide)
  | auth | size | forbidden | conflict | parse | invalid | store => rfl

/-- A write that ends on a rejection, at once or after the retry, resolves with the cached
configuration. -/
theorem writeConfig_of_rejects {cache : Cache} {cfg : Json} {baseRev : UInt32}
    {x retry : Exchange} {device : ApiState σ} {result : PostResult}
    (hanswer : (writeConfig A S cache cfg baseRev x retry device).answer = some result)
    (hrejects : result.rejects = true) :
    (∃ held, (writeConfig A S cache cfg baseRev x retry device).promise =
      .resolved (cachedResult held)) ∧
    (writeConfig A S cache cfg baseRev x retry device).device.config = device.config ∧
    (writeConfig A S cache cfg baseRev x retry device).device.rev = device.rev := by
  have hends : ∀ held (req : HttpRequest) (before : ApiState σ),
      before.config = device.config → before.rev = device.rev →
      (answered held (handlePostConfig A S req before)).answer = some result →
      (∃ held', (answered held (handlePostConfig A S req before)).promise =
        .resolved (cachedResult held')) ∧
      (answered held (handlePostConfig A S req before)).device.config = device.config ∧
      (answered held (handlePostConfig A S req before)).device.rev = device.rev := by
    intro held req before hconfig hrev hlast
    have hresult : (handlePostConfig A S req before).1 = result := by
      unfold answered at hlast
      split_ifs at hlast
      · exact Option.some.inj hlast
      · exact Option.some.inj hlast
    have hreject : (handlePostConfig A S req before).1.rejects = true := by
      rw [hresult]
      exact hrejects
    obtain ⟨hkeptConfig, hkeptRev⟩ :=
      device_of_not_accepted A S req before (accepted_of_rejects hreject)
    rw [answered_of_rejects hreject]
    exact ⟨⟨held, rfl⟩, hkeptConfig.trans hconfig, hkeptRev.trans hrev⟩
  unfold writeConfig at hanswer ⊢
  cases hfirst : csrf cache x with
  | none => simp [hfirst] at hanswer
  | some first =>
      obtain ⟨tok, held⟩ := first
      simp only [hfirst] at hanswer ⊢
      split_ifs at hanswer ⊢ with hforbidden
      · obtain ⟨hconfig, hrev⟩ := device_of_not_accepted A S _ device
          (accepted_of_forbidden hforbidden)
        cases hsecond : csrf { held with csrfToken := none } retry with
        | none => simp [hsecond] at hanswer
        | some second =>
            obtain ⟨tok', held'⟩ := second
            simp only [hsecond] at hanswer ⊢
            exact hends held' _ _ hconfig hrev hanswer
      · exact hends held _ device rfl rfl hanswer

end WriteConfig

end Data

/-- A write the device rejects is always shown as saved: it resolves with a value on which
every caller reports success, while the device keeps its configuration and revision. -/
theorem rejected_write_reported {σ : Type} (A : ArduinoJson) (S : BlobStore σ)
    (cache : Data.Cache) (cfg : Json) (baseRev : UInt32) (x retry : Data.Exchange)
    (device : ApiState σ) (result : PostResult)
    (hanswer : (Data.writeConfig A S cache cfg baseRev x retry device).answer = some result)
    (hrejects : result.rejects = true) :
    (∃ res, (Data.writeConfig A S cache cfg baseRev x retry device).promise = .resolved res ∧
      ∀ id, ¬NoneReport (Data.merged id res) ∧ AllReport (Data.merged id res)) ∧
    (Data.writeConfig A S cache cfg baseRev x retry device).device.config = device.config ∧
    (Data.writeConfig A S cache cfg baseRev x retry device).device.rev = device.rev := by
  obtain ⟨⟨held, hpromise⟩, hdevice⟩ := Data.writeConfig_of_rejects A S hanswer hrejects
  refine ⟨⟨_, hpromise, fun id => ?_⟩, hdevice⟩
  have hall := allReport_of_no_conflict (Data.merged_no_conflict held id)
  exact ⟨hall.not_noneReport, hall⟩

/-- The page after it loaded the empty configuration. -/
def loadedCache : Data.Cache where
  cachedConfig := configDoc {}
  cachedRev := .int 1

/-- A signed-in page whose token the device takes, or does not. -/
def signedIn (csrfValid : Bool) : Data.Exchange where
  csrfText := some (ascii "token")
  session := true
  csrfValid := fun _ => csrfValid
  recvFails := false

/-- The status light turned off. -/
def ledOffDoc : Json :=
  configDoc { settings := { ledEnabled := false } }

/-- Both tokens are refused. -/
theorem rejected_write_reported_forbidden :
    ∃ res, (Data.writeConfig strictJson (memoryBlobStore 20480) loadedCache ledOffDoc 1
        (signedIn false) (signedIn false) emptyDevice).promise = .resolved res ∧
      (afterWrite (some "Saved") res {}).toasts = ["Saved"] := by
  have hanswer : (Data.writeConfig strictJson (memoryBlobStore 20480) loadedCache ledOffDoc 1
      (signedIn false) (signedIn false) emptyDevice).answer = some .forbidden := by decide +kernel
  obtain ⟨⟨res, hpromise, hreports⟩, -⟩ := rejected_write_reported strictJson
    (memoryBlobStore 20480) loadedCache ledOffDoc 1 (signedIn false) (signedIn false) emptyDevice
    .forbidden hanswer rfl
  exact ⟨res, hpromise, (hreports none).2.afterWrite "Saved" {}⟩

/-- The store has no room left: the device answers 500, and the pages show the light off,
the command saved and the backup imported. -/
theorem full_store_reported :
    (Data.writeConfig strictJson (memoryBlobStore 16) loadedCache ledOffDoc 1 (signedIn true)
        (signedIn true) emptyDevice).answer = some .store ∧
      ¬∀ res, (Data.writeConfig strictJson (memoryBlobStore 16) loadedCache ledOffDoc 1
        (signedIn true) (signedIn true) emptyDevice).promise = .resolved res →
          NoneReport res := by
  have hanswer : (Data.writeConfig strictJson (memoryBlobStore 16) loadedCache ledOffDoc 1
      (signedIn true) (signedIn true) emptyDevice).answer = some .store := by decide +kernel
  refine ⟨hanswer, ?_⟩
  intro hnone
  obtain ⟨⟨held, hpromise⟩, -⟩ := Data.writeConfig_of_rejects strictJson (memoryBlobStore 16)
    hanswer rfl
  have hall := allReport_of_no_conflict (Data.merged_no_conflict held none)
  exact hall.not_noneReport (hnone _ hpromise)

end Browser

end RfIrBlaster
