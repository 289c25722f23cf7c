/-
Backup and restore of the settings page: the file it exports and the check it makes of a
file before it sends it.
-/
import RfIrBlaster.BrowserValues
import RfIrBlaster.ConfigApi
import RfIrBlaster.HostPattern
import RfIrBlaster.KeyedList

namespace RfIrBlaster.Browser

def maxImportBytes : Nat := 16384
def maxImportDevices : Nat := 32
def maxImportPulses : Nat := 512
def maxRepeat : Nat := 10
def maxDelay : Nat := 5000

/-- The own keys of `SERVICES`. -/
def serviceNames : List Bytes :=
  [ascii "Switch", ascii "WindowCovering", ascii "Outlet", ascii "LightBulb", ascii "Fan",
    ascii "Television"]

/-- What `SERVICES[name]` finds on the prototype of every object. -/
def objectPrototypeNames : List Bytes :=
  [ascii "__defineGetter__", ascii "__defineSetter__", ascii "__lookupGetter__",
    ascii "__lookupSetter__", ascii "__proto__", ascii "constructor", ascii "hasOwnProperty",
    ascii "isPrototypeOf", ascii "propertyIsEnumerable", ascii "toLocaleString",
    ascii "toString", ascii "valueOf"]

/-- `SERVICES[service]` is truthy; a key that is no string is turned into one. -/
def knownService (service : Option Json) : Bool :=
  (serviceNames ++ objectPrototypeNames).contains (concatText service)

/-- `RESERVED_PORTS`. -/
def reservedPort (p : ℚ) : Option Bytes :=
  if p = 1201 then some (ascii "HomeKit")
  else if p = 3232 then some (ascii "updates")
  else if p = 5353 then some (ascii "mDNS")
  else none

inductive ImportResult where
  | refused (issues : List Bytes)
  | accepted (config : Json)

/-- `JSON.parse`.  A number with leading zeros is let through, which no export holds. -/
def jsonParse (text : Bytes) : Option Json :=
  Json.parse text.length text

def deviceLabel (d : Json) : Bytes :=
  let name := prop d "name"
  if truthy d && truthy (name.getD .null) then escapeHtml name
  else
    escapeHtml (some (.str (ascii "id " ++ concatText (if truthy d then prop d "id" else some d))))

/-- An optional whole number from `lo` to `hi`. -/
def inRange (v : Option Json) (lo hi : Nat) : Bool :=
  match v with
  | none => true
  | some v =>
      match numberValue v with
      | none => false
      | some q => isInteger q && decide (lo ≤ q ∧ q ≤ hi)

/-- `pulses.length`, where it is a number. -/
def lengthOf (v : Json) : Option ℚ :=
  (prop v "length").bind numberValue

/-- `v === text`. -/
def isText (v : Option Json) (text : String) : Bool :=
  match v with
  | some (.str s) => s = ascii text
  | _ => false

def commandIssues (cl label : Bytes) (c : Json) : List Bytes :=
  let onDevice := ascii "Command \"" ++ cl ++ ascii "\" on \"" ++ label ++ ascii "\" "
  let kind := prop c "kind"
  let learned := truthy (kind.getD .null) && !isText kind "none"
  let pulses := lengthOf (orElse (prop c "pulses") (.arr []))
  (if learned && pulses = some 0 then [onDevice ++ ascii "is marked learned but has no pulses."]
    else []) ++
  (if (pulses.map fun n => isInteger (n / 2)) = some true then []
    else [onDevice ++ ascii "has an odd pulse count."]) ++
  (if (pulses.map fun n => decide ((maxImportPulses : ℚ) < n)) = some true then
      [onDevice ++ ascii "has too many pulses (limit " ++ Json.natText maxImportPulses ++
        ascii ")."]
    else []) ++
  (if isText kind "rf" && (prop c "freqMHz").bind numberValue ≠ some 315 &&
      (prop c "freqMHz").bind numberValue ≠ some 433 then
      [onDevice ++ ascii "has an invalid RF frequency."]
    else []) ++
  (if inRange (prop c "repeatCount") 1 maxRepeat then []
    else [onDevice ++ ascii "has an invalid repeat count."]) ++
  (if inRange (prop c "repeatDelayMs") 0 maxDelay then []
    else [onDevice ++ ascii "has an invalid repeat delay."])

/-- What the loop over the devices has found. -/
structure ImportScan where
  issues : List Bytes := []
  seenIds : List ℚ := []
  maxId : ℚ := 1

/-- The id checks of one device. -/
def scanId (scan : ImportScan) (label : Bytes) (id : Option Json) : ImportScan :=
  let invalid :=
    ascii "Device \"" ++ label ++ ascii "\" has an invalid id (must be a whole number)."
  match id.bind numberValue with
  | none => { scan with issues := scan.issues ++ [invalid] }
  | some q =>
      if !isInteger q || q < 1 then { scan with issues := scan.issues ++ [invalid] }
      else if q = 1 then
        { scan with
          issues := scan.issues ++ [ascii "Device \"" ++ label ++
            ascii "\" uses id 1, which is reserved for the bridge."] }
      else
        { issues :=
            if q ∈ scan.seenIds then
              scan.issues ++ [ascii "Two devices share id " ++ concatText id ++ ascii "."]
            else scan.issues
          seenIds := q :: scan.seenIds
          maxId := if scan.maxId < q then q else scan.maxId }

def scanDevice (scan : ImportScan) (d : Json) : ImportScan :=
  let label := deviceLabel d
  if !truthy d || !isObject d then
    { scan with issues := scan.issues ++ [ascii "A device entry is not an object."] }
  else
    let scan := scanId scan label (prop d "id")
    let unknown := ascii "Device \"" ++ label ++ ascii "\" has an unknown type \"" ++
      escapeHtml (prop d "service") ++ ascii "\"."
    { scan with
      issues := scan.issues ++
        (if knownService (prop d "service") then [] else [unknown]) ++
        (entries (orElse (prop d "commands") (.obj []))).flatMap fun (name, c) =>
          commandIssues (escapeHtml (some (.str name))) label c }

def settingsIssues (s : Json) : List Bytes :=
  (match prop s "listenPort" with
    | none => []
    | some v =>
        match numberValue v with
        | none => [ascii "Listen port is out of range."]
        | some p =>
            if p < 1 ∨ 65535 < p then [ascii "Listen port is out of range."]
            else
              match reservedPort p with
              | some owner =>
                  [ascii "Listen port " ++ toText v ++ ascii " is reserved for " ++ owner ++
                    ascii "."]
              | none => []) ++
  match prop s "canonicalDomain" with
  | some (.str domain) =>
      if domain.isEmpty then []
      else if maxDomainLen < utf16Length domain then [ascii "Domain is too long."]
      else if !hostReTest domain then [ascii "Domain is not a valid hostname."]
      else []
  | _ => []

/-- The checks behind the parse, on a configuration object. -/
def configIssues (cfg : Json) : List Bytes :=
  let devices := prop cfg "devices"
  let listed : List Json := match devices with
    | some (.arr ds) => ds
    | _ => []
  let scan := listed.foldl scanDevice {}
  (match devices with
    | none | some (.arr _) => []
    | some _ => [ascii "\"devices\" must be a list."]) ++
  (if maxImportDevices < listed.length then
      [ascii "Too many devices (" ++ Json.natText listed.length ++ ascii "; the limit is " ++
        Json.natText maxImportDevices ++ ascii ")."]
    else []) ++
  scan.issues ++
  (match (prop cfg "nextDeviceId").bind numberValue with
    | some next =>
        if next ≤ scan.maxId then [ascii "\"nextDeviceId\" must be greater than every device id."]
        else []
    | none => []) ++
  match prop cfg "settings" with
  | some s => if isObject s then settingsIssues s else []
  | none => []

/-- `validateImport`, on the text of the file and its size. -/
def validateImport (text : Bytes) (bytes : Nat) : ImportResult :=
  if maxImportBytes < bytes then
    .refused [ascii "File is too large (" ++ Json.natText bytes ++ ascii " bytes; the limit is " ++
      Json.natText maxImportBytes ++ ascii ")."]
  else
    match jsonParse text with
    | none => .refused [ascii "File is not valid JSON."]
    | some (.obj ms) =>
        if (configIssues (.obj ms)).isEmpty then .accepted (.obj ms)
        else .refused (configIssues (.obj ms))
    | some _ => .refused [ascii "The top level of the file must be a configuration object."]

/-- What the page reads as the configuration in the device's response. -/
def servedConfig (A : ArduinoJson) (cfg : Config) : Option Json :=
  (toJson A cfg).bind fun text => jsonParse (decodeUtf8 text)

/-- The file of `exportFile`: `JSON.stringify` of the configuration served. -/
def exportedFile (A : ArduinoJson) (cfg : Config) : Option Bytes :=
  (servedConfig A cfg).map Json.serialize

/-- What a page reads from a text ArduinoJson wrote is the document, its strings decoded,
where it reads anything. -/
def Readable (A : ArduinoJson) : Prop :=
  ∀ doc v, doc.Plain → jsonParse (decodeUtf8 (A.serializeJson doc)) = some v →
    v = mapStrings decodeUtf8 doc

/-- The commands of a device the page reads: of those with one name, or with names that
read alike, the last. -/
def shownSlots (slots : List CommandSlot) : List CommandSlot :=
  KeyedList.latest (fun slot : CommandSlot => decodeUtf8 slot.name)
    (KeyedList.latest CommandSlot.name slots)

/-- A configuration whose backup the page takes back. -/
structure Restorable (cfg : Config) (file : Bytes) : Prop where
  size : file.length ≤ maxImportBytes
  services : ∀ d ∈ cfg.devices, d.service ∈ serviceNames ++ objectPrototypeNames
  unlearned : ∀ d ∈ cfg.devices, ∀ slot ∈ shownSlots d.commands, slot.code.kind = .none →
    slot.code.pulses.length % 2 = 0 ∧ slot.code.pulses.length ≤ maxImportPulses
  counter : 2 ≤ cfg.nextDeviceId
  domain : cfg.settings.canonicalDomain.getLast? ≠ some 46

end RfIrBlaster.Browser
