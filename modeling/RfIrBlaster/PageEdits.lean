/-
The edits of the device page and of the learn dialog: the checks the pages make, the
document `BlasterData` builds from its cached configuration, and the cache after the
device's answer.
-/
import RfIrBlaster.BrowserText
import RfIrBlaster.ImportCheck
import RfIrBlaster.LearnStorable
import RfIrBlaster.StateMachine

namespace RfIrBlaster.Browser

open Learn

def nameMax : Nat := 32
def repeatMax : Int := 10
def delayMax : Int := 5000

/-- `MAX_DEVICES` of the learn dialog. -/
def learnMaxDevices : Nat := 32

/-- `SERVICES` of the learn dialog. -/
def learnServices : List Bytes :=
  [ascii "Switch", ascii "Outlet", ascii "LightBulb", ascii "Fan", ascii "Television",
    ascii "WindowCovering"]

def powerCommands : List Bytes :=
  [ascii "on", ascii "off", ascii "toggle"]

/-- The values of `UI.commandsForService`. -/
def commandsForService (service : Bytes) : List Bytes :=
  if service = ascii "Switch" ∨ service = ascii "Outlet" ∨ service = ascii "LightBulb" ∨
      service = ascii "Fan" then
    powerCommands
  else if service = ascii "WindowCovering" then [ascii "up", ascii "down", ascii "stop"]
  else if service = ascii "Television" then
    powerCommands ++
      [ascii "key_up", ascii "key_down", ascii "key_left", ascii "key_right",
        ascii "key_select", ascii "key_back", ascii "key_play_pause", ascii "key_info",
        ascii "volume_up", ascii "volume_down"]
  else []

/-- A code some learn session took, from radio bursts that end on a mark. -/
def Captured (code : StoredCode) : Prop :=
  ∃ events, EndOnMarks events ∧ (LearnMachine.run events).state = .captured ∧
    (LearnMachine.run events).takeCode.1 = code

/-- What the pages let the user do; `value` is the text of a name field. -/
inductive Edit where
  | saveDevice (id : Nat) (value : List Char)
  | deleteDevice (id : Nat)
  | saveCommand (id : Nat) (oldName newName : Bytes) (repeatCount delay : Int)
  | deleteCommand (id : Nat) (name : Bytes)
  | learnCommand (id : Nat) (name : Bytes) (code : { code : StoredCode // Captured code })
  | learnDevice (value : List Char) (service name : Bytes)
      (code : { code : StoredCode // Captured code })

/-- `o.key = value`. -/
def setProp (key : String) (value : Json) : Json → Json
  | .obj ms => .obj (Json.setMember (ascii key) value ms)
  | v => v

/-- `out[key] = value`.  Under `__proto__` this sets no property. -/
def assign (key : Bytes) (value : Json) (out : List (Bytes × Json)) : List (Bytes × Json) :=
  if key = ascii "__proto__" then out else Json.setMember key value out

/-- Members assigned to an empty object one after the other. -/
def assignAll (ms : List (Bytes × Json)) : List (Bytes × Json) :=
  ms.foldl (fun out m => assign m.1 m.2 out) []

namespace Data

/-- `d.id === id`. -/
def hasId (id : Nat) (d : Json) : Bool :=
  (prop d "id").bind numberValue = some (id : ℚ)

def findDevice (cfg : Json) (id : Nat) : Option Json :=
  match prop cfg "devices" with
  | some (.arr ds) => ds.find? (hasId id)
  | _ => none

/-- The devices of the document replaced. -/
def mapDevices (f : List Json → List Json) (cfg : Json) : Json :=
  match prop cfg "devices" with
  | some (.arr ds) => setProp "devices" (.arr (f ds)) cfg
  | _ => cfg

structure Patch where
  name : Option Bytes := none
  commands : Option (List (Bytes × Json)) := none

def patchDevice (patch : Patch) (d : Json) : Json :=
  let d := match patch.name with
    | some name => setProp "name" (.str name) d
    | none => d
  match patch.commands with
  | some commands => setProp "commands" (.obj commands) d
  | none => d

def saveDevice (id : Nat) (patch : Patch) (cfg : Json) : Json :=
  mapDevices (List.map fun d => if hasId id d then patchDevice patch d else d) cfg

def addDevice (service name : Bytes) (commands : List (Bytes × Json)) (cfg : Json) : Json :=
  match prop cfg "nextDeviceId" with
  | some (.int id) =>
      mapDevices (fun ds => ds ++ [.obj [(ascii "id", .int id), (ascii "service", .str service),
        (ascii "name", .str name), (ascii "commands", .obj commands)]])
        (setProp "nextDeviceId" (.int (id + 1)) cfg)
  | _ => cfg

def deleteDevice (id : Nat) (cfg : Json) : Json :=
  mapDevices (List.filter fun d => !hasId id d) cfg

end Data

def commandsOf (d : Json) : List (Bytes × Json) :=
  match prop d "commands" with
  | some (.obj ms) => ms
  | _ => []

def serviceOf (d : Json) : Bytes :=
  match prop d "service" with
  | some (.str service) => service
  | _ => []

def isLearned (c : Json) : Bool :=
  truthy ((prop c "kind").getD .null) && !isText (prop c "kind") "none"

/-- The names the dropdown of a command's editor offers. -/
def commandOptions (d : Json) (editing : Bytes) : List Bytes :=
  let used := ((commandsOf d).map Prod.fst).filter fun key => key ≠ editing
  let options := (commandsForService (serviceOf d)).filter fun name => !used.contains name
  if options.contains editing then options else editing :: options

/-- `Object.assign({}, c, { repeatCount, repeatDelayMs })`. -/
def withRepeat (repeatCount delay : Int) (c : Json) : Json :=
  setProp "repeatDelayMs" (.int delay) (setProp "repeatCount" (.int repeatCount) c)

/-- The name of a field's text, if its check passes; `maxlength` bounds the text. -/
def checkedName (value : List Char) : Option Bytes :=
  if nameMax < textUnits value ∨ trim value = [] then none else some (encodeText (trim value))

def saveCommand (id : Nat) (oldName newName : Bytes) (repeatCount delay : Int) (d cfg : Json) :
    Option Json :=
  let commands := commandsOf d
  if (Json.lookup oldName commands).isNone ∨ !(commandOptions d oldName).contains newName then none
  else if newName.isEmpty then none
  else if newName ≠ oldName ∧ (Json.lookup newName commands).isSome then none
  else if ¬(1 ≤ repeatCount ∧ repeatCount ≤ repeatMax) then none
  else if ¬(0 ≤ delay ∧ delay ≤ delayMax) then none
  else
    some (Data.saveDevice id
      { commands := some (assignAll (commands.map fun (k, c) =>
          if k = oldName then (newName, withRepeat repeatCount delay c) else (k, c))) } cfg)

def deleteCommand (id : Nat) (name : Bytes) (d cfg : Json) : Option Json :=
  if (Json.lookup name (commandsOf d)).isNone then none
  else
    some (Data.saveDevice id
      { commands := some (assignAll ((commandsOf d).filter fun m => m.1 ≠ name)) } cfg)

/-- The learn dialog on a device there is: a command not yet learned, or a new one. -/
def learnCommand (id : Nat) (name : Bytes) (code : StoredCode) (d cfg : Json) : Option Json :=
  let offered := match Json.lookup name (commandsOf d) with
    | some c => !isLearned c
    | none => (commandsForService (serviceOf d)).contains name
  if !name.isEmpty && offered then
    some (Data.saveDevice id
      { commands := some (assign name (.obj (writeCodeFields code)) (assignAll (commandsOf d))) }
      cfg)
  else none

def deviceCount (cfg : Json) : Nat :=
  match prop cfg "devices" with
  | some (.arr ds) => ds.length
  | _ => 0

/-- The learn dialog with a new device. -/
def learnDevice (value : List Char) (service name : Bytes) (code : StoredCode) (cfg : Json) :
    Option Json :=
  if !learnServices.contains service ∨ !(commandsForService service).contains name then none
  else
    match checkedName value with
    | none => none
    | some deviceName =>
        if learnMaxDevices ≤ deviceCount cfg then none
        else
          some (Data.addDevice service deviceName
            (assign name (.obj (writeCodeFields code)) []) cfg)

/-- The document an edit posts, if the page's checks pass. -/
def Edit.build (cfg : Json) : Edit → Option Json
  | .saveDevice id value =>
      (Data.findDevice cfg id).bind fun _ =>
        (checkedName value).map fun name => Data.saveDevice id { name := some name } cfg
  | .deleteDevice id =>
      (Data.findDevice cfg id).map fun _ => Data.deleteDevice id cfg
  | .saveCommand id oldName newName repeatCount delay =>
      (Data.findDevice cfg id).bind fun d =>
        Browser.saveCommand id oldName newName repeatCount delay d cfg
  | .deleteCommand id name =>
      (Data.findDevice cfg id).bind fun d => Browser.deleteCommand id name d cfg
  | .learnCommand id name code =>
      (Data.findDevice cfg id).bind fun d => Browser.learnCommand id name code.1 d cfg
  | .learnDevice value service name code =>
      Browser.learnDevice value service name code.1 cfg

/-- `config::fromJson` and `config::validate` accept the posted document. -/
def deviceAccepts (A : ArduinoJson) (doc : Json) : Bool :=
  match fromJson A (Json.serialize doc) with
  | some cfg => isValid cfg
  | none => false

/-- The cached configuration after the answer to an edit: what the device runs now, or the
old one. -/
def afterEdit (A : ArduinoJson) (cached : Json) (e : Edit) : Json :=
  match e.build cached with
  | none => cached
  | some doc =>
      match fromJson A (Json.serialize doc) with
      | none => cached
      | some cfg => if isValid cfg then (servedConfig A cfg).getD cached else cached

def editing (A : ArduinoJson) (start : Json) : StateMachine Json Edit where
  init := start
  step := afterEdit A

end RfIrBlaster.Browser
