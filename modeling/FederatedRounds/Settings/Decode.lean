import FederatedRounds.Settings.Basic
import FederatedRounds.Settings.Error
/-! From values to settings. A structure is a table, whose unknown members are passed over, or the
list of its fields in order. A choice is a text, or a table with that text as its only name. The
storage is chosen by a tag among its own members, and nothing is converted in it. -/
namespace FederatedRounds.Settings

/-- What a value is, where a structure was expected. -/
def Value.shape : Value → String
  | .null _ => "unit value"
  | .scalar _ (.boolean value) => "boolean `" ++ Scalar.spelling (.boolean value) ++ "`"
  | .scalar _ (.integer value) => "integer `" ++ intText value ++ "`"
  | .scalar _ (.real value) =>
    let text := value.text
    let point := if value.isFinite && !text.toList.contains '.' then ".0" else ""
    "floating point `" ++ text ++ point ++ "`"
  | .scalar _ (.text value) => "string " ++ Text.quoted value
  | .list .. => "sequence"
  | .table .. => "map"

/-- The fields of a structure that are there, each with the step that leads to it. -/
structure Fields where
  name : String
  names : List String
  positional : Bool
  found : List (String × String × Value)

abbrev Result := Except SettingsError

namespace Fields

def of (name : String) (names : List String) (v : Value) : Result Fields :=
  match v with
  | .table _ members =>
    .ok ⟨name, names, false, members.map fun (name, value) => (name, name, value)⟩
  | .list _ items =>
    .ok ⟨name, names, true, (names.zip items).zipIdx.map fun ((name, value), position) =>
      (name, "[" ++ natText position ++ "]", value)⟩
  | v => .error (.wrongShape v.shape (Shape.text (.record name)))

def get? {α : Type} (f : Fields) (name : String) (read : Value → Result α) : Result (Option α) :=
  match f.found.find? fun field => field.1 = name with
  | none => .ok none
  | some (_, step, value) =>
    match read value with
    | .ok value => .ok (some value)
    | .error error => .error (error.below step)

def missing (f : Fields) (name : String) : SettingsError :=
  if f.positional then .wrongLength (f.names.idxOf name) (.fields f.name f.names.length)
  else .missingField name

def get {α : Type} (f : Fields) (name : String) (read : Value → Result α) : Result α := do
  match ← f.get? name read with
  | some value => .ok value
  | none => .error (f.missing name)

def getOr {α : Type} (f : Fields) (name : String) (default : α) (read : Value → Result α) :
    Result α := do
  match ← f.get? name read with
  | some value => .ok value
  | none => .ok default

/-- A field that may be null, or left out of a table. -/
def getOption {α : Type} (f : Fields) (name : String) (read : Value → Result α) :
    Result (Option α) := do
  let readOption (v : Value) : Result (Option α) :=
    match v with
    | .null _ => .ok none
    | v => (read v).map some
  match ← f.get? name readOption with
  | some value => .ok value
  | none => if f.positional then .error (f.missing name) else .ok none

end Fields

namespace Value

def converted {α : Type} (convert : Value → Except WrongType α) (v : Value) : Result α :=
  match convert v with
  | .ok value => .ok value
  | .error error => .error (.wrongType error)

def word : Value → Result UInt64 := converted toWord

def halfWord : Value → Result UInt32 := converted toHalfWord

def real : Value → Result Double := converted toReal

def text : Value → Result String := converted toText

def socketAddress (v : Value) : Result SocketAddress := do
  match SocketAddress.parse? (← v.text) with
  | some address => .ok address
  | none => .error .badAddress

def choice {α : Type} (name : String) (ofName? : String → Option α) (v : Value) : Result α :=
  let pick (variant : String) : Result α :=
    match ofName? variant with
    | some value => .ok value
    | none => .error (.notAVariant name variant)
  match v with
  | .scalar _ (.text variant) => pick variant
  | .table _ [(variant, _)] => pick variant
  | _ => .error (.notAChoice name)

end Value

def Api.decode (v : Value) : Result Api := do
  let f ← Fields.of "ApiSettings" ["bind_address", "max_body_size"] v
  let address ← f.get "bind_address" Value.socketAddress
  let bodyLimit ← f.getOr "max_body_size" Api.default.bodyLimit Value.word
  pure ⟨address, bodyLimit⟩

def Learning.decode (v : Value) : Result Learning := do
  let f ← Fields.of "FederatedLearningSettings"
    ["rounds", "epochs", "minimum_participants_in_round", "fraction_of_participants",
      "aggregation", "selection", "initial_weights"] v
  let rounds ← f.get "rounds" Value.halfWord
  let epochs ← f.get "epochs" Value.halfWord
  let minimum ← f.get "minimum_participants_in_round" Value.halfWord
  let fraction ← f.get "fraction_of_participants" Value.real
  let strategy ← f.getOr "aggregation" .federatedAveraging
    (Value.choice "AggregationSettings" Strategy.ofName?)
  let selection ← f.getOr "selection" .random (Value.choice "SelectionSettings" Selection.ofName?)
  let initialWeights ← f.getOption "initial_weights" Value.text
  pure ⟨⟨rounds, epochs, minimum, fraction⟩, strategy, selection, initialWeights⟩

def Heartbeats.decode (v : Value) : Result Heartbeats := do
  let f ← Fields.of "HeartbeatSettings" ["time", "timeout"] v
  let time ← f.get "time" Value.word
  let timeout ← f.get "timeout" Value.word
  pure ⟨time, timeout⟩

def MetricStore.decode (v : Value) : Result MetricStore := do
  let f ← Fields.of "MetricStoreSettings" ["url", "database"] v
  let url ← f.get "url" Value.text
  let database ← f.get "database" Value.text
  pure ⟨url, database⟩

namespace Storage

def directory (v : Value) : Result String :=
  match v with
  | .scalar _ (.text directory) => .ok directory
  | v => .error (.wrongShape v.shape "path string")

def tag (v : Value) : Result String :=
  match v with
  | .scalar _ (.text tag) =>
    if ["memory", "file"].contains tag then .ok tag
    else .error (.unknownTag tag ["memory", "file"])
  | v => .error (.wrongShape v.shape "variant identifier")

/-- A storage given as a list: the tag, and then its fields. -/
def ofItems : List Value → Result Storage
  | [] => .error (.missingField "type")
  | first :: rest => do
    match ← tag first, rest with
    | "memory", [] => .ok .memory
    | "memory", rest => .error (.wrongLength rest.length (.sequence 0))
    | _, [] => .error (.wrongLength 0 (.variantFields "StorageSettings" "File" 1))
    | _, first :: others => do
      let directory ← directory first
      if others.isEmpty then pure (.file directory)
      else .error (.wrongLength rest.length (.sequence 1))

def ofMembers (members : List (String × Value)) : Result Storage := do
  let field (name : String) : Result Value :=
    match (members.find? fun member => member.1 = name).map (·.2) with
    | some value => .ok value
    | none => .error (.missingField name)
  match ← tag (← field "type") with
  | "memory" => .ok .memory
  | _ => (directory (← field "directory")).map .file

def decode : Value → Result Storage
  | .table _ members => ofMembers members
  | .list _ items => ofItems items
  | v => .error (.wrongShape v.shape (Shape.text (.tagged "StorageSettings")))

end Storage

/-- Only the section on learning has to be there. -/
def decode (v : Value) : Result Settings := do
  let f ← Fields.of "Settings"
    ["log_level", "api", "federated_learning", "heartbeat", "storage", "metric_store"] v
  let logLevel ← f.getOr "log_level" "info" Value.text
  let api ← f.getOr "api" Api.default Api.decode
  let learning ← f.get "federated_learning" Learning.decode
  let heartbeats ← f.getOr "heartbeat" Heartbeats.default Heartbeats.decode
  let storage ← f.getOr "storage" .memory Storage.decode
  let metricStore ← f.getOption "metric_store" MetricStore.decode
  pure ⟨logLevel, api, learning, heartbeats, storage, metricStore⟩

end FederatedRounds.Settings
