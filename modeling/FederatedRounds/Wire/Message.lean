import FederatedRounds.Coordinator.Message
import FederatedRounds.Wire.Tensor
/-! Requests and replies as JSON. A structure is an object, in which unknown names are passed over
and known ones may stand once, or the list of its fields in order. A choice is a text, or an object
with that text as its only name and null under it. -/
namespace FederatedRounds

namespace Json

def standsOnce (name : String) (members : List Member) : Bool :=
  match entry name members with
  | .repeated => false
  | _ => true

/-- The fields of a structure by name. Of the list of them, those after the first `least` may be
left out. -/
def fields? (names : List String) (least : Nat) : Json → Option (String → Option Json)
  | object members =>
    if named members && names.all (standsOnce · members) then
      some fun name =>
        match entry name members with
        | .once value => some value
        | _ => none
    else none
  | array items =>
    if least ≤ items.length ∧ items.length ≤ names.length then
      some fun name => (names.zip items).lookup name
    else none
  | _ => none

def choice? : Json → Option String
  | string text => text
  | object [(name, null)] => name
  | _ => none

end Json

namespace ParticipantId

def toJson (id : ParticipantId) : Json := .str id.text

def ofJson? (value : Json) : Option ParticipantId := value.text?.map ParticipantId.mk

end ParticipantId

namespace Phase

def toJson (phase : Phase) : Json := .str phase.name

def ofJson? (value : Json) : Option Phase := value.choice?.bind ofName?

end Phase

namespace Rendezvous

def toJson (reply : Rendezvous) : Json := .str reply.name

def ofJson? (value : Json) : Option Rendezvous := value.choice?.bind ofName?

end Rendezvous

namespace Update

def toJson (update : Update) : Json :=
  .record [("weights", Weights.toJson update.weights),
    ("aggregation_weight", .nat update.weight.toNat),
    ("metrics", Metrics.toJson update.metrics)]

/-- The metrics may be left out. -/
def ofJson? (value : Json) : Option Update := do
  let field ← value.fields? ["weights", "aggregation_weight", "metrics"] 2
  let weights ← (← field "weights") |> Weights.ofJson?
  let weight ← (← field "aggregation_weight").nat? 64
  let metrics ←
    match field "metrics" with
    | some metrics => Metrics.ofJson? metrics
    | none => some []
  pure ⟨weights, weight.toUInt64, metrics⟩

end Update

namespace Heartbeat

def toJson (h : Heartbeat) : Json :=
  .record [("state", h.phase.toJson), ("round", .nat h.round.toNat)]

def ofJson? (value : Json) : Option Heartbeat := do
  let field ← value.fields? ["state", "round"] 2
  let phase ← (← field "state") |> Phase.ofJson?
  let round ← (← field "round").nat? 32
  pure ⟨phase, round.toUInt32⟩

end Heartbeat

namespace TrainingTask

def toJson (task : TrainingTask) : Json :=
  .record [("weights", Weights.toJson task.weights), ("epochs", .nat task.epochs.toNat),
    ("epoch_base", .nat task.epochBase.toNat)]

def ofJson? (value : Json) : Option TrainingTask := do
  let field ← value.fields? ["weights", "epochs", "epoch_base"] 3
  let weights ← (← field "weights") |> Weights.ofJson?
  let epochs ← (← field "epochs").nat? 32
  let epochBase ← (← field "epoch_base").nat? 32
  pure ⟨weights, epochs.toUInt32, epochBase.toUInt32⟩

end TrainingTask

/-- The reply to a recorded update, which says nothing more. -/
structure Acknowledgement where
deriving DecidableEq

namespace Acknowledgement

def toJson (_ : Acknowledgement) : Json := .record []

def ofJson? (value : Json) : Option Acknowledgement :=
  (value.fields? [] 0).map fun _ => ⟨⟩

end Acknowledgement

/-- The reply to a participant that has no id yet: the decision, and an id if it was accepted. -/
structure Admission where
  reply : Rendezvous
  id : Option ParticipantId
deriving DecidableEq

namespace Admission

def toJson (a : Admission) : Json :=
  let id :=
    match a.id with
    | some id => id.toJson
    | none => .null
  .record [("reply", a.reply.toJson), ("id", id)]

/-- In an object the id may be left out. -/
def ofJson? (value : Json) : Option Admission := do
  let field ← value.fields? ["reply", "id"] 2
  let reply ← (← field "reply") |> Rendezvous.ofJson?
  let id ←
    match field "id" with
    | none => some none
    | some .null => some none
    | some id => (ParticipantId.ofJson? id).map some
  pure ⟨reply, id⟩

end Admission

structure Complaint where
  error : String
deriving DecidableEq

namespace Complaint

def toJson (c : Complaint) : Json := .record [("error", .str c.error)]

def ofJson? (value : Json) : Option Complaint := do
  let field ← value.fields? ["error"] 1
  let error ← (← field "error").text?
  pure ⟨error⟩

end Complaint
end FederatedRounds
