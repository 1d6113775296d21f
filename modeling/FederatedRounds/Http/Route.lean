import FederatedRounds.Http.Request
import FederatedRounds.Json.Reader
import FederatedRounds.Text.Pieces
import FederatedRounds.Wire.Message
/-! From requests to calls of the coordinator. The path in the target decides which call is meant;
then come the method, the declared length, the content type and the body, and the first that is
wrong rejects the request. -/
namespace FederatedRounds.Http

inductive Route where
  | rendezvous
  | heartbeat (id : ParticipantId)
  | startTraining (id : ParticipantId)
  | endTraining (id : ParticipantId)
deriving DecidableEq

namespace Route

def isSchemeChar (c : Char) : Bool := c.isAlphanum || c = '+' || c = '-' || c = '.'

/-- The path in a target without its query and fragment. It may stand behind a scheme and the name
of a server. -/
def pathOf (target : List Char) : List Char :=
  match target.span isSchemeChar with
  | (_, ':' :: '/' :: '/' :: rest) => rest.dropWhile (· ≠ '/')
  | _ => target

/-- The segments of the path in a target. A slash at the end does not count. -/
def segments? (target : String) : Option (List String) :=
  match pathOf (target.toList.takeWhile fun c => c ≠ '?' ∧ c ≠ '#') with
  | '/' :: rest =>
    let found := (Text.pieces '/' rest).map String.ofList
    some (if found.getLast? = some "" then found.dropLast else found)
  | _ => none

/-- Segments are taken as they are spelled. An id is not empty. -/
def ofTarget? (target : String) : Option Route :=
  match segments? target with
  | some ["rendezvous"] => some .rendezvous
  | some [action, id] =>
    if id = "" then none
    else
      match action with
      | "heartbeat" => some (.heartbeat ⟨id⟩)
      | "start_training_round" => some (.startTraining ⟨id⟩)
      | "end_training_round" => some (.endTraining ⟨id⟩)
      | _ => none
  | _ => none

def method : Route → String
  | rendezvous => "POST"
  | heartbeat _ => "GET"
  | startTraining _ => "GET"
  | endTraining _ => "POST"

end Route

inductive Call where
  | rendezvous
  | heartbeat (id : ParticipantId)
  | startTraining (id : ParticipantId)
  | endTraining (id : ParticipantId) (update : Update)

inductive Rejection where
  | notFound
  | methodNotAllowed
  | lengthRequired
  | payloadTooLarge
  | unsupportedMediaType
  | malformedBody
deriving DecidableEq

namespace Rejection

def status : Rejection → Nat
  | notFound => 404
  | methodNotAllowed => 405
  | lengthRequired => 411
  | payloadTooLarge => 413
  | unsupportedMediaType => 415
  | malformedBody => 400

def text : Rejection → String
  | notFound => ""
  | methodNotAllowed => "HTTP method not allowed"
  | lengthRequired => "A content-length header is required"
  | payloadTooLarge => "The request payload is too large"
  | unsupportedMediaType => "The request's content-type is not supported"
  | malformedBody => "Request body deserialize error"

end Rejection

namespace Request

/-- The update in the body of a request, of which the declared length may not exceed the limit. -/
def update (limit : Nat) (r : Request) : Except Rejection Update :=
  match r.declaredLength? with
  | none => .error .lengthRequired
  | some length =>
    if limit < length then .error .payloadTooLarge
    else if r.admitsJson then
      match (Json.parse? r.body).bind Update.ofJson? with
      | some update => .ok update
      | none => .error .malformedBody
    else .error .unsupportedMediaType

def call (limit : Nat) (r : Request) : Except Rejection Call :=
  match Route.ofTarget? r.target with
  | none => .error .notFound
  | some route =>
    if r.method = route.method then
      match route with
      | .rendezvous => .ok .rendezvous
      | .heartbeat id => .ok (.heartbeat id)
      | .startTraining id => .ok (.startTraining id)
      | .endTraining id => (r.update limit).map (.endTraining id)
    else .error .methodNotAllowed

end Request
end FederatedRounds.Http
