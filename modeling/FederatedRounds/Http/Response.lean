import FederatedRounds.Http.Route
import FederatedRounds.Json.Printer
import FederatedRounds.Service.Basic
/-! Serving requests: a call that the request makes is handed to the service, and its answer is
written as JSON. A rejected request does not reach the service. -/
namespace FederatedRounds.Http

structure Response where
  status : Nat
  contentType : Option String
  body : String
deriving DecidableEq

namespace Response

def ofJson (status : Nat) (body : Json) : Response := ⟨status, some "application/json", body.render⟩

def ofRejection : Rejection → Response
  | .notFound => ⟨Rejection.status .notFound, none, Rejection.text .notFound⟩
  | rejection => ⟨rejection.status, some "text/plain; charset=utf-8", rejection.text⟩

def errorStatus : RequestError → Nat
  | .shutDown => 503
  | .coordinator (.unknownParticipant _) => 403
  | .coordinator (.invalidRequest _) => 412
  | .coordinator (.duplicatedUpdate _) => 409
  | .coordinator (.aggregation _) => 500

def ofError (error : RequestError) : Response :=
  ofJson (errorStatus error) (Complaint.toJson ⟨error.message⟩)

def ofResult {τ : Type} (toJson : τ → Json) : Except CoordinatorError τ → Response
  | .ok value => ofJson 200 (toJson value)
  | .error error => ofError (.coordinator error)

/-- The answer to a call; `fresh` is the id that was made up for a participant without one. -/
def ofAnswer (fresh : ParticipantId) : Option Answer → Response
  | some (.rendezvous .accept) => ofJson 200 (Admission.toJson ⟨.accept, some fresh⟩)
  | some (.rendezvous .later) => ofJson 200 (Admission.toJson ⟨.later, none⟩)
  | some (.heartbeat result) => ofResult Heartbeat.toJson result
  | some (.startTraining result) => ofResult TrainingTask.toJson result
  | some (.endTraining result) => ofResult (fun _ => Acknowledgement.toJson ⟨⟩) result
  | _ => ofError .shutDown

end Response

/-- The request to the coordinator that a call is. -/
def Call.request (fresh : ParticipantId) : Call → FederatedRounds.Request
  | rendezvous => .rendezvous fresh
  | heartbeat id => .heartbeat id
  | startTraining id => .startTraining id
  | endTraining id update => .endTraining id update

def serve {σ α : Type} (rules : Rules σ α) (limit : Nat) (fresh : ParticipantId) (r : Request)
    (s : Service σ α) : Response × Service σ α :=
  match r.call limit with
  | .error rejection => (.ofRejection rejection, s)
  | .ok call =>
    let (answer, s) := s.request rules (call.request fresh)
    (.ofAnswer fresh answer, s)

end FederatedRounds.Http
