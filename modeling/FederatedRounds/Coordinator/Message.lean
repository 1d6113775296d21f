import FederatedRounds.Aggregation
import FederatedRounds.Participant
/-! What participants ask of the coordinator, what it answers, and why it refuses. -/
namespace FederatedRounds

/-- The state of a session as participants see it. Stand-by also means not selected. -/
inductive Phase where
  | standBy
  | round
  | finished
deriving DecidableEq

namespace Phase

def text : Phase → String
  | standBy => "standby"
  | round => "round"
  | finished => "finished"

def name : Phase → String
  | standBy => "stand_by"
  | round => "round"
  | finished => "finished"

def all : List Phase := [standBy, round, finished]

def ofName? (name : String) : Option Phase := all.find? fun phase => phase.name = name

end Phase

inductive Rendezvous where
  | accept
  | later
deriving DecidableEq

namespace Rendezvous

def name : Rendezvous → String
  | accept => "accept"
  | later => "later"

def all : List Rendezvous := [accept, later]

def ofName? (name : String) : Option Rendezvous := all.find? fun reply => reply.name = name

end Rendezvous

structure Heartbeat where
  phase : Phase
  round : UInt32
deriving DecidableEq

/-- What a participant trains on: the global weights, for so many epochs, after so many. -/
structure TrainingTask where
  weights : Weights
  epochs : UInt32
  epochBase : UInt32
deriving DecidableEq

inductive Message where
  | rendezvous
  | heartbeat
  | startTraining
  | endTraining (update : Update)

def Message.kind : Message → String
  | rendezvous => "rendezvous"
  | heartbeat => "heartbeat"
  | startTraining => "start training round"
  | endTraining _ => "end training round"

inductive Response where
  | rendezvous (reply : Rendezvous)
  | heartbeat (heartbeat : Heartbeat)
  | startTraining (task : TrainingTask)
  | endTraining
deriving DecidableEq

/-- The two requests that only a selected participant may send. -/
inductive Training where
  | start
  | finish
deriving DecidableEq

def Training.text : Training → String
  | start => "start training"
  | finish => "end training"

inductive Refusal where
  | outsideRound (id : ParticipantId) (request : Training)
  | notSelected (id : ParticipantId) (request : Training) (round : UInt32)
deriving DecidableEq

def Refusal.text : Refusal → String
  | outsideRound id request =>
    s!"participant {id.text} sent a {request.text} request outside of a round"
  | notSelected id request round =>
    s!"participant {id.text} sent a {request.text} request but is not selected for round " ++
      natText round.toNat

inductive CoordinatorError where
  | unknownParticipant (id : ParticipantId)
  | invalidRequest (reason : Refusal)
  | duplicatedUpdate (id : ParticipantId)
  | aggregation (error : AggregationError)
deriving DecidableEq

def CoordinatorError.message : CoordinatorError → String
  | unknownParticipant id =>
    s!"unknown participant {id.text}: rendez-vous with the coordinator first"
  | invalidRequest reason => "invalid request: " ++ reason.text
  | duplicatedUpdate id => s!"participant {id.text} already submitted an update for this round"
  | aggregation error => "aggregation failed: " ++ error.message

/-- What the coordinator asks of the stores. -/
inductive Event where
  | readLocalWeights (id : ParticipantId) (round : UInt32)
  | writeMetrics (id : ParticipantId) (metrics : Metrics)
  | writeGlobalWeights (round : UInt32) (weights : Weights)
deriving DecidableEq

def Event.text : Event → String
  | readLocalWeights id round =>
    s!"read local weights of participant {id.text} for round {natText round.toNat}"
  | writeMetrics id _ => s!"write metrics of participant {id.text}"
  | writeGlobalWeights round _ => s!"write global weights of round {natText round.toNat}"

end FederatedRounds
