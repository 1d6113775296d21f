import FederatedRounds.Coordinator.Basic
/-! Requests as values, and runs: lists of requests, changes of the registry from outside, passing
time and events taken off the queue. -/
namespace FederatedRounds

inductive Request where
  | rendezvous (id : ParticipantId)
  | heartbeat (id : ParticipantId)
  | startTraining (id : ParticipantId)
  | endTraining (id : ParticipantId) (update : Update)
  | message (id : ParticipantId) (message : Message)
  | remove (id : ParticipantId)
  | removeExpired (id : ParticipantId) (observed : Instant)

inductive Answer where
  | rendezvous (reply : Rendezvous)
  | heartbeat (result : Except CoordinatorError Heartbeat)
  | startTraining (result : Except CoordinatorError TrainingTask)
  | endTraining (result : Except CoordinatorError Unit)
  | message (result : Except CoordinatorError Response)
  | removed
  | removedExpired (whether : Bool)

namespace Coordinator
variable {σ α : Type}

def handle (rules : Rules σ α) (now : Instant) (request : Request) (c : Coordinator σ α) :
    Outcome σ α Answer :=
  match request with
  | .rendezvous id => (c.rendezvous rules now id).map .rendezvous
  | .heartbeat id => (c.heartbeat now id).map .heartbeat
  | .startTraining id => (c.startTraining rules id).map .startTraining
  | .endTraining id update => (c.endTraining rules id update).map .endTraining
  | .message id message => (c.onMessage rules now id message).map .message
  | .remove id => (c.remove rules id).map fun _ => .removed
  | .removeExpired id observed => (c.removeExpired rules id observed).map .removedExpired

end Coordinator

inductive Operation where
  | request (request : Request)
  | registry (change : Registry.Change)
  | advance (span : Nat)
  | takeEvent

/-- A coordinator at an instant. -/
structure Situation (σ α : Type) where
  now : Instant
  coordinator : Coordinator σ α

structure Observation where
  answer : Option Answer
  taken : Option Event
  log : List Notice

namespace Situation
variable {σ α : Type}

def perform (rules : Rules σ α) (operation : Operation) (s : Situation σ α) :
    Observation × Situation σ α :=
  match operation with
  | .request request =>
    let outcome := s.coordinator.handle rules s.now request
    (⟨some outcome.reply, none, outcome.log⟩, { s with coordinator := outcome.next })
  | .registry change =>
    let registry := s.coordinator.registry.change s.now change
    (⟨none, none, []⟩, { s with coordinator := { s.coordinator with registry } })
  | .advance span => (⟨none, none, []⟩, { s with now := s.now + span })
  | .takeEvent =>
    (⟨none, s.coordinator.events.head?, []⟩,
      { s with coordinator := { s.coordinator with events := s.coordinator.events.tail } })

def run (rules : Rules σ α) : List Operation → Situation σ α → List Observation × Situation σ α
  | [], s => ([], s)
  | operation :: rest, s =>
    let (observation, s) := s.perform rules operation
    let (observations, s) := run rules rest s
    (observation :: observations, s)

end Situation
end FederatedRounds
