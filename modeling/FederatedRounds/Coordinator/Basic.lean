import FederatedRounds.Config
import FederatedRounds.Registry
import FederatedRounds.Round
import FederatedRounds.Selection
import FederatedRounds.Coordinator.Notice
/-! The state machine of a training session. It waits for a quorum of participants, selects those of
a round, collects their updates, aggregates them into new global weights and starts the next round,
until the last one or a failed aggregation. A round that loses the quorum is abandoned. The registry
is part of the state, and others may change it between two requests. -/
namespace FederatedRounds

/-- What stays the same throughout a session. -/
structure Rules (σ α : Type) where
  config : Config
  selector : Selector σ
  aggregator : Aggregator α

def Rules.quorum {σ α : Type} (rules : Rules σ α) : Nat := rules.config.quorum

structure Coordinator (σ α : Type) where
  registry : Registry
  phase : Phase
  round : Round
  current : UInt32
  epochBase : UInt32
  weights : Weights
  events : List Event
  selecting : σ
  aggregating : α

/-- The reply to a request, the state after it, and what was logged. -/
structure Outcome (σ α ρ : Type) where
  reply : ρ
  next : Coordinator σ α
  log : List Notice

def Outcome.map {σ α ρ τ : Type} (f : ρ → τ) (o : Outcome σ α ρ) : Outcome σ α τ :=
  ⟨f o.reply, o.next, o.log⟩

namespace Coordinator
variable {σ α : Type}

/-- The state at the start of a session, waiting for participants. -/
def initial (registry : Registry) (weights : Weights) (selecting : σ) (aggregating : α) :
    Coordinator σ α where
  registry
  phase := .standBy
  round := .empty
  current := 0
  epochBase := 0
  weights
  events := []
  selecting
  aggregating

/-- Selects participants among the connected ones and opens a round for them. -/
def openRound (rules : Rules σ α) (c : Coordinator σ α) : Coordinator σ α × List Notice :=
  let (selected, selecting) :=
    rules.selector.selectFraction c.selecting c.registry.ids rules.config.fraction
  ({ c with round := .start selected, selecting }, [.startingRound c.current selected.length])

/-- Accepts participants until the quorum is reached; the one that reaches it starts a round. Once
it is reached, registered participants are turned away too. -/
def rendezvous (rules : Rules σ α) (now : Instant) (id : ParticipantId) (c : Coordinator σ α) :
    Outcome σ α Rendezvous :=
  if rules.quorum ≤ c.registry.size then ⟨.later, c, [.rejected id c.registry.size]⟩
  else if c.registry.contains id then
    ⟨.accept, { c with registry := c.registry.refresh now id }, [.registeredAlready id]⟩
  else
    let joined := { c with registry := c.registry.add now id }
    let accepted := Notice.accepted id joined.registry.size rules.quorum
    if rules.quorum ≤ joined.registry.size ∧ c.phase = .standBy then
      let (opened, notices) := joined.openRound rules
      ⟨.accept, { opened with phase := .round }, accepted :: notices⟩
    else ⟨.accept, joined, [accepted]⟩

def phaseFor (c : Coordinator σ α) (id : ParticipantId) : Phase :=
  if c.phase = .round ∧ c.round.isSelected id = false then .standBy else c.phase

def heartbeat (now : Instant) (id : ParticipantId) (c : Coordinator σ α) :
    Outcome σ α (Except CoordinatorError Heartbeat) :=
  if c.registry.contains id then
    ⟨.ok ⟨c.phaseFor id, c.current⟩, { c with registry := c.registry.refresh now id },
      [.heartbeat id (c.phaseFor id) c.current]⟩
  else ⟨.error (.unknownParticipant id), c, []⟩

/-- Why a participant may not start or end training, if it may not. -/
def refusal? (c : Coordinator σ α) (id : ParticipantId) (request : Training) :
    Option CoordinatorError :=
  if c.registry.contains id then
    if c.phase = .round then
      if c.round.isSelected id then none
      else some (.invalidRequest (.notSelected id request c.current))
    else some (.invalidRequest (.outsideRound id request))
  else some (.unknownParticipant id)

def startTraining (rules : Rules σ α) (id : ParticipantId) (c : Coordinator σ α) :
    Outcome σ α (Except CoordinatorError TrainingTask) :=
  match c.refusal? id .start with
  | some error => ⟨.error error, c, []⟩
  | none => ⟨.ok ⟨c.weights, rules.config.epochs, c.epochBase⟩, c, []⟩

/-- Moves on after an aggregation: to the next round, or to the end of the session. -/
def advance (rules : Rules σ α) (c : Coordinator σ α) : Coordinator σ α × List Notice :=
  if rules.config.rounds ≤ c.current + 1 then
    ({ c with phase := .finished }, [.sessionFinished rules.config.rounds])
  else
    openRound rules
      { c with current := c.current + 1, epochBase := c.epochBase + rules.config.epochs }

/-- Aggregates the updates of the round. A failure ends the session and keeps the weights of the
last completed round. -/
def completeRound (rules : Rules σ α) (c : Coordinator σ α) :
    Outcome σ α (Except CoordinatorError Unit) :=
  let updates := c.round.inSelectionOrder
  let (result, aggregating) := rules.aggregator.aggregate c.aggregating
    (updates.map fun (_, update) => (update.weights, update.weight))
  match result with
  | .error error =>
    ⟨.error (.aggregation error), { c with round := .empty, aggregating, phase := .finished },
      [.aggregating c.current, .aggregationFailed c.current error]⟩
  | .ok weights =>
    let written := updates.map (fun (id, update) => Event.writeMetrics id update.metrics)
      ++ [.writeGlobalWeights c.current weights]
    let (next, notices) := advance rules
      { c with round := .empty, aggregating, weights, events := c.events ++ written }
    ⟨.ok (), next, .aggregating c.current :: notices⟩

/-- Records the update of a selected participant. The last one that is missing completes the
round. -/
def endTraining (rules : Rules σ α) (id : ParticipantId) (update : Update)
    (c : Coordinator σ α) : Outcome σ α (Except CoordinatorError Unit) :=
  match c.refusal? id .finish with
  | some error => ⟨.error error, c, []⟩
  | none =>
    match c.round.submit? id update with
    | none => ⟨.error (.duplicatedUpdate id), c, []⟩
    | some round =>
      let recorded :=
        { c with round, events := c.events ++ [.readLocalWeights id c.current] }
      let received :=
        Notice.updateReceived c.current id round.updates.length round.selected.length
      if round.isFinished then
        let completed := recorded.completeRound rules
        ⟨completed.reply, completed.next, received :: completed.log⟩
      else ⟨.ok (), recorded, [received]⟩

/-- Goes back to stand-by when a round has lost the quorum. -/
def afterRemoval (rules : Rules σ α) (id : ParticipantId) (c : Coordinator σ α) :
    Coordinator σ α × List Notice :=
  let removed := Notice.removed id c.registry.size
  if c.phase = .round ∧ c.registry.size < rules.quorum then
    ({ c with phase := .standBy, round := .empty }, [removed, .abandoned c.current])
  else (c, [removed])

def remove (rules : Rules σ α) (id : ParticipantId) (c : Coordinator σ α) : Outcome σ α Unit :=
  if c.registry.contains id then
    let (next, notices) := afterRemoval rules id { c with registry := c.registry.remove id }
    ⟨(), next, notices⟩
  else ⟨(), c, [.notRegistered id]⟩

/-- Removes a participant whose expiry is not after the instant at which it was observed, and tells
whether it did. -/
def removeExpired (rules : Rules σ α) (id : ParticipantId) (observed : Instant)
    (c : Coordinator σ α) : Outcome σ α Bool :=
  if c.registry.isExpired observed id then
    let (next, notices) := afterRemoval rules id { c with registry := c.registry.remove id }
    ⟨true, next, notices⟩
  else ⟨false, c, [.notExpired id]⟩

def onMessage (rules : Rules σ α) (now : Instant) (id : ParticipantId) (message : Message)
    (c : Coordinator σ α) : Outcome σ α (Except CoordinatorError Response) :=
  let handled : Outcome σ α (Except CoordinatorError Response) :=
    match message with
    | .rendezvous => (c.rendezvous rules now id).map fun reply => .ok (.rendezvous reply)
    | .heartbeat => (c.heartbeat now id).map (·.map .heartbeat)
    | .startTraining => (c.startTraining rules id).map (·.map .startTraining)
    | .endTraining update => (c.endTraining rules id update).map (·.map fun _ => .endTraining)
  { handled with log := .received message id :: handled.log }

end Coordinator

/-- Sets a session up: its rules checked, no participant selected yet. -/
def Rules.open {σ α : Type} (rules : Rules σ α) (registry : Registry) (weights : Weights)
    (selecting : σ) (aggregating : α) : Except ConfigError (Outcome σ α Unit) :=
  match rules.config.validate with
  | .error error => .error error
  | .ok () => .ok ⟨(), .initial registry weights selecting aggregating,
      [.created rules.config.rounds rules.quorum]⟩

end FederatedRounds
