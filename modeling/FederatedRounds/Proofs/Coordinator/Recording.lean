import FederatedRounds.Proofs.Coordinator.Transition

/-! An aggregator that keeps a record of what it is given. The record changes nothing else: a run
with it gives the same answers and the same log as the run without it, and ends in the same state
but for the record. -/
namespace FederatedRounds

/-- The updates and their weights, as an aggregator is given them. -/
abbrev Payloads := List (Weights × UInt64)

variable {σ α : Type}

/-- The aggregator with a record of its calls, the first one first. -/
def Aggregator.recording (aggregator : Aggregator α) : Aggregator (α × List Payloads) where
  aggregate state payloads :=
    let (result, next) := aggregator.aggregate state.1 payloads
    (result, next, state.2 ++ [payloads])

def Rules.recording (rules : Rules σ α) : Rules σ (α × List Payloads) :=
  ⟨rules.config, rules.selector, rules.aggregator.recording⟩

/-- The record of a coordinator left out. -/
def Coordinator.unrecorded (c : Coordinator σ (α × List Payloads)) : Coordinator σ α :=
  { c with aggregating := c.aggregating.1 }

def Situation.unrecorded (s : Situation σ (α × List Payloads)) : Situation σ α :=
  ⟨s.now, s.coordinator.unrecorded⟩

/-- The start of a record. -/
def Situation.recording (s : Situation σ α) : Situation σ (α × List Payloads) :=
  ⟨s.now, { s.coordinator with aggregating := (s.coordinator.aggregating, []) }⟩

/-- What the aggregator was given so far. -/
def Situation.calls (s : Situation σ (α × List Payloads)) : List Payloads :=
  s.coordinator.aggregating.2

def Outcome.unrecorded {ρ : Type} (o : Outcome σ (α × List Payloads) ρ) : Outcome σ α ρ :=
  ⟨o.reply, o.next.unrecorded, o.log⟩

theorem Outcome.unrecorded_ite {ρ : Type} (p : Prop) [Decidable p]
    (first second : Outcome σ (α × List Payloads) ρ) :
    (if p then first else second).unrecorded =
      if p then first.unrecorded else second.unrecorded := apply_ite _ _ _ _

theorem Outcome.map_unrecorded {ρ τ : Type} {o : Outcome σ α ρ}
    {recorded : Outcome σ (α × List Payloads) ρ} (same : o = recorded.unrecorded) (f : ρ → τ) :
    o.map f = (recorded.map f).unrecorded := by
  rw [same]
  rfl

theorem Outcome.received_unrecorded {ρ : Type} {o : Outcome σ α ρ}
    {recorded : Outcome σ (α × List Payloads) ρ} (same : o = recorded.unrecorded)
    (notice : Notice) :
    { o with log := notice :: o.log } =
      Outcome.unrecorded { recorded with log := notice :: recorded.log } := by
  rw [same]
  rfl

namespace Coordinator
variable (rules : Rules σ α) (now : Instant) (c : Coordinator σ (α × List Payloads))

theorem rendezvous_unrecorded (id : ParticipantId) :
    c.unrecorded.rendezvous rules now id = (c.rendezvous rules.recording now id).unrecorded := by
  unfold rendezvous
  simp only [Outcome.unrecorded_ite]
  rfl

theorem heartbeat_unrecorded (id : ParticipantId) :
    c.unrecorded.heartbeat now id = (c.heartbeat now id).unrecorded := by
  unfold heartbeat
  rw [Outcome.unrecorded_ite]
  rfl

theorem startTraining_unrecorded (id : ParticipantId) :
    c.unrecorded.startTraining rules id = (c.startTraining rules.recording id).unrecorded := by
  have same : c.unrecorded.refusal? id .start = c.refusal? id .start := rfl
  unfold startTraining
  rw [same]
  cases c.refusal? id .start <;> rfl

theorem advance_unrecorded :
    c.unrecorded.advance rules =
      ((c.advance rules.recording).1.unrecorded, (c.advance rules.recording).2) := by
  by_cases ended : rules.recording.config.rounds ≤ c.current + 1
  · rw [advance_finished ended]
    exact advance_finished ended
  · rw [advance_next ended]
    exact advance_next ended

theorem completeRound_unrecorded :
    c.unrecorded.completeRound rules = (c.completeRound rules.recording).unrecorded := by
  cases result : (c.aggregation rules.recording).1 with
  | error error =>
    have refused : (c.unrecorded.aggregation rules).1 = .error error := result
    rw [completeRound_failed result, completeRound_failed refused]
    rfl
  | ok weights =>
    have aggregated : (c.unrecorded.aggregation rules).1 = .ok weights := result
    have published : c.unrecorded.publish rules weights =
        (c.publish rules.recording weights).unrecorded := rfl
    rw [completeRound_published result, completeRound_published aggregated, published,
      advance_unrecorded]
    rfl

theorem endTraining_unrecorded (id : ParticipantId) (update : Update) :
    c.unrecorded.endTraining rules id update =
      (c.endTraining rules.recording id update).unrecorded := by
  cases refusal : c.refusal? id .finish with
  | some error =>
    have refused : c.unrecorded.refusal? id .finish = some error := refusal
    rw [endTraining_refused refusal, endTraining_refused refused]
    rfl
  | none =>
    have passes : c.unrecorded.refusal? id .finish = none := refusal
    by_cases again : c.round.hasUpdate id = true
    · rw [endTraining_repeated refusal again, endTraining_repeated passes again]
      rfl
    have first : c.round.hasUpdate id = false := by simpa using again
    have recorded : c.unrecorded.record id update = (c.record id update).unrecorded := rfl
    rw [endTraining_admitted refusal first, endTraining_admitted passes first, recorded,
      completeRound_unrecorded]
    dsimp only
    rw [Outcome.unrecorded_ite]
    rfl

theorem afterRemoval_unrecorded (id : ParticipantId) :
    afterRemoval rules id c.unrecorded =
      ((afterRemoval rules.recording id c).1.unrecorded,
        (afterRemoval rules.recording id c).2) := by
  unfold afterRemoval
  by_cases lost : c.phase = .round ∧ c.registry.size < rules.recording.quorum
  · rw [if_pos lost]
    exact if_pos lost
  · rw [if_neg lost]
    exact if_neg lost

/-- The registry of a coordinator is the same without the record. -/
private theorem left_unrecorded (id : ParticipantId) :
    afterRemoval rules id { c.unrecorded with registry := c.unrecorded.registry.remove id } =
      ((afterRemoval rules.recording id { c with registry := c.registry.remove id }).1.unrecorded,
        (afterRemoval rules.recording id { c with registry := c.registry.remove id }).2) :=
  afterRemoval_unrecorded rules { c with registry := c.registry.remove id } id

theorem remove_unrecorded (id : ParticipantId) :
    c.unrecorded.remove rules id = (c.remove rules.recording id).unrecorded := by
  by_cases registered : c.registry.contains id = true
  · have kept : c.unrecorded.registry.contains id = true := registered
    rw [remove_registered registered, remove_registered kept, left_unrecorded]
    rfl
  · have kept : ¬c.unrecorded.registry.contains id = true := registered
    rw [remove_absent registered, remove_absent kept]
    rfl

theorem removeExpired_unrecorded (id : ParticipantId) (observed : Instant) :
    c.unrecorded.removeExpired rules id observed =
      (c.removeExpired rules.recording id observed).unrecorded := by
  by_cases expired : c.registry.isExpired observed id = true
  · have kept : c.unrecorded.registry.isExpired observed id = true := expired
    rw [removeExpired_expired expired, removeExpired_expired kept, left_unrecorded]
    rfl
  · have kept : ¬c.unrecorded.registry.isExpired observed id = true := expired
    rw [removeExpired_alive expired, removeExpired_alive kept]
    rfl

theorem onMessage_unrecorded (id : ParticipantId) (message : Message) :
    c.unrecorded.onMessage rules now id message =
      (c.onMessage rules.recording now id message).unrecorded := by
  cases message with
  | rendezvous =>
    exact Outcome.received_unrecorded
      (Outcome.map_unrecorded (rendezvous_unrecorded rules now c id) _) _
  | heartbeat =>
    exact Outcome.received_unrecorded (Outcome.map_unrecorded (heartbeat_unrecorded now c id) _) _
  | startTraining =>
    exact Outcome.received_unrecorded
      (Outcome.map_unrecorded (startTraining_unrecorded rules c id) _) _
  | endTraining update =>
    exact Outcome.received_unrecorded
      (Outcome.map_unrecorded (endTraining_unrecorded rules c id update) _) _

theorem handle_unrecorded (request : Request) :
    c.unrecorded.handle rules now request =
      (c.handle rules.recording now request).unrecorded := by
  cases request with
  | rendezvous id => exact Outcome.map_unrecorded (rendezvous_unrecorded rules now c id) _
  | heartbeat id => exact Outcome.map_unrecorded (heartbeat_unrecorded now c id) _
  | startTraining id => exact Outcome.map_unrecorded (startTraining_unrecorded rules c id) _
  | endTraining id update =>
    exact Outcome.map_unrecorded (endTraining_unrecorded rules c id update) _
  | message id message =>
    exact Outcome.map_unrecorded (onMessage_unrecorded rules now c id message) _
  | remove id => exact Outcome.map_unrecorded (remove_unrecorded rules c id) fun _ => Answer.removed
  | removeExpired id observed =>
    exact Outcome.map_unrecorded (removeExpired_unrecorded rules c id observed) _

end Coordinator

namespace Situation
variable (rules : Rules σ α)

theorem perform_unrecorded (operation : Operation) (s : Situation σ (α × List Payloads)) :
    s.unrecorded.perform rules operation =
      ((s.perform rules.recording operation).1,
        (s.perform rules.recording operation).2.unrecorded) := by
  cases operation with
  | request request =>
    have handled : s.unrecorded.coordinator.handle rules s.unrecorded.now request =
        (s.coordinator.handle rules.recording s.now request).unrecorded :=
      Coordinator.handle_unrecorded rules s.now s.coordinator request
    unfold perform
    dsimp only
    rw [handled]
    rfl
  | registry change => rfl
  | advance span => rfl
  | takeEvent => rfl

theorem step_unrecorded (operation : Operation) (s : Situation σ (α × List Payloads)) :
    s.unrecorded.step rules operation =
      ⟨s.unrecorded, operation, (s.step rules.recording operation).observation,
        (s.step rules.recording operation).after.unrecorded⟩ := by
  unfold step
  rw [perform_unrecorded]

/-- A run with a record shows what the run without it shows. -/
theorem run_unrecorded (operations : List Operation) (s : Situation σ (α × List Payloads)) :
    s.unrecorded.run rules operations =
      ((s.run rules.recording operations).1, (s.run rules.recording operations).2.unrecorded) := by
  induction operations generalizing s with
  | nil => rfl
  | cons operation rest ih =>
    unfold run
    rw [perform_unrecorded]
    dsimp only
    rw [ih]

theorem final_unrecorded (operations : List Operation) (s : Situation σ (α × List Payloads)) :
    s.unrecorded.final rules operations = (s.final rules.recording operations).unrecorded :=
  congrArg Prod.snd (run_unrecorded rules operations s)

end Situation
end FederatedRounds
