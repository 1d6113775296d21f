import FederatedRounds.Proofs.Coordinator.Trace
import FederatedRounds.Proofs.Coordinator.Interleaving

/-! The weights that a session publishes. A round that is aggregated becomes the weights of the
session and one event that asks for them to be written, and neither comes about in another way. -/
namespace FederatedRounds
variable {σ α : Type} {rules : Rules σ α}

/-- The last missing update of a round is submitted, and the aggregator makes these weights of the
round. -/
structure Step.Aggregates (rules : Rules σ α) (step : Step σ α) (id : ParticipantId)
    (update : Update) (weights : Weights) : Prop where
  submits : step.operation.submission? = some (id, update)
  admitted : step.before.coordinator.Admits id
  last : (step.before.coordinator.record id update).round.isFinished = true
  aggregated : ((step.before.coordinator.record id update).aggregation rules).1 = .ok weights

namespace Coordinator

theorem endTraining_published {c : Coordinator σ α} {id : ParticipantId} {update : Update}
    {weights : Weights} (admitted : c.Admits id)
    (last : (c.record id update).round.isFinished = true)
    (aggregated : ((c.record id update).aggregation rules).1 = .ok weights) :
    (c.endTraining rules id update).reply = .ok () := by
  rw [endTraining_admitted (admitted.passes .finish) admitted.first]
  dsimp only
  rw [if_pos last, completeRound_published aggregated]

/-- The weights of the session change only when a round is aggregated. -/
theorem Transition.weights {now : Instant} {c c' : Coordinator σ α} {effect : Effect}
    (transition : Transition rules now c effect c') :
    c'.weights = c.weights ∧ (c.emission c' effect).filterMap Event.written? = [] ∨
      ∃ id update, effect.accepted? = some (id, update) ∧ c.Admits id ∧
        (c.record id update).round.isFinished = true ∧
        ((c.record id update).aggregation rules).1 = .ok c'.weights := by
  cases transition with
  | finished id update weights admitted last aggregated =>
    exact Or.inr ⟨id, update, rfl, admitted, last, aggregated⟩
  | advanced id update weights admitted last aggregated =>
    exact Or.inr ⟨id, update, rfl, admitted, last, aggregated⟩
  | _ => exact Or.inl ⟨rfl, rfl⟩

/-- An update that is accepted and completes a round that the aggregator takes is published. -/
theorem Transition.published_of_accepted {now : Instant} {c c' : Coordinator σ α} {effect : Effect}
    (transition : Transition rules now c effect c') {id : ParticipantId} {update : Update}
    {weights : Weights} (accepted : effect.accepted? = some (id, update))
    (last : (c.record id update).round.isFinished = true)
    (aggregated : ((c.record id update).aggregation rules).1 = .ok weights) :
    c'.weights = weights ∧
      (c.emission c' effect).filterMap Event.written? = [(c.current, weights)] := by
  cases transition with
  | recorded _ _ _ missing =>
    cases accepted
    rw [last] at missing
    cases missing
  | failed _ _ _ _ _ refused =>
    cases accepted
    rw [aggregated] at refused
    cases refused
  | finished id update _ _ _ made =>
    cases accepted
    cases aggregated.symm.trans made
    exact ⟨rfl, emission_published c id update weights⟩
  | advanced id update _ _ _ made =>
    cases accepted
    cases aggregated.symm.trans made
    exact ⟨rfl, emission_published c id update weights⟩
  | _ => cases accepted

/-- Weights are written for each round once. -/
theorem Published.distinct {first : Weights} {written : List (UInt32 × Weights)}
    {c : Coordinator σ α} (published : c.Published first written) :
    (written.map (·.1)).Nodup := by
  have numbers : ((written.map (·.1)).map UInt32.toNat).Nodup := by
    rw [List.map_map]
    exact published.numbered ▸ List.nodup_range
  exact numbers.of_map _

end Coordinator

namespace Situation

theorem accepted?_of_aggregates {s : Situation σ α} {operation : Operation} {id : ParticipantId}
    {update : Update} {weights : Weights}
    (aggregates : (s.step rules operation).Aggregates rules id update weights) :
    (s.step rules operation).accepted? = some (id, update) := by
  obtain ⟨submits, admitted, last, aggregated⟩ := aggregates
  obtain ⟨_, error, _⟩ := s.step_submission rules submits
  have replied : (s.coordinator.endTraining rules id update).reply = .ok () :=
    Coordinator.endTraining_published admitted last aggregated
  rw [replied] at error
  exact Step.accepted?_of_submission submits error

/-- A round that is aggregated in a step becomes the weights of the session, and they are to be
written. -/
theorem step_of_aggregates {s : Situation σ α} {operation : Operation} {id : ParticipantId}
    {update : Update} {weights : Weights}
    (aggregates : (s.step rules operation).Aggregates rules id update weights) :
    (s.step rules operation).after.coordinator.weights = weights ∧
      (s.step rules operation).emitted.filterMap Event.written? =
        [(s.coordinator.current, weights)] := by
  obtain ⟨effect, shown⟩ := s.step_shows rules operation
  have accepted := shown.accepted.symm.trans (accepted?_of_aggregates aggregates)
  rw [shown.emitted]
  exact shown.transition.published_of_accepted accepted aggregates.last aggregates.aggregated

theorem aggregates_or_keeps (rules : Rules σ α) (operation : Operation) (s : Situation σ α) :
    let step := s.step rules operation
    step.after.coordinator.weights = s.coordinator.weights ∧
        step.emitted.filterMap Event.written? = [] ∨
      ∃ id update, step.Aggregates rules id update step.after.coordinator.weights := by
  intro step
  obtain ⟨effect, shown⟩ := s.step_shows rules operation
  have emitted : step.emitted = _ := shown.emitted
  rw [emitted]
  rcases shown.transition.weights with keeps | ⟨id, update, accepted, admitted, last, made⟩
  · exact Or.inl keeps
  · have submits := Step.submission?_of_accepted? (shown.accepted.trans accepted)
    exact Or.inr ⟨id, update, submits, admitted, last, made⟩

/-- The weights that are to be written in a run are those of its rounds that were aggregated. -/
theorem mem_written_iff_aggregates {operations : List Operation} {s : Situation σ α}
    (drained : s.coordinator.events = []) {round : UInt32} {weights : Weights} :
    (round, weights) ∈ s.written rules operations ↔
      ∃ step ∈ s.steps rules operations, step.before.coordinator.current = round ∧
        ∃ id update, step.Aggregates rules id update weights := by
  have each : ∀ step ∈ s.steps rules operations,
      (round, weights) ∈ step.emitted.filterMap Event.written? ↔
        step.before.coordinator.current = round ∧
          ∃ id update, step.Aggregates rules id update weights := by
    intro step member
    obtain ⟨first, operation, _, _, rfl⟩ := exists_of_mem_steps member
    constructor
    · intro written
      rcases aggregates_or_keeps rules operation (s.final rules first) with
        ⟨_, none⟩ | ⟨id, update, aggregates⟩
      · rw [none] at written
        cases written
      · rw [(step_of_aggregates aggregates).2] at written
        cases List.mem_singleton.mp written
        exact ⟨rfl, id, update, aggregates⟩
    · rintro ⟨rfl, id, update, aggregates⟩
      rw [(step_of_aggregates aggregates).2]
      exact List.mem_singleton_self _
  rw [written, trace_eq, drained, List.nil_append, List.filterMap_flatMap, List.mem_flatMap]
  exact exists_congr fun step => and_congr_right (each step)

end Situation
end FederatedRounds
