import FederatedRounds.Proofs.Aggregation.Shapes
import FederatedRounds.Proofs.Coordinator.Aggregated
import FederatedRounds.Proofs.Coordinator.Failure
import FederatedRounds.Proofs.Coordinator.Publication
import FederatedRounds.Proofs.Wire.Filled

/-! Tensors in a session. From updates that were read from texts come filled weights, of the shapes
of the updates from which they were made, and the aggregator finds every element that it looks up. -/
namespace FederatedRounds

/-- In each state that the aggregator keeps it makes of updates what the strategy does. -/
def Rules.Applies {σ α : Type} (rules : Rules σ α) (strategy : Strategy) : Prop :=
  ∀ state payloads, (rules.aggregator.aggregate state payloads).1 = strategy.aggregate payloads

theorem Rules.Applies.recording {σ α : Type} {rules : Rules σ α} {strategy : Strategy}
    (applies : rules.Applies strategy) : rules.recording.Applies strategy :=
  fun state payloads => applies state.1 payloads

theorem Round.payloads_filled {r : Round} (filled : ∀ entry ∈ r.updates, entry.2.Filled) :
    ∀ payload ∈ r.payloads, Layers.Filled payload.1 := by
  intro payload member
  obtain ⟨entry, inside, rfl⟩ := List.mem_map.mp member
  exact (filled entry (mem_of_mem_collect inside)).weights

theorem Round.Sound.mem_payloads {r : Round} (sound : r.Sound) (complete : r.isFinished = true)
    {entry : ParticipantId × Update} (member : entry ∈ r.updates) :
    (entry.2.weights, entry.2.weight) ∈ r.payloads :=
  List.mem_map.mpr ⟨entry, sound.mem_inSelectionOrder complete member, rfl⟩

namespace Coordinator
variable {σ α : Type} {rules : Rules σ α} {strategy : Strategy} {now : Instant}
  {c c' : Coordinator σ α} {effect : Effect}

/-- The global weights are filled, and all updates of the round. -/
structure Filled (c : Coordinator σ α) : Prop where
  weights : Layers.Filled c.weights
  updates : ∀ entry ∈ c.round.updates, entry.2.Filled

theorem Filled.record (filled : c.Filled) {update : Update} (sent : update.Filled)
    (id : ParticipantId) : (c.record id update).Filled where
  weights := filled.weights
  updates := List.forall_mem_append.mpr ⟨filled.updates, List.forall_mem_singleton.mpr sent⟩

/-- An update of a round was there before, or it was just accepted. -/
theorem Transition.mem_updates (transition : Transition rules now c effect c')
    {entry : ParticipantId × Update} (member : entry ∈ c'.round.updates) :
    entry ∈ c.round.updates ∨ effect.accepted? = some entry := by
  cases transition with
  | opened => exact absurd member List.not_mem_nil
  | advanced => exact absurd member List.not_mem_nil
  | failed => exact absurd member List.not_mem_nil
  | finished => exact absurd member List.not_mem_nil
  | abandoned => exact absurd member List.not_mem_nil
  | recorded id update =>
    rcases List.mem_append.mp member with before | last
    · exact Or.inl before
    · exact Or.inr (congrArg some (List.mem_singleton.mp last).symm)
  | _ => exact Or.inl member

theorem combines (applies : rules.Applies strategy) (filled : c.Filled) {made : Weights}
    (aggregated : (c.aggregation rules).1 = .ok made) :
    made.Filled ∧ ∀ payload ∈ c.round.payloads, payload.1.shapes = made.shapes := by
  rw [aggregation, applies] at aggregated
  exact (strategy.aggregate_combines (Round.payloads_filled filled.updates)).shaped made aggregated

theorem Transition.filled (applies : rules.Applies strategy) (filled : c.Filled)
    (sent : ∀ id update, effect.accepted? = some (id, update) → update.Filled)
    (transition : Transition rules now c effect c') : c'.Filled where
  weights := by
    rcases transition.weights with ⟨same, _⟩ | ⟨id, update, accepted, _, _, aggregated⟩
    · rw [same]
      exact filled.weights
    · exact (combines applies (filled.record (sent id update accepted) id) aggregated).1
  updates := by
    intro entry member
    rcases transition.mem_updates member with before | accepted
    · exact filled.updates entry before
    · exact sent entry.1 entry.2 accepted

end Coordinator

namespace Situation
variable {σ α : Type} {rules : Rules σ α} {strategy : Strategy}

theorem final_filled (applies : rules.Applies strategy) {operations : List Operation}
    (sent : ∀ operation ∈ operations, ∀ id update,
      operation.submission? = some (id, update) → update.Filled)
    {s : Situation σ α} (filled : s.coordinator.Filled) :
    (s.final rules operations).coordinator.Filled ∧
      ∀ payloads ∈ (s.recording.final rules.recording operations).calls,
        ∀ payload ∈ payloads, Layers.Filled payload.1 := by
  -- Only the run with a record tells what the aggregator is given. Without the record it is the run.
  have recorded : (s.recording.final rules.recording operations).coordinator.Filled ∧
      ∀ payloads ∈ (s.recording.final rules.recording operations).calls,
        ∀ payload ∈ payloads, Layers.Filled payload.1 := by
    refine final_invariant (fun s : Situation σ (α × List Payloads) => s.coordinator.Filled ∧
      ∀ payloads ∈ s.calls, ∀ payload ∈ payloads, Layers.Filled payload.1) ?_
      ⟨⟨filled.weights, filled.updates⟩, nofun⟩
    rintro operation member s ⟨filled, given⟩
    obtain ⟨effect, shown⟩ := s.step_shows rules.recording operation
    have accepted : ∀ id update, effect.accepted? = some (id, update) → update.Filled := by
      intro id update taken
      exact sent operation member id update
        (Step.submission?_of_accepted? (shown.accepted.trans taken))
    refine ⟨shown.transition.filled applies.recording filled accepted, ?_⟩
    rcases shown.transition.calls with none | ⟨id, update, taken, _, _, _, called⟩
    · rw [calls, none]
      exact given
    · have recorded := filled.record (accepted id update taken) id
      have last := Round.payloads_filled recorded.updates
      rw [calls, called]
      exact List.forall_mem_append.mpr ⟨given, List.forall_mem_singleton.mpr last⟩
  have same : s.final rules operations = _ := final_unrecorded rules operations s.recording
  rw [same]
  exact ⟨⟨recorded.1.weights, recorded.1.updates⟩, recorded.2⟩

theorem shapes_of_aggregates (applies : rules.Applies strategy) {operations : List Operation}
    (sent : ∀ operation ∈ operations, ∀ id update,
      operation.submission? = some (id, update) → update.Filled)
    {s : Situation σ α} (filled : s.coordinator.Filled) (tallied : s.coordinator.round.Tallied)
    {step : Step σ α} (member : step ∈ s.steps rules operations) {id : ParticipantId}
    {update : Update} {made : Weights} (aggregates : step.Aggregates rules id update made) :
    step.after.coordinator.weights = made ∧
      ∀ entry ∈ (step.before.coordinator.record id update).round.updates,
        Layers.shapes entry.2.weights = made.shapes := by
  obtain ⟨first, operation, rest, rfl, rfl⟩ := exists_of_mem_steps member
  refine ⟨(step_of_aggregates aggregates).1, ?_⟩
  have before : ((s.final rules first).coordinator.record id update).Filled := by
    have earlier := final_filled applies (fun operation inside =>
      sent operation (List.mem_append_left _ inside)) filled
    exact earlier.1.record (sent operation (by simp) id update aggregates.submits) id
  -- As many submitted as were selected, so no update of the round is left out.
  have sound : ((s.final rules first).coordinator.record id update).round.Sound :=
    ((final_tallied first tallied).submit aggregates.admitted.selected aggregates.admitted.first
      update).sound aggregates.last
  have shaped := (Coordinator.combines applies before aggregates.aggregated).2
  intro entry inside
  exact shaped _ (sound.mem_payloads aggregates.last inside)

end Situation

section Runs
variable {σ : Type}

theorem tensors_stay_filled :
    (∀ text t, Json.decode? Tensor.ofJson? text = some t → t.Filled) ∧
    (∀ text weights, Json.decode? Weights.ofJson? text = some weights → Layers.Filled weights) ∧
    (∀ text update, Json.decode? Update.ofJson? text = some update → update.Filled) ∧
    ∀ (rules : Rules σ Unit) (strategy : Strategy) (registry : Registry) (weights : Weights)
      (selecting : σ) (opened : Outcome σ Unit Unit) (now : Instant) (operations : List Operation),
      let s : Situation σ Unit := ⟨now, opened.next⟩
      let recorded := s.recording.final rules.recording operations
      rules.aggregator = strategy.aggregator →
      rules.open registry weights selecting () = .ok opened → Layers.Filled weights →
      (∀ operation ∈ operations, ∀ id update, operation.submission? = some (id, update) →
        ∃ text, Json.decode? Update.ofJson? text = some update) →
      Layers.Filled (s.final rules operations).coordinator.weights ∧
        (∀ entry ∈ (s.final rules operations).coordinator.round.updates, entry.2.Filled) ∧
        (∀ step ∈ s.steps rules operations, ∀ id update made,
          step.Aggregates rules id update made →
            step.after.coordinator.weights = made ∧
              ∀ entry ∈ (step.before.coordinator.record id update).round.updates,
                Layers.shapes entry.2.weights = Layers.shapes made) ∧
        recorded.unrecorded = s.final rules operations ∧
        ∀ payloads ∈ recorded.calls,
          strategy.aggregateExactly? payloads = some (strategy.aggregate payloads) := by
  have decoded : ∀ text update, Json.decode? Update.ofJson? text = some update → update.Filled :=
    fun _ _ => Json.of_decode? Update.filled_of_ofJson?
  refine ⟨fun _ _ => Json.of_decode? Tensor.filled_of_ofJson?,
    fun _ _ => Json.of_decode? Weights.filled_of_ofJson?, decoded, ?_⟩
  intro rules strategy registry weights selecting opened now operations s recorded chosen starts
    begins read
  obtain ⟨_, rfl⟩ := Rules.open_eq_ok_iff.mp starts
  have applies : rules.Applies strategy := by
    intro state payloads
    rw [chosen]
    rfl
  have sent : ∀ operation ∈ operations, ∀ id update,
      operation.submission? = some (id, update) → update.Filled := by
    intro operation member id update submits
    obtain ⟨text, read⟩ := read operation member id update submits
    exact decoded text update read
  have filled : s.coordinator.Filled := ⟨begins, nofun⟩
  obtain ⟨⟨final, updates⟩, given⟩ := Situation.final_filled applies sent filled
  refine ⟨final, updates, ?_, (Situation.final_unrecorded rules operations s.recording).symm, ?_⟩
  · intro step member id update made aggregates
    exact Situation.shapes_of_aggregates applies sent filled Round.empty_sound.tallied member
      aggregates
  · intro payloads called
    exact (strategy.aggregate_combines (given payloads called)).found

namespace Trial

/-- A round over a layer without extents and one without elements, from weights without layers. -/
def oddRound : List Operation :=
  quorumMet ++ [.request (.endTraining ann sent), .request (.message bob (.endTraining sent))]

def oddPayloads : Payloads := [(sent.weights, 3), (sent.weights, 3)]

end Trial

theorem odd_shapes_aggregated :
    let s : Situation Unit Unit := ⟨0, Trial.opened.next⟩
    Trial.rules.aggregator = Strategy.federatedAveraging.aggregator ∧
      Trial.rules.open (.empty 10000 5000) [] () () = .ok Trial.opened ∧
      Layers.Filled ([] : Weights) ∧
      (∀ operation ∈ Trial.oddRound, ∀ id update, operation.submission? = some (id, update) →
        ∃ text, Json.decode? Update.ofJson? text = some update) ∧
      Layers.shapes (s.final Trial.rules Trial.oddRound).coordinator.weights = [[], [2, 0]] ∧
      Layers.Filled (s.final Trial.rules Trial.oddRound).coordinator.weights ∧
      (s.recording.final Trial.rules.recording Trial.oddRound).calls = [Trial.oddPayloads] ∧
      Strategy.federatedAveraging.aggregateExactly? Trial.oddPayloads =
        some (Strategy.federatedAveraging.aggregate Trial.oddPayloads) := by
  intro s
  have read : ∀ operation ∈ Trial.oddRound, ∀ id update,
      operation.submission? = some (id, update) →
        ∃ text, Json.decode? Update.ofJson? text = some update := by
    have weights : ∀ t ∈ Trial.sent.weights, t.Sendable := by decide +kernel
    have metrics : ∀ entry ∈ Trial.sent.metrics, ∀ t ∈ entry.2, t.Sendable := by decide +kernel
    have written : Json.decode? Update.ofJson? Trial.sent.toJson.render = some Trial.sent :=
      Json.decode?_render (Update.ofJson?_toJson weights metrics (by decide +kernel))
    intro operation member id update submits
    have all : Trial.oddRound.all fun operation =>
        operation.submission?.all fun entry => entry.2 = Trial.sent := by decide +kernel
    have same := List.all_eq_true.mp all operation member
    rw [submits] at same
    exact ⟨_, of_decide_eq_true same ▸ written⟩
  have shapes : Layers.shapes (s.final Trial.rules Trial.oddRound).coordinator.weights =
      [[], [2, 0]] := by decide +kernel
  have called : (s.recording.final Trial.rules.recording Trial.oddRound).calls =
      [Trial.oddPayloads] := by decide +kernel
  have given : Trial.oddPayloads ∈
      (s.recording.final Trial.rules.recording Trial.oddRound).calls := by
    rw [called]
    exact List.mem_singleton_self _
  obtain ⟨_, _, _, run⟩ := tensors_stay_filled (σ := Unit)
  obtain ⟨filled, _, _, _, found⟩ := run Trial.rules .federatedAveraging (.empty 10000 5000) [] ()
    Trial.opened 0 Trial.oddRound rfl Trial.starts nofun read
  have kept : Layers.Filled (s.final Trial.rules Trial.oddRound).coordinator.weights := by
    unfold s
    exact filled
  exact ⟨rfl, Trial.starts, nofun, read, shapes, kept, called, found Trial.oddPayloads given⟩

end Runs
end FederatedRounds
