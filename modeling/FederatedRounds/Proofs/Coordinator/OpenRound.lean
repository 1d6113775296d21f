import FederatedRounds.Proofs.Aggregation
import FederatedRounds.Proofs.Coordinator.Aggregated
import FederatedRounds.Proofs.Coordinator.Failure

/-! What the round of a session is at any time, whatever others do to the registry. While it runs,
somebody is selected and some selected participant is missing; at all other times nobody is selected
and nothing is recorded. The aggregator is therefore never called without an update. -/
namespace FederatedRounds

theorem Round.Sound.payloads_ne_nil {r : Round} (sound : r.Sound) (complete : r.isFinished = true)
    {id : ParticipantId} (selected : r.isSelected id = true) : r.payloads ≠ [] := by
  intro none
  have each := sound.payloads_forall₂ complete
  rw [none, List.forall₂_nil_right_iff] at each
  have member : id ∈ r.selected := of_decide_eq_true selected
  rw [each] at member
  exact absurd member List.not_mem_nil

namespace Answer
variable {error : CoordinatorError}

theorem error?_heartbeat_iff {result : Except CoordinatorError Heartbeat} :
    (heartbeat result).error? = some error ↔ result = .error error := by
  cases result <;> simp [error?]

theorem error?_startTraining_iff {result : Except CoordinatorError TrainingTask} :
    (startTraining result).error? = some error ↔ result = .error error := by
  cases result <;> simp [error?]

theorem error?_endTraining_iff {result : Except CoordinatorError Unit} :
    (endTraining result).error? = some error ↔ result = .error error := by
  cases result <;> simp [error?]

theorem error?_message_iff {result : Except CoordinatorError Response} :
    (message result).error? = some error ↔ result = .error error := by
  cases result <;> simp [error?]

end Answer

namespace Coordinator
variable {σ α : Type} {rules : Rules σ α} {now : Instant} {c c' : Coordinator σ α} {effect : Effect}

/-- With anyone registered, somebody is selected. -/
theorem openRound_lacking (selects : rules.selector.Exact) (present : 1 ≤ c.registry.size) :
    (openRound rules c).1.round.updates.length < (openRound rules c).1.round.selected.length := by
  have share : (openRound rules c).1.round.selected.length =
      selectionSize c.registry.ids.length rules.config.fraction :=
    selects.selectFraction_length c.selecting c.registry.once rules.config.fraction
  rw [share, Registry.length_ids]
  exact one_le_selectionSize present rules.config.fraction

theorem Transition.lacking (selects : rules.selector.Exact)
    (lacking : c.phase = .round → c.round.updates.length < c.round.selected.length)
    (transition : Transition rules now c effect c') :
    c'.phase = .round → c'.round.updates.length < c'.round.selected.length := by
  intro runs
  cases transition with
  -- Whoever was removed behind the back of the session, the participant that opens the round by
  -- joining or submitting is registered.
  | opened id absent room reached waiting =>
    have present : 1 ≤ (c.registry.add now id).size := by
      rw [c.registry.size_add now id absent]
      exact Nat.succ_pos _
    exact openRound_lacking (c := { c with registry := c.registry.add now id }) selects present
  | recorded id update admitted missing =>
    have waits := lacking runs
    have differs : (c.record id update).round.updates.length ≠
        (c.record id update).round.selected.length := of_decide_eq_false missing
    have grown : (c.record id update).round.updates.length = c.round.updates.length + 1 :=
      List.length_append
    have same : (c.record id update).round.selected.length = c.round.selected.length := rfl
    omega
  | failed => cases runs
  | finished => cases runs
  | advanced id update weights admitted =>
    exact openRound_lacking selects (c.registry.one_le_size admitted.registered)
  | abandoned => cases runs
  | _ => exact lacking runs

theorem Transition.idle (idle : c.phase ≠ .round → c.round = .empty)
    (transition : Transition rules now c effect c') : c'.phase ≠ .round → c'.round = .empty := by
  intro elsewhere
  cases transition with
  | opened => exact absurd rfl elsewhere
  | recorded id update admitted => exact absurd admitted.running elsewhere
  | advanced id update weights admitted => exact absurd admitted.running elsewhere
  | failed => rfl
  | finished => rfl
  | abandoned => rfl
  | _ => exact idle elsewhere

theorem endTraining_failed {id : ParticipantId} {update : Update} {cause : AggregationError}
    (failed : (c.endTraining rules id update).reply = .error (.aggregation cause)) :
    c.Admits id ∧ (c.record id update).round.isFinished = true ∧
      ((c.record id update).aggregation rules).1 = .error cause := by
  have comes := endTraining_submission rules c id update
  rw [failed] at comes
  generalize (c.endTraining rules id update).next = left at comes
  cases comes with
  | refused _ refusal => cases isRefusal_of_refusal? refusal
  | failed _ admitted last refused => exact ⟨admitted, last, refused⟩

/-- A failed aggregation is that of a round which the request completed. -/
theorem handle_failed {request : Request} {cause : AggregationError}
    (failed : (c.handle rules now request).reply.error? = some (.aggregation cause)) :
    ∃ id update, c.Admits id ∧ (c.record id update).round.isFinished = true ∧
      ((c.record id update).aggregation rules).1 = .error cause := by
  cases request with
  | heartbeat id => cases (heartbeat_error (Answer.error?_heartbeat_iff.mp failed)).1
  | startTraining id =>
    have refused := startTraining_error_iff.mp (Answer.error?_startTraining_iff.mp failed)
    cases isRefusal_of_refusal? refused
  | endTraining id update =>
    exact ⟨id, update, endTraining_failed (Answer.error?_endTraining_iff.mp failed)⟩
  | message id message =>
    obtain ⟨update, rfl, _⟩ := onMessage_failed (Answer.error?_message_iff.mp failed)
    have alone : (Answer.endTraining (c.endTraining rules id update).reply).error? =
        some (.aggregation cause) := (Answer.error?_message _).symm.trans failed
    exact ⟨id, update, endTraining_failed (Answer.error?_endTraining_iff.mp alone)⟩
  | _ => cases failed

end Coordinator

section Runs
variable {σ α : Type} {rules : Rules σ α}

theorem Situation.final_lacking (selects : rules.selector.Exact) (operations : List Operation)
    {s : Situation σ α} (lacking : s.coordinator.phase = .round →
      s.coordinator.round.updates.length < s.coordinator.round.selected.length) :
    let c := (s.final rules operations).coordinator
    c.phase = .round → c.round.updates.length < c.round.selected.length := by
  refine final_invariant (fun s => s.coordinator.phase = .round →
    s.coordinator.round.updates.length < s.coordinator.round.selected.length) ?_ lacking
  intro operation _ s kept
  obtain ⟨effect, shown⟩ := s.step_shows rules operation
  exact shown.transition.lacking selects kept

theorem Situation.final_idle (operations : List Operation) {s : Situation σ α}
    (idle : s.coordinator.phase ≠ .round → s.coordinator.round = .empty) :
    (s.final rules operations).coordinator.phase ≠ .round →
      (s.final rules operations).coordinator.round = .empty := by
  refine final_invariant (fun s => s.coordinator.phase ≠ .round → s.coordinator.round = .empty)
    ?_ idle
  intro operation _ s kept
  obtain ⟨effect, shown⟩ := s.step_shows rules operation
  exact shown.transition.idle kept

/-- Who completes a round is selected for it, so that the aggregator has an update to work on. -/
theorem Situation.final_calls_ne_nil (selects : rules.selector.Exact)
    (operations : List Operation) {s : Situation σ (α × List Payloads)}
    (sound : s.coordinator.round.Sound) (start : ∀ payloads ∈ s.calls, payloads ≠ []) :
    ∀ payloads ∈ (s.final rules.recording operations).calls, payloads ≠ [] := by
  have kept : rules.recording.selector.Exact := selects
  refine (final_invariant (fun s => s.coordinator.round.Sound ∧
    ∀ payloads ∈ s.calls, payloads ≠ []) ?_ ⟨sound, start⟩).2
  intro operation _ s ⟨sound, nonempty⟩
  obtain ⟨effect, shown⟩ := s.step_shows rules.recording operation
  refine ⟨shown.transition.sound kept sound, ?_⟩
  change ∀ payloads ∈ (s.step rules.recording operation).after.coordinator.aggregating.2, _
  rcases shown.transition.calls with none | ⟨id, update, _, admitted, last, _, called⟩
  · rw [none]
    exact nonempty
  · rw [called]
    refine List.forall_mem_append.mpr ⟨nonempty, ?_⟩
    rw [List.forall_mem_singleton]
    exact (admitted.record_sound sound update).payloads_ne_nil last admitted.selected

theorem Situation.step_failed {s : Situation σ α} {operation : Operation}
    {cause : AggregationError}
    (failed : (s.step rules operation).error? = some (.aggregation cause)) :
    ∃ id update, s.coordinator.Admits id ∧
      (s.coordinator.record id update).round.isFinished = true ∧
      ((s.coordinator.record id update).aggregation rules).1 = .error cause := by
  cases operation with
  | request request => exact Coordinator.handle_failed failed
  | _ => cases failed

theorem running_round_lacks_update (selects : rules.selector.Exact) {registry : Registry}
    {weights : Weights} {selecting : σ} {aggregating : α} {opened : Outcome σ α Unit}
    (starts : rules.open registry weights selecting aggregating = .ok opened) (now : Instant)
    (operations : List Operation) :
    let s : Situation σ α := ⟨now, opened.next⟩
    let c := (s.final rules operations).coordinator
    (c.phase = .round →
        c.round.selected ≠ [] ∧ c.round.selected.Nodup ∧
          (∀ entry ∈ c.round.updates, entry.1 ∈ c.round.selected) ∧
          c.round.updates.length < c.round.selected.length) ∧
      (c.phase ≠ .round → c.round.selected = [] ∧ c.round.updates = []) ∧
      (s.recording.run rules.recording operations).1 = (s.run rules operations).1 ∧
      (∀ payloads ∈ (s.recording.final rules.recording operations).calls, payloads ≠ []) ∧
      ((∀ state payloads, (rules.aggregator.aggregate state payloads).1 = .error .noUpdates →
          payloads = []) →
        ∀ step ∈ s.steps rules operations, step.error? ≠ some (.aggregation .noUpdates)) ∧
      ∀ (strategy : Strategy) state payloads,
        (strategy.aggregator.aggregate state payloads).1 = .error .noUpdates →
          payloads = [] := by
  obtain ⟨_, rfl⟩ := Rules.open_eq_ok_iff.mp starts
  intro s c
  have sound : c.round.Sound := Situation.final_sound selects operations Round.empty_sound
  refine ⟨?_, ?_, ?_, ?_, ?_, ?_⟩
  · intro runs
    have lacking := Situation.final_lacking (s := s) selects operations nofun runs
    refine ⟨?_, sound.distinct, ?_, lacking⟩
    · exact List.length_pos_iff.mp (Nat.lt_of_le_of_lt (Nat.zero_le _) lacking)
    · intro entry member
      exact sound.chosen (List.mem_map_of_mem member)
  · intro elsewhere
    have none : c.round = .empty := Situation.final_idle operations (fun _ => rfl) elsewhere
    rw [none]
    exact ⟨rfl, rfl⟩
  · exact (congrArg Prod.fst (Situation.run_unrecorded rules operations s.recording)).symm
  · exact Situation.final_calls_ne_nil selects operations Round.empty_sound
      fun _ member => absurd member List.not_mem_nil
  · intro complains step member failed
    obtain ⟨earlier, later, split⟩ := List.append_of_mem member
    obtain ⟨before, operation, _, _, _, rfl, _⟩ := Situation.steps_eq_append split
    obtain ⟨id, update, admitted, last, refused⟩ := Situation.step_failed failed
    have whole := admitted.record_sound
      (Situation.final_sound selects before Round.empty_sound) update
    exact whole.payloads_ne_nil last admitted.selected (complains _ _ refused)
  · intro strategy state payloads failed
    exact Strategy.aggregate_noUpdates failed

end Runs

namespace Trial

/-- Others remove everybody while the first round runs, and bring Bob back for his update. -/
def deserted : List Operation :=
  quorumMet ++ [.request (.endTraining ann (update 1)), .registry (.remove ann),
    .registry (.remove bob), .registry (.add bob), .request (.endTraining bob (update 1))]

def bobAlone : Coordinator Unit Unit :=
  ((⟨0, opened.next⟩ : Situation Unit Unit).final rules deserted).coordinator

end Trial

/-- The first round is aggregated, and the second one starts with Bob alone. -/
theorem second_round_selects_who_is_left :
    let s : Situation Unit Unit := ⟨0, Trial.opened.next⟩
    Trial.rules.selector.Exact ∧
      Trial.rules.open (.empty 10000 5000) [] () () = .ok Trial.opened ∧
      Trial.bobAlone.phase = .round ∧ Trial.bobAlone.current = 1 ∧
      Trial.bobAlone.registry.ids = [Trial.bob] ∧
      Trial.bobAlone.round.selected = [Trial.bob] ∧ Trial.bobAlone.round.updates.length < 1 ∧
      (s.recording.final Trial.rules.recording Trial.deserted).calls = [[([], 1), ([], 1)]] ∧
      ∀ step ∈ s.steps Trial.rules Trial.deserted,
        step.error? ≠ some (.aggregation .noUpdates) := by
  intro s
  obtain ⟨runs, _, _, _, never, strategies⟩ :=
    running_round_lacks_update Selector.order_exact Trial.starts 0 Trial.deserted
  rw [← Trial.bobAlone] at runs
  have second : Trial.bobAlone.phase = .round ∧ Trial.bobAlone.current = 1 ∧
      Trial.bobAlone.registry.ids = [Trial.bob] ∧
      Trial.bobAlone.round.selected = [Trial.bob] := by decide +kernel
  obtain ⟨running, current, left, selected⟩ := second
  obtain ⟨_, _, _, lacking⟩ := runs running
  rw [selected, List.length_singleton] at lacking
  exact ⟨Selector.order_exact, Trial.starts, running, current, left, selected, lacking,
    by decide +kernel, never (strategies .federatedAveraging)⟩

end FederatedRounds
