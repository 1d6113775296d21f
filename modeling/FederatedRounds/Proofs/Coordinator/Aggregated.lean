import FederatedRounds.Proofs.Coordinator.Attempt
import FederatedRounds.Proofs.Coordinator.Recording
import FederatedRounds.Proofs.Round
import FederatedRounds.Proofs.Selection

/-! What is aggregated. Whenever the aggregator is called, it is given one payload for each selected
participant, in the order of the selection: that of the only update of the participant that was
accepted since the round was opened. Others may change the registry meanwhile. -/
namespace FederatedRounds

/-- In the given steps each of the participants had one update accepted, and these are the payloads,
in the order of the participants. -/
def AcceptedOnce {σ α : Type} (steps : List (Step σ α)) (ids : List ParticipantId)
    (payloads : Payloads) : Prop :=
  List.Forall₂ (fun id payload => ∃ update,
    (steps.filterMap Step.accepted?).filter (fun entry => entry.1 = id) = [(id, update)] ∧
      payload = (update.weights, update.weight)) ids payloads

theorem Round.Sound.payloads_forall₂ {r : Round} (sound : r.Sound)
    (complete : r.isFinished = true) :
    List.Forall₂ (fun id payload => ∃ update,
      r.updates.filter (fun entry => entry.1 = id) = [(id, update)] ∧
        payload = (update.weights, update.weight)) r.selected r.payloads := by
  rw [payloads, List.forall₂_map_right_iff]
  refine (sound.inSelectionOrder_forall₂ complete).imp ?_
  intro id entry only
  have member : entry ∈ r.updates.filter (fun entry => entry.1 = id) := by
    rw [only]
    exact List.mem_singleton_self _
  have same : entry.1 = id := of_decide_eq_true (List.mem_filter.mp member).2
  exact ⟨entry.2, by rw [only, ← same], rfl⟩

namespace Coordinator
variable {σ α : Type} {rules : Rules σ α} {now : Instant} {effect : Effect}

theorem openRound_sound (selects : rules.selector.Exact) (c : Coordinator σ α) :
    (openRound rules c).1.round.Sound :=
  Round.start_sound
    (selects.selectFraction_nodup c.selecting c.registry.once rules.config.fraction)

theorem Admits.record_sound {c : Coordinator σ α} {id : ParticipantId} (admitted : c.Admits id)
    (sound : c.round.Sound) (update : Update) : (c.record id update).round.Sound :=
  sound.submit admitted.selected admitted.first update

theorem Transition.sound {c c' : Coordinator σ α} (selects : rules.selector.Exact)
    (sound : c.round.Sound) (transition : Transition rules now c effect c') : c'.round.Sound := by
  cases transition with
  | opened => exact openRound_sound selects _
  | advanced => exact openRound_sound selects _
  | recorded id update admitted => exact admitted.record_sound sound update
  | failed => exact Round.empty_sound
  | finished => exact Round.empty_sound
  | abandoned => exact Round.empty_sound
  | _ => exact sound

/-- The aggregator is called when the last missing update is taken, once, and with the payloads of
the round. -/
theorem Transition.calls {c c' : Coordinator σ (α × List Payloads)}
    (transition : Transition rules.recording now c effect c') :
    c'.aggregating.2 = c.aggregating.2 ∨
      ∃ id update, effect.accepted? = some (id, update) ∧ c.Admits id ∧
        (c.record id update).round.isFinished = true ∧
        (effect.opensRound = true ∨ c'.phase = .finished) ∧
        c'.aggregating.2 = c.aggregating.2 ++ [(c.record id update).round.payloads] := by
  cases transition with
  | failed id update error admitted last =>
    exact Or.inr ⟨id, update, rfl, admitted, last, Or.inr rfl, rfl⟩
  | finished id update weights admitted last =>
    exact Or.inr ⟨id, update, rfl, admitted, last, Or.inr rfl, rfl⟩
  | advanced id update weights admitted last =>
    exact Or.inr ⟨id, update, rfl, admitted, last, Or.inl rfl, rfl⟩
  | _ => exact Or.inl rfl

end Coordinator

section Runs
variable {σ α : Type} {rules : Rules σ α}

theorem Situation.final_sound (selects : rules.selector.Exact) (operations : List Operation)
    {s : Situation σ α} (sound : s.coordinator.round.Sound) :
    (s.final rules operations).coordinator.round.Sound := by
  refine final_invariant (fun s => s.coordinator.round.Sound) ?_ sound
  intro operation _ s kept
  obtain ⟨effect, shown⟩ := s.step_shows rules operation
  exact shown.transition.sound selects kept

/-- The updates of the attempt, the last one included, are what the aggregator is given. -/
theorem Step.Shows.calls {history : List (Step σ (α × List Payloads))}
    {step : Step σ (α × List Payloads)} {effect : Effect}
    (shown : step.Shows rules.recording effect) (sound : step.before.coordinator.round.Sound)
    (follows : step.before.coordinator.Follows history) :
    step.after.calls = step.before.calls ∨ ∃ payloads,
      step.after.calls = step.before.calls ++ [payloads] ∧
      step.before.coordinator.phase = .round ∧
      AcceptedOnce (attempt history ++ [step]) step.before.coordinator.round.selected payloads := by
  rcases shown.transition.calls with none | ⟨id, update, accepted, admitted, last, _, called⟩
  · exact Or.inl none
  refine Or.inr ⟨_, called, admitted.running, ?_⟩
  unfold AcceptedOnce
  rw [follows.updates_record admitted.running (shown.accepted.trans accepted)]
  exact (admitted.record_sound sound update).payloads_forall₂ last

/-- A step that calls the aggregator or abandons a round ends an attempt. -/
theorem Step.Shows.ends {step : Step σ (α × List Payloads)} {effect : Effect}
    (shown : step.Shows rules.recording effect)
    (ending : step.after.calls ≠ step.before.calls ∨ step.abandonsRound = true) :
    step.opensRound = true ∨ step.after.coordinator.phase ≠ .round := by
  rcases ending with called | abandons
  · rcases shown.transition.calls with none | ⟨_, _, _, _, _, ends, _⟩
    · exact absurd none called
    · rcases ends with opens | ended
      · exact Or.inl (shown.opens.trans opens)
      · exact Or.inr (by rw [ended]; decide)
  · have waits := shown.transition.standBy_of_abandons (shown.abandons.symm.trans abandons)
    exact Or.inr (by rw [waits]; decide)

private theorem suffix_of_not_mem {τ : Type} {last first rest : List τ} {x : τ}
    (suffix : last <:+ first ++ x :: rest) (absent : x ∉ last) : last <:+ rest := by
  induction first with
  | nil =>
    rcases List.suffix_cons_iff.mp suffix with all | inside
    · exact absurd (all ▸ List.mem_cons_self) absent
    · exact inside
  | cons head first ih =>
    rcases List.suffix_cons_iff.mp suffix with all | inside
    · exact absurd (all ▸ by simp) absent
    · exact ih inside

theorem aggregates_each_accepted_update_once (selects : rules.selector.Exact)
    {registry : Registry} {weights : Weights} {selecting : σ} {aggregating : α}
    {opened : Outcome σ α Unit}
    (starts : rules.open registry weights selecting aggregating = .ok opened) (now : Instant)
    (operations : List Operation) :
    let s : Situation σ α := ⟨now, opened.next⟩
    (s.recording.run rules.recording operations).1 = (s.run rules operations).1 ∧
      (s.recording.final rules.recording operations).unrecorded = s.final rules operations ∧
      ∀ earlier step later,
        s.recording.steps rules.recording operations = earlier ++ step :: later →
        step.after.calls = step.before.calls ∨ ∃ payloads,
          step.after.calls = step.before.calls ++ [payloads] ∧
          step.before.coordinator.round.selected.Nodup ∧
          AcceptedOnce (attempt earlier ++ [step]) step.before.coordinator.round.selected
            payloads ∧
          ∀ first other rest, earlier = first ++ other :: rest →
            other.after.calls ≠ other.before.calls ∨ other.abandonsRound = true →
            attempt earlier <:+ rest := by
  obtain ⟨_, rfl⟩ := Rules.open_eq_ok_iff.mp starts
  intro s
  have same := Situation.run_unrecorded rules operations s.recording
  refine ⟨(congrArg Prod.fst same).symm, (congrArg Prod.snd same).symm, ?_⟩
  intro earlier step later split
  obtain ⟨before, operation, _, _, rfl, rfl, _⟩ := Situation.steps_eq_append split
  obtain ⟨effect, shown⟩ :=
    (s.recording.final rules.recording before).step_shows rules.recording operation
  have follows : (s.recording.final rules.recording before).coordinator.Follows _ :=
    Situation.final_follows before nofun
  have kept : rules.recording.selector.Exact := selects
  have sound : (s.recording.final rules.recording before).coordinator.round.Sound :=
    Situation.final_sound kept before Round.empty_sound
  rcases shown.calls sound follows with none | ⟨payloads, called, runs, accepted⟩
  · exact Or.inl none
  refine Or.inr ⟨payloads, called, sound.distinct, accepted, ?_⟩
  intro first other rest cut ending
  obtain ⟨others, middle, _, _, _, here, _⟩ := Situation.steps_eq_append cut
  obtain ⟨_, ended⟩ :=
    (s.recording.final rules.recording others).step_shows rules.recording middle
  rw [← here] at ended
  have absent := not_mem_attempt (follows runs).2 (ended.ends ending)
  have suffix := attempt_suffix (s.recording.steps rules.recording before)
  rw [cut] at suffix absent ⊢
  exact suffix_of_not_mem suffix absent

/-- The update of the abandoned attempt is not aggregated; the two of the second attempt are. -/
theorem second_attempt_aggregated :
    let s : Situation Unit Unit := ⟨0, Trial.opened.next⟩
    let earlier := s.recording.steps Trial.rules.recording Trial.reopened
    let step := (s.recording.final Trial.rules.recording Trial.reopened).step
      Trial.rules.recording Trial.completion
    Trial.rules.selector.Exact ∧
      Trial.rules.open (.empty 10000 5000) [] () () = .ok Trial.opened ∧
      s.recording.steps Trial.rules.recording (Trial.reopened ++ [Trial.completion]) =
        earlier ++ [step] ∧
      step.after.calls = [[([], 3), ([], 2)]] ∧
      AcceptedOnce (attempt earlier ++ [step]) [Trial.ann, Trial.bob] [([], 3), ([], 2)] := by
  intro s earlier step
  have split : s.recording.steps Trial.rules.recording (Trial.reopened ++ [Trial.completion]) =
      earlier ++ [step] := Situation.steps_append _ _ _
  have before : step.before.calls = [] ∧ step.after.calls = [[([], 3), ([], 2)]] ∧
      step.before.coordinator.round.selected = [Trial.ann, Trial.bob] := by decide +kernel
  obtain ⟨_, _, steps⟩ := aggregates_each_accepted_update_once Selector.order_exact Trial.starts 0
    (Trial.reopened ++ [Trial.completion])
  rcases steps _ _ _ split with none | ⟨payloads, called, _, accepted, _⟩
  · rw [before.1, before.2.1] at none
    cases none
  · rw [before.1, before.2.1, List.nil_append] at called
    rw [before.2.2, ← List.singleton_inj.mp called] at accepted
    exact ⟨Selector.order_exact, Trial.starts, split, before.2.1, accepted⟩

end Runs
end FederatedRounds
