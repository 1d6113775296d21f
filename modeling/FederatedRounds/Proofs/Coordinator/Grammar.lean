import FederatedRounds.Proofs.Coordinator.Aggregated
import FederatedRounds.Proofs.Coordinator.Trace

/-! The grammar of the events. An accepted update asks for the weights of its participant. When it
completes a round and its aggregation succeeds, the metrics of all selected participants follow, as
they were sent in this attempt at the round, and then the new weights. Nothing else is emitted, so
that no metrics of an abandoned round come out. -/
namespace FederatedRounds

section Runs
variable {σ α : Type} {rules : Rules σ α}

/-- The only update of each of the participants that was accepted in the given steps. -/
def Gathered (steps : List (Step σ α)) (ids : List ParticipantId)
    (entries : List (ParticipantId × Update)) : Prop :=
  List.Forall₂ (fun id entry =>
    (steps.filterMap Step.accepted?).filter (fun other => other.1 = id) = [entry]) ids entries

/-- The events of a step, given the steps before it. -/
inductive Step.Emits (rules : Rules σ α) (earlier : List (Step σ α)) (step : Step σ α) :
    List Event → Prop
  | nothing (ignored : step.accepted? = none) : Emits rules earlier step []
  | update (id : ParticipantId) (update : Update) (accepted : step.accepted? = some (id, update))
      (waits : step.before.coordinator.round.missing ≠ [id]) :
      Emits rules earlier step [.readLocalWeights id step.before.coordinator.current]
  | failure (id : ParticipantId) (update : Update) (entries : List (ParticipantId × Update))
      (error : AggregationError) (accepted : step.accepted? = some (id, update))
      (last : step.before.coordinator.round.missing = [id])
      (gathered : Gathered (attempt earlier ++ [step]) step.before.coordinator.round.selected
        entries)
      (refused : (rules.aggregator.aggregate step.before.coordinator.aggregating
        (entries.map fun (_, update) => (update.weights, update.weight))).1 = .error error) :
      Emits rules earlier step [.readLocalWeights id step.before.coordinator.current]
  | completion (id : ParticipantId) (update : Update) (entries : List (ParticipantId × Update))
      (weights : Weights) (accepted : step.accepted? = some (id, update))
      (last : step.before.coordinator.round.missing = [id])
      (gathered : Gathered (attempt earlier ++ [step]) step.before.coordinator.round.selected
        entries)
      (ongoing : ∀ other ∈ attempt earlier, other.after.coordinator.phase = .round)
      (aggregated : (rules.aggregator.aggregate step.before.coordinator.aggregating
        (entries.map fun (_, update) => (update.weights, update.weight))).1 = .ok weights) :
      Emits rules earlier step
        (.readLocalWeights id step.before.coordinator.current ::
          (entries.map (fun (id, update) => .writeMetrics id update.metrics) ++
            [.writeGlobalWeights step.before.coordinator.current weights]))

theorem Coordinator.Admits.missing_eq {c : Coordinator σ α} {id : ParticipantId} {update : Update}
    (admitted : c.Admits id) (sound : c.round.Sound)
    (last : (c.record id update).round.isFinished = true) : c.round.missing = [id] :=
  sound.tallied.missing_eq admitted.selected admitted.first last

theorem Step.Shows.emits {history : List (Step σ α)} {step : Step σ α} {effect : Effect}
    (shown : step.Shows rules effect) (sound : step.before.coordinator.round.Sound)
    (follows : step.before.coordinator.Follows history) :
    step.Emits rules history step.emitted := by
  have gathers : ∀ id update, step.accepted? = some (id, update) →
      step.before.coordinator.Admits id →
      (step.before.coordinator.record id update).round.isFinished = true →
      Gathered (attempt history ++ [step]) step.before.coordinator.round.selected
        (step.before.coordinator.record id update).round.inSelectionOrder := by
    intro id update accepted admitted last
    unfold Gathered
    rw [follows.updates_record admitted.running accepted]
    exact (admitted.record_sound sound update).inSelectionOrder_forall₂ last
  have accepted := shown.accepted
  have transition := shown.transition
  rw [shown.emitted]
  generalize step.after.coordinator = c' at transition ⊢
  cases transition with
  | recorded id update admitted missing =>
    refine .update id update accepted ?_
    intro last
    have absent : id ∈ step.before.coordinator.round.missing := by
      rw [last]
      exact List.mem_singleton_self _
    have complete := (sound.isFinished_submit_iff absent update).mpr last
    exact absurd (missing.symm.trans complete) Bool.false_ne_true
  | failed id update error admitted last refused =>
    exact .failure id update _ error accepted (admitted.missing_eq sound last)
      (gathers id update accepted admitted last) refused
  | finished id update weights admitted last aggregated =>
    exact .completion id update _ weights accepted (admitted.missing_eq sound last)
      (gathers id update accepted admitted last) (follows admitted.running).2 aggregated
  | advanced id update weights admitted last aggregated =>
    exact .completion id update _ weights accepted (admitted.missing_eq sound last)
      (gathers id update accepted admitted last) (follows admitted.running).2 aggregated
  | _ => exact .nothing accepted

theorem Gathered.accepted {steps : List (Step σ α)} {ids : List ParticipantId}
    {entries : List (ParticipantId × Update)} (gathered : Gathered steps ids entries)
    {entry : ParticipantId × Update} (member : entry ∈ entries) :
    entry ∈ steps.filterMap Step.accepted? := by
  induction gathered with
  | nil => cases member
  | cons only _ ih =>
    rcases List.mem_cons.mp member with rfl | inside
    · exact List.mem_of_mem_filter (only ▸ List.mem_singleton_self _)
    · exact ih inside

/-- Metrics come out with the weights of their round, and of an attempt that nothing ended. -/
theorem Step.Emits.of_writeMetrics {earlier : List (Step σ α)} {step : Step σ α}
    {events : List Event} (emits : step.Emits rules earlier events) {id : ParticipantId}
    {metrics : Metrics} (member : .writeMetrics id metrics ∈ events) :
    (∃ update, (id, update) ∈ (attempt earlier ++ [step]).filterMap Step.accepted? ∧
        update.metrics = metrics) ∧
      (∀ other ∈ attempt earlier, other.after.coordinator.phase = .round) ∧
      ∃ weights, .writeGlobalWeights step.before.coordinator.current weights ∈ events := by
  cases emits with
  | nothing => cases member
  | update => simp at member
  | failure => simp at member
  | completion last update entries weights accepted _ gathered ongoing =>
    have written : Event.writeMetrics id metrics ∈
        entries.map (fun (id, update) => Event.writeMetrics id update.metrics) := by
      simpa using member
    obtain ⟨⟨sender, sent⟩, inside, same⟩ := List.mem_map.mp written
    obtain ⟨rfl, rfl⟩ := Event.writeMetrics.inj same
    exact ⟨⟨sent, gathered.accepted inside, rfl⟩, ongoing, weights, by simp⟩

theorem events_follow_accepted_updates (selects : rules.selector.Exact) {registry : Registry}
    {weights : Weights} {selecting : σ} {aggregating : α} {opened : Outcome σ α Unit}
    (starts : rules.open registry weights selecting aggregating = .ok opened) (now : Instant)
    (operations : List Operation) :
    let s : Situation σ α := ⟨now, opened.next⟩
    let c := (s.final rules operations).coordinator
    let written := s.written rules operations
    s.trace rules operations = (s.steps rules operations).flatMap Step.emitted ∧
      (∀ earlier step later, s.steps rules operations = earlier ++ step :: later →
        step.Emits rules earlier step.emitted) ∧
      written.map (·.1.toNat) = List.range written.length ∧
      (written.length = c.current.toNat ∨
        c.phase = .finished ∧ written.length = c.current.toNat + 1) ∧
      c.weights = (written.getLast?.map (·.2)).getD weights ∧
      ∀ id metrics, .writeMetrics id metrics ∈ s.trace rules operations →
        ∃ earlier step later, s.steps rules operations = earlier ++ step :: later ∧
          (∃ update, (id, update) ∈ (attempt earlier ++ [step]).filterMap Step.accepted? ∧
            update.metrics = metrics) ∧
          (∀ other ∈ attempt earlier, other.after.coordinator.phase = .round) ∧
          ∃ weights,
            .writeGlobalWeights step.before.coordinator.current weights ∈ step.emitted := by
  obtain ⟨valid, rfl⟩ := Rules.open_eq_ok_iff.mp starts
  intro s c written
  have whole : s.trace rules operations = (s.steps rules operations).flatMap Step.emitted :=
    Situation.trace_eq operations s
  have each : ∀ earlier step later, s.steps rules operations = earlier ++ step :: later →
      step.Emits rules earlier step.emitted := by
    intro earlier step later split
    obtain ⟨before, operation, _, _, rfl, rfl, _⟩ := Situation.steps_eq_append split
    obtain ⟨effect, shown⟩ := (s.final rules before).step_shows rules operation
    exact shown.emits (Situation.final_sound selects before Round.empty_sound)
      (Situation.final_follows before nofun)
  have published : c.Published weights written :=
    Situation.final_published valid operations (Coordinator.initial_bookkept valid _ _ _ _)
      (Coordinator.initial_published _ _ _ _)
  refine ⟨whole, each, published.numbered, published.counted, published.latest, ?_⟩
  intro id metrics member
  rw [whole] at member
  obtain ⟨step, inside, emitted⟩ := List.mem_flatMap.mp member
  obtain ⟨earlier, later, split⟩ := List.append_of_mem inside
  exact ⟨earlier, step, later, split, (each earlier step later split).of_writeMetrics emitted⟩

end Runs

namespace Trial

def report (metric : String) : Update := ⟨[], 1, [(metric, [])]⟩

/-- Ann reports twice, because Bob left after her first report. -/
def reports : List Operation :=
  quorumMet ++ [.request (.endTraining ann (report "early")), .takeEvent, .request (.remove bob),
    .request (.rendezvous bob), .request (.endTraining bob (report "loss")),
    .request (.message ann (.endTraining (report "late")))]

end Trial

/-- Of the two reports of Ann, only the one in the second attempt comes out, and before Bob's. -/
theorem early_report_withheld :
    let s : Situation Unit Unit := ⟨0, Trial.opened.next⟩
    Trial.rules.selector.Exact ∧
      Trial.rules.open (.empty 10000 5000) [] () () = .ok Trial.opened ∧
      (s.steps Trial.rules Trial.reports).flatMap Step.emitted =
        [.readLocalWeights Trial.ann 0, .readLocalWeights Trial.bob 0,
          .readLocalWeights Trial.ann 0, .writeMetrics Trial.ann [("late", [])],
          .writeMetrics Trial.bob [("loss", [])], .writeGlobalWeights 0 []] ∧
      (s.final Trial.rules Trial.reports).coordinator.weights = [] := by
  intro s
  obtain ⟨whole, _, _, _, latest, _⟩ :=
    events_follow_accepted_updates Selector.order_exact Trial.starts 0 Trial.reports
  have trace : s.trace Trial.rules Trial.reports =
      [.readLocalWeights Trial.ann 0, .readLocalWeights Trial.bob 0,
        .readLocalWeights Trial.ann 0, .writeMetrics Trial.ann [("late", [])],
        .writeMetrics Trial.bob [("loss", [])], .writeGlobalWeights 0 []] := by decide +kernel
  refine ⟨Selector.order_exact, Trial.starts, whole.symm.trans trace, ?_⟩
  rw [latest, Situation.written, trace]
  rfl

end FederatedRounds
