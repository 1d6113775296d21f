import FederatedRounds.Proofs.Coordinator.Bookkeeping
import Mathlib.Data.List.Induction
import Mathlib.Data.List.Nodup

/-! The events of a session in the order in which they are emitted, whether they were taken off the
queue since or wait on it. What a step emits depends on its effect alone. The rounds whose weights
are written are numbered from zero on, and the last weights written are those of the session. -/
namespace FederatedRounds

/-- The weights that an event asks to be written for a round. -/
def Event.written? : Event → Option (UInt32 × Weights)
  | .writeGlobalWeights round weights => some (round, weights)
  | _ => none

section Emission
variable {σ α : Type} {rules : Rules σ α} {now : Instant} {c c' : Coordinator σ α} {effect : Effect}

/-- What a step with an effect adds to the queue, between the states before and after it. -/
def Coordinator.emission (c c' : Coordinator σ α) : Effect → List Event
  | .recorded id _ | .failed id _ => [.readLocalWeights id c.current]
  | .finished id update | .advanced id update =>
    .readLocalWeights id c.current ::
      ((c.record id update).round.inSelectionOrder.map
          (fun (id, update) => Event.writeMetrics id update.metrics) ++
        [.writeGlobalWeights c.current c'.weights])
  | _ => []

namespace Coordinator

theorem Transition.queue (transition : Transition rules now c effect c') :
    (if effect.takesEvent then c.events.head? else none).toList ++ c'.events =
      c.events ++ c.emission c' effect := by
  cases transition with
  | eventTaken => cases c.events <;> simp [emission, Effect.takesEvent]
  | recorded => rfl
  | failed => rfl
  | finished => exact List.append_assoc _ _ _
  | advanced => exact List.append_assoc _ _ _
  | _ => exact (List.append_nil _).symm

/-- Of the events of a round that is published, the last one asks for weights to be written. -/
theorem emission_published (c : Coordinator σ α) (id : ParticipantId) (update : Update)
    (weights : Weights) :
    (Event.readLocalWeights id c.current ::
      ((c.record id update).round.inSelectionOrder.map
          (fun (id, update) => Event.writeMetrics id update.metrics) ++
        [.writeGlobalWeights c.current weights])).filterMap Event.written? =
      [(c.current, weights)] := by
  have metrics : ((c.record id update).round.inSelectionOrder.map fun (id, update) =>
      Event.writeMetrics id update.metrics).filterMap Event.written? = [] := by
    rw [List.filterMap_map, List.filterMap_eq_nil_iff]
    intro entry _
    rfl
  rw [List.filterMap_cons, List.filterMap_append, metrics]
  rfl

/-- Weights are written in the steps that change the weights of the session, for the round that
ends there. -/
theorem Transition.written (transition : Transition rules now c effect c') :
    ((c.emission c' effect).filterMap Event.written? = [] ∧ c'.weights = c.weights ∧
        c'.current = c.current ∧ (c.phase = .finished → c'.phase = .finished)) ∨
      (c.emission c' effect).filterMap Event.written? = [(c.current, c'.weights)] ∧
        c.phase = .round ∧
        (c'.current = c.current ∧ c'.phase = .finished ∨
          c'.current = c.current + 1 ∧ ¬rules.config.rounds ≤ c.current + 1) := by
  cases transition with
  | opened id absent room reached waiting =>
    refine Or.inl ⟨rfl, rfl, rfl, ?_⟩
    intro ended
    rw [waiting] at ended
    cases ended
  | abandoned id registered running short =>
    refine Or.inl ⟨rfl, rfl, rfl, ?_⟩
    intro ended
    rw [running] at ended
    cases ended
  | failed => exact Or.inl ⟨rfl, rfl, rfl, fun _ => rfl⟩
  | finished id update weights admitted =>
    exact Or.inr ⟨emission_published c id update weights, admitted.running, Or.inl ⟨rfl, rfl⟩⟩
  | advanced id update weights admitted last aggregated more =>
    exact Or.inr ⟨emission_published c id update weights, admitted.running, Or.inr ⟨rfl, more⟩⟩
  | _ => exact Or.inl ⟨rfl, rfl, rfl, id⟩

end Coordinator

/-- What a step adds to the queue, whatever it takes off it. -/
def Step.emitted (step : Step σ α) : List Event :=
  (step.observation.taken.toList ++ step.after.coordinator.events).drop
    step.before.coordinator.events.length

theorem Step.Shows.emitted {step : Step σ α} (shown : step.Shows rules effect) :
    step.emitted = step.before.coordinator.emission step.after.coordinator effect := by
  rw [Step.emitted, shown.taken, shown.transition.queue, List.drop_left]

/-- Events leave the queue at the front and are emitted at its end. -/
theorem Step.Shows.queue {step : Step σ α} (shown : step.Shows rules effect) :
    step.observation.taken.toList ++ step.after.coordinator.events =
      step.before.coordinator.events ++ step.emitted := by
  rw [shown.emitted, shown.taken, shown.transition.queue]

end Emission

section Runs
variable {σ α : Type} {rules : Rules σ α}

/-- The events taken off the queue in a run, and then those still on it. -/
def Situation.trace (rules : Rules σ α) (operations : List Operation) (s : Situation σ α) :
    List Event :=
  (s.run rules operations).1.filterMap Observation.taken ++
    (s.final rules operations).coordinator.events

theorem Situation.trace_cons (operation : Operation) (rest : List Operation) (s : Situation σ α) :
    s.trace rules (operation :: rest) =
      (s.step rules operation).observation.taken.toList ++
        (s.step rules operation).after.trace rules rest := by
  have first : ((s.run rules (operation :: rest)).1.filterMap Observation.taken) =
      (s.step rules operation).observation.taken.toList ++
        ((s.step rules operation).after.run rules rest).1.filterMap Observation.taken := by
    change ((s.step rules operation).observation :: _).filterMap Observation.taken = _
    rw [List.filterMap_cons]
    cases (s.step rules operation).observation.taken <;> rfl
  rw [trace, first, List.append_assoc]
  rfl

/-- No event is lost and none moves: the trace is what the steps emit, one after the other. -/
theorem Situation.trace_eq (operations : List Operation) (s : Situation σ α) :
    s.trace rules operations =
      s.coordinator.events ++ (s.steps rules operations).flatMap Step.emitted := by
  induction operations generalizing s with
  | nil => exact (List.append_nil _).symm
  | cons operation rest ih =>
    obtain ⟨effect, shown⟩ := s.step_shows rules operation
    rw [trace_cons, ih, ← List.append_assoc, shown.queue, steps, List.flatMap_cons,
      List.append_assoc]
    rfl

theorem Situation.trace_concat (operations : List Operation) (operation : Operation)
    (s : Situation σ α) :
    s.trace rules (operations ++ [operation]) =
      s.trace rules operations ++ ((s.final rules operations).step rules operation).emitted := by
  rw [trace_eq, trace_eq, steps_append, List.flatMap_append, ← List.append_assoc]
  simp [steps]

/-- The weights that the events of a run ask to be written, with their rounds. -/
def Situation.written (rules : Rules σ α) (operations : List Operation) (s : Situation σ α) :
    List (UInt32 × Weights) :=
  (s.trace rules operations).filterMap Event.written?

theorem Situation.mem_written_iff {operations : List Operation} {s : Situation σ α}
    {round : UInt32} {weights : Weights} :
    (round, weights) ∈ s.written rules operations ↔
      .writeGlobalWeights round weights ∈ s.trace rules operations := by
  rw [written, List.mem_filterMap]
  constructor
  · rintro ⟨event, member, writes⟩
    cases event <;> cases writes
    exact member
  · intro member
    exact ⟨_, member, rfl⟩

theorem Situation.written_concat (operations : List Operation) (operation : Operation)
    (s : Situation σ α) :
    s.written rules (operations ++ [operation]) = s.written rules operations ++
      ((s.final rules operations).step rules operation).emitted.filterMap Event.written? := by
  rw [written, trace_concat, List.filterMap_append]
  rfl

end Runs

/-- Weights were written for each completed round, in order, and the last ones are those of the
session, which started from the given ones. While the session goes on, the completed rounds are
those before the current one. -/
structure Coordinator.Published {σ α : Type} (first : Weights)
    (written : List (UInt32 × Weights)) (c : Coordinator σ α) : Prop where
  numbered : written.map (·.1.toNat) = List.range written.length
  latest : c.weights = (written.getLast?.map (·.2)).getD first
  counted : written.length = c.current.toNat ∨
    c.phase = .finished ∧ written.length = c.current.toNat + 1

namespace Coordinator
variable {σ α : Type} {rules : Rules σ α} {now : Instant} {c c' : Coordinator σ α} {effect : Effect}
  {first : Weights} {written : List (UInt32 × Weights)}

theorem initial_published (registry : Registry) (weights : Weights) (selecting : σ)
    (aggregating : α) :
    (Coordinator.initial registry weights selecting aggregating).Published weights [] :=
  ⟨rfl, rfl, Or.inl rfl⟩

theorem Published.length_of_running (published : c.Published first written)
    (runs : c.phase = .round) : written.length = c.current.toNat := by
  rcases published.counted with going | ⟨ended, _⟩
  · exact going
  · rw [runs] at ended
    cases ended

/-- Weights are written once for a round. -/
theorem Published.unique (published : c.Published first written) {round : UInt32}
    {one other : Weights} (here : (round, one) ∈ written) (there : (round, other) ∈ written) :
    one = other := by
  have distinct : (written.map (·.1.toNat)).Nodup := by
    rw [published.numbered]
    exact List.nodup_range
  exact congrArg Prod.snd (List.inj_on_of_nodup_map distinct here there rfl)

/-- While a round runs, the weights of the session are those written for the round before. -/
theorem Published.latest_of_running (published : c.Published first written)
    (runs : c.phase = .round) :
    (c.current = 0 → c.weights = first) ∧
      (c.current ≠ 0 → ∃ previous : UInt32, previous.toNat + 1 = c.current.toNat ∧
        (previous, c.weights) ∈ written) := by
  have counted := published.length_of_running runs
  rw [published.latest]
  cases last : written.getLast? with
  | none =>
    have empty := List.getLast?_eq_none_iff.mp last
    refine ⟨fun _ => rfl, ?_⟩
    intro later
    rw [empty, List.length_nil] at counted
    exact absurd (UInt32.toNat_inj.mp counted.symm) later
  | some entry =>
    obtain ⟨earlier, rfl⟩ := List.getLast?_eq_some_iff.mp last
    have numbered := published.numbered
    rw [List.length_append, List.length_singleton] at counted numbered
    constructor
    · intro none
      rw [none] at counted
      cases counted
    · intro _
      rw [List.map_append, List.range_succ] at numbered
      have same : entry.1.toNat = earlier.length :=
        List.singleton_inj.mp (List.append_inj' numbered rfl).2
      exact ⟨entry.1, by rw [same, counted], by simp⟩

theorem Transition.published (valid : rules.config.validate = .ok ())
    (bookkept : c.Bookkept rules.config) (published : c.Published first written)
    (transition : Transition rules now c effect c') :
    c'.Published first
      (written ++ (c.emission c' effect).filterMap Event.written?) := by
  rcases transition.written with ⟨none, weights, current, ends⟩ | ⟨some, runs, moved⟩
  · rw [none, List.append_nil]
    refine ⟨published.numbered, weights.trans published.latest, ?_⟩
    rw [current]
    exact published.counted.imp_right fun ⟨ended, counted⟩ => ⟨ends ended, counted⟩
  · have counted := published.length_of_running runs
    rw [some]
    refine ⟨?_, by simp, ?_⟩
    · rw [List.map_append, published.numbered, List.length_append, List.length_singleton,
        List.range_succ, List.map_singleton, counted]
    · rw [List.length_append, List.length_singleton, counted]
      rcases moved with ⟨current, ended⟩ | ⟨current, _⟩
      · exact Or.inr ⟨ended, by rw [current]⟩
      · exact Or.inl (by rw [current, toNat_add_of_lt (bookkept.room valid).1]; rfl)

end Coordinator

theorem Situation.final_published {σ α : Type} {rules : Rules σ α}
    (valid : rules.config.validate = .ok ()) (operations : List Operation) {s : Situation σ α}
    {first : Weights} (bookkept : s.coordinator.Bookkept rules.config)
    (start : s.coordinator.Published first (s.written rules [])) :
    (s.final rules operations).coordinator.Published first (s.written rules operations) := by
  induction operations using List.reverseRecOn with
  | nil => exact start
  | append_singleton operations operation ih =>
    obtain ⟨effect, shown⟩ := (s.final rules operations).step_shows rules operation
    rw [final_append, written_concat, shown.emitted]
    exact shown.transition.published valid (s.final_bookkept valid operations bookkept) ih

end FederatedRounds
