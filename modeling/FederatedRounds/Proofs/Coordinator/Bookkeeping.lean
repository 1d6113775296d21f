import FederatedRounds.Proofs.Coordinator.Transition

/-! The counters of a session. The round that runs is below the number of rounds, the epochs counted
are those of the rounds before it, and both counters move when a round is completed and at no other
time. The number of all epochs fits 32 bits, so that no sum wraps. -/
namespace FederatedRounds

/-- The counters of a session in order. -/
structure Coordinator.Bookkept {σ α : Type} (config : Config) (c : Coordinator σ α) : Prop where
  below : c.current.toNat < config.rounds.toNat
  counted : c.epochBase.toNat = c.current.toNat * config.epochs.toNat

/-- The step takes the last missing update of a round that is not the last one, and its aggregation
succeeds. -/
structure Step.CompletesRound {σ α : Type} (rules : Rules σ α) (step : Step σ α)
    (id : ParticipantId) (update : Update) : Prop where
  submits : step.operation.submission? = some (id, update)
  admitted : step.before.coordinator.Admits id
  last : step.before.coordinator.round.updates.length + 1 =
    step.before.coordinator.round.selected.length
  aggregated : ∃ weights,
    ((step.before.coordinator.record id update).aggregation rules).1 = .ok weights
  more : step.before.coordinator.current.toNat + 1 < rules.config.rounds.toNat

theorem toNat_add_of_lt {n m : UInt32} (room : n.toNat + m.toNat < UInt32.size) :
    (n + m).toNat = n.toNat + m.toNat := by
  rw [UInt32.toNat_add]
  exact Nat.mod_eq_of_lt room

namespace Coordinator
variable {σ α : Type} {rules : Rules σ α} {now : Instant} {c c' : Coordinator σ α}

theorem Bookkept.room {config : Config} (valid : config.validate = .ok ())
    (bookkept : c.Bookkept config) :
    c.current.toNat + 1 < UInt32.size ∧
      c.epochBase.toNat + config.epochs.toNat < UInt32.size := by
  obtain ⟨_, _, _, total⟩ := Config.validate_eq_ok_iff.mp valid
  obtain ⟨below, counted⟩ := bookkept
  have bounded := config.rounds.toNat_lt_size
  refine ⟨by omega, ?_⟩
  rw [counted, ← Nat.succ_mul]
  calc (c.current.toNat + 1) * config.epochs.toNat
      ≤ config.rounds.toNat * config.epochs.toNat := Nat.mul_le_mul_right _ below
    _ < UInt32.size := by rw [Nat.mul_comm]; exact total

theorem Bookkept.more_iff {config : Config} (valid : config.validate = .ok ())
    (bookkept : c.Bookkept config) :
    ¬config.rounds ≤ c.current + 1 ↔ c.current.toNat + 1 < config.rounds.toNat := by
  rw [UInt32.le_iff_toNat_le, toNat_add_of_lt (bookkept.room valid).1]
  exact Nat.not_le

/-- The counters stand still, or a round is completed and both move on. -/
theorem Transition.counters {effect : Effect} (valid : rules.config.validate = .ok ())
    (bookkept : c.Bookkept rules.config) (transition : Transition rules now c effect c') :
    (c'.current = c.current ∧ c'.epochBase = c.epochBase) ∨
      ∃ id update, effect = .advanced id update ∧ c.Admits id ∧
        c.round.updates.length + 1 = c.round.selected.length ∧
        (∃ weights, ((c.record id update).aggregation rules).1 = .ok weights) ∧
        c.current.toNat + 1 < rules.config.rounds.toNat ∧
        c'.current.toNat = c.current.toNat + 1 ∧
        c'.epochBase.toNat = c.epochBase.toNat + rules.config.epochs.toNat := by
  cases transition with
  | advanced id update weights admitted last aggregated more =>
    right
    have room := bookkept.room valid
    have full : c.round.updates.length + 1 = c.round.selected.length := by
      simpa [record, Round.isFinished] using last
    exact ⟨id, update, rfl, admitted, full, ⟨weights, aggregated⟩,
      (bookkept.more_iff valid).mp more, toNat_add_of_lt room.1, toNat_add_of_lt room.2⟩
  | _ => exact Or.inl ⟨rfl, rfl⟩

theorem Transition.bookkept {effect : Effect} (valid : rules.config.validate = .ok ())
    (bookkept : c.Bookkept rules.config) (transition : Transition rules now c effect c') :
    c'.Bookkept rules.config := by
  rcases transition.counters valid bookkept with ⟨current, epochs⟩ |
    ⟨_, _, _, _, _, _, more, current, epochs⟩
  · exact ⟨current ▸ bookkept.below, epochs ▸ current ▸ bookkept.counted⟩
  · refine ⟨current ▸ more, ?_⟩
    rw [current, epochs, bookkept.counted, Nat.succ_mul]

theorem Transition.counters_le {effect : Effect} (valid : rules.config.validate = .ok ())
    (bookkept : c.Bookkept rules.config) (transition : Transition rules now c effect c') :
    c.current ≤ c'.current ∧ c.epochBase ≤ c'.epochBase := by
  rw [UInt32.le_iff_toNat_le, UInt32.le_iff_toNat_le]
  rcases transition.counters valid bookkept with ⟨current, epochs⟩ |
    ⟨_, _, _, _, _, _, _, current, epochs⟩
  · exact ⟨Nat.le_of_eq (congrArg _ current.symm), Nat.le_of_eq (congrArg _ epochs.symm)⟩
  · exact ⟨current ▸ Nat.le_add_right _ _, epochs ▸ Nat.le_add_right _ _⟩

end Coordinator

section Runs
variable {σ α : Type} {rules : Rules σ α}

theorem Situation.step_bookkept (valid : rules.config.validate = .ok ()) (operation : Operation)
    {s : Situation σ α} (bookkept : s.coordinator.Bookkept rules.config) :
    (s.step rules operation).after.coordinator.Bookkept rules.config := by
  obtain ⟨effect, shown⟩ := s.step_shows rules operation
  exact shown.transition.bookkept valid bookkept

theorem Situation.final_bookkept (valid : rules.config.validate = .ok ())
    (operations : List Operation) {s : Situation σ α}
    (bookkept : s.coordinator.Bookkept rules.config) :
    (s.final rules operations).coordinator.Bookkept rules.config := by
  refine final_invariant (fun s => s.coordinator.Bookkept rules.config) ?_ bookkept
  intro operation _ s kept
  exact s.step_bookkept valid operation kept

theorem Situation.final_counters_le (valid : rules.config.validate = .ok ())
    (operations : List Operation) {s : Situation σ α}
    (bookkept : s.coordinator.Bookkept rules.config) :
    s.coordinator.current ≤ (s.final rules operations).coordinator.current ∧
      s.coordinator.epochBase ≤ (s.final rules operations).coordinator.epochBase := by
  induction operations generalizing s with
  | nil => exact ⟨UInt32.le_refl _, UInt32.le_refl _⟩
  | cons operation rest ih =>
    obtain ⟨effect, shown⟩ := s.step_shows rules operation
    have first := shown.transition.counters_le valid bookkept
    have others := ih (s.step_bookkept valid operation bookkept)
    exact ⟨UInt32.le_trans first.1 others.1, UInt32.le_trans first.2 others.2⟩

theorem Step.CompletesRound.counters (valid : rules.config.validate = .ok ())
    {s : Situation σ α} (bookkept : s.coordinator.Bookkept rules.config) {operation : Operation}
    {id : ParticipantId} {update : Update}
    (completes : (s.step rules operation).CompletesRound rules id update) :
    (s.step rules operation).after.coordinator.current.toNat = s.coordinator.current.toNat + 1 ∧
      (s.step rules operation).after.coordinator.epochBase.toNat =
        s.coordinator.epochBase.toNat + rules.config.epochs.toNat := by
  obtain ⟨submits, admitted, last, ⟨weights, aggregated⟩, more⟩ := completes
  rw [Situation.step_before] at admitted last aggregated more
  have full : (s.coordinator.record id update).round.isFinished = true := by
    simpa [Coordinator.record, Round.isFinished] using last
  have goes : ¬rules.config.rounds ≤
      ((s.coordinator.record id update).publish rules weights).current + 1 :=
    (bookkept.more_iff valid).mpr more
  have room := bookkept.room valid
  cases operation with
  | request request =>
    have next : (s.step rules (.request request)).after.coordinator =
        (((s.coordinator.record id update).publish rules weights).advance rules).1 := by
      change (s.coordinator.handle rules s.now request).next = _
      rw [Coordinator.next_of_submission submits, Coordinator.endTraining_last admitted full,
        Coordinator.completeRound_published aggregated]
    rw [next, Coordinator.advance_next goes]
    exact ⟨toNat_add_of_lt room.1, toNat_add_of_lt room.2⟩
  | registry change => cases submits
  | advance span => cases submits
  | takeEvent => cases submits

/-- No other step moves them. -/
theorem Situation.counters_of_not_completesRound (valid : rules.config.validate = .ok ())
    {s : Situation σ α} (bookkept : s.coordinator.Bookkept rules.config) {operation : Operation}
    (incomplete : ¬∃ id update, (s.step rules operation).CompletesRound rules id update) :
    (s.step rules operation).after.coordinator.current = s.coordinator.current ∧
      (s.step rules operation).after.coordinator.epochBase = s.coordinator.epochBase := by
  obtain ⟨effect, shown⟩ := s.step_shows rules operation
  rcases shown.transition.counters valid bookkept with still |
    ⟨id, update, advanced, admitted, last, aggregated, more, _⟩
  · exact still
  · have accepted : (s.step rules operation).accepted? = some (id, update) := by
      rw [shown.accepted, advanced]
      rfl
    exact absurd ⟨id, update, Step.submission?_of_accepted? accepted, admitted, last, aggregated,
      more⟩ incomplete

theorem Coordinator.initial_bookkept {config : Config} (valid : config.validate = .ok ())
    (registry : Registry) (weights : Weights) (selecting : σ) (aggregating : α) :
    (Coordinator.initial registry weights selecting aggregating).Bookkept config where
  below := (Config.validate_eq_ok_iff.mp valid).1
  counted := (Nat.zero_mul _).symm

theorem counters_follow_completed_rounds {registry : Registry} {weights : Weights} {selecting : σ}
    {aggregating : α} {opened : Outcome σ α Unit}
    (starts : rules.open registry weights selecting aggregating = .ok opened) (now : Instant)
    (operations : List Operation) :
    let s := (⟨now, opened.next⟩ : Situation σ α).final rules operations
    s.coordinator.current.toNat < rules.config.rounds.toNat ∧
      s.coordinator.epochBase.toNat =
        s.coordinator.current.toNat * rules.config.epochs.toNat ∧
      s.coordinator.current.toNat + 1 < UInt32.size ∧
      s.coordinator.epochBase.toNat + rules.config.epochs.toNat < UInt32.size ∧
      (∀ later, s.coordinator.current ≤ (s.final rules later).coordinator.current ∧
        s.coordinator.epochBase ≤ (s.final rules later).coordinator.epochBase) ∧
      ∀ operation, let step := s.step rules operation
        (∀ id update, step.CompletesRound rules id update →
          step.after.coordinator.current.toNat = s.coordinator.current.toNat + 1 ∧
          step.after.coordinator.epochBase.toNat =
            s.coordinator.epochBase.toNat + rules.config.epochs.toNat) ∧
        ((¬∃ id update, step.CompletesRound rules id update) →
          step.after.coordinator.current = s.coordinator.current ∧
          step.after.coordinator.epochBase = s.coordinator.epochBase) := by
  obtain ⟨valid, rfl⟩ := Rules.open_eq_ok_iff.mp starts
  intro s
  have bookkept : s.coordinator.Bookkept rules.config :=
    Situation.final_bookkept valid operations (Coordinator.initial_bookkept valid _ _ _ _)
  have room := bookkept.room valid
  refine ⟨bookkept.below, bookkept.counted, room.1, room.2, ?_, ?_⟩
  · intro later
    exact Situation.final_counters_le valid later bookkept
  · intro operation
    constructor
    · intro id update completes
      exact completes.counters valid bookkept
    · intro incomplete
      exact Situation.counters_of_not_completesRound valid bookkept incomplete

/-- The update that completes the second attempt at the first round moves the counters once. -/
theorem counters_after_second_attempt :
    Trial.rules.open (.empty 10000 5000) [] () () = .ok Trial.opened ∧
      Trial.secondAttempt.coordinator.current.toNat = 0 ∧
      (Trial.secondAttempt.step Trial.rules Trial.completion).after.coordinator.current.toNat =
        0 + 1 ∧
      (Trial.secondAttempt.step Trial.rules Trial.completion).after.coordinator.epochBase.toNat =
        0 + 3 := by
  obtain ⟨_, _, _, _, _, steps⟩ :=
    counters_follow_completed_rounds Trial.starts 0 Trial.reopened
  rw [← Trial.secondAttempt] at steps
  have completes : (Trial.secondAttempt.step Trial.rules Trial.completion).CompletesRound
      Trial.rules Trial.ann (Trial.update 3) := by
    refine ⟨rfl, ⟨?_, ?_, ?_, ?_⟩, ?_, ⟨[], ?_⟩, ?_⟩
    all_goals decide +kernel
  have moved := (steps _).1 Trial.ann (Trial.update 3) completes
  have before : Trial.secondAttempt.coordinator.current.toNat = 0 ∧
      Trial.secondAttempt.coordinator.epochBase.toNat = 0 := by decide +kernel
  rw [before.1, before.2] at moved
  exact ⟨Trial.starts, before.1, moved⟩

end Runs
end FederatedRounds
