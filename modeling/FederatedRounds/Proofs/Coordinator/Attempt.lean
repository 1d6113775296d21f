import FederatedRounds.Proofs.Coordinator.Transition
import Mathlib.Data.List.DropRight
import Mathlib.Data.List.Induction

/-! The attempts at a round. An attempt goes from the opening of a round to the next opening. While
the round runs, its updates are those accepted in the attempt, and nothing has ended it yet. -/
namespace FederatedRounds

/-- The steps since the last opening of a round, the opening itself left out. -/
def attempt {σ α : Type} (steps : List (Step σ α)) : List (Step σ α) :=
  steps.rtakeWhile fun step => !step.opensRound

section Attempt
variable {σ α : Type} {steps : List (Step σ α)} {step : Step σ α}

theorem attempt_concat_of_opens (opens : step.opensRound = true) :
    attempt (steps ++ [step]) = [] := by
  apply List.rtakeWhile_concat_neg
  simp [opens]

theorem attempt_concat_of_not_opens (closed : step.opensRound = false) :
    attempt (steps ++ [step]) = attempt steps ++ [step] := by
  apply List.rtakeWhile_concat_pos
  simp [closed]

theorem attempt_append_of_not_opens {later : List (Step σ α)}
    (closed : ∀ step ∈ later, step.opensRound = false) :
    attempt (steps ++ later) = attempt steps ++ later := by
  induction later using List.reverseRecOn with
  | nil => simp
  | append_singleton later step ih =>
    have last := closed step (by simp)
    rw [← List.append_assoc, attempt_concat_of_not_opens last, ih, List.append_assoc]
    intro other member
    exact closed other (List.mem_append_left _ member)

/-- Once a round was opened, what came before has no part in the attempt. -/
theorem attempt_append_of_opens {later : List (Step σ α)}
    (opened : ∃ step ∈ later, step.opensRound = true) :
    attempt (steps ++ later) = attempt later := by
  induction later using List.reverseRecOn with
  | nil => simp at opened
  | append_singleton later step ih =>
    rw [← List.append_assoc]
    by_cases opens : step.opensRound = true
    · rw [attempt_concat_of_opens opens, attempt_concat_of_opens opens]
    · have closed : step.opensRound = false := by simpa using opens
      rw [attempt_concat_of_not_opens closed, attempt_concat_of_not_opens closed, ih]
      obtain ⟨other, member, found⟩ := opened
      rcases List.mem_append.mp member with inside | last
      · exact ⟨other, inside, found⟩
      · rw [List.mem_singleton] at last
        exact absurd (last ▸ found) opens

theorem attempt_suffix (steps : List (Step σ α)) : attempt steps <:+ steps :=
  List.rtakeWhile_suffix _ _

end Attempt

/-- A running round holds what was accepted since it was opened, and ran ever since. -/
def Coordinator.Follows {σ α : Type} (history : List (Step σ α)) (c : Coordinator σ α) : Prop :=
  c.phase = .round → c.round.updates = (attempt history).filterMap Step.accepted? ∧
    ∀ step ∈ attempt history, step.after.coordinator.phase = .round

section Runs
variable {σ α : Type} {rules : Rules σ α}

theorem Coordinator.Follows.hasUpdate_iff {history : List (Step σ α)} {c : Coordinator σ α}
    (follows : c.Follows history) (runs : c.phase = .round) (id : ParticipantId) :
    c.round.hasUpdate id = true ↔
      ∃ update, (id, update) ∈ (attempt history).filterMap Step.accepted? := by
  rw [← (follows runs).1, Round.hasUpdate, List.any_eq_true]
  constructor
  · rintro ⟨⟨other, update⟩, member, same⟩
    exact ⟨update, of_decide_eq_true same ▸ member⟩
  · rintro ⟨update, member⟩
    exact ⟨_, member, decide_eq_true rfl⟩

/-- With an update that is accepted, the attempt has accepted what the round then holds. -/
theorem Coordinator.Follows.updates_record {history : List (Step σ α)} {step : Step σ α}
    (follows : step.before.coordinator.Follows history)
    (runs : step.before.coordinator.phase = .round) {id : ParticipantId} {update : Update}
    (accepted : step.accepted? = some (id, update)) :
    (attempt history ++ [step]).filterMap Step.accepted? =
      (step.before.coordinator.record id update).round.updates := by
  rw [List.filterMap_append, ← (follows runs).1]
  simp [accepted, Coordinator.record]

theorem not_mem_attempt {steps : List (Step σ α)} {step : Step σ α}
    (ongoing : ∀ step ∈ attempt steps, step.after.coordinator.phase = .round)
    (ends : step.opensRound = true ∨ step.after.coordinator.phase ≠ .round) :
    step ∉ attempt steps := by
  intro member
  rcases ends with opens | ended
  · have closed := List.mem_rtakeWhile_imp member
    rw [opens] at closed
    cases closed
  · exact ended (ongoing step member)

/-- A round that runs after a step is new, or it ran before and gained what the step accepted. -/
theorem Coordinator.Transition.updates {now : Instant} {c c' : Coordinator σ α} {effect : Effect}
    (transition : Transition rules now c effect c') (runs : c'.phase = .round) :
    (effect.opensRound = true ∧ c'.round.updates = []) ∨
      (effect.opensRound = false ∧ c.phase = .round ∧
        c'.round.updates = c.round.updates ++ effect.accepted?.toList) := by
  cases transition with
  | opened => exact Or.inl ⟨rfl, rfl⟩
  | advanced => exact Or.inl ⟨rfl, rfl⟩
  | recorded id update admitted => exact Or.inr ⟨rfl, admitted.running, rfl⟩
  | failed => cases runs
  | finished => cases runs
  | abandoned => cases runs
  | _ => exact Or.inr ⟨rfl, runs, (List.append_nil _).symm⟩

theorem Step.Shows.follows {history : List (Step σ α)} {step : Step σ α} {effect : Effect}
    (shown : step.Shows rules effect) (follows : step.before.coordinator.Follows history) :
    step.after.coordinator.Follows (history ++ [step]) := by
  intro runs
  rcases shown.transition.updates runs with ⟨opens, fresh⟩ | ⟨closed, ran, gained⟩
  · rw [attempt_concat_of_opens (shown.opens.trans opens), fresh]
    exact ⟨rfl, fun _ member => absurd member List.not_mem_nil⟩
  · obtain ⟨updates, ongoing⟩ := follows ran
    rw [attempt_concat_of_not_opens (shown.opens.trans closed), List.filterMap_append, gained,
      updates, ← shown.accepted]
    refine ⟨?_, ?_⟩
    · cases accepted : step.accepted? <;> simp [accepted]
    · intro other member
      rcases List.mem_append.mp member with inside | last
      · exact ongoing other inside
      · rw [List.mem_singleton.mp last]
        exact runs

/-- A round that was abandoned and runs again was opened again after that. -/
theorem Coordinator.Follows.opens_of_abandons {history recent : List (Step σ α)}
    {c : Coordinator σ α} (follows : c.Follows (history ++ recent)) (runs : c.phase = .round)
    (shown : ∀ step ∈ recent, ∃ effect, step.Shows rules effect)
    (abandoned : ∃ step ∈ recent, step.abandonsRound = true) :
    ∃ step ∈ recent, step.opensRound = true := by
  by_contra never
  have closed : ∀ step ∈ recent, step.opensRound = false := by simpa using never
  have ongoing := (follows runs).2
  rw [attempt_append_of_not_opens closed] at ongoing
  obtain ⟨step, member, abandons⟩ := abandoned
  obtain ⟨effect, seen⟩ := shown step member
  have waits := seen.transition.standBy_of_abandons (seen.abandons.symm.trans abandons)
  rw [ongoing step (List.mem_append_right _ member)] at waits
  cases waits

theorem Situation.final_follows (operations : List Operation) {s : Situation σ α}
    (start : s.coordinator.Follows []) :
    (s.final rules operations).coordinator.Follows (s.steps rules operations) := by
  induction operations using List.reverseRecOn with
  | nil => exact start
  | append_singleton operations operation ih =>
    obtain ⟨effect, shown⟩ := (s.final rules operations).step_shows rules operation
    rw [final_append, steps_append]
    exact shown.follows ih

end Runs
end FederatedRounds
