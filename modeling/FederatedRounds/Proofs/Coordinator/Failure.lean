import FederatedRounds.Proofs.Coordinator.Transition
import FederatedRounds.Proofs.Round

/-! What is left behind by requests that fail. A request that is refused changes nothing at all. A
failed aggregation is no refusal: the update that led to it was taken, and the session ends with the
weights and the counters of the last completed round. -/
namespace FederatedRounds

private theorem eq_error_of_map {ε τ υ : Type} {f : τ → υ} {result : Except ε τ} {error : ε}
    (failed : result.map f = .error error) : result = .error error := by
  cases result with
  | error other => exact congrArg Except.error (Except.error.inj failed)
  | ok value => cases failed

namespace Coordinator
variable {σ α : Type} {rules : Rules σ α} {now : Instant} {c c' : Coordinator σ α}
  {id : ParticipantId}

/-- The coordinator after others put another registry in its place. -/
def withRegistry (c : Coordinator σ α) (registry : Registry) : Coordinator σ α :=
  { c with registry }

/-- All that an update can come to: the reply to it, and the state after it. -/
inductive Submission (rules : Rules σ α) (c : Coordinator σ α) (id : ParticipantId)
    (update : Update) : Except CoordinatorError Unit → Coordinator σ α → Prop
  | refused (error : CoordinatorError) (refusal : c.refusal? id .finish = some error) :
      Submission rules c id update (.error error) c
  | repeated (again : c.round.hasUpdate id = true) :
      Submission rules c id update (.error (.duplicatedUpdate id)) c
  | recorded (admitted : c.Admits id)
      (missing : (c.record id update).round.isFinished = false) :
      Submission rules c id update (.ok ()) (c.record id update)
  | failed (cause : AggregationError) (admitted : c.Admits id)
      (last : (c.record id update).round.isFinished = true)
      (refused : ((c.record id update).aggregation rules).1 = .error cause) :
      Submission rules c id update (.error (.aggregation cause))
        { c.record id update with
          round := .empty
          aggregating := ((c.record id update).aggregation rules).2
          phase := .finished }
  | completed (weights : Weights) (admitted : c.Admits id)
      (last : (c.record id update).round.isFinished = true)
      (aggregated : ((c.record id update).aggregation rules).1 = .ok weights) :
      Submission rules c id update (.ok ())
        (((c.record id update).publish rules weights).advance rules).1

theorem endTraining_submission (rules : Rules σ α) (c : Coordinator σ α) (id : ParticipantId)
    (update : Update) : Submission rules c id update (c.endTraining rules id update).reply
      (c.endTraining rules id update).next := by
  cases refusal : c.refusal? id .finish with
  | some error =>
    rw [endTraining_refused refusal]
    exact .refused error refusal
  | none =>
    obtain ⟨registered, running, selected⟩ := refusal?_eq_none refusal
    by_cases again : c.round.hasUpdate id = true
    · rw [endTraining_repeated refusal again]
      exact .repeated again
    have first : c.round.hasUpdate id = false := by simpa using again
    have admitted : c.Admits id := ⟨registered, running, selected, first⟩
    rw [endTraining_admitted refusal first]
    dsimp only
    by_cases last : (c.record id update).round.isFinished = true
    · rw [if_pos last]
      cases result : ((c.record id update).aggregation rules).1 with
      | error cause =>
        rw [completeRound_failed result]
        exact .failed cause admitted last result
      | ok weights =>
        rw [completeRound_published result]
        exact .completed weights admitted last result
    · rw [if_neg last]
      exact .recorded admitted (by simpa using last)

theorem refusal?_unknown_iff {request : Training} {other : ParticipantId} :
    c.refusal? id request = some (.unknownParticipant other) ↔
      other = id ∧ c.registry.contains id = false := by
  unfold refusal?
  split_ifs with registered running selected <;> simp [registered, eq_comm]

theorem heartbeat_error {error : CoordinatorError}
    (failed : (c.heartbeat now id).reply = .error error) :
    error = .unknownParticipant id ∧ c.registry.contains id = false ∧
      (c.heartbeat now id).next = c := by
  unfold heartbeat at failed ⊢
  by_cases registered : c.registry.contains id = true
  · rw [if_pos registered] at failed
    cases failed
  · rw [if_neg registered] at failed ⊢
    exact ⟨(Except.error.inj failed).symm, by simpa using registered, rfl⟩

theorem heartbeat_unknown_iff {other : ParticipantId} :
    (c.heartbeat now id).reply = .error (.unknownParticipant other) ↔
      other = id ∧ c.registry.contains id = false := by
  constructor
  · intro failed
    obtain ⟨unknown, absent, _⟩ := heartbeat_error failed
    exact ⟨CoordinatorError.unknownParticipant.inj unknown, absent⟩
  · rintro ⟨rfl, absent⟩
    unfold heartbeat
    rw [if_neg (by simp [absent])]

theorem startTraining_next (id : ParticipantId) : (c.startTraining rules id).next = c := by
  unfold startTraining
  split <;> rfl

theorem startTraining_error_iff {error : CoordinatorError} :
    (c.startTraining rules id).reply = .error error ↔ c.refusal? id .start = some error := by
  unfold startTraining
  cases c.refusal? id .start <;> simp

theorem endTraining_next_of_refusal {update : Update} {error : CoordinatorError}
    (failed : (c.endTraining rules id update).reply = .error error)
    (refuses : error.isRefusal = true) : (c.endTraining rules id update).next = c := by
  have comes := endTraining_submission rules c id update
  rw [failed] at comes
  generalize (c.endTraining rules id update).next = left at comes ⊢
  cases comes with
  | refused => rfl
  | repeated => rfl
  | failed => cases refuses

theorem endTraining_unknown_iff {update : Update} {other : ParticipantId} :
    (c.endTraining rules id update).reply = .error (.unknownParticipant other) ↔
      other = id ∧ c.registry.contains id = false := by
  constructor
  · intro failed
    have comes := endTraining_submission rules c id update
    rw [failed] at comes
    generalize (c.endTraining rules id update).next = left at comes
    cases comes with
    | refused error refusal => exact refusal?_unknown_iff.mp refusal
  · intro unknown
    rw [endTraining_refused (refusal?_unknown_iff.mpr unknown)]

/-- Of those who may submit, only who has submitted before is told so. -/
theorem endTraining_duplicated_iff {update : Update} (passes : c.refusal? id .finish = none) :
    (c.endTraining rules id update).reply = .error (.duplicatedUpdate id) ↔
      c.round.hasUpdate id = true := by
  constructor
  · intro failed
    have comes := endTraining_submission rules c id update
    rw [failed] at comes
    generalize (c.endTraining rules id update).next = left at comes
    cases comes with
    | refused error refusal => rw [passes] at refusal; cases refusal
    | repeated again => exact again
  · intro again
    rw [endTraining_repeated passes again]

theorem onMessage_next_of_refusal {message : Message} {error : CoordinatorError}
    (failed : (c.onMessage rules now id message).reply = .error error)
    (refuses : error.isRefusal = true) : (c.onMessage rules now id message).next = c := by
  cases message with
  | rendezvous => cases failed
  | heartbeat => exact (heartbeat_error (eq_error_of_map failed)).2.2
  | startTraining => exact startTraining_next id
  | endTraining update => exact endTraining_next_of_refusal (eq_error_of_map failed) refuses

/-- A request that is refused changes nothing, however it is sent. -/
theorem handle_next_of_refusal {request : Request}
    (refused : (c.handle rules now request).reply.error?.any CoordinatorError.isRefusal = true) :
    (c.handle rules now request).next = c := by
  cases request with
  | heartbeat id =>
    change (Answer.heartbeat (c.heartbeat now id).reply).error?.any _ = true at refused
    cases replied : (c.heartbeat now id).reply with
    | error error => exact (heartbeat_error replied).2.2
    | ok reply => rw [replied] at refused; cases refused
  | startTraining id => exact startTraining_next id
  | endTraining id update =>
    change (Answer.endTraining (c.endTraining rules id update).reply).error?.any _ = true at refused
    cases replied : (c.endTraining rules id update).reply with
    | error error => rw [replied] at refused; exact endTraining_next_of_refusal replied refused
    | ok reply => rw [replied] at refused; cases refused
  | message id message =>
    change (Answer.message (c.onMessage rules now id message).reply).error?.any _ = true at refused
    cases replied : (c.onMessage rules now id message).reply with
    | error error => rw [replied] at refused; exact onMessage_next_of_refusal replied refused
    | ok reply => rw [replied] at refused; cases refused
  | _ => cases refused

theorem onMessage_unknown_iff {message : Message} {other : ParticipantId} :
    (c.onMessage rules now id message).reply = .error (.unknownParticipant other) ↔
      other = id ∧ c.registry.contains id = false ∧ message ≠ .rendezvous := by
  have mapped {τ : Type} (f : τ → Response) (result : Except CoordinatorError τ) :
      result.map f = .error (.unknownParticipant other) ↔
        result = .error (.unknownParticipant other) := by
    cases result <;> simp [Except.map]
  cases message with
  | rendezvous => exact iff_of_false nofun fun unknown => unknown.2.2 rfl
  | heartbeat => exact ((mapped _ _).trans heartbeat_unknown_iff).trans (by simp)
  | startTraining =>
    exact ((mapped _ _).trans (startTraining_error_iff.trans refusal?_unknown_iff)).trans (by simp)
  | endTraining update => exact ((mapped _ _).trans endTraining_unknown_iff).trans (by simp)

/-- Only the aggregation of a complete round can fail. -/
theorem onMessage_failed {message : Message} {cause : AggregationError}
    (failed : (c.onMessage rules now id message).reply = .error (.aggregation cause)) :
    ∃ update, message = .endTraining update ∧ c.Admits id ∧
      (c.record id update).round.isFinished = true ∧
      (c.onMessage rules now id message).next =
        { c.record id update with
          round := .empty
          aggregating := ((c.record id update).aggregation rules).2
          phase := .finished } := by
  cases message with
  | rendezvous => cases failed
  | heartbeat => cases (heartbeat_error (eq_error_of_map failed)).1
  | startTraining =>
    have refused := startTraining_error_iff.mp (eq_error_of_map failed)
    cases isRefusal_of_refusal? refused
  | endTraining update =>
    have comes := endTraining_submission rules c id update
    rw [eq_error_of_map failed] at comes
    change ∃ _, _ ∧ _ ∧ _ ∧ (c.endTraining rules id update).next = _
    generalize (c.endTraining rules id update).next = left at comes ⊢
    cases comes with
    | refused _ refusal => cases isRefusal_of_refusal? refusal
    | failed _ admitted last => exact ⟨update, rfl, admitted, last, rfl⟩

/-- Whatever is selected, those who submit are selected and submit once. -/
theorem Transition.tallied {effect : Effect} (tallied : c.round.Tallied)
    (transition : Transition rules now c effect c') : c'.round.Tallied := by
  have fresh (selected : List ParticipantId) : (Round.start selected).Tallied :=
    ⟨List.nodup_nil, List.nil_subset _⟩
  cases transition with
  | opened => exact fresh _
  | advanced => exact fresh _
  | recorded id update admitted => exact tallied.submit admitted.selected admitted.first update
  | failed => exact fresh _
  | finished => exact fresh _
  | abandoned => exact fresh _
  | _ => exact tallied

end Coordinator

section Runs
variable {σ α : Type} {rules : Rules σ α}

theorem Situation.final_tallied (operations : List Operation) {s : Situation σ α}
    (tallied : s.coordinator.round.Tallied) :
    (s.final rules operations).coordinator.round.Tallied := by
  refine final_invariant (fun s => s.coordinator.round.Tallied) ?_ tallied
  intro operation _ s kept
  obtain ⟨effect, shown⟩ := s.step_shows rules operation
  exact shown.transition.tallied kept

theorem failure_leaves_state {registry : Registry} {weights : Weights} {selecting : σ}
    {aggregating : α} {opened : Outcome σ α Unit}
    (starts : rules.open registry weights selecting aggregating = .ok opened) (now : Instant)
    (operations : List Operation) (changed : Registry) :
    let c := ((⟨now, opened.next⟩ : Situation σ α).final rules
      operations).coordinator.withRegistry changed
    ∀ instant id message, let outcome := c.onMessage rules instant id message
      (∀ error, outcome.reply = .error error → error.isRefusal = true → outcome.next = c) ∧
        (∀ cause, outcome.reply = .error (.aggregation cause) →
          (∃ update, message = .endTraining update) ∧ c.Admits id ∧ c.round.missing = [id] ∧
            outcome.next.phase = .finished ∧ outcome.next.round = .empty ∧
            outcome.next.current = c.current ∧ outcome.next.epochBase = c.epochBase ∧
            outcome.next.weights = c.weights ∧ outcome.next.registry = c.registry ∧
            outcome.next.events = c.events ++ [.readLocalWeights id c.current]) ∧
        ∀ other, outcome.reply = .error (.unknownParticipant other) ↔
          other = id ∧ c.registry.contains id = false ∧ message ≠ .rendezvous := by
  obtain ⟨_, rfl⟩ := Rules.open_eq_ok_iff.mp starts
  intro c instant id message outcome
  have tallied : c.round.Tallied :=
    Situation.final_tallied operations ⟨List.nodup_nil, List.nil_subset _⟩
  refine ⟨?_, ?_, ?_⟩
  · intro error failed refuses
    exact Coordinator.onMessage_next_of_refusal failed refuses
  · intro cause failed
    obtain ⟨update, rfl, admitted, last, next⟩ := Coordinator.onMessage_failed failed
    have missing := tallied.missing_eq admitted.selected admitted.first last
    rw [next]
    exact ⟨⟨update, rfl⟩, admitted, missing, rfl, rfl, rfl, rfl, rfl, rfl, rfl⟩
  · intro other
    exact Coordinator.onMessage_unknown_iff

end Runs

namespace Trial

def weightless : List Operation := quorumMet ++ [.request (.endTraining ann (update 0))]

/-- Ann has submitted, and then others leave only Bob in the registry. -/
def bobLeft : Coordinator Unit Unit :=
  ((⟨0, opened.next⟩ : Situation Unit Unit).final rules weightless).coordinator.withRegistry
    ((Registry.empty 10000 5000).add 0 bob)

end Trial

/-- Updates that weigh nothing end the session, and Ann, who is not registered, changes nothing. -/
theorem weightless_round_fails :
    let last := Trial.bobLeft.onMessage Trial.rules 1 Trial.bob (.endTraining (Trial.update 0))
    let stranger := Trial.bobLeft.onMessage Trial.rules 1 Trial.ann .startTraining
    Trial.rules.open (.empty 10000 5000) [] () () = .ok Trial.opened ∧
      last.reply = .error (.aggregation .zeroTotalWeight) ∧ last.next.phase = .finished ∧
      last.next.events = [.readLocalWeights Trial.ann 0, .readLocalWeights Trial.bob 0] ∧
      stranger.reply = .error (.unknownParticipant Trial.ann) ∧
      stranger.next = Trial.bobLeft := by
  intro last stranger
  have leaves := failure_leaves_state Trial.starts 0 Trial.weightless
    ((Registry.empty 10000 5000).add 0 Trial.bob)
  rw [← Trial.bobLeft] at leaves
  obtain ⟨_, aborts, _⟩ := leaves 1 Trial.bob (.endTraining (Trial.update 0))
  obtain ⟨kept, _, unknown⟩ := leaves 1 Trial.ann .startTraining
  have failed : last.reply = .error (.aggregation .zeroTotalWeight) := by decide +kernel
  have absent : Trial.bobLeft.registry.contains Trial.ann = false := by decide +kernel
  have refused : stranger.reply = .error (.unknownParticipant Trial.ann) :=
    (unknown Trial.ann).mpr ⟨rfl, absent, nofun⟩
  have waiting : Trial.bobLeft.events = [.readLocalWeights Trial.ann 0] ∧
      Trial.bobLeft.current = 0 := by decide +kernel
  obtain ⟨_, _, _, ended, _, _, _, _, _, grown⟩ := aborts _ failed
  rw [waiting.1, waiting.2] at grown
  exact ⟨Trial.starts, failed, ended, grown, refused, kept _ refused rfl⟩

end FederatedRounds
