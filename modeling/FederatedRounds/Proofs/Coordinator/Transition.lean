import FederatedRounds.Proofs.Coordinator.History
import Mathlib.Tactic.SplitIfs

/-! All that a step can do to a coordinator, said once. Each step has one of a dozen effects, and
what is logged and answered tells which. What holds throughout a session is shown by cases on these
effects, without a look at the operations that lead to them. -/
namespace FederatedRounds

/-- What the aggregator is given for a round. -/
def Round.payloads (r : Round) : List (Weights × UInt64) :=
  r.inSelectionOrder.map fun (_, update) => (update.weights, update.weight)

/-- What a step comes to. An update that completes its round is aggregated: that fails, or ends the
session, or opens the next round. -/
inductive Effect where
  | unchanged
  | eventTaken
  | outside (change : Registry.Change)
  | refreshed (id : ParticipantId)
  | joined (id : ParticipantId)
  | opened (id : ParticipantId)
  | recorded (id : ParticipantId) (update : Update)
  | failed (id : ParticipantId) (update : Update)
  | finished (id : ParticipantId) (update : Update)
  | advanced (id : ParticipantId) (update : Update)
  | removed (id : ParticipantId)
  | abandoned (id : ParticipantId)

namespace Effect

def accepted? : Effect → Option (ParticipantId × Update)
  | recorded id update | failed id update | finished id update | advanced id update =>
    some (id, update)
  | _ => none

def opensRound : Effect → Bool
  | opened _ | advanced _ _ => true
  | _ => false

def abandonsRound : Effect → Bool
  | abandoned _ => true
  | _ => false

def isOutside : Effect → Bool
  | outside _ => true
  | _ => false

def takesEvent : Effect → Bool
  | eventTaken => true
  | _ => false

end Effect

namespace Coordinator
variable {σ α : Type}

/-- A participant whose update is taken: selected for the running round, and heard for the first
time in it. -/
structure Admits (c : Coordinator σ α) (id : ParticipantId) : Prop where
  registered : c.registry.contains id = true
  running : c.phase = .round
  selected : c.round.isSelected id = true
  first : c.round.hasUpdate id = false

def record (c : Coordinator σ α) (id : ParticipantId) (update : Update) : Coordinator σ α :=
  { c with
    round := { c.round with updates := c.round.updates ++ [(id, update)] }
    events := c.events ++ [.readLocalWeights id c.current] }

/-- What the aggregator makes of the round, and its state after that. -/
def aggregation (rules : Rules σ α) (c : Coordinator σ α) : Except AggregationError Weights × α :=
  rules.aggregator.aggregate c.aggregating c.round.payloads

/-- The round closed over new global weights. -/
def publish (rules : Rules σ α) (c : Coordinator σ α) (weights : Weights) : Coordinator σ α :=
  { c with
    round := .empty
    weights
    aggregating := (c.aggregation rules).2
    events := c.events ++
      (c.round.inSelectionOrder.map (fun (id, update) => Event.writeMetrics id update.metrics) ++
        [.writeGlobalWeights c.current weights]) }

/-- The state after a step, by the effect of the step. -/
inductive Transition (rules : Rules σ α) (now : Instant) (c : Coordinator σ α) :
    Effect → Coordinator σ α → Prop
  | unchanged : Transition rules now c .unchanged c
  | eventTaken : Transition rules now c .eventTaken { c with events := c.events.tail }
  | outside (change : Registry.Change) :
      Transition rules now c (.outside change)
        { c with registry := c.registry.change now change }
  | refreshed (id : ParticipantId) (registered : c.registry.contains id = true) :
      Transition rules now c (.refreshed id) { c with registry := c.registry.refresh now id }
  | joined (id : ParticipantId) (absent : c.registry.contains id = false)
      (room : c.registry.size < rules.quorum)
      (waits : ¬(rules.quorum ≤ c.registry.size + 1 ∧ c.phase = .standBy)) :
      Transition rules now c (.joined id) { c with registry := c.registry.add now id }
  | opened (id : ParticipantId) (absent : c.registry.contains id = false)
      (room : c.registry.size < rules.quorum) (reached : rules.quorum ≤ c.registry.size + 1)
      (waiting : c.phase = .standBy) :
      Transition rules now c (.opened id)
        { (openRound rules { c with registry := c.registry.add now id }).1 with phase := .round }
  | recorded (id : ParticipantId) (update : Update) (admitted : c.Admits id)
      (missing : (c.record id update).round.isFinished = false) :
      Transition rules now c (.recorded id update) (c.record id update)
  | failed (id : ParticipantId) (update : Update) (error : AggregationError)
      (admitted : c.Admits id) (last : (c.record id update).round.isFinished = true)
      (refused : ((c.record id update).aggregation rules).1 = .error error) :
      Transition rules now c (.failed id update)
        { c.record id update with
          round := .empty
          aggregating := ((c.record id update).aggregation rules).2
          phase := .finished }
  | finished (id : ParticipantId) (update : Update) (weights : Weights)
      (admitted : c.Admits id) (last : (c.record id update).round.isFinished = true)
      (aggregated : ((c.record id update).aggregation rules).1 = .ok weights)
      (ended : rules.config.rounds ≤ c.current + 1) :
      Transition rules now c (.finished id update)
        { (c.record id update).publish rules weights with phase := .finished }
  | advanced (id : ParticipantId) (update : Update) (weights : Weights)
      (admitted : c.Admits id) (last : (c.record id update).round.isFinished = true)
      (aggregated : ((c.record id update).aggregation rules).1 = .ok weights)
      (more : ¬rules.config.rounds ≤ c.current + 1) :
      Transition rules now c (.advanced id update)
        (openRound rules
          { (c.record id update).publish rules weights with
            current := c.current + 1
            epochBase := c.epochBase + rules.config.epochs }).1
  | removed (id : ParticipantId) (registered : c.registry.contains id = true)
      (kept : ¬(c.phase = .round ∧ (c.registry.remove id).size < rules.quorum)) :
      Transition rules now c (.removed id) { c with registry := c.registry.remove id }
  | abandoned (id : ParticipantId) (registered : c.registry.contains id = true)
      (running : c.phase = .round) (short : (c.registry.remove id).size < rules.quorum) :
      Transition rules now c (.abandoned id)
        { c with registry := c.registry.remove id, phase := .standBy, round := .empty }

end Coordinator

/-- A message that submits an update gets the answer that the update gets when sent on its own. -/
theorem Answer.error?_message (result : Except CoordinatorError Unit) :
    (Answer.message (result.map fun _ => Response.endTraining)).error? =
      (Answer.endTraining result).error? := by
  cases result <;> rfl

open Coordinator (Transition)

/-- The outcome of a request: an effect, told by the log, under which `accepted` is recorded. -/
def Outcome.Shows {σ α ρ : Type} (rules : Rules σ α) (now : Instant) (c : Coordinator σ α)
    (o : Outcome σ α ρ) (accepted : Option (ParticipantId × Update)) : Prop :=
  ∃ effect, Transition rules now c effect o.next ∧ effect.accepted? = accepted ∧
    o.log.any Notice.opensRound = effect.opensRound ∧
    o.log.any Notice.abandonsRound = effect.abandonsRound ∧ effect.isOutside = false ∧
    effect.takesEvent = false

namespace Coordinator
variable {σ α ρ τ : Type} {rules : Rules σ α} {now : Instant} {c : Coordinator σ α}

theorem Shows.map {o : Outcome σ α ρ} {accepted : Option (ParticipantId × Update)}
    (shown : o.Shows rules now c accepted) (f : ρ → τ) : (o.map f).Shows rules now c accepted :=
  shown

theorem rendezvous_shows (id : ParticipantId) :
    (c.rendezvous rules now id).Shows rules now c none := by
  unfold rendezvous
  by_cases full : rules.quorum ≤ c.registry.size
  · rw [if_pos full]
    exact ⟨.unchanged, .unchanged, rfl, rfl, rfl, rfl, rfl⟩
  have room := Nat.not_le.mp full
  rw [if_neg full]
  by_cases registered : c.registry.contains id = true
  · rw [if_pos registered]
    exact ⟨.refreshed id, .refreshed id registered, rfl, rfl, rfl, rfl, rfl⟩
  rw [if_neg registered]
  have absent : c.registry.contains id = false := by simpa using registered
  dsimp only
  rw [Registry.size_add _ _ _ absent]
  by_cases opens : rules.quorum ≤ c.registry.size + 1 ∧ c.phase = .standBy
  · rw [if_pos opens]
    exact ⟨.opened id, .opened id absent room opens.1 opens.2, rfl, rfl, rfl, rfl, rfl⟩
  · rw [if_neg opens]
    exact ⟨.joined id, .joined id absent room opens, rfl, rfl, rfl, rfl, rfl⟩

theorem heartbeat_shows (id : ParticipantId) : (c.heartbeat now id).Shows rules now c none := by
  unfold heartbeat
  by_cases registered : c.registry.contains id = true
  · rw [if_pos registered]
    exact ⟨.refreshed id, .refreshed id registered, rfl, rfl, rfl, rfl, rfl⟩
  · rw [if_neg registered]
    exact ⟨.unchanged, .unchanged, rfl, rfl, rfl, rfl, rfl⟩

theorem startTraining_shows (id : ParticipantId) :
    (c.startTraining rules id).Shows rules now c none := by
  unfold startTraining
  split <;> exact ⟨.unchanged, .unchanged, rfl, rfl, rfl, rfl, rfl⟩

theorem afterRemoval_shows (id : ParticipantId) (registered : c.registry.contains id = true)
    (reply : ρ) :
    (⟨reply, (afterRemoval rules id { c with registry := c.registry.remove id }).1,
      (afterRemoval rules id { c with registry := c.registry.remove id }).2⟩ :
        Outcome σ α ρ).Shows rules now c none := by
  unfold afterRemoval
  dsimp only
  by_cases lost : c.phase = .round ∧ (c.registry.remove id).size < rules.quorum
  · rw [if_pos lost]
    exact ⟨.abandoned id, .abandoned id registered lost.1 lost.2, rfl, rfl, rfl, rfl, rfl⟩
  · rw [if_neg lost]
    exact ⟨.removed id, .removed id registered lost, rfl, rfl, rfl, rfl, rfl⟩

theorem remove_registered {id : ParticipantId} (registered : c.registry.contains id = true) :
    c.remove rules id =
      ⟨(), (afterRemoval rules id { c with registry := c.registry.remove id }).1,
        (afterRemoval rules id { c with registry := c.registry.remove id }).2⟩ := by
  unfold remove
  rw [if_pos registered]

theorem remove_absent {id : ParticipantId} (absent : ¬c.registry.contains id = true) :
    c.remove rules id = ⟨(), c, [.notRegistered id]⟩ := by
  unfold remove
  rw [if_neg absent]

theorem removeExpired_expired {id : ParticipantId} {observed : Instant}
    (expired : c.registry.isExpired observed id = true) :
    c.removeExpired rules id observed =
      ⟨true, (afterRemoval rules id { c with registry := c.registry.remove id }).1,
        (afterRemoval rules id { c with registry := c.registry.remove id }).2⟩ := by
  unfold removeExpired
  rw [if_pos expired]

theorem removeExpired_alive {id : ParticipantId} {observed : Instant}
    (alive : ¬c.registry.isExpired observed id = true) :
    c.removeExpired rules id observed = ⟨false, c, [.notExpired id]⟩ := by
  unfold removeExpired
  rw [if_neg alive]

theorem remove_shows (id : ParticipantId) : (c.remove rules id).Shows rules now c none := by
  by_cases registered : c.registry.contains id = true
  · rw [remove_registered registered]
    exact afterRemoval_shows id registered ()
  · rw [remove_absent registered]
    exact ⟨.unchanged, .unchanged, rfl, rfl, rfl, rfl, rfl⟩

theorem removeExpired_shows (id : ParticipantId) (observed : Instant) :
    (c.removeExpired rules id observed).Shows rules now c none := by
  by_cases expired : c.registry.isExpired observed id = true
  · rw [removeExpired_expired expired]
    exact afterRemoval_shows id (Registry.contains_of_isExpired expired) true
  · rw [removeExpired_alive expired]
    exact ⟨.unchanged, .unchanged, rfl, rfl, rfl, rfl, rfl⟩

theorem refusal?_eq_none {id : ParticipantId} {request : Training}
    (passes : c.refusal? id request = none) :
    c.registry.contains id = true ∧ c.phase = .round ∧ c.round.isSelected id = true := by
  unfold refusal? at passes
  split_ifs at passes with registered running selected
  exact ⟨registered, running, selected⟩

theorem Admits.passes {id : ParticipantId} (admitted : c.Admits id) (request : Training) :
    c.refusal? id request = none := by
  unfold refusal?
  rw [if_pos admitted.registered, if_pos admitted.running, if_pos admitted.selected]

theorem isRefusal_of_refusal? {id : ParticipantId} {request : Training} {error : CoordinatorError}
    (refused : c.refusal? id request = some error) : error.isRefusal = true := by
  unfold refusal? at refused
  split_ifs at refused <;> cases refused <;> rfl

theorem completeRound_failed {error : AggregationError}
    (refused : (c.aggregation rules).1 = .error error) :
    c.completeRound rules = ⟨.error (.aggregation error),
      { c with round := .empty, aggregating := (c.aggregation rules).2, phase := .finished },
      [.aggregating c.current, .aggregationFailed c.current error]⟩ := by
  unfold aggregation Round.payloads at refused ⊢
  unfold completeRound
  dsimp only
  rw [refused]

theorem completeRound_published {weights : Weights}
    (aggregated : (c.aggregation rules).1 = .ok weights) :
    c.completeRound rules = ⟨.ok (), ((c.publish rules weights).advance rules).1,
      .aggregating c.current :: ((c.publish rules weights).advance rules).2⟩ := by
  unfold aggregation Round.payloads at aggregated
  unfold completeRound publish aggregation Round.payloads
  dsimp only
  rw [aggregated]

theorem advance_finished (ended : rules.config.rounds ≤ c.current + 1) :
    c.advance rules = ({ c with phase := .finished }, [.sessionFinished rules.config.rounds]) :=
  if_pos ended

theorem advance_next (more : ¬rules.config.rounds ≤ c.current + 1) :
    c.advance rules = openRound rules
      { c with current := c.current + 1, epochBase := c.epochBase + rules.config.epochs } :=
  if_neg more

/-- The last missing update is aggregated; it is accepted even if that fails. -/
theorem completeRound_shows {id : ParticipantId} {update : Update} (admitted : c.Admits id)
    (last : (c.record id update).round.isFinished = true) :
    ((c.record id update).completeRound rules).Shows rules now c
      (if (Answer.endTraining ((c.record id update).completeRound rules).reply).error?.any
          CoordinatorError.isRefusal then none else some (id, update)) := by
  cases result : ((c.record id update).aggregation rules).1 with
  | error error =>
    rw [completeRound_failed result]
    exact ⟨.failed id update, .failed id update error admitted last result, rfl, rfl, rfl, rfl, rfl⟩
  | ok weights =>
    rw [completeRound_published result]
    by_cases ended : rules.config.rounds ≤ c.current + 1
    · have ends : rules.config.rounds ≤ ((c.record id update).publish rules weights).current + 1 :=
        ended
      rw [advance_finished ends]
      exact ⟨.finished id update, .finished id update weights admitted last result ended,
        rfl, rfl, rfl, rfl, rfl⟩
    · have goes : ¬rules.config.rounds ≤ ((c.record id update).publish rules weights).current + 1 :=
        ended
      rw [advance_next goes]
      exact ⟨.advanced id update, .advanced id update weights admitted last result ended,
        rfl, rfl, rfl, rfl, rfl⟩

theorem endTraining_refused {id : ParticipantId} {update : Update} {error : CoordinatorError}
    (refused : c.refusal? id .finish = some error) :
    c.endTraining rules id update = ⟨.error error, c, []⟩ := by
  unfold endTraining
  rw [refused]

theorem endTraining_repeated {id : ParticipantId} {update : Update}
    (passes : c.refusal? id .finish = none) (again : c.round.hasUpdate id = true) :
    c.endTraining rules id update = ⟨.error (.duplicatedUpdate id), c, []⟩ := by
  have taken : c.round.submit? id update = none := if_pos again
  unfold endTraining
  rw [passes]
  dsimp only
  rw [taken]

theorem endTraining_admitted {id : ParticipantId} {update : Update}
    (passes : c.refusal? id .finish = none) (first : c.round.hasUpdate id = false) :
    c.endTraining rules id update =
      let received := Notice.updateReceived c.current id (c.record id update).round.updates.length
        c.round.selected.length
      if (c.record id update).round.isFinished then
        let completed := (c.record id update).completeRound rules
        ⟨completed.reply, completed.next, received :: completed.log⟩
      else ⟨.ok (), c.record id update, [received]⟩ := by
  have taken : c.round.submit? id update = some (c.record id update).round :=
    if_neg (by simp [first])
  unfold endTraining
  rw [passes]
  dsimp only
  rw [taken]
  rfl

/-- An update is refused, or it is recorded and, being the last one, aggregated. -/
theorem endTraining_shows (id : ParticipantId) (update : Update) :
    (c.endTraining rules id update).Shows rules now c
      (if (Answer.endTraining (c.endTraining rules id update).reply).error?.any
          CoordinatorError.isRefusal then none else some (id, update)) := by
  cases refusal : c.refusal? id .finish with
  | some error =>
    have refuses := isRefusal_of_refusal? refusal
    rw [endTraining_refused refusal]
    refine ⟨.unchanged, .unchanged, ?_, rfl, rfl, rfl, rfl⟩
    simp [Answer.error?, refuses, Effect.accepted?]
  | none =>
    obtain ⟨registered, running, selected⟩ := refusal?_eq_none refusal
    by_cases again : c.round.hasUpdate id = true
    · rw [endTraining_repeated refusal again]
      exact ⟨.unchanged, .unchanged, rfl, rfl, rfl, rfl, rfl⟩
    have first : c.round.hasUpdate id = false := by simpa using again
    have admitted : c.Admits id := ⟨registered, running, selected, first⟩
    rw [endTraining_admitted refusal first]
    dsimp only
    by_cases last : (c.record id update).round.isFinished = true
    · simp only [last, if_true]
      exact completeRound_shows admitted last
    · simp only [last]
      have missing : (c.record id update).round.isFinished = false := by simpa using last
      exact ⟨.recorded id update, .recorded id update admitted missing, rfl, rfl, rfl, rfl, rfl⟩

theorem Shows.received {o : Outcome σ α ρ} {accepted : Option (ParticipantId × Update)}
    (shown : o.Shows rules now c accepted) (message : Message) (id : ParticipantId) :
    ({ o with log := .received message id :: o.log } : Outcome σ α ρ).Shows rules now c accepted :=
  shown

theorem onMessage_shows (id : ParticipantId) (message : Message) :
    (c.onMessage rules now id message).Shows rules now c
      (if (Answer.message (c.onMessage rules now id message).reply).error?.any
          CoordinatorError.isRefusal then none else (Request.message id message).submission?) := by
  cases message with
  | rendezvous =>
    simp only [Request.submission?, ite_self]
    exact Shows.received (Shows.map (rendezvous_shows id) _) _ id
  | heartbeat =>
    simp only [Request.submission?, ite_self]
    exact Shows.received (Shows.map (heartbeat_shows id) _) _ id
  | startTraining =>
    simp only [Request.submission?, ite_self]
    exact Shows.received (Shows.map (startTraining_shows id) _) _ id
  | endTraining update =>
    have same : (Answer.message (c.onMessage rules now id (.endTraining update)).reply).error? =
        (Answer.endTraining (c.endTraining rules id update).reply).error? :=
      Answer.error?_message _
    rw [same]
    exact Shows.received (Shows.map (endTraining_shows id update) _) _ id

theorem handle_shows (request : Request) :
    (c.handle rules now request).Shows rules now c
      (if (c.handle rules now request).reply.error?.any CoordinatorError.isRefusal then none
        else request.submission?) := by
  cases request with
  | rendezvous id =>
    simp only [Request.submission?, ite_self]
    exact Shows.map (rendezvous_shows id) _
  | heartbeat id =>
    simp only [Request.submission?, ite_self]
    exact Shows.map (heartbeat_shows id) _
  | startTraining id =>
    simp only [Request.submission?, ite_self]
    exact Shows.map (startTraining_shows id) _
  | endTraining id update => exact Shows.map (endTraining_shows id update) _
  | message id message => exact Shows.map (onMessage_shows id message) _
  | remove id =>
    simp only [Request.submission?, ite_self]
    exact Shows.map (remove_shows id) _
  | removeExpired id observed =>
    simp only [Request.submission?, ite_self]
    exact Shows.map (removeExpired_shows id observed) _

theorem next_of_submission {request : Request} {id : ParticipantId} {update : Update}
    (submits : request.submission? = some (id, update)) :
    (c.handle rules now request).next = (c.endTraining rules id update).next := by
  unfold Request.submission? at submits
  split at submits
  · cases submits
    rfl
  · cases submits
    rfl
  · cases submits

theorem endTraining_last {id : ParticipantId} {update : Update} (admitted : c.Admits id)
    (last : (c.record id update).round.isFinished = true) :
    (c.endTraining rules id update).next = ((c.record id update).completeRound rules).next := by
  rw [endTraining_admitted (admitted.passes _) admitted.first]
  dsimp only
  rw [if_pos last]

end Coordinator

/-- A step with its effect, and what of the effect is seen from outside. -/
structure Step.Shows {σ α : Type} (rules : Rules σ α) (step : Step σ α) (effect : Effect) :
    Prop where
  transition :
    Transition rules step.before.now step.before.coordinator effect step.after.coordinator
  accepted : step.accepted? = effect.accepted?
  opens : step.opensRound = effect.opensRound
  abandons : step.abandonsRound = effect.abandonsRound
  outside : step.operation.isOutside = effect.isOutside
  taken : step.observation.taken =
    if effect.takesEvent then step.before.coordinator.events.head? else none

theorem Situation.step_shows {σ α : Type} (rules : Rules σ α) (operation : Operation)
    (s : Situation σ α) : ∃ effect, (s.step rules operation).Shows rules effect := by
  cases operation with
  | request request =>
    have shown : (s.coordinator.handle rules s.now request).Shows rules s.now s.coordinator _ :=
      Coordinator.handle_shows request
    obtain ⟨effect, transition, accepted, opens, abandons, inside, kept⟩ := shown
    refine ⟨effect, transition, accepted.symm, opens, abandons, inside.symm, ?_⟩
    rw [kept]
    rfl
  | registry change => exact ⟨.outside change, .outside change, rfl, rfl, rfl, rfl, rfl⟩
  | advance span => exact ⟨.unchanged, .unchanged, rfl, rfl, rfl, rfl, rfl⟩
  | takeEvent => exact ⟨.eventTaken, .eventTaken, rfl, rfl, rfl, rfl, rfl⟩

theorem Situation.exists_shows_of_mem {σ α : Type} {rules : Rules σ α}
    {operations : List Operation} {s : Situation σ α} {step : Step σ α}
    (member : step ∈ s.steps rules operations) : ∃ effect, step.Shows rules effect := by
  induction operations generalizing s with
  | nil => exact absurd member List.not_mem_nil
  | cons operation rest ih =>
    rcases List.mem_cons.mp member with rfl | inside
    · exact s.step_shows rules operation
    · exact ih inside

theorem Coordinator.Transition.standBy_of_abandons {σ α : Type} {rules : Rules σ α} {now : Instant}
    {c c' : Coordinator σ α} {effect : Effect} (transition : Transition rules now c effect c')
    (abandons : effect.abandonsRound = true) : c'.phase = .standBy := by
  cases transition with
  | abandoned => rfl
  | _ => cases abandons

end FederatedRounds
