import FederatedRounds.Proofs.Coordinator.Grammar
import FederatedRounds.Proofs.Coordinator.OpenRound

/-! The end of a session. Once it is reached, after the last round or because updates could not be
aggregated, only the registry moves, and events are taken off the queue. Participants come and go as
before, but whatever becomes of the quorum, no round is opened again. -/
namespace FederatedRounds

/-- The participant that asks to start or to end training, however it asks. -/
def Request.training? : Request → Option (ParticipantId × Training)
  | .startTraining id | .message id .startTraining => some (id, .start)
  | .endTraining id _ | .message id (.endTraining _) => some (id, .finish)
  | _ => none

namespace Coordinator
variable {σ α : Type} {rules : Rules σ α} {now : Instant} {c c' c'' : Coordinator σ α}
  {effect : Effect} {id : ParticipantId}

/-- Two states between which only the registry moved, and events were taken off the queue. -/
def Rests (c c' : Coordinator σ α) : Prop :=
  ∃ registry taken, c' = { c with registry, events := c.events.drop taken }

theorem Rests.refl (c : Coordinator σ α) : c.Rests c := ⟨c.registry, 0, rfl⟩

theorem Rests.trans (first : c.Rests c') (second : c'.Rests c'') : c.Rests c'' := by
  obtain ⟨_, taken, rfl⟩ := first
  obtain ⟨registry, more, rfl⟩ := second
  exact ⟨registry, taken + more, by rw [List.drop_drop]⟩

theorem Rests.phase (rests : c.Rests c') : c'.phase = c.phase := by
  obtain ⟨_, _, rfl⟩ := rests
  rfl

theorem Rests.current (rests : c.Rests c') : c'.current = c.current := by
  obtain ⟨_, _, rfl⟩ := rests
  rfl

/-- All transitions to another phase start in a round or in stand-by. -/
theorem Transition.of_finished (ended : c.phase = .finished)
    (transition : Transition rules now c effect c') :
    c' = { c with
        registry := c'.registry
        events := c.events.drop (if effect.takesEvent then 1 else 0) } ∧
      c.emission c' effect = [] := by
  have running (runs : c.phase = .round) : False := by
    rw [ended] at runs
    cases runs
  cases transition with
  | eventTaken =>
    rw [← List.drop_one]
    exact ⟨rfl, rfl⟩
  | opened id absent room reached waiting =>
    rw [ended] at waiting
    cases waiting
  | recorded id update admitted => exact (running admitted.running).elim
  | failed id update error admitted => exact (running admitted.running).elim
  | finished id update weights admitted => exact (running admitted.running).elim
  | advanced id update weights admitted => exact (running admitted.running).elim
  | abandoned id registered runs => exact (running runs).elim
  | _ => exact ⟨rfl, rfl⟩

theorem handle_of_finished (ended : c.phase = .finished) (request : Request) :
    (c.handle rules now request).next =
      c.withRegistry (c.handle rules now request).next.registry := by
  obtain ⟨effect, transition, _, _, _, _, kept⟩ :
      (c.handle rules now request).Shows rules now c _ := handle_shows request
  have next := (transition.of_finished ended).1
  rw [kept] at next
  exact next

theorem heartbeat_registered (registered : c.registry.contains id = true) :
    (c.heartbeat now id).reply = .ok ⟨c.phaseFor id, c.current⟩ := by
  unfold heartbeat
  rw [if_pos registered]

theorem handle_heartbeat {request : Request} (beats : request.heartbeat? = some id)
    (registered : c.registry.contains id = true) :
    (c.handle rules now request).reply.heartbeat? = some ⟨c.phaseFor id, c.current⟩ := by
  unfold Request.heartbeat? at beats
  split at beats
  · cases beats
    change (Answer.heartbeat (c.heartbeat now id).reply).heartbeat? = _
    rw [heartbeat_registered registered]
    rfl
  · cases beats
    change (Answer.message ((c.heartbeat now id).reply.map .heartbeat)).heartbeat? = _
    rw [heartbeat_registered registered]
    rfl
  · cases beats

/-- A request to train that is refused is answered with the reason and changes nothing. -/
theorem handle_refused {request : Request} {training : Training} {error : CoordinatorError}
    (asks : request.training? = some (id, training))
    (refused : c.refusal? id training = some error) :
    (c.handle rules now request).reply.error? = some error ∧
      (c.handle rules now request).next = c := by
  unfold Request.training? at asks
  split at asks
  · cases asks
    refine ⟨?_, startTraining_next id⟩
    change (Answer.startTraining (c.startTraining rules id).reply).error? = _
    rw [startTraining_error_iff.mpr refused]
    rfl
  · cases asks
    refine ⟨?_, startTraining_next id⟩
    change (Answer.message ((c.startTraining rules id).reply.map .startTraining)).error? = _
    rw [startTraining_error_iff.mpr refused]
    rfl
  · cases asks
    change (Answer.endTraining (c.endTraining rules id _).reply).error? = _ ∧
      (c.endTraining rules id _).next = c
    rw [endTraining_refused refused]
    exact ⟨rfl, rfl⟩
  · cases asks
    change (Answer.message ((c.endTraining rules id _).reply.map fun _ => .endTraining)).error? =
      _ ∧ (c.endTraining rules id _).next = c
    rw [endTraining_refused refused]
    exact ⟨rfl, rfl⟩
  · cases asks

theorem refusal?_of_not_running (elsewhere : c.phase ≠ .round) (id : ParticipantId)
    (training : Training) :
    c.refusal? id training = some (if c.registry.contains id then
      .invalidRequest (.outsideRound id training) else .unknownParticipant id) := by
  unfold refusal?
  rw [if_neg elsewhere]
  split <;> rfl

theorem phaseFor_of_finished (ended : c.phase = .finished) (id : ParticipantId) :
    c.phaseFor id = .finished := by
  unfold phaseFor
  rw [if_neg, ended]
  rw [ended]
  nofun

end Coordinator

section Runs
variable {σ α : Type} {rules : Rules σ α}

theorem Situation.final_rests (operations : List Operation) {s : Situation σ α}
    (ended : s.coordinator.phase = .finished) :
    s.coordinator.Rests (s.final rules operations).coordinator ∧
      (s.steps rules operations).flatMap Step.emitted = [] := by
  induction operations generalizing s with
  | nil => exact ⟨.refl _, rfl⟩
  | cons operation rest ih =>
    obtain ⟨effect, shown⟩ := s.step_shows rules operation
    obtain ⟨next, silent⟩ := shown.transition.of_finished ended
    have rests : s.coordinator.Rests (s.step rules operation).after.coordinator :=
      ⟨_, _, next⟩
    obtain ⟨further, silence⟩ := ih (rests.phase.trans ended)
    refine ⟨rests.trans further, ?_⟩
    rw [steps, List.flatMap_cons, shown.emitted]
    exact List.append_eq_nil_iff.mpr ⟨silent, silence⟩

theorem finished_session_rests {registry : Registry} {weights : Weights} {selecting : σ}
    {aggregating : α} {opened : Outcome σ α Unit}
    (starts : rules.open registry weights selecting aggregating = .ok opened) (now : Instant)
    (operations later : List Operation) :
    let s := (⟨now, opened.next⟩ : Situation σ α).final rules operations
    let t := s.final rules later
    s.coordinator.phase = .finished →
      s.coordinator.round = .empty ∧
        (∃ taken, t.coordinator = { s.coordinator with
          registry := t.coordinator.registry
          events := s.coordinator.events.drop taken }) ∧
        (s.steps rules later).flatMap Step.emitted = [] ∧
        ∀ instant request, let outcome := t.coordinator.handle rules instant request
          outcome.next = t.coordinator.withRegistry outcome.next.registry ∧
            (∀ id, request.heartbeat? = some id → t.coordinator.registry.contains id = true →
              outcome.reply.heartbeat? = some ⟨.finished, s.coordinator.current⟩) ∧
            ∀ id training, request.training? = some (id, training) →
              outcome.next = t.coordinator ∧
                outcome.reply.error? = some (if t.coordinator.registry.contains id then
                  .invalidRequest (.outsideRound id training) else .unknownParticipant id) := by
  obtain ⟨_, rfl⟩ := Rules.open_eq_ok_iff.mp starts
  intro s t ended
  obtain ⟨rests, silent⟩ := Situation.final_rests later ended
  have still : t.coordinator.phase = .finished := rests.phase.trans ended
  refine ⟨?_, ?_, silent, ?_⟩
  · exact Situation.final_idle operations (fun _ => rfl) (by rw [ended]; nofun)
  · obtain ⟨registry, taken, same⟩ := rests
    exact ⟨taken, by rw [same]⟩
  · intro instant request outcome
    refine ⟨Coordinator.handle_of_finished still request, ?_, ?_⟩
    · intro id beats registered
      rw [Coordinator.handle_heartbeat beats registered, Coordinator.phaseFor_of_finished still,
        rests.current]
    · intro id training asks
      have elsewhere : t.coordinator.phase ≠ .round := by
        rw [still]
        nofun
      have refused := Coordinator.refusal?_of_not_running elsewhere id training
      exact (Coordinator.handle_refused asks refused).symm

end Runs

namespace Trial

/-- Updates that weigh nothing end the session. -/
def ended : Situation Unit Unit :=
  (⟨0, opened.next⟩ : Situation Unit Unit).final rules
    (weightless ++ [.request (.endTraining bob (update 0))])

/-- Both participants leave, and both come back. -/
def comeback : List Operation :=
  [.request (.remove ann), .takeEvent, .request (.remove bob), .request (.rendezvous ann),
    .request (.rendezvous bob)]

def rejoined : Situation Unit Unit := ended.final rules comeback

end Trial

/-- The quorum is met again after the end, and no round is opened for it. -/
theorem quorum_met_after_end :
    let beat := Trial.rejoined.coordinator.handle Trial.rules 7 (.heartbeat Trial.ann)
    let start := Trial.rejoined.coordinator.handle Trial.rules 7 (.message Trial.bob .startTraining)
    Trial.rules.open (.empty 10000 5000) [] () () = .ok Trial.opened ∧
      Trial.ended.coordinator.phase = .finished ∧
      Trial.rejoined.coordinator.registry.size = Trial.rules.quorum ∧
      Trial.rejoined.coordinator.phase = .finished ∧
      Trial.rejoined.coordinator.events.length < Trial.ended.coordinator.events.length ∧
      (Trial.ended.steps Trial.rules Trial.comeback).flatMap Step.emitted = [] ∧
      beat.reply.heartbeat? = some ⟨.finished, 0⟩ ∧
      start.reply.error? = some (.invalidRequest (.outsideRound Trial.bob .start)) := by
  intro beat start
  have rests := finished_session_rests Trial.starts 0
    (Trial.weightless ++ [.request (.endTraining Trial.bob (Trial.update 0))]) Trial.comeback
  dsimp only at rests
  rw [← Trial.ended, ← Trial.rejoined] at rests
  have ended : Trial.ended.coordinator.phase = .finished ∧
      Trial.ended.coordinator.current = 0 := by decide +kernel
  have registered : Trial.rejoined.coordinator.registry.contains Trial.ann = true ∧
      Trial.rejoined.coordinator.registry.contains Trial.bob = true := by decide +kernel
  obtain ⟨_, ⟨_, same⟩, silent, answers⟩ := rests ended.1
  obtain ⟨_, beats, _⟩ := answers 7 (.heartbeat Trial.ann)
  obtain ⟨_, _, trains⟩ := answers 7 (.message Trial.bob .startTraining)
  have told := beats Trial.ann rfl registered.1
  have refused := (trains Trial.bob .start rfl).2
  rw [ended.2] at told
  rw [registered.2, if_pos rfl] at refused
  have still := congrArg Coordinator.phase same
  dsimp only at still
  rw [ended.1] at still
  exact ⟨Trial.starts, ended.1, by decide +kernel, still, by decide +kernel, silent, told, refused⟩

end FederatedRounds
