import FederatedRounds.Proofs.Coordinator.Trace

/-! What participants are told to train on. All who start training in one round get the same task,
however often the round is abandoned and started again: the weights that were written for the round
before, or the initial ones, and the epochs trained so far. -/
namespace FederatedRounds

/-- The task that an answer gives out, however it was asked for. -/
def Answer.task? : Answer → Option TrainingTask
  | .startTraining (.ok task) | .message (.ok (.startTraining task)) => some task
  | _ => none

/-- The task of a round, after the events `emitted` so far of all those in a `trace`. -/
structure TrainingTask.Due (config : Config) (first : Weights) (emitted trace : List Event)
    (current : UInt32) (task : TrainingTask) : Prop where
  epochs : task.epochs = config.epochs
  epochBase : task.epochBase.toNat = current.toNat * config.epochs.toNat
  initial : current = 0 → task.weights = first
  later : current ≠ 0 → ∃ previous : UInt32, previous.toNat + 1 = current.toNat ∧
    .writeGlobalWeights previous task.weights ∈ emitted ∧
    ∀ weights, .writeGlobalWeights previous weights ∈ trace → weights = task.weights

theorem TrainingTask.Due.unique {config : Config} {first : Weights}
    {emitted others trace : List Event} {current : UInt32} {task other : TrainingTask}
    (due : task.Due config first emitted trace current)
    (again : other.Due config first others trace current) (inside : emitted ⊆ trace) :
    task = other := by
  have epochs := due.epochs.trans again.epochs.symm
  have base := UInt32.toNat_inj.mp (due.epochBase.trans again.epochBase.symm)
  have weights : task.weights = other.weights := by
    by_cases start : current = 0
    · exact (due.initial start).trans (again.initial start).symm
    · obtain ⟨previous, next, written, _⟩ := due.later start
      obtain ⟨same, following, _, only⟩ := again.later start
      have equal : previous = same := UInt32.toNat_inj.mp (by omega)
      rw [equal] at written
      exact only _ (inside written)
  cases task
  cases other
  cases epochs
  cases base
  cases weights
  rfl

section Runs
variable {σ α : Type} {rules : Rules σ α}

/-- The task that is given out in a step. -/
def Step.task? (step : Step σ α) : Option TrainingTask :=
  step.observation.answer.bind Answer.task?

private theorem Answer.task?_startTraining {result : Except CoordinatorError TrainingTask}
    {task : TrainingTask} (told : (Answer.startTraining result).task? = some task) :
    result = .ok task := by
  cases result with
  | error error => cases told
  | ok other => exact congrArg Except.ok (Option.some.inj told)

private theorem Answer.task?_message {result : Except CoordinatorError TrainingTask}
    {task : TrainingTask}
    (told : (Answer.message (result.map Response.startTraining)).task? = some task) :
    result = .ok task := by
  cases result with
  | error error => cases told
  | ok other => exact congrArg Except.ok (Option.some.inj told)

private theorem Answer.task?_heartbeat (result : Except CoordinatorError Heartbeat) :
    (Answer.message (result.map Response.heartbeat)).task? = none := by
  cases result <;> rfl

private theorem Answer.task?_endTraining (result : Except CoordinatorError Unit) :
    (Answer.message (result.map fun _ => Response.endTraining)).task? = none := by
  cases result <;> rfl

namespace Coordinator
variable {now : Instant} {c : Coordinator σ α}

theorem startTraining_reply {id : ParticipantId} {task : TrainingTask}
    (started : (c.startTraining rules id).reply = .ok task) :
    c.phase = .round ∧ task = ⟨c.weights, rules.config.epochs, c.epochBase⟩ := by
  unfold startTraining at started
  split at started
  · cases started
  · next passes =>
    exact ⟨(refusal?_eq_none passes).2.1, (Except.ok.inj started).symm⟩

/-- Tasks are given out in a round, and tell where the session stands. -/
theorem handle_task? {request : Request} {task : TrainingTask}
    (told : (c.handle rules now request).reply.task? = some task) :
    c.phase = .round ∧ task = ⟨c.weights, rules.config.epochs, c.epochBase⟩ := by
  cases request with
  | startTraining id => exact startTraining_reply (Answer.task?_startTraining told)
  | message id message =>
    cases message with
    | rendezvous => cases told
    | heartbeat =>
      have none := Answer.task?_heartbeat (c.heartbeat now id).reply
      exact absurd (none.symm.trans told) nofun
    | startTraining => exact startTraining_reply (Answer.task?_message told)
    | endTraining update =>
      have none := Answer.task?_endTraining (c.endTraining rules id update).reply
      exact absurd (none.symm.trans told) nofun
  | _ => cases told

end Coordinator

theorem Situation.task?_step {s : Situation σ α} {operation : Operation} {task : TrainingTask}
    (told : (s.step rules operation).task? = some task) :
    s.coordinator.phase = .round ∧
      task = ⟨s.coordinator.weights, rules.config.epochs, s.coordinator.epochBase⟩ := by
  cases operation with
  | request request => exact Coordinator.handle_task? told
  | registry change => cases told
  | advance span => cases told
  | takeEvent => cases told

theorem Situation.due_of_task? (valid : rules.config.validate = .ok ()) {s : Situation σ α}
    {first : Weights} (bookkept : s.coordinator.Bookkept rules.config)
    (start : s.coordinator.Published first []) (silent : s.coordinator.events = [])
    {operations : List Operation} {earlier later : List (Step σ α)} {step : Step σ α}
    (split : s.steps rules operations = earlier ++ step :: later) {task : TrainingTask}
    (told : step.task? = some task) :
    task.Due rules.config first (earlier.flatMap Step.emitted) (s.trace rules operations)
      step.before.coordinator.current := by
  have begins : s.coordinator.Published first (s.written rules []) := by
    change s.coordinator.Published first (s.coordinator.events.filterMap Event.written?)
    rw [silent]
    exact start
  obtain ⟨before, operation, rest, rfl, rfl, rfl, _⟩ := steps_eq_append split
  obtain ⟨runs, rfl⟩ := task?_step told
  have kept := s.final_bookkept valid before bookkept
  have published := final_published valid before bookkept begins
  have whole := final_published valid (before ++ operation :: rest) bookkept begins
  obtain ⟨initial, later⟩ := published.latest_of_running runs
  refine ⟨rfl, kept.counted, initial, ?_⟩
  intro started
  obtain ⟨previous, next, written⟩ := later started
  have emitted := mem_written_iff.mp written
  have included : s.trace rules before ⊆ s.trace rules (before ++ operation :: rest) := by
    rw [trace_eq, trace_eq, steps_append, List.flatMap_append, ← List.append_assoc]
    exact List.subset_append_left _ _
  refine ⟨previous, next, ?_, ?_⟩
  · rw [trace_eq, silent] at emitted
    exact emitted
  · intro weights again
    exact whole.unique (mem_written_iff.mpr again) (mem_written_iff.mpr (included emitted))

theorem tasks_of_a_round_agree {registry : Registry} {weights : Weights} {selecting : σ}
    {aggregating : α} {opened : Outcome σ α Unit}
    (starts : rules.open registry weights selecting aggregating = .ok opened) (now : Instant)
    (operations : List Operation) :
    let s : Situation σ α := ⟨now, opened.next⟩
    (∀ one ∈ s.steps rules operations, ∀ other ∈ s.steps rules operations, ∀ task task',
      one.task? = some task → other.task? = some task' →
      one.before.coordinator.current = other.before.coordinator.current → task = task') ∧
      ∀ earlier step later task, s.steps rules operations = earlier ++ step :: later →
        step.task? = some task →
        task.Due rules.config weights (earlier.flatMap Step.emitted) (s.trace rules operations)
          step.before.coordinator.current := by
  obtain ⟨valid, rfl⟩ := Rules.open_eq_ok_iff.mp starts
  intro s
  have each : ∀ earlier step later task, s.steps rules operations = earlier ++ step :: later →
      step.task? = some task →
      task.Due rules.config weights (earlier.flatMap Step.emitted) (s.trace rules operations)
        step.before.coordinator.current := by
    intro earlier step later task split told
    exact Situation.due_of_task? valid (Coordinator.initial_bookkept valid _ _ _ _)
      (Coordinator.initial_published _ _ _ _) rfl split told
  refine ⟨?_, each⟩
  intro one first other second task task' told toldAgain same
  obtain ⟨earlier, later, split⟩ := List.append_of_mem first
  obtain ⟨earlier', later', split'⟩ := List.append_of_mem second
  have due := each earlier one later task split told
  have again := each earlier' other later' task' split' toldAgain
  rw [← same] at again
  refine due.unique again ?_
  rw [Situation.trace_eq, split, List.flatMap_append, ← List.append_assoc]
  exact fun event member => List.mem_append_left _ (List.mem_append_right _ member)

end Runs

namespace Trial

/-- A session of two rounds for which one participant is enough. -/
def solo : Rules Unit Unit := ⟨⟨2, 3, 1, .one⟩, .order, Strategy.identity.aggregator⟩

def alone : Outcome Unit Unit Unit :=
  ⟨(), .initial (.empty 10000 5000) [] () (), [.created solo.config.rounds solo.quorum]⟩

def model : Weights := [⟨[], [.one]⟩]

/-- Ann starts twice in the first round, which she left in between, and then ends it. -/
def firstRoundTwice : List Operation :=
  [.request (.rendezvous ann), .request (.startTraining ann), .request (.remove ann),
    .request (.rendezvous ann), .request (.message ann .startTraining),
    .request (.endTraining ann ⟨model, 1, []⟩)]

end Trial

/-- Ann trained on the initial weights twice, and then on those of the first round. -/
theorem tasks_of_two_rounds :
    let s : Situation Unit Unit := ⟨0, Trial.alone.next⟩
    let step := (s.final Trial.solo Trial.firstRoundTwice).step Trial.solo
      (.request (.startTraining Trial.ann))
    Trial.solo.open (.empty 10000 5000) [] () () = .ok Trial.alone ∧
      (s.steps Trial.solo Trial.firstRoundTwice).filterMap Step.task? =
        [⟨[], 3, 0⟩, ⟨[], 3, 0⟩] ∧
      step.task? = some ⟨Trial.model, 3, 3⟩ ∧
      .writeGlobalWeights 0 Trial.model ∈
        (s.steps Trial.solo Trial.firstRoundTwice).flatMap Step.emitted := by
  intro s step
  have starts : Trial.solo.open (.empty 10000 5000) [] () () = .ok Trial.alone :=
    Rules.open_eq_ok_iff.mpr
      ⟨Config.validate_eq_ok_iff.mpr ⟨by decide, by decide, by decide +kernel, by decide⟩, rfl⟩
  have told : step.task? = some ⟨Trial.model, 3, 3⟩ := by decide +kernel
  have second : step.before.coordinator.current = 1 := by decide +kernel
  obtain ⟨_, due⟩ := tasks_of_a_round_agree starts 0
    (Trial.firstRoundTwice ++ [.request (.startTraining Trial.ann)])
  obtain ⟨previous, next, written, _⟩ :=
    (due _ step [] _ (Situation.steps_append _ _ _) told).later (by rw [second]; decide)
  have first : previous = 0 := by
    rw [second] at next
    exact UInt32.toNat_inj.mp (Nat.succ.inj next)
  rw [first] at written
  exact ⟨starts, by decide +kernel, told, written⟩

end FederatedRounds
