import FederatedRounds.Coordinator.Run
import FederatedRounds.Proofs.Config

/-! What a run shows to those who watch it: its steps with the situations on both sides, the updates
that were accepted, the heartbeats that were answered, and the rounds that were opened and abandoned.
-/
namespace FederatedRounds

/-- All errors refuse the request but a failed aggregation, which comes after it was accepted. -/
def CoordinatorError.isRefusal : CoordinatorError → Bool
  | .aggregation _ => false
  | _ => true

namespace Notice

def opensRound : Notice → Bool
  | .startingRound .. => true
  | _ => false

def abandonsRound : Notice → Bool
  | .abandoned _ => true
  | _ => false

end Notice

namespace Request

/-- The update that a request submits, however it is sent. -/
def submission? : Request → Option (ParticipantId × Update)
  | .endTraining id update | .message id (.endTraining update) => some (id, update)
  | _ => none

/-- The participant that sends a heartbeat, however it is sent. -/
def heartbeat? : Request → Option ParticipantId
  | .heartbeat id | .message id .heartbeat => some id
  | _ => none

end Request

namespace Answer

def error? : Answer → Option CoordinatorError
  | .heartbeat (.error error) | .startTraining (.error error) | .endTraining (.error error)
  | .message (.error error) => some error
  | _ => none

def heartbeat? : Answer → Option Heartbeat
  | .heartbeat (.ok reply) | .message (.ok (.heartbeat reply)) => some reply
  | _ => none

end Answer

namespace Operation

def submission? : Operation → Option (ParticipantId × Update)
  | .request sent => sent.submission?
  | _ => none

def heartbeat? : Operation → Option ParticipantId
  | .request sent => sent.heartbeat?
  | _ => none

/-- Whether others change the registry, and not the coordinator. -/
def isOutside : Operation → Bool
  | .registry _ => true
  | _ => false

end Operation

/-- A step of a run between the situations before and after it. -/
structure Step (σ α : Type) where
  before : Situation σ α
  operation : Operation
  observation : Observation
  after : Situation σ α

namespace Step
variable {σ α : Type}

def error? (step : Step σ α) : Option CoordinatorError :=
  step.observation.answer.bind Answer.error?

/-- The update that is submitted in a step and not refused. -/
def accepted? (step : Step σ α) : Option (ParticipantId × Update) :=
  if step.error?.any CoordinatorError.isRefusal then none else step.operation.submission?

theorem submission?_of_accepted? {step : Step σ α} {submission : ParticipantId × Update}
    (accepted : step.accepted? = some submission) :
    step.operation.submission? = some submission := by
  unfold accepted? at accepted
  split at accepted
  · cases accepted
  · exact accepted

theorem accepted?_of_submission {step : Step σ α} {submission : ParticipantId × Update}
    (submits : step.operation.submission? = some submission) (acknowledged : step.error? = none) :
    step.accepted? = some submission := by
  unfold accepted?
  rw [acknowledged]
  exact submits

/-- The participant whose heartbeat is answered in a step, and the answer. -/
def heartbeat? (step : Step σ α) : Option (ParticipantId × Heartbeat) :=
  step.operation.heartbeat?.bind fun id =>
    (step.observation.answer.bind Answer.heartbeat?).map fun answer => (id, answer)

def opensRound (step : Step σ α) : Bool := step.observation.log.any Notice.opensRound

def abandonsRound (step : Step σ α) : Bool := step.observation.log.any Notice.abandonsRound

end Step

namespace Situation
variable {σ α : Type}

def step (rules : Rules σ α) (operation : Operation) (s : Situation σ α) : Step σ α :=
  let performed := s.perform rules operation
  ⟨s, operation, performed.1, performed.2⟩

def steps (rules : Rules σ α) : List Operation → Situation σ α → List (Step σ α)
  | [], _ => []
  | operation :: rest, s => s.step rules operation :: steps rules rest (s.step rules operation).after

def final (rules : Rules σ α) (operations : List Operation) (s : Situation σ α) : Situation σ α :=
  (s.run rules operations).2

variable {rules : Rules σ α}

@[simp] theorem step_before (operation : Operation) (s : Situation σ α) :
    (s.step rules operation).before = s := rfl

@[simp] theorem final_cons (operation : Operation) (rest : List Operation) (s : Situation σ α) :
    s.final rules (operation :: rest) = (s.step rules operation).after.final rules rest := rfl

theorem final_append (first second : List Operation) (s : Situation σ α) :
    s.final rules (first ++ second) = (s.final rules first).final rules second := by
  induction first generalizing s with
  | nil => rfl
  | cons operation rest ih => exact ih _

theorem steps_append (first second : List Operation) (s : Situation σ α) :
    s.steps rules (first ++ second) =
      s.steps rules first ++ (s.final rules first).steps rules second := by
  induction first generalizing s with
  | nil => rfl
  | cons operation rest ih =>
    rw [List.cons_append, steps, ih]
    rfl

/-- The steps show the same answers as the run. -/
theorem map_observation_steps (operations : List Operation) (s : Situation σ α) :
    (s.steps rules operations).map Step.observation = (s.run rules operations).1 := by
  induction operations generalizing s with
  | nil => rfl
  | cons operation rest ih =>
    rw [steps, List.map_cons, ih]
    rfl

/-- A step stands where it does because the operations before it lead there. -/
theorem steps_eq_append {operations : List Operation} {s : Situation σ α}
    {earlier later : List (Step σ α)} {step : Step σ α}
    (split : s.steps rules operations = earlier ++ step :: later) :
    ∃ first operation rest, operations = first ++ operation :: rest ∧
      earlier = s.steps rules first ∧ step = (s.final rules first).step rules operation ∧
      later = step.after.steps rules rest := by
  induction earlier generalizing operations s with
  | nil =>
    cases operations with
    | nil => simp [steps] at split
    | cons operation rest =>
      rw [steps, List.nil_append] at split
      obtain ⟨head, tail⟩ := List.cons.inj split
      subst head
      exact ⟨[], operation, rest, rfl, rfl, rfl, tail.symm⟩
  | cons other earlier ih =>
    cases operations with
    | nil => simp [steps] at split
    | cons operation rest =>
      rw [steps, List.cons_append] at split
      obtain ⟨head, tail⟩ := List.cons.inj split
      obtain ⟨first, middle, last, cut, before, here, after⟩ := ih tail
      refine ⟨operation :: first, middle, last, by rw [cut, List.cons_append], ?_, here, after⟩
      rw [steps, before, head]

theorem exists_of_mem_steps {operations : List Operation} {s : Situation σ α} {step : Step σ α}
    (member : step ∈ s.steps rules operations) :
    ∃ first operation rest, operations = first ++ operation :: rest ∧
      step = (s.final rules first).step rules operation := by
  obtain ⟨_, _, split⟩ := List.append_of_mem member
  obtain ⟨first, operation, rest, cut, _, here, _⟩ := steps_eq_append split
  exact ⟨first, operation, rest, cut, here⟩

/-- What holds at the start and is kept by every operation of a run holds at its end. -/
theorem final_invariant (Holds : Situation σ α → Prop) {operations : List Operation}
    (kept : ∀ operation ∈ operations, ∀ s, Holds s → Holds (s.step rules operation).after)
    {s : Situation σ α} (start : Holds s) : Holds (s.final rules operations) := by
  induction operations generalizing s with
  | nil => exact start
  | cons operation rest ih =>
    rw [final_cons]
    apply ih
    · intro other member
      exact kept other (List.mem_cons_of_mem _ member)
    · exact kept operation List.mem_cons_self s start

end Situation

theorem Rules.open_eq_ok_iff {σ α : Type} {rules : Rules σ α} {registry : Registry}
    {weights : Weights} {selecting : σ} {aggregating : α} {opened : Outcome σ α Unit} :
    rules.open registry weights selecting aggregating = .ok opened ↔
      rules.config.validate = .ok () ∧
        opened = ⟨(), .initial registry weights selecting aggregating,
          [.created rules.config.rounds rules.quorum]⟩ := by
  unfold Rules.open
  cases rules.config.validate with
  | error error => simp
  | ok => simp [eq_comm]

/-! A small session: two rounds of three epochs, for which two participants must be connected. -/
namespace Trial

def rules : Rules Unit Unit :=
  ⟨⟨2, 3, 2, .one⟩, .order, Strategy.federatedAveraging.aggregator⟩

def ann : ParticipantId := ⟨"ann"⟩

def bob : ParticipantId := ⟨"bob"⟩

def update (weight : UInt64) : Update := ⟨[], weight, []⟩

def opened : Outcome Unit Unit Unit :=
  ⟨(), .initial (.empty 10000 5000) [] () (), [.created rules.config.rounds rules.quorum]⟩

theorem starts : rules.open (.empty 10000 5000) [] () () = .ok opened :=
  Rules.open_eq_ok_iff.mpr
    ⟨Config.validate_eq_ok_iff.mpr ⟨by decide, by decide, by decide +kernel, by decide⟩, rfl⟩

def quorumMet : List Operation := [.request (.rendezvous ann), .request (.rendezvous bob)]

/-- The first round runs, and nothing was submitted yet. -/
def firstRound : Situation Unit Unit :=
  (⟨0, opened.next⟩ : Situation Unit Unit).final rules quorumMet

def reopened : List Operation :=
  quorumMet ++ [.request (.endTraining ann (update 1)), .request (.remove bob),
    .request (.rendezvous bob), .request (.endTraining bob (update 2))]

/-- The first round was abandoned and started again, and lacks one update. -/
def secondAttempt : Situation Unit Unit :=
  (⟨0, opened.next⟩ : Situation Unit Unit).final rules reopened

def completion : Operation := .request (.message ann (.endTraining (update 3)))

end Trial
end FederatedRounds
