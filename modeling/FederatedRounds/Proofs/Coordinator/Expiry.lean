import FederatedRounds.Proofs.Coordinator.Failure
import FederatedRounds.Proofs.Coordinator.Quorum
import FederatedRounds.Proofs.Registry

/-! When participants expire. The expiry of a participant is that of the last accepted rendezvous or
answered heartbeat of its own since it was added, and no other request moves it. A removal that was
asked for because of an expiry observed earlier therefore finds the participant as it is by then,
however many requests were handled in between. -/
namespace FederatedRounds

namespace Request

/-- The participant heard from in a request, given the answer to it. -/
def heard? : Request → Answer → Option ParticipantId
  | .rendezvous id, .rendezvous .accept => some id
  | .heartbeat id, .heartbeat (.ok _) => some id
  | .message id .rendezvous, .message (.ok (.rendezvous .accept)) => some id
  | .message id .heartbeat, .message (.ok (.heartbeat _)) => some id
  | _, _ => none

/-- The participant that a request asks to remove, unless the answer is that it was not. -/
def dropped? : Request → Answer → Option ParticipantId
  | .remove id, .removed => some id
  | .removeExpired id _, .removedExpired true => some id
  | _, _ => none

theorem heard?_rendezvous (id : ParticipantId) (reply : Rendezvous) :
    (rendezvous id).heard? (.rendezvous reply) = (if reply = .accept then some id else none) ∧
      (message id .rendezvous).heard? (.message (.ok (.rendezvous reply))) =
        if reply = .accept then some id else none := by
  cases reply <;> exact ⟨rfl, rfl⟩

theorem heard?_heartbeat (id : ParticipantId) (result : Except CoordinatorError Heartbeat) :
    (heartbeat id).heard? (.heartbeat result) = (if result.isOk then some id else none) ∧
      (message id .heartbeat).heard? (.message (result.map .heartbeat)) =
        if result.isOk then some id else none := by
  cases result <;> exact ⟨rfl, rfl⟩

theorem dropped?_removeExpired (id : ParticipantId) (observed : Instant) (whether : Bool) :
    (removeExpired id observed).dropped? (.removedExpired whether) =
      if whether then some id else none := by
  cases whether <;> rfl

end Request

namespace Step
variable {σ α : Type}

def heard? (step : Step σ α) : Option ParticipantId :=
  match step.operation, step.observation.answer with
  | .request sent, some answer => sent.heard? answer
  | _, _ => none

def dropped? (step : Step σ α) : Option ParticipantId :=
  match step.operation, step.observation.answer with
  | .request sent, some answer => sent.dropped? answer
  | _, _ => none

/-- Nothing is heard of a participant in a step, and it is not removed either. -/
def Skips (step : Step σ α) (id : ParticipantId) : Prop :=
  step.heard? ≠ some id ∧ step.dropped? ≠ some id

end Step

/-- A participant was heard from at an instant, and later steps do not concern it. -/
def LastHeard {σ α : Type} (steps : List (Step σ α)) (id : ParticipantId) (heardAt : Instant) :
    Prop :=
  ∃ earlier step later, steps = earlier ++ step :: later ∧ step.heard? = some id ∧
    step.before.now = heardAt ∧ ∀ other ∈ later, other.Skips id

/-- What an outcome does to the expiries: that of the participant heard from is given anew, and the
one of a dropped participant is gone. -/
def Outcome.Dates {σ α ρ : Type} (now : Instant) (c : Coordinator σ α) (o : Outcome σ α ρ)
    (heard dropped : Option ParticipantId) : Prop :=
  ∀ id, o.next.registry.expiry? id =
    if heard = some id then some (c.registry.expiryFrom now)
    else if dropped = some id then none
    else c.registry.expiry? id

namespace Coordinator
variable {σ α ρ : Type} {rules : Rules σ α} {now : Instant} {c c' : Coordinator σ α}
  {effect : Effect} {id : ParticipantId}

theorem Dates.map {τ : Type} {o : Outcome σ α ρ} {heard dropped : Option ParticipantId}
    (dates : o.Dates now c heard dropped) (f : ρ → τ) : (o.map f).Dates now c heard dropped :=
  dates

theorem Dates.received {o : Outcome σ α ρ} {heard dropped : Option ParticipantId}
    (dates : o.Dates now c heard dropped) (message : Message) (id : ParticipantId) :
    ({ o with log := .received message id :: o.log } : Outcome σ α ρ).Dates now c heard dropped :=
  dates

theorem dates_of_same {o : Outcome σ α ρ} (same : o.next.registry = c.registry) :
    o.Dates now c none none := by
  intro id
  rw [same]
  rfl

theorem dates_of_add {o : Outcome σ α ρ} (added : o.next.registry = c.registry.add now id) :
    o.Dates now c (some id) none := by
  intro other
  rw [added, Registry.expiry?_add]
  simp [eq_comm]

theorem dates_of_remove {o : Outcome σ α ρ} (removed : o.next.registry = c.registry.remove id) :
    o.Dates now c none (some id) := by
  intro other
  rw [removed, Registry.expiry?_remove]
  simp [eq_comm]

theorem openRound_registry (rules : Rules σ α) (c : Coordinator σ α) :
    (openRound rules c).1.registry = c.registry := by
  unfold openRound
  split
  rfl

theorem rendezvous_dates (id : ParticipantId) :
    (c.rendezvous rules now id).Dates now c
      (if (c.rendezvous rules now id).reply = .accept then some id else none) none := by
  simp only [rendezvous_accepts_iff]
  unfold rendezvous
  by_cases full : rules.quorum ≤ c.registry.size
  · rw [if_pos full, if_neg (Nat.not_lt.mpr full)]
    exact dates_of_same rfl
  rw [if_neg full, if_pos (Nat.not_le.mp full)]
  -- A refreshed participant gets the expiry that it would get if it were added.
  by_cases registered : c.registry.contains id = true
  · rw [if_pos registered]
    exact dates_of_add (c.registry.add_of_contains now registered).symm
  rw [if_neg registered]
  dsimp only
  split
  · exact dates_of_add (openRound_registry rules _)
  · exact dates_of_add rfl

theorem heartbeat_dates (id : ParticipantId) :
    (c.heartbeat now id).Dates now c
      (if (c.heartbeat now id).reply.isOk then some id else none) none := by
  unfold heartbeat
  by_cases registered : c.registry.contains id = true
  · rw [if_pos registered]
    exact dates_of_add (c.registry.add_of_contains now registered).symm
  · rw [if_neg registered]
    exact dates_of_same rfl

theorem Submission.registry {update : Update} {reply : Except CoordinatorError Unit}
    (comes : Submission rules c id update reply c') : c'.registry = c.registry := by
  cases comes with
  | completed weights =>
    unfold advance
    split
    · rfl
    · exact openRound_registry rules _
  | _ => rfl

theorem afterRemoval_registry (id : ParticipantId) :
    (afterRemoval rules id c).1.registry = c.registry := by
  unfold afterRemoval
  dsimp only
  split <;> rfl

theorem remove_dates (id : ParticipantId) : (c.remove rules id).Dates now c none (some id) := by
  by_cases registered : c.registry.contains id = true
  · rw [remove_registered registered]
    exact dates_of_remove (afterRemoval_registry id)
  · rw [remove_absent registered]
    intro other
    have absent : c.registry.contains id = false := by simpa using registered
    by_cases same : id = other
    · subst same
      simp [Registry.expiry?_of_absent absent]
    · simp [same]

theorem removeExpired_reply (id : ParticipantId) (observed : Instant) :
    (c.removeExpired rules id observed).reply = c.registry.isExpired observed id := by
  by_cases expired : c.registry.isExpired observed id = true
  · rw [removeExpired_expired expired, expired]
  · rw [removeExpired_alive expired]
    simpa using expired

theorem removeExpired_registry (id : ParticipantId) (observed : Instant) :
    (c.removeExpired rules id observed).next.registry = c.registry.removeIfExpired observed id := by
  unfold Registry.removeIfExpired
  by_cases expired : c.registry.isExpired observed id = true
  · rw [removeExpired_expired expired, if_pos expired]
    exact afterRemoval_registry id
  · rw [removeExpired_alive expired, if_neg expired]

theorem removeExpired_removes {observed : Instant}
    (removes : (c.removeExpired rules id observed).reply = true) :
    (c.removeExpired rules id observed).next.registry = c.registry.remove id := by
  rw [removeExpired_reply] at removes
  rw [removeExpired_registry, Registry.removeIfExpired, if_pos removes]

theorem removeExpired_stays {observed : Instant}
    (stays : (c.removeExpired rules id observed).reply = false) :
    (c.removeExpired rules id observed).next = c := by
  rw [removeExpired_reply] at stays
  rw [removeExpired_alive (by simp [stays])]

theorem removeExpired_dates (id : ParticipantId) (observed : Instant) :
    (c.removeExpired rules id observed).Dates now c none
      (if (c.removeExpired rules id observed).reply then some id else none) := by
  cases replied : (c.removeExpired rules id observed).reply with
  | true => exact dates_of_remove (removeExpired_removes replied)
  | false => exact dates_of_same (congrArg registry (removeExpired_stays replied))

theorem onMessage_dates (id : ParticipantId) (message : Message) :
    (c.onMessage rules now id message).Dates now c
      ((Request.message id message).heard? (.message (c.onMessage rules now id message).reply))
      none := by
  cases message with
  | rendezvous =>
    have heard : (Request.message id .rendezvous).heard?
        (.message (c.onMessage rules now id .rendezvous).reply) =
          if (c.rendezvous rules now id).reply = .accept then some id else none :=
      (Request.heard?_rendezvous id _).2
    rw [heard]
    exact Dates.received (Dates.map (rendezvous_dates id) _) _ id
  | heartbeat =>
    have heard : (Request.message id .heartbeat).heard?
        (.message (c.onMessage rules now id .heartbeat).reply) =
          if (c.heartbeat now id).reply.isOk then some id else none :=
      (Request.heard?_heartbeat id _).2
    rw [heard]
    exact Dates.received (Dates.map (heartbeat_dates id) _) _ id
  | startTraining => exact dates_of_same (congrArg registry (startTraining_next id))
  | endTraining update => exact dates_of_same (endTraining_submission rules c id update).registry

theorem handle_dates (request : Request) :
    (c.handle rules now request).Dates now c
      (request.heard? (c.handle rules now request).reply)
      (request.dropped? (c.handle rules now request).reply) := by
  cases request with
  | rendezvous id =>
    have heard : (Request.rendezvous id).heard? (c.handle rules now (.rendezvous id)).reply =
        if (c.rendezvous rules now id).reply = .accept then some id else none :=
      (Request.heard?_rendezvous id _).1
    rw [heard]
    exact Dates.map (rendezvous_dates id) _
  | heartbeat id =>
    have heard : (Request.heartbeat id).heard? (c.handle rules now (.heartbeat id)).reply =
        if (c.heartbeat now id).reply.isOk then some id else none :=
      (Request.heard?_heartbeat id _).1
    rw [heard]
    exact Dates.map (heartbeat_dates id) _
  | startTraining id => exact dates_of_same (congrArg registry (startTraining_next id))
  | endTraining id update => exact dates_of_same (endTraining_submission rules c id update).registry
  | message id message => exact Dates.map (onMessage_dates id message) _
  | remove id => exact Dates.map (remove_dates id) _
  | removeExpired id observed =>
    have dropped : (Request.removeExpired id observed).dropped?
        (c.handle rules now (.removeExpired id observed)).reply =
          if (c.removeExpired rules id observed).reply then some id else none :=
      Request.dropped?_removeExpired id observed _
    rw [dropped]
    exact Dates.map (removeExpired_dates id observed) _

/-- All that a step does to the registry could be done by others at the same instant. -/
theorem Transition.registry (transition : Transition rules now c effect c') :
    c'.registry = c.registry ∨ ∃ change, c'.registry = c.registry.change now change := by
  cases transition with
  | outside change => exact Or.inr ⟨change, rfl⟩
  | refreshed id => exact Or.inr ⟨.refresh id, rfl⟩
  | joined id => exact Or.inr ⟨.add id, rfl⟩
  | opened id => exact Or.inr ⟨.add id, openRound_registry rules _⟩
  | removed id => exact Or.inr ⟨.remove id, rfl⟩
  | abandoned id => exact Or.inr ⟨.remove id, rfl⟩
  | advanced => exact Or.inl (openRound_registry rules _)
  | _ => exact Or.inl rfl

theorem Transition.expiryFrom (transition : Transition rules now c effect c') :
    c'.registry.expiryFrom = c.registry.expiryFrom := by
  rcases transition.registry with same | ⟨change, changed⟩
  · rw [same]
  · rw [changed, Registry.expiryFrom_change]

end Coordinator

section Runs
variable {σ α : Type} {rules : Rules σ α} {id : ParticipantId} {heardAt : Instant}

theorem lastHeard_cons {step : Step σ α} {rest : List (Step σ α)} :
    LastHeard (step :: rest) id heardAt ↔ LastHeard rest id heardAt ∨
      step.heard? = some id ∧ step.before.now = heardAt ∧ ∀ other ∈ rest, other.Skips id := by
  constructor
  · rintro ⟨earlier, last, later, split, heard, instant, skipped⟩
    cases earlier with
    | nil =>
      obtain ⟨rfl, rfl⟩ := List.cons.inj split
      exact Or.inr ⟨heard, instant, skipped⟩
    | cons first earlier =>
      obtain ⟨rfl, cut⟩ := List.cons.inj split
      exact Or.inl ⟨earlier, last, later, cut, heard, instant, skipped⟩
  · rintro (⟨earlier, last, later, rfl, heard⟩ | ⟨heard, instant, skipped⟩)
    · exact ⟨step :: earlier, last, later, rfl, heard⟩
    · exact ⟨[], step, rest, rfl, heard, instant, skipped⟩

/-- Nothing heard before is later than what was heard last. -/
theorem LastHeard.latest {steps : List (Step σ α)} (last : LastHeard steps id heardAt)
    (ordered : steps.Pairwise fun first second => first.before.now ≤ second.before.now)
    {step : Step σ α} (member : step ∈ steps) (heard : step.heard? = some id) :
    step.before.now ≤ heardAt := by
  obtain ⟨earlier, final, later, rfl, _, rfl, skipped⟩ := last
  obtain ⟨_, _, before⟩ := List.pairwise_append.mp ordered
  rcases List.mem_append.mp member with first | rest
  · exact before step first final List.mem_cons_self
  rcases List.mem_cons.mp rest with rfl | after
  · exact Nat.le_refl _
  · exact absurd heard (skipped step after).1

namespace Situation

theorem step_expiry? (s : Situation σ α) {operation : Operation}
    (inside : operation.isOutside = false) (id : ParticipantId) :
    (s.step rules operation).after.coordinator.registry.expiry? id =
      if (s.step rules operation).heard? = some id then
        some (s.coordinator.registry.expiryFrom s.now)
      else if (s.step rules operation).dropped? = some id then none
      else s.coordinator.registry.expiry? id := by
  cases operation with
  | request request => exact Coordinator.handle_dates request id
  | registry change => cases inside
  | advance span => rfl
  | takeEvent => rfl

theorem step_expiryFrom (s : Situation σ α) (operation : Operation) :
    (s.step rules operation).after.coordinator.registry.expiryFrom =
      s.coordinator.registry.expiryFrom := by
  obtain ⟨effect, shown⟩ := s.step_shows rules operation
  exact shown.transition.expiryFrom

/-- After a run, participants expire as they did before it, unless they were heard from or removed
in the run. -/
theorem expiry?_final {operations : List Operation}
    (inside : ∀ operation ∈ operations, operation.isOutside = false) (s : Situation σ α)
    {expiry : Instant} :
    (s.final rules operations).coordinator.registry.expiry? id = some expiry ↔
      (∃ heardAt, LastHeard (s.steps rules operations) id heardAt ∧
        expiry = s.coordinator.registry.expiryFrom heardAt) ∨
      (∀ step ∈ s.steps rules operations, step.Skips id) ∧
        s.coordinator.registry.expiry? id = some expiry := by
  induction operations generalizing s with
  | nil => simp [steps, final, run, LastHeard]
  | cons operation rest ih =>
    rw [List.forall_mem_cons] at inside
    rw [final_cons, ih inside.2, step_expiryFrom, step_expiry? s inside.1]
    simp only [steps, lastHeard_cons, List.forall_mem_cons]
    -- What the first step does counts only if the rest of the run skips the participant.
    by_cases heard : (s.step rules operation).heard? = some id
    · rw [if_pos heard]
      constructor
      · rintro (⟨heardAt, last, same⟩ | ⟨skipped, given⟩)
        · exact Or.inl ⟨heardAt, Or.inl last, same⟩
        · exact Or.inl ⟨s.now, Or.inr ⟨heard, rfl, skipped⟩, (Option.some.inj given).symm⟩
      · rintro (⟨heardAt, last | ⟨_, rfl, skipped⟩, same⟩ | ⟨⟨skips, _⟩, _⟩)
        · exact Or.inl ⟨heardAt, last, same⟩
        · exact Or.inr ⟨skipped, congrArg some same.symm⟩
        · exact absurd heard skips.1
    · by_cases dropped : (s.step rules operation).dropped? = some id <;>
        simp [heard, dropped, Step.Skips]

/-- In a session that started without participants, each of them was heard from. -/
theorem expiry?_final_of_fresh {time timeout : Nat} {s : Situation σ α}
    (fresh : s.coordinator.registry = .empty time timeout) {operations : List Operation}
    (inside : ∀ operation ∈ operations, operation.isOutside = false) {expiry : Instant} :
    (s.final rules operations).coordinator.registry.expiry? id = some expiry ↔
      ∃ heardAt, LastHeard (s.steps rules operations) id heardAt ∧
        expiry = heardAt + (time + timeout) := by
  have given (heardAt : Instant) :
      s.coordinator.registry.expiryFrom heardAt = heardAt + (time + timeout) := by
    rw [fresh]
    exact Nat.add_assoc _ _ _
  have absent : ¬s.coordinator.registry.expiry? id = some expiry := by
    rw [fresh]
    nofun
  rw [expiry?_final inside]
  simp only [absent, and_false, or_false, given]

theorem expiry?_of_skips {operations : List Operation}
    (inside : ∀ operation ∈ operations, operation.isOutside = false) {s : Situation σ α}
    {step : Step σ α} (member : step ∈ s.steps rules operations) (skips : step.Skips id) :
    step.after.coordinator.registry.expiry? id = step.before.coordinator.registry.expiry? id := by
  obtain ⟨first, operation, rest, rfl, rfl⟩ := exists_of_mem_steps member
  have kept : operation.isOutside = false := inside operation (by simp)
  rw [step_expiry? _ kept, if_neg skips.1, if_neg skips.2]
  rfl

theorem now_le_step (s : Situation σ α) (operation : Operation) :
    s.now ≤ (s.step rules operation).after.now := by
  cases operation with
  | advance span => exact Nat.le_add_right _ _
  | _ => exact Nat.le_refl _

theorem now_le_final (s : Situation σ α) (operations : List Operation) :
    s.now ≤ (s.final rules operations).now := by
  refine final_invariant (fun t => s.now ≤ t.now) ?_ (Nat.le_refl _)
  intro operation _ t le
  exact le.trans (t.now_le_step operation)

theorem steps_ordered (s : Situation σ α) (operations : List Operation) :
    (s.steps rules operations).Pairwise fun first second =>
      first.before.now ≤ second.before.now := by
  induction operations generalizing s with
  | nil => exact List.Pairwise.nil
  | cons operation rest ih =>
    refine List.pairwise_cons.mpr ⟨?_, ih _⟩
    intro step member
    obtain ⟨first, _, _, _, rfl⟩ := exists_of_mem_steps member
    exact (s.now_le_step operation).trans (now_le_final _ first)

end Situation

theorem expires_after_last_heard (rules : Rules σ α) {time timeout : Nat} {s : Situation σ α}
    (fresh : s.coordinator.registry = .empty time timeout) {operations : List Operation}
    (inside : ∀ operation ∈ operations, operation.isOutside = false) :
    let steps := s.steps rules operations
    let c := (s.final rules operations).coordinator
    (∀ id expiry, c.registry.expiry? id = some expiry ↔
        ∃ heardAt, LastHeard steps id heardAt ∧ expiry = heardAt + (time + timeout)) ∧
      (∀ step ∈ steps, ∀ id, step.Skips id →
        step.after.coordinator.registry.expiry? id =
          step.before.coordinator.registry.expiry? id) ∧
      ∀ id observed, let outcome := c.removeExpired rules id observed
        (outcome.reply = true ↔ c.registry.contains id = true ∧
            ∃ heardAt, LastHeard steps id heardAt ∧ heardAt + (time + timeout) ≤ observed) ∧
          (outcome.reply = true → ∀ other, outcome.next.registry.expiry? other =
            if other = id then none else c.registry.expiry? other) ∧
          (outcome.reply = false → outcome.next = c) ∧
          ∀ beat ∈ steps, beat.heard? = some id →
            observed < beat.before.now + (time + timeout) → outcome.reply = false := by
  intro steps c
  have expires (id : ParticipantId) (expiry : Instant) : c.registry.expiry? id = some expiry ↔
      ∃ heardAt, LastHeard steps id heardAt ∧ expiry = heardAt + (time + timeout) :=
    Situation.expiry?_final_of_fresh fresh inside
  have replies (id : ParticipantId) (observed : Instant) :
      (c.removeExpired rules id observed).reply = true ↔
        ∃ heardAt, LastHeard steps id heardAt ∧ heardAt + (time + timeout) ≤ observed := by
    rw [Coordinator.removeExpired_reply, Registry.isExpired_iff]
    simp only [expires]
    constructor
    · rintro ⟨_, ⟨heardAt, last, rfl⟩, past⟩
      exact ⟨heardAt, last, past⟩
    · rintro ⟨heardAt, last, past⟩
      exact ⟨_, ⟨heardAt, last, rfl⟩, past⟩
  refine ⟨expires, fun step member id => Situation.expiry?_of_skips inside member, ?_⟩
  intro id observed outcome
  refine ⟨?_, ?_, ?_, ?_⟩
  · rw [replies, Registry.contains_iff_expires]
    simp only [expires]
    constructor
    · rintro ⟨heardAt, last, past⟩
      exact ⟨⟨_, heardAt, last, rfl⟩, heardAt, last, past⟩
    · exact fun both => both.2
  · intro removes other
    rw [Coordinator.removeExpired_removes removes]
    exact c.registry.expiry?_remove id other
  · exact Coordinator.removeExpired_stays
  · intro beat member heard ahead
    refine Bool.eq_false_iff.mpr fun removes => ?_
    obtain ⟨heardAt, last, past⟩ := (replies id observed).mp removes
    have latest := last.latest (s.steps_ordered operations) member heard
    exact Nat.lt_irrefl observed <| calc
      observed < beat.before.now + (time + timeout) := ahead
      _ ≤ heardAt + (time + timeout) := Nat.add_le_add_right latest _
      _ ≤ observed := past

end Runs

namespace Trial

/-- Nobody is heard from for so long that both participants expire. -/
def silence : List Operation := quorumMet ++ [.advance 15000]

def silent : Situation Unit Unit :=
  (⟨0, opened.next⟩ : Situation Unit Unit).final rules silence

/-- Ann's heartbeat is handled before the removals that are asked for at the same instant. -/
def rescue : Operation := .request (.heartbeat ann)

def rescued : Coordinator Unit Unit :=
  ((⟨0, opened.next⟩ : Situation Unit Unit).final rules (silence ++ [rescue])).coordinator

end Trial

/-- The removals of both are handled later, and only Bob is removed. -/
theorem heartbeat_before_removal :
    Trial.opened.next.registry = .empty 10000 5000 ∧
      (∀ operation ∈ Trial.silence ++ [Trial.rescue], operation.isOutside = false) ∧
      Trial.silent.now = 15000 ∧
      Trial.silent.coordinator.registry.expired 15000 = [Trial.ann, Trial.bob] ∧
      Trial.rescued.registry.expiry? Trial.ann = some 30000 ∧
      (Trial.rescued.removeExpired Trial.rules Trial.ann 15000).reply = false ∧
      (Trial.rescued.removeExpired Trial.rules Trial.ann 15000).next = Trial.rescued ∧
      (Trial.rescued.removeExpired Trial.rules Trial.bob 15000).reply = true ∧
      (Trial.rescued.removeExpired Trial.rules Trial.bob 15000).next.registry.expiry? Trial.bob =
        none ∧
      (Trial.rescued.removeExpired Trial.rules Trial.bob 15000).next.registry.expiry? Trial.ann =
        some 30000 := by
  have fresh : (⟨0, Trial.opened.next⟩ : Situation Unit Unit).coordinator.registry =
    .empty 10000 5000 := rfl
  have inside : ∀ operation ∈ Trial.silence ++ [Trial.rescue], operation.isOutside = false := by
    decide
  obtain ⟨expires, _, removals⟩ := expires_after_last_heard Trial.rules fresh inside
  rw [← Trial.rescued] at expires removals
  obtain ⟨instant, both, anew, past⟩ : Trial.silent.now = 15000 ∧
      Trial.silent.coordinator.registry.expired 15000 = [Trial.ann, Trial.bob] ∧
      Trial.rescued.registry.expiry? Trial.ann = some 30000 ∧
      Trial.rescued.registry.expiry? Trial.bob = some 15000 := by decide +kernel
  obtain ⟨_, _, stays, saves⟩ := removals Trial.ann 15000
  obtain ⟨removes, only, _⟩ := removals Trial.bob 15000
  have member : Trial.silent.step Trial.rules Trial.rescue ∈
      (⟨0, Trial.opened.next⟩ : Situation Unit Unit).steps Trial.rules
        (Trial.silence ++ [Trial.rescue]) := by
    rw [Situation.steps_append]
    exact List.mem_append_right _ List.mem_cons_self
  have saved := saves _ member (by decide +kernel) (by rw [Situation.step_before, instant]; decide)
  obtain ⟨heardAt, last, same⟩ := (expires Trial.bob 15000).mp past
  have removed := removes.mpr ⟨Registry.contains_iff_expires.mpr ⟨_, past⟩, heardAt, last, same.ge⟩
  refine ⟨fresh, inside, instant, both, anew, saved, stays saved, removed, ?_, ?_⟩
  · rw [only removed, if_pos rfl]
  · rw [only removed, if_neg (by decide), anew]

end FederatedRounds
