import FederatedRounds.Proofs.Coordinator.Ending
import FederatedRounds.Proofs.Coordinator.Outliving
import FederatedRounds.Proofs.Service.Monitor

/-! Heartbeats and requests to start training. What a heartbeat tells a participant is what the other
two requests go by, though they do not look at it. A run with more such requests in it is the same
run: the participants that are heard from expire later, and as long as nobody is removed for having
expired, nothing else depends on that. -/
namespace FederatedRounds

/-- Heartbeats and requests to start training, however they are sent. -/
def Request.inquires : Request → Bool
  | .heartbeat _ | .startTraining _ | .message _ .heartbeat | .message _ .startTraining => true
  | _ => false

namespace Coordinator
variable {σ α : Type} {rules : Rules σ α} {c : Coordinator σ α}

theorem heartbeat_refreshes (now : Instant) {id : ParticipantId}
    (registered : c.registry.contains id = true) :
    (c.heartbeat now id).next = c.withRegistry (c.registry.refresh now id) := by
  unfold heartbeat
  rw [if_pos registered]
  rfl

theorem heartbeat_unknown (now : Instant) {id : ParticipantId}
    (absent : ¬c.registry.contains id = true) : (c.heartbeat now id).next = c := by
  unfold heartbeat
  rw [if_neg absent]

/-- A request that inquires changes at most when a participant expires. -/
theorem handle_inquiry (rules : Rules σ α) (now : Instant) (c : Coordinator σ α) {request : Request}
    (inquires : request.inquires = true) :
    (c.handle rules now request).next = c ∨
      ∃ id, (c.handle rules now request).next = c.withRegistry (c.registry.refresh now id) := by
  have beats : (c.handle rules now request).next = c ∨
      ∃ id, (c.handle rules now request).next = (c.heartbeat now id).next := by
    unfold Request.inquires at inquires
    split at inquires
    · exact Or.inr ⟨_, rfl⟩
    · exact Or.inl (startTraining_next _)
    · exact Or.inr ⟨_, rfl⟩
    · exact Or.inl (startTraining_next _)
    · cases inquires
  rcases beats with same | ⟨id, beat⟩
  · exact Or.inl same
  rw [beat]
  by_cases registered : c.registry.contains id = true
  · exact Or.inr ⟨id, heartbeat_refreshes now registered⟩
  · exact Or.inl (heartbeat_unknown now registered)

/-- What a registered participant is told by a heartbeat is what admits it to training. -/
theorem phaseFor_eq_round_iff {id : ParticipantId} (registered : c.registry.contains id = true)
    (training : Training) : c.phaseFor id = .round ↔ c.refusal? id training = none := by
  unfold phaseFor refusal?
  rw [if_pos registered]
  by_cases running : c.phase = .round
  · rw [if_pos running]
    cases selected : c.round.isSelected id with
    | true => simp [running]
    | false => simp [running]
  · simp [running]

theorem phaseFor_eq_finished_iff {id : ParticipantId} :
    c.phaseFor id = .finished ↔ c.phase = .finished := by
  unfold phaseFor
  split
  · rename_i waits
    simp [waits.1]
  · exact Iff.rfl

theorem phaseFor_eq_standBy {id : ParticipantId} (waits : c.phaseFor id ≠ .round)
    (going : c.phase ≠ .finished) : c.phaseFor id = .standBy := by
  cases told : c.phaseFor id with
  | standBy => rfl
  | round => exact absurd told waits
  | finished => exact absurd (phaseFor_eq_finished_iff.mp told) going

theorem startTraining_ok_iff {id : ParticipantId} :
    (∃ task, (c.startTraining rules id).reply = .ok task) ↔ c.refusal? id .start = none := by
  unfold startTraining
  cases c.refusal? id .start <;> simp

/-- An update that is not refused at once may be a repeated one, or one that could not be
aggregated, but it is no invalid request. -/
theorem endTraining_valid_iff {id : ParticipantId} (registered : c.registry.contains id = true)
    (update : Update) :
    (∀ reason, (c.endTraining rules id update).reply ≠ .error (.invalidRequest reason)) ↔
      c.refusal? id .finish = none := by
  constructor
  · intro valid
    cases refusal : c.refusal? id .finish with
    | none => rfl
    | some error =>
      rw [endTraining_refused refusal] at valid
      unfold refusal? at refusal
      rw [if_pos registered] at refusal
      split_ifs at refusal <;> cases refusal <;> exact absurd rfl (valid _)
  · intro passes reason invalid
    have comes := endTraining_submission rules c id update
    rw [invalid] at comes
    generalize (c.endTraining rules id update).next = c' at comes
    cases comes with
    | refused _ refusal =>
      rw [passes] at refusal
      cases refusal

end Coordinator

/-- An operation of a run, or a request put in between that inquires. -/
inductive Entry where
  | own (operation : Operation)
  | inquiry (request : Request) (inquires : request.inquires = true)

namespace Entry

def operation : Entry → Operation
  | own operation => operation
  | inquiry request _ => .request request

def own? : Entry → Option Operation
  | own operation => some operation
  | inquiry .. => none

/-- Of what is observed for each entry, that of the operations of the run itself. -/
def observed : List Entry → List Observation → List Observation
  | own _ :: entries, observation :: rest => observation :: observed entries rest
  | inquiry .. :: entries, _ :: rest => observed entries rest
  | _, _ => []

end Entry

section Runs
variable {σ α : Type} {rules : Rules σ α}

namespace Situation

/-- Two situations that differ in when participants expire, and in nothing else. -/
def Outlives (t s : Situation σ α) : Prop :=
  ∃ registry, registry.Outlives s.coordinator.registry ∧
    t = ⟨s.now, s.coordinator.withRegistry registry⟩

theorem Outlives.refl (s : Situation σ α) : s.Outlives s := ⟨_, .refl _, rfl⟩

theorem Outlives.step {s t : Situation σ α} (outlives : t.Outlives s) {operation : Operation}
    (alive : ∀ id observed, operation.removesExpired? = some (id, observed) →
      s.coordinator.registry.isExpired observed id = false) :
    (t.step rules operation).observation = (s.step rules operation).observation ∧
      (t.step rules operation).after.Outlives (s.step rules operation).after := by
  obtain ⟨registry, later, rfl⟩ := outlives
  cases operation with
  | request request =>
    have stays : ∀ id observed, request = .removeExpired id observed →
        s.coordinator.registry.isExpired observed id = false := by
      rintro id observed rfl
      exact alive id observed rfl
    obtain ⟨left, kept, same⟩ := Coordinator.handle_outlives rules s.now later stays
    refine ⟨?_, left, kept, ?_⟩
    · change Observation.mk (some ((s.coordinator.withRegistry registry).handle rules s.now
        request).reply) none ((s.coordinator.withRegistry registry).handle rules s.now
        request).log = _
      rw [same]
      rfl
    · change Situation.mk s.now ((s.coordinator.withRegistry registry).handle rules s.now
        request).next = _
      rw [same]
      rfl
  | registry change =>
    refine ⟨rfl, _, later.change s.now ?_, rfl⟩
    rintro id observed rfl
    exact alive id observed rfl
  | advance span => exact ⟨rfl, registry, later, rfl⟩
  | takeEvent => exact ⟨rfl, registry, later, rfl⟩

theorem Outlives.inquiry {s t : Situation σ α} (outlives : t.Outlives s) (bounded : s.Bounded)
    {request : Request} (inquires : request.inquires = true) :
    (t.step rules (.request request)).after.Outlives s := by
  obtain ⟨registry, later, rfl⟩ := outlives
  rcases Coordinator.handle_inquiry rules s.now (s.coordinator.withRegistry registry) inquires with
    same | ⟨id, moved⟩
  · refine ⟨registry, later, ?_⟩
    change Situation.mk s.now ((s.coordinator.withRegistry registry).handle rules s.now
      request).next = _
    rw [same]
  · refine ⟨_, later.heard bounded id, ?_⟩
    change Situation.mk s.now ((s.coordinator.withRegistry registry).handle rules s.now
      request).next = _
    rw [moved]
    rfl

/-- Inquiries leave no trace in a run but later expiries, as long as nobody is removed for having
expired. -/
theorem Outlives.run (entries : List Entry) {s t : Situation σ α} (outlives : t.Outlives s)
    (bounded : s.Bounded)
    (alive : ∀ step ∈ s.steps rules (entries.filterMap Entry.own?), ∀ id observed,
      step.operation.removesExpired? = some (id, observed) →
        step.before.coordinator.registry.isExpired observed id = false) :
    Entry.observed entries (t.run rules (entries.map Entry.operation)).1 =
        (s.run rules (entries.filterMap Entry.own?)).1 ∧
      (t.final rules (entries.map Entry.operation)).Outlives
        (s.final rules (entries.filterMap Entry.own?)) := by
  induction entries generalizing s t with
  | nil => exact ⟨rfl, outlives⟩
  | cons entry entries ih =>
    cases entry with
    | own operation =>
      have first : ∀ id observed, operation.removesExpired? = some (id, observed) →
          s.coordinator.registry.isExpired observed id = false :=
        alive (s.step rules operation) List.mem_cons_self
      obtain ⟨same, next⟩ := outlives.step first
      obtain ⟨observed, reached⟩ := ih next
        (final_bounded [operation] bounded)
        (fun step member => alive step (List.mem_cons_of_mem _ member))
      exact ⟨List.cons_eq_cons.mpr ⟨same, observed⟩, reached⟩
    | inquiry request inquires => exact ih (outlives.inquiry bounded inquires) bounded alive

end Situation

/-- At the start nobody expires later than a participant that is heard from then, as is the case
when nobody is registered. -/
theorem heartbeat_agrees_with_training (rules : Rules σ α) {start : Situation σ α}
    (bounded : start.Bounded) (operations : List Operation) :
    let s := start.final rules operations
    let c := s.coordinator
    (∀ instant id, c.registry.contains id = true →
      ∃ beat, (c.heartbeat instant id).reply = .ok beat ∧ beat.round = c.current ∧
        (beat.phase = .round ↔ ∃ task, (c.startTraining rules id).reply = .ok task) ∧
        (∀ update, beat.phase = .round ↔ ∀ reason,
          (c.endTraining rules id update).reply ≠ .error (.invalidRequest reason)) ∧
        (beat.phase = .finished ↔ c.phase = .finished) ∧
        (beat.phase ≠ .round → c.phase ≠ .finished → beat.phase = .standBy) ∧
        ∃ registry, (c.heartbeat instant id).next = c.withRegistry registry ∧
          registry.ids = c.registry.ids ∧ registry.expiryFrom = c.registry.expiryFrom ∧
          ∀ other, registry.expiry? other =
            if other = id then some (c.registry.expiryFrom instant) else c.registry.expiry? other) ∧
      (∀ id, (c.startTraining rules id).next = c) ∧
      ∀ entries : List Entry,
        let own := entries.filterMap Entry.own?
        let all := entries.map Entry.operation
        (∀ step ∈ s.steps rules own, ∀ id observed,
          step.operation.removesExpired? = some (id, observed) →
            step.before.coordinator.registry.isExpired observed id = false) →
        Entry.observed entries (s.run rules all).1 = (s.run rules own).1 ∧
          (s.final rules all).now = (s.final rules own).now ∧
          ∃ registry, registry.ids = (s.final rules own).coordinator.registry.ids ∧
            (s.final rules all).coordinator =
              (s.final rules own).coordinator.withRegistry registry := by
  intro s c
  have kept : s.Bounded := Situation.final_bounded operations bounded
  refine ⟨?_, fun id => Coordinator.startTraining_next id, ?_⟩
  · intro instant id registered
    refine ⟨_, Coordinator.heartbeat_registered registered, rfl, ?_, ?_,
      Coordinator.phaseFor_eq_finished_iff, Coordinator.phaseFor_eq_standBy,
      c.registry.refresh instant id, Coordinator.heartbeat_refreshes instant registered,
      c.registry.ids_refresh instant id, rfl, ?_⟩
    · exact (Coordinator.phaseFor_eq_round_iff registered .start).trans
        Coordinator.startTraining_ok_iff.symm
    · intro update
      exact (Coordinator.phaseFor_eq_round_iff registered .finish).trans
        (Coordinator.endTraining_valid_iff registered update).symm
    · intro other
      obtain ⟨expiry, expires⟩ := Registry.contains_iff_expires.mp registered
      rw [Registry.expiry?_refresh, expires]
      rfl
  · intro entries own all alive
    obtain ⟨observed, registry, later, same⟩ :=
      (Situation.Outlives.refl s).run entries kept alive
    change s.final rules all = _ at same
    rw [same]
    exact ⟨observed, rfl, registry, later.ids, rfl⟩

end Runs

namespace Trial

/-- The first round with a heartbeat and a request to start training in between, and with a removal
for which it is too early. -/
def overheard : List Entry :=
  [.own (.advance 5000), .inquiry (.heartbeat bob) rfl,
    .own (.request (.endTraining ann (update 1))), .inquiry (.message ann .startTraining) rfl,
    .own (.request (.removeExpired bob 5000)), .own (.request (.endTraining bob (update 1)))]

def attentive : Situation Unit Unit := firstRound.final rules (overheard.map Entry.operation)

def undisturbed : Situation Unit Unit := firstRound.final rules (overheard.filterMap Entry.own?)

end Trial

/-- Bob expires later for having been heard from, and the next round is opened all the same. -/
theorem first_round_overheard :
    (∃ task, (Trial.firstRound.coordinator.startTraining Trial.rules Trial.ann).reply = .ok task) ∧
      Entry.observed Trial.overheard
          (Trial.firstRound.run Trial.rules (Trial.overheard.map Entry.operation)).1 =
        (Trial.firstRound.run Trial.rules (Trial.overheard.filterMap Entry.own?)).1 ∧
      Trial.undisturbed.coordinator.current = 1 ∧ Trial.attentive.coordinator.current = 1 ∧
      Trial.undisturbed.coordinator.registry.expiry? Trial.bob = some 15000 ∧
      Trial.attentive.coordinator.registry.expiry? Trial.bob = some 20000 := by
  have bounded : (⟨0, Trial.opened.next⟩ : Situation Unit Unit).Bounded := by
    intro id expiry expires
    cases expires
  have alive : ∀ step ∈ Trial.firstRound.steps Trial.rules
      (Trial.overheard.filterMap Entry.own?), ∀ id observed,
        step.operation.removesExpired? = some (id, observed) →
          step.before.coordinator.registry.isExpired observed id = false := by
    have each : (Trial.firstRound.steps Trial.rules (Trial.overheard.filterMap Entry.own?)).all
        (fun step => step.operation.removesExpired?.all fun (id, observed) =>
          !step.before.coordinator.registry.isExpired observed id) = true := by decide +kernel
    intro step member id observed removes
    have here := List.all_eq_true.mp each step member
    rw [removes] at here
    simpa using here
  obtain ⟨registered, next, before, after⟩ :
      Trial.firstRound.coordinator.registry.contains Trial.ann = true ∧
      Trial.undisturbed.coordinator.current = 1 ∧
      Trial.undisturbed.coordinator.registry.expiry? Trial.bob = some 15000 ∧
      Trial.attentive.coordinator.registry.expiry? Trial.bob = some 20000 := by decide +kernel
  have told : ∀ instant, ((Trial.firstRound.coordinator.heartbeat instant Trial.ann).reply =
      .ok ⟨.round, 0⟩) := by
    intro instant
    rw [Coordinator.heartbeat_registered registered]
    decide +kernel
  have all := heartbeat_agrees_with_training Trial.rules bounded Trial.quorumMet
  dsimp only at all
  rw [← Trial.firstRound] at all
  obtain ⟨agrees, _, runs⟩ := all
  obtain ⟨beat, replied, _, starts, _⟩ := agrees 5000 Trial.ann registered
  obtain rfl : ⟨.round, 0⟩ = beat := Except.ok.inj ((told 5000).symm.trans replied)
  obtain ⟨same, _, _, _, left⟩ := runs Trial.overheard alive
  rw [← Trial.attentive, ← Trial.undisturbed] at left
  have current := congrArg Coordinator.current left
  dsimp only [Coordinator.withRegistry] at current
  rw [next] at current
  exact ⟨starts.mp rfl, same, next, current, before, after⟩

end FederatedRounds
