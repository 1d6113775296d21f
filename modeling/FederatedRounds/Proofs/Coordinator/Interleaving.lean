import FederatedRounds.Proofs.Coordinator.Failure
import FederatedRounds.Proofs.Coordinator.Recording
import FederatedRounds.Proofs.Coordinator.Trace

/-! Submissions among other requests. While a round lacks updates, neither a heartbeat nor a start
nor a rendezvous nor a request that is refused makes a difference to it, and a submission only adds
its update. What a session comes to is therefore decided by the submissions alone. -/
namespace FederatedRounds

def Message.asks : Message → Bool
  | .endTraining _ => false
  | _ => true

/-- Whether a request neither submits an update nor removes anyone. -/
def Request.asks : Request → Bool
  | .rendezvous _ | .heartbeat _ | .startTraining _ => true
  | .message _ sent => sent.asks
  | _ => false

/-- Time may also pass between requests, and events may be taken off the queue. -/
def Operation.asks : Operation → Bool
  | .request sent => sent.asks
  | .advance _ | .takeEvent => true
  | .registry _ => false

theorem Operation.submission?_of_asks {operation : Operation} (asks : operation.asks = true) :
    operation.submission? = none := by
  cases operation with
  | request sent =>
    cases sent with
    | message id message => cases message <;> first | rfl | cases asks
    | endTraining => cases asks
    | _ => rfl
  | _ => rfl

section Runs
variable {σ α : Type} {rules : Rules σ α} {payload : ParticipantId → Update}

/-- A step that submits nothing, or whose request is refused. -/
def Step.isBystander (step : Step σ α) : Bool :=
  step.operation.asks || step.error?.any CoordinatorError.isRefusal

theorem Step.accepted?_of_bystander {step : Step σ α} (stands : step.isBystander = true) :
    step.accepted? = none := by
  unfold accepted?
  rcases Bool.or_eq_true_iff.mp stands with asks | refused
  · rw [Operation.submission?_of_asks asks, ite_self]
  · rw [if_pos refused]

/-- Participants submit their updates one after the other, and all other steps are bystanders.
Nothing is said about how the submissions are answered. -/
inductive Situation.Interleaves (rules : Rules σ α) (payload : ParticipantId → Update) :
    Situation σ α → List ParticipantId → List Operation → Prop
  | nil {s : Situation σ α} : Interleaves rules payload s [] []
  | submission {s : Situation σ α} {id : ParticipantId} {ids : List ParticipantId}
      {operation : Operation} {rest : List Operation}
      (submits : operation.submission? = some (id, payload id))
      (others : Interleaves rules payload (s.step rules operation).after ids rest) :
      Interleaves rules payload s (id :: ids) (operation :: rest)
  | bystander {s : Situation σ α} {ids : List ParticipantId} {operation : Operation}
      {rest : List Operation} (stands : (s.step rules operation).isBystander = true)
      (others : Interleaves rules payload (s.step rules operation).after ids rest) :
      Interleaves rules payload s ids (operation :: rest)

/-- The last submission comes after the others, and bystanders may come after it. -/
theorem Situation.Interleaves.split {s : Situation σ α} {front : List ParticipantId}
    {last : ParticipantId} {schedule : List Operation}
    (interleaves : s.Interleaves rules payload (front ++ [last]) schedule) :
    ∃ before operation after, schedule = before ++ operation :: after ∧
      s.Interleaves rules payload front before ∧
      operation.submission? = some (last, payload last) ∧
      (s.final rules (before ++ [operation])).Interleaves rules payload [] after := by
  generalize order : front ++ [last] = ids at interleaves
  induction interleaves generalizing front with
  | nil => simp at order
  | @submission s id ids operation rest submits others ih =>
    cases front with
    | nil =>
      obtain ⟨rfl, rfl⟩ := List.cons.inj order
      exact ⟨[], operation, rest, rfl, .nil, submits, others⟩
    | cons first front =>
      obtain ⟨rfl, rest'⟩ := List.cons.inj order
      obtain ⟨before, closing, after, rfl, early, submitted, late⟩ := ih rest'
      exact ⟨operation :: before, closing, after, rfl, .submission submits early, submitted, late⟩
  | @bystander s ids operation rest stands others ih =>
    obtain ⟨before, closing, after, rfl, early, submitted, late⟩ := ih order
    exact ⟨operation :: before, closing, after, rfl, .bystander stands early, submitted, late⟩

/-- An aggregator that keeps a record of its calls sees the same interleaving. -/
theorem Situation.Interleaves.recording {s : Situation σ (α × List Payloads)}
    {ids : List ParticipantId} {schedule : List Operation}
    (interleaves : s.unrecorded.Interleaves rules payload ids schedule) :
    s.Interleaves rules.recording payload ids schedule := by
  generalize start : s.unrecorded = plain at interleaves
  induction interleaves generalizing s with
  | nil => exact .nil
  | @submission _ id ids operation rest submits others ih =>
    subst start
    have same := congrArg Step.after (step_unrecorded rules operation s)
    exact .submission submits (ih same.symm)
  | @bystander _ ids operation rest stands others ih =>
    subst start
    have same := congrArg Step.after (step_unrecorded rules operation s)
    rw [step_unrecorded] at stands
    exact .bystander stands (ih same.symm)

end Runs

namespace Coordinator
variable {σ α : Type} {rules : Rules σ α} {now : Instant} {c c' c'' : Coordinator σ α}

/-- Two states that differ in the expiries of participants and in the queue of events at most. -/
structure Alike (c c' : Coordinator σ α) : Prop where
  ids : c'.registry.ids = c.registry.ids
  phase : c'.phase = c.phase
  round : c'.round = c.round
  current : c'.current = c.current
  epochBase : c'.epochBase = c.epochBase
  weights : c'.weights = c.weights
  selecting : c'.selecting = c.selecting
  aggregating : c'.aggregating = c.aggregating

theorem Alike.refl (c : Coordinator σ α) : c.Alike c := ⟨rfl, rfl, rfl, rfl, rfl, rfl, rfl, rfl⟩

theorem Alike.trans (first : c.Alike c') (second : c'.Alike c'') : c.Alike c'' where
  ids := second.ids.trans first.ids
  phase := second.phase.trans first.phase
  round := second.round.trans first.round
  current := second.current.trans first.current
  epochBase := second.epochBase.trans first.epochBase
  weights := second.weights.trans first.weights
  selecting := second.selecting.trans first.selecting
  aggregating := second.aggregating.trans first.aggregating

theorem Alike.symm (alike : c.Alike c') : c'.Alike c :=
  ⟨alike.ids.symm, alike.phase.symm, alike.round.symm, alike.current.symm, alike.epochBase.symm,
    alike.weights.symm, alike.selecting.symm, alike.aggregating.symm⟩

theorem Alike.size (alike : c.Alike c') : c'.registry.size = c.registry.size := by
  rw [← Registry.length_ids, alike.ids, Registry.length_ids]

theorem Alike.contains (alike : c.Alike c') (id : ParticipantId) :
    c'.registry.contains id = c.registry.contains id := by
  rw [Bool.eq_iff_iff, Registry.contains_iff, Registry.contains_iff, alike.ids]

theorem alike_withRegistry {registry : Registry} (same : registry.ids = c.registry.ids) :
    c.Alike (c.withRegistry registry) := ⟨same, rfl, rfl, rfl, rfl, rfl, rfl, rfl⟩

end Coordinator

/-- The outcome of a request that moved expiries and nothing else. -/
def Outcome.Idles {σ α ρ : Type} (c : Coordinator σ α) (o : Outcome σ α ρ) : Prop :=
  ∃ registry, registry.ids = c.registry.ids ∧ o.next = c.withRegistry registry

namespace Coordinator
variable {σ α ρ τ : Type} {rules : Rules σ α} {now : Instant} {c : Coordinator σ α}

theorem idles_of_next {o : Outcome σ α ρ} (same : o.next = c) : o.Idles c := ⟨c.registry, rfl, same⟩

theorem Idles.map {o : Outcome σ α ρ} (idles : o.Idles c) (f : ρ → τ) : (o.map f).Idles c := idles

theorem Idles.received {o : Outcome σ α ρ} (idles : o.Idles c) (notice : Notice) :
    ({ o with log := notice :: o.log } : Outcome σ α ρ).Idles c := idles

theorem rendezvous_idles (full : rules.quorum ≤ c.registry.size) (id : ParticipantId) :
    (c.rendezvous rules now id).Idles c := by
  unfold rendezvous
  rw [if_pos full]
  exact idles_of_next rfl

theorem heartbeat_idles (id : ParticipantId) : (c.heartbeat now id).Idles c := by
  unfold heartbeat
  by_cases registered : c.registry.contains id = true
  · rw [if_pos registered]
    exact ⟨_, c.registry.ids_refresh now id, rfl⟩
  · rw [if_neg registered]
    exact idles_of_next rfl

theorem onMessage_idles (full : rules.quorum ≤ c.registry.size) (id : ParticipantId)
    {message : Message} (asks : message.asks = true) :
    (c.onMessage rules now id message).Idles c := by
  cases message with
  | rendezvous => exact Idles.received (Idles.map (rendezvous_idles full id) _) _
  | heartbeat => exact Idles.received (Idles.map (heartbeat_idles id) _) _
  | startTraining =>
    exact Idles.received (Idles.map (idles_of_next (startTraining_next id)) _) _
  | endTraining => cases asks

/-- Once the quorum is connected, requests that submit nothing move expiries and nothing else. -/
theorem handle_idles (full : rules.quorum ≤ c.registry.size) {request : Request}
    (asks : request.asks = true) : (c.handle rules now request).Idles c := by
  cases request with
  | rendezvous id => exact Idles.map (rendezvous_idles full id) _
  | heartbeat id => exact Idles.map (heartbeat_idles id) _
  | startTraining id => exact Idles.map (idles_of_next (startTraining_next id)) _
  | message id message => exact Idles.map (onMessage_idles full id asks) _
  | _ => cases asks

theorem endTraining_waits (rules : Rules σ α) {id : ParticipantId} {update : Update}
    (admitted : c.Admits id) (waits : ¬(c.record id update).round.isFinished = true) :
    (c.endTraining rules id update).reply = .ok () ∧
      (c.endTraining rules id update).next = c.record id update := by
  rw [endTraining_admitted (admitted.passes _) admitted.first]
  dsimp only
  rw [if_neg waits]
  exact ⟨rfl, rfl⟩

/-- However an update is sent, it gets the answer that it gets when sent on its own. -/
theorem error?_of_submission {request : Request} {id : ParticipantId} {update : Update}
    (submits : request.submission? = some (id, update)) :
    (c.handle rules now request).reply.error? =
      (Answer.endTraining (c.endTraining rules id update).reply).error? := by
  unfold Request.submission? at submits
  split at submits
  · cases submits
    rfl
  · cases submits
    exact Answer.error?_message _
  · cases submits

end Coordinator

section Runs
variable {σ α : Type} {rules : Rules σ α} {payload : ParticipantId → Update}

theorem Situation.step_bystander {s : Situation σ α} {operation : Operation}
    (full : rules.quorum ≤ s.coordinator.registry.size)
    (stands : (s.step rules operation).isBystander = true) :
    s.coordinator.Alike (s.step rules operation).after.coordinator ∧
      (s.step rules operation).accepted? = none ∧ (s.step rules operation).emitted = [] := by
  have ignored := Step.accepted?_of_bystander stands
  cases operation with
  | request request =>
    -- With the quorum connected, a rendezvous is turned away; a refusal changes nothing at all.
    have idles : (s.coordinator.handle rules s.now request).Idles s.coordinator := by
      rcases Bool.or_eq_true_iff.mp stands with asks | refused
      · exact Coordinator.handle_idles full asks
      · exact Coordinator.idles_of_next (Coordinator.handle_next_of_refusal refused)
    obtain ⟨registry, same, next⟩ := idles
    have after : (s.step rules (.request request)).after.coordinator =
        s.coordinator.withRegistry registry := next
    have silent : (s.step rules (.request request)).emitted = [] := by
      rw [Step.emitted, after]
      exact List.drop_length
    rw [after]
    exact ⟨Coordinator.alike_withRegistry same, ignored, silent⟩
  | registry change => cases stands
  | advance span =>
    exact ⟨Coordinator.Alike.refl _, ignored, List.drop_length⟩
  | takeEvent =>
    refine ⟨⟨rfl, rfl, rfl, rfl, rfl, rfl, rfl, rfl⟩, ignored, ?_⟩
    change (s.coordinator.events.head?.toList ++ s.coordinator.events.tail).drop
      s.coordinator.events.length = []
    cases s.coordinator.events with
    | nil => rfl
    | cons event rest => exact List.drop_length

theorem Situation.step_submission (rules : Rules σ α) (s : Situation σ α) {operation : Operation}
    {id : ParticipantId} {update : Update} (submits : operation.submission? = some (id, update)) :
    (s.step rules operation).after.coordinator = (s.coordinator.endTraining rules id update).next ∧
      (s.step rules operation).error? =
        (Answer.endTraining (s.coordinator.endTraining rules id update).reply).error? ∧
      (s.step rules operation).emitted =
        (s.coordinator.endTraining rules id update).next.events.drop
          s.coordinator.events.length := by
  cases operation with
  | request request =>
    have submits : request.submission? = some (id, update) := submits
    have next : (s.step rules (.request request)).after.coordinator =
        (s.coordinator.endTraining rules id update).next := Coordinator.next_of_submission submits
    refine ⟨next, Coordinator.error?_of_submission submits, ?_⟩
    rw [Step.emitted, next]
    rfl
  | _ => cases submits

end Runs

namespace Coordinator
variable {σ α : Type} {config : Config} {payload : ParticipantId → Update}
  {c c' : Coordinator σ α} {done ids : List ParticipantId} {id : ParticipantId}

def filled (c : Coordinator σ α) (payload : ParticipantId → Update) (ids : List ParticipantId) :
    Coordinator σ α :=
  { c with round := c.round.filled payload ids }

theorem filled_nil : c.filled payload [] = c := by
  rw [filled, Round.filled_nil]

theorem filled_filled :
    (c.filled payload done).filled payload ids = c.filled payload (done ++ ids) := by
  simp [filled, Round.filled]

/-- A round that runs with the quorum and all who are selected connected. -/
structure Ready (config : Config) (c : Coordinator σ α) : Prop where
  full : config.quorum ≤ c.registry.size
  running : c.phase = .round
  sound : c.round.Sound
  registered : ∀ id ∈ c.round.selected, c.registry.contains id = true

theorem Ready.admits (ready : c.Ready config)
    (alike : (c.filled payload done).Alike c') (absent : id ∈ c.round.missing) (later : id ∉ done) :
    c'.Admits id := by
  obtain ⟨selected, first⟩ := Round.mem_missing.mp absent
  refine ⟨?_, alike.phase.trans ready.running, ?_, ?_⟩
  · rw [alike.contains]
    exact ready.registered id selected
  · rw [alike.round]
    exact decide_eq_true selected
  · rw [alike.round, Bool.eq_false_iff]
    intro submitted
    rcases (Round.hasUpdate_filled id).mp submitted with before | after
    · rw [first] at before
      cases before
    · exact later after

theorem Alike.record (alike : (c.filled payload done).Alike c') (id : ParticipantId) :
    (c.filled payload (done ++ [id])).Alike (c'.record id (payload id)) where
  ids := alike.ids
  phase := alike.phase
  round := by
    change { c'.round with updates := c'.round.updates ++ [(id, payload id)] } = _
    rw [alike.round]
    exact (Round.filled_concat id).symm
  current := alike.current
  epochBase := alike.epochBase
  weights := alike.weights
  selecting := alike.selecting
  aggregating := alike.aggregating

end Coordinator

section Runs
variable {σ α : Type} {rules : Rules σ α} {payload : ParticipantId → Update}
  {c : Coordinator σ α} {s : Situation σ α} {done ids : List ParticipantId} {id : ParticipantId}
  {operation : Operation} {rest : List Operation}

/-- A submission that is not the last one is acknowledged, and adds its update to the round. -/
theorem Situation.step_waits (ready : c.Ready rules.config)
    (alike : (c.filled payload done).Alike s.coordinator)
    (submits : operation.submission? = some (id, payload id)) (absent : id ∈ c.round.missing)
    (later : id ∉ done) (more : (done ++ [id]).length < c.round.missing.length) :
    (c.filled payload (done ++ [id])).Alike (s.step rules operation).after.coordinator ∧
      (s.step rules operation).accepted? = some (id, payload id) ∧
      (s.step rules operation).error? = none ∧
      (s.step rules operation).emitted = [.readLocalWeights id c.current] := by
  have admitted := ready.admits alike absent later
  have recorded := alike.record id
  have waits : ¬(s.coordinator.record id (payload id)).round.isFinished = true := by
    rw [recorded.round]
    exact mt ready.sound.isFinished_filled.mp (Nat.ne_of_lt more)
  have same : s.coordinator.current = c.current := alike.current
  obtain ⟨acknowledged, recording⟩ := Coordinator.endTraining_waits rules admitted waits
  obtain ⟨next, error, emitted⟩ := s.step_submission rules submits
  rw [recording] at next emitted
  rw [acknowledged] at error
  refine ⟨next ▸ recorded, Step.accepted?_of_submission submits error, error, ?_⟩
  rw [emitted, ← same]
  exact List.drop_left

/-- What a schedule shows in which the given participants submit and none of them completes the
round. Each is acknowledged, and only the updates of the round, expiries and events move. -/
structure Situation.Collects (rules : Rules σ α) (payload : ParticipantId → Update)
    (c : Coordinator σ α) (ids : List ParticipantId) (schedule : List Operation)
    (s : Situation σ α) : Prop where
  states : ∀ step ∈ s.steps rules schedule, ∃ part, part <+: ids ∧
    (c.filled payload part).Alike step.after.coordinator
  reached : (c.filled payload ids).Alike (s.final rules schedule).coordinator
  accepted : (s.steps rules schedule).filterMap Step.accepted? = ids.map fun id => (id, payload id)
  acknowledged : ∀ step ∈ s.steps rules schedule, step.accepted? ≠ none → step.error? = none
  emitted : (s.steps rules schedule).flatMap Step.emitted =
    ids.map fun id => .readLocalWeights id c.current

namespace Situation

theorem collects_nil (alike : c.Alike s.coordinator) : s.Collects rules payload c [] [] where
  states _ member := absurd member List.not_mem_nil
  reached := Coordinator.filled_nil.symm ▸ alike
  accepted := rfl
  acknowledged _ member := absurd member List.not_mem_nil
  emitted := rfl

theorem Collects.bystander (full : rules.quorum ≤ c.registry.size) (alike : c.Alike s.coordinator)
    (stands : (s.step rules operation).isBystander = true)
    (others : (s.step rules operation).after.Collects rules payload c ids rest) :
    s.Collects rules payload c ids (operation :: rest) := by
  obtain ⟨kept, ignored, silent⟩ := step_bystander (alike.size.symm ▸ full) stands
  refine ⟨?_, others.reached, ?_, ?_, ?_⟩
  · refine List.forall_mem_cons.mpr ⟨⟨[], List.nil_prefix, ?_⟩, others.states⟩
    rw [Coordinator.filled_nil]
    exact alike.trans kept
  · rw [steps, List.filterMap_cons_none ignored]
    exact others.accepted
  · exact List.forall_mem_cons.mpr ⟨fun taken => absurd ignored taken, others.acknowledged⟩
  · rw [steps, List.flatMap_cons, silent]
    exact others.emitted

theorem Collects.submission (next : (c.filled payload [id]).Alike
      (s.step rules operation).after.coordinator)
    (accepted : (s.step rules operation).accepted? = some (id, payload id))
    (acknowledged : (s.step rules operation).error? = none)
    (emitted : (s.step rules operation).emitted = [.readLocalWeights id c.current])
    (others : (s.step rules operation).after.Collects rules payload (c.filled payload [id]) ids
      rest) : s.Collects rules payload c (id :: ids) (operation :: rest) := by
  refine ⟨?_, ?_, ?_, ?_, ?_⟩
  · refine List.forall_mem_cons.mpr ⟨⟨[id], List.prefix_append _ _, next⟩, ?_⟩
    intro step member
    obtain ⟨part, front, alike⟩ := others.states step member
    rw [Coordinator.filled_filled] at alike
    exact ⟨id :: part, List.cons_prefix_cons.mpr ⟨rfl, front⟩, alike⟩
  · have reached := others.reached
    rw [Coordinator.filled_filled] at reached
    exact reached
  · rw [steps, List.filterMap_cons_some accepted, others.accepted]
    rfl
  · exact List.forall_mem_cons.mpr ⟨fun _ => acknowledged, others.acknowledged⟩
  · rw [steps, List.flatMap_cons, emitted, others.emitted]
    rfl

/-- As long as one participant is missing, the order of the submissions shows in the events only. -/
theorem Interleaves.collects (ready : c.Ready rules.config)
    (interleaves : s.Interleaves rules payload ids rest)
    (alike : (c.filled payload done).Alike s.coordinator) (once : (done ++ ids).Nodup)
    (absent : ids ⊆ c.round.missing) (more : (done ++ ids).length < c.round.missing.length) :
    s.Collects rules payload (c.filled payload done) ids rest := by
  -- Those in `done` submitted earlier in the schedule. The count of those who were missing is not
  -- reached before the end of it, so that no submission completes the round.
  induction interleaves generalizing done with
  | nil => exact collects_nil alike
  | @submission s id ids operation rest submits others ih =>
    rw [List.append_cons] at once more
    have later : id ∉ done := fun member =>
      List.disjoint_of_nodup_append once.of_append_left member (List.mem_singleton_self id)
    have enough : (done ++ [id]).length < c.round.missing.length :=
      Nat.lt_of_le_of_lt (List.sublist_append_left _ ids).length_le more
    obtain ⟨next, accepted, acknowledged, emitted⟩ := step_waits ready alike submits
      (absent List.mem_cons_self) later enough
    have rest := ih next once (fun _ member => absent (List.mem_cons_of_mem _ member)) more
    rw [← Coordinator.filled_filled] at next rest
    exact .submission next accepted acknowledged emitted rest
  | @bystander s ids operation rest stands others ih =>
    have kept := alike.trans (step_bystander (alike.size.symm ▸ ready.full) stands).1
    exact .bystander ready.full alike stands (ih kept once absent more)

/-- Once nobody has to submit any more, nothing changes. -/
theorem Interleaves.collects_nil (full : rules.quorum ≤ c.registry.size)
    (interleaves : s.Interleaves rules payload [] rest) (alike : c.Alike s.coordinator) :
    s.Collects rules payload c [] rest := by
  generalize none : [] = ids at interleaves ⊢
  induction interleaves with
  | nil => exact Situation.collects_nil alike
  | submission => cases none
  | @bystander s ids operation rest stands others ih =>
    have kept := alike.trans (step_bystander (alike.size.symm ▸ full) stands).1
    exact .bystander full alike stands (ih kept none)

end Situation
end Runs
end FederatedRounds
