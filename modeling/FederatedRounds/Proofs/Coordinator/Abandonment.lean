import FederatedRounds.Proofs.Coordinator.Attempt
import FederatedRounds.Proofs.Coordinator.Bookkeeping

/-! Updates that are lost when a round is abandoned. The round is started again under its old number,
so that a heartbeat which names this number does not tell whether an update sent before is still
there. It is there if the round was not abandoned in between, or if the update was sent again. -/
namespace FederatedRounds

section Runs
variable {σ α : Type} {rules : Rules σ α}

theorem Coordinator.phase_of_phaseFor {c : Coordinator σ α} {id : ParticipantId}
    (told : c.phaseFor id = .round) : c.phase = .round := by
  unfold phaseFor at told
  split at told
  · cases told
  · exact told

theorem Coordinator.heartbeat_reply {c : Coordinator σ α} {now : Instant} {id : ParticipantId}
    {answer : Heartbeat} (replied : (c.heartbeat now id).reply = .ok answer) :
    answer = ⟨c.phaseFor id, c.current⟩ := by
  unfold heartbeat at replied
  split at replied
  · exact (Except.ok.inj replied).symm
  · cases replied

private theorem Answer.heartbeat?_heartbeat {result : Except CoordinatorError Heartbeat}
    {answer : Heartbeat} (told : (Answer.heartbeat result).heartbeat? = some answer) :
    result = .ok answer := by
  cases result with
  | error error => cases told
  | ok reply => exact congrArg Except.ok (Option.some.inj told)

private theorem Answer.heartbeat?_message {result : Except CoordinatorError Heartbeat}
    {answer : Heartbeat}
    (told : (Answer.message (result.map Response.heartbeat)).heartbeat? = some answer) :
    result = .ok answer := by
  cases result with
  | error error => cases told
  | ok reply => exact congrArg Except.ok (Option.some.inj told)

theorem Situation.heartbeat?_step {s : Situation σ α} {operation : Operation} {id : ParticipantId}
    {answer : Heartbeat} (answered : (s.step rules operation).heartbeat? = some (id, answer)) :
    answer = ⟨s.coordinator.phaseFor id, s.coordinator.current⟩ := by
  obtain ⟨sender, sends, told⟩ := Option.bind_eq_some_iff.mp answered
  obtain ⟨reply, replied, same⟩ := Option.map_eq_some_iff.mp told
  obtain ⟨rfl, rfl⟩ := Prod.mk.inj same
  cases operation with
  | request request =>
    change request.heartbeat? = some sender at sends
    unfold Request.heartbeat? at sends
    split at sends
    · cases sends
      exact Coordinator.heartbeat_reply (Answer.heartbeat?_heartbeat replied)
    · cases sends
      exact Coordinator.heartbeat_reply (Answer.heartbeat?_message replied)
    · cases sends
  | registry change => cases sends
  | advance span => cases sends
  | takeEvent => cases sends

namespace Coordinator
variable {now : Instant} {c c' : Coordinator σ α} {effect : Effect}

theorem Transition.opensRound_eq_false (valid : rules.config.validate = .ok ())
    (bookkept : c.Bookkept rules.config) (transition : Transition rules now c effect c')
    (busy : c.phase ≠ .standBy) (still : c'.current = c.current) : effect.opensRound = false := by
  cases transition with
  | opened id absent room reached waiting => exact absurd waiting busy
  | advanced id update weights admitted last aggregated more =>
    have next : (c.current + 1).toNat = c.current.toNat + 1 :=
      toNat_add_of_lt (bookkept.room valid).1
    have same := congrArg UInt32.toNat still
    exact absurd (next.symm.trans same) (Nat.succ_ne_self _)
  | _ => rfl

theorem Transition.busy (transition : Transition rules now c effect c')
    (busy : c.phase ≠ .standBy) (continues : effect.abandonsRound = false) :
    c'.phase ≠ .standBy := by
  cases transition with
  | abandoned => cases continues
  | opened => nofun
  | failed => nofun
  | finished => nofun
  | _ => exact busy

theorem Transition.running_of_accepted {submission : ParticipantId × Update}
    (transition : Transition rules now c effect c')
    (accepted : effect.accepted? = some submission) :
    c.phase = .round ∧ effect.abandonsRound = false := by
  cases transition with
  | recorded id update admitted => exact ⟨admitted.running, rfl⟩
  | failed id update error admitted => exact ⟨admitted.running, rfl⟩
  | finished id update weights admitted => exact ⟨admitted.running, rfl⟩
  | advanced id update weights admitted => exact ⟨admitted.running, rfl⟩
  | _ => cases accepted

end Coordinator

/-- While the counter stands still, a round is not started again unless it was abandoned. -/
theorem Situation.opensRound_eq_false (valid : rules.config.validate = .ok ())
    {operations : List Operation} {s : Situation σ α}
    (bookkept : s.coordinator.Bookkept rules.config) (busy : s.coordinator.phase ≠ .standBy)
    (still : (s.final rules operations).coordinator.current = s.coordinator.current)
    (continues : ∀ step ∈ s.steps rules operations, step.abandonsRound = false) :
    ∀ step ∈ s.steps rules operations, step.opensRound = false := by
  induction operations generalizing s with
  | nil => exact fun _ member => absurd member List.not_mem_nil
  | cons operation rest ih =>
    obtain ⟨effect, shown⟩ := s.step_shows rules operation
    have kept := s.step_bookkept valid operation bookkept
    have first := (shown.transition.counters_le valid bookkept).1
    have others := (Situation.final_counters_le valid rest kept).1
    rw [final_cons] at still
    rw [still] at others
    have same := UInt32.le_antisymm others first
    have here : (s.step rules operation).abandonsRound = false :=
      continues _ List.mem_cons_self
    intro step member
    rcases List.mem_cons.mp member with rfl | inside
    · rw [shown.opens]
      exact shown.transition.opensRound_eq_false valid bookkept busy same
    · refine ih kept ?_ (still.trans same.symm) ?_ step inside
      · exact shown.transition.busy busy (shown.abandons.symm.trans here)
      · intro other found
        exact continues other (List.mem_cons_of_mem _ found)

/-- An update that was taken is there as long as its round was not abandoned. After that, only what
was accepted in the last attempt counts. -/
theorem Step.Shows.hasUpdate_iff {step : Step σ α} {effect : Effect}
    (shown : step.Shows rules effect) (valid : rules.config.validate = .ok ())
    (bookkept : step.before.coordinator.Bookkept rules.config) {id : ParticipantId}
    {update : Update} (accepted : step.accepted? = some (id, update))
    {history : List (Step σ α)} {operations : List Operation}
    (follows : (step.after.final rules operations).coordinator.Follows
      (history ++ step :: step.after.steps rules operations))
    (runs : (step.after.final rules operations).coordinator.phase = .round)
    (still : (step.after.final rules operations).coordinator.current =
      step.before.coordinator.current) :
    (step.after.final rules operations).coordinator.round.hasUpdate id = true ↔
      (∀ other ∈ step.after.steps rules operations, other.abandonsRound = false) ∨
        ∃ update, (id, update) ∈
          (attempt (step.after.steps rules operations)).filterMap Step.accepted? := by
  obtain ⟨ran, continues⟩ :=
    shown.transition.running_of_accepted (shown.accepted.symm.trans accepted)
  have busy : step.before.coordinator.phase ≠ .standBy := by
    rw [ran]
    nofun
  have kept := shown.transition.bookkept valid bookkept
  have later := (Situation.final_counters_le valid operations kept).1
  rw [still] at later
  have same := UInt32.le_antisymm later (shown.transition.counters_le valid bookkept).1
  have closed := shown.opens.trans
    (shown.transition.opensRound_eq_false valid bookkept busy same)
  have stays := shown.transition.busy busy continues
  rw [follows.hasUpdate_iff runs]
  by_cases unbroken : ∀ other ∈ step.after.steps rules operations, other.abandonsRound = false
  · have none :=
      Situation.opensRound_eq_false valid kept stays (still.trans same.symm) unbroken
    refine iff_of_true ⟨update, ?_⟩ (Or.inl unbroken)
    rw [attempt_append_of_not_opens (List.forall_mem_cons.mpr ⟨closed, none⟩)]
    exact List.mem_filterMap.mpr ⟨step, by simp, accepted⟩
  · have abandoned : ∃ other ∈ step.after.steps rules operations, other.abandonsRound = true := by
      simpa using unbroken
    rw [List.append_cons] at follows ⊢
    have opened := follows.opens_of_abandons runs
      (fun _ member => Situation.exists_shows_of_mem member) abandoned
    rw [attempt_append_of_opens opened]
    exact ⟨Or.inr, fun either => either.resolve_left unbroken⟩

theorem update_kept_iff {registry : Registry} {weights : Weights} {selecting : σ} {aggregating : α}
    {opened : Outcome σ α Unit}
    (starts : rules.open registry weights selecting aggregating = .ok opened) {now : Instant}
    {operations : List Operation} {earlier between later : List (Step σ α)}
    {submission beat : Step σ α}
    (split : (⟨now, opened.next⟩ : Situation σ α).steps rules operations =
      earlier ++ submission :: (between ++ beat :: later))
    {id : ParticipantId} {update : Update} {current : UInt32}
    (submits : submission.operation.submission? = some (id, update))
    (acknowledged : submission.error? = none)
    (submitted : submission.before.coordinator.current = current)
    (answered : beat.heartbeat? = some (id, ⟨.round, current⟩)) :
    beat.before.coordinator.round.hasUpdate id = true ↔
      (∀ step ∈ between, step.abandonsRound = false) ∨
        ∃ update, (id, update) ∈ (attempt between).filterMap Step.accepted? := by
  obtain ⟨valid, rfl⟩ := Rules.open_eq_ok_iff.mp starts
  obtain ⟨first, operation, rest, _, before, here, remaining⟩ := Situation.steps_eq_append split
  obtain ⟨middle, beating, _, _, inside, last, _⟩ := Situation.steps_eq_append remaining.symm
  have follows : ((⟨now, .initial registry weights selecting aggregating⟩ : Situation σ α).final
      rules (first ++ operation :: middle)).coordinator.Follows _ :=
    Situation.final_follows _ nofun
  rw [Situation.final_append, Situation.final_cons, Situation.steps_append, Situation.steps,
    ← here, ← before] at follows
  have bookkept : submission.before.coordinator.Bookkept rules.config := by
    rw [here]
    exact Situation.final_bookkept valid first (Coordinator.initial_bookkept valid _ _ _ _)
  obtain ⟨effect, shown⟩ : ∃ effect, submission.Shows rules effect := by
    rw [here]
    exact Situation.step_shows rules operation _
  rw [last] at answered
  obtain ⟨told, still⟩ := Heartbeat.mk.inj (Situation.heartbeat?_step answered)
  rw [last, inside, Situation.step_before]
  exact shown.hasUpdate_iff valid bookkept (Step.accepted?_of_submission submits acknowledged)
    follows (Coordinator.phase_of_phaseFor told.symm) (still.symm.trans submitted.symm)

end Runs

namespace Trial

def submission : Step Unit Unit := firstRound.step rules (.request (.endTraining ann (update 1)))

/-- Bob leaves and comes back. -/
def restart : List Operation := [.request (.remove bob), .request (.rendezvous bob)]

/-- Ann's next heartbeat, after the given operations. -/
def beatAfter (operations : List Operation) : Step Unit Unit :=
  (submission.after.final rules operations).step rules (.request (.heartbeat ann))

def untilBeat (operations : List Operation) : List Operation :=
  quorumMet ++ .request (.endTraining ann (update 1)) ::
    (operations ++ [.request (.heartbeat ann)])

theorem steps_untilBeat (operations : List Operation) :
    (⟨0, opened.next⟩ : Situation Unit Unit).steps rules (untilBeat operations) =
      (⟨0, opened.next⟩ : Situation Unit Unit).steps rules quorumMet ++
        submission :: (submission.after.steps rules operations ++ [beatAfter operations]) := by
  rw [untilBeat, Situation.steps_append, Situation.steps, Situation.steps_append]
  rfl

end Trial

/-- Ann's update is kept while nothing but a heartbeat of Bob comes in between. -/
theorem update_kept_without_restart :
    Trial.rules.open (.empty 10000 5000) [] () () = .ok Trial.opened ∧
      Trial.submission.error? = none ∧
      (Trial.beatAfter [.request (.heartbeat Trial.bob)]).heartbeat? =
        some (Trial.ann, ⟨.round, 0⟩) ∧
      (Trial.beatAfter [.request (.heartbeat Trial.bob)]).before.coordinator.round.hasUpdate
        Trial.ann = true := by
  have acknowledged : Trial.submission.error? = none := by decide +kernel
  have answered : (Trial.beatAfter [.request (.heartbeat Trial.bob)]).heartbeat? =
      some (Trial.ann, ⟨.round, 0⟩) := by decide +kernel
  have kept := update_kept_iff Trial.starts (Trial.steps_untilBeat _) rfl acknowledged
    (by decide +kernel) answered
  exact ⟨Trial.starts, acknowledged, answered, kept.mpr (Or.inl (by decide +kernel))⟩

/-- A participant that trusts its heartbeats may wait for a round that waits for it: Ann's update is
lost when Bob leaves, and her next heartbeat finds the round running again, under its old number. -/
theorem restart_unnoticed :
    ¬∀ operations : List Operation, (∀ operation ∈ operations, operation.isOutside = false) →
      ∀ earlier submission between beat later id update current,
        (⟨0, Trial.opened.next⟩ : Situation Unit Unit).steps Trial.rules operations =
          earlier ++ submission :: (between ++ beat :: later) →
        submission.operation.submission? = some (id, update) → submission.error? = none →
        submission.before.coordinator.current = current →
        (∀ step ∈ between, step.operation.heartbeat? = some id →
          step.heartbeat? = some (id, ⟨.round, current⟩)) →
        beat.heartbeat? = some (id, ⟨.round, current⟩) →
        beat.before.coordinator.round.hasUpdate id = true := by
  intro noticed
  have kept := noticed (Trial.untilBeat Trial.restart) (by decide) _ _ _ _ _ Trial.ann
    (Trial.update 1) 0 (Trial.steps_untilBeat Trial.restart) rfl (by decide +kernel)
    (by decide +kernel) (by decide +kernel) (by decide +kernel)
  have lost : (Trial.beatAfter Trial.restart).before.coordinator.round.hasUpdate Trial.ann =
      false := by decide +kernel
  rw [lost] at kept
  cases kept

end FederatedRounds
