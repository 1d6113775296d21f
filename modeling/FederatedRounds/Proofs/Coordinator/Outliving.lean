import FederatedRounds.Proofs.Coordinator.Expiry

/-! Two coordinators that differ in when participants expire, and in nothing else. They handle all
requests alike but the removal of a participant that has expired in one of them, and they differ in
nothing else afterwards. -/
namespace FederatedRounds

namespace Registry
variable {r s : Registry} {now : Instant}

/-- The same participants are registered, and none of them expires earlier. -/
structure Outlives (r s : Registry) : Prop where
  ids : r.ids = s.ids
  given : r.expiryFrom = s.expiryFrom
  later : ∀ id expiry, s.expiry? id = some expiry →
    ∃ kept, r.expiry? id = some kept ∧ expiry ≤ kept

theorem Outlives.refl (r : Registry) : r.Outlives r :=
  ⟨rfl, rfl, fun _ expiry expires => ⟨expiry, expires, Nat.le_refl _⟩⟩

theorem Outlives.contains (outlives : r.Outlives s) (id : ParticipantId) :
    r.contains id = s.contains id := by
  rw [Bool.eq_iff_iff, contains_iff, contains_iff, outlives.ids]

theorem Outlives.size (outlives : r.Outlives s) : r.size = s.size := by
  rw [← length_ids, outlives.ids, length_ids]

theorem Outlives.alive (outlives : r.Outlives s) {observed : Instant} {id : ParticipantId}
    (alive : s.isExpired observed id = false) : r.isExpired observed id = false := by
  rw [Bool.eq_false_iff] at alive ⊢
  intro expired
  apply alive
  obtain ⟨kept, expires, past⟩ := isExpired_iff.mp expired
  obtain ⟨expiry, before⟩ :=
    contains_iff_expires.mp ((outlives.contains id).symm.trans (contains_of_isExpired expired))
  obtain ⟨same, found, le⟩ := outlives.later id expiry before
  obtain rfl : kept = same := Option.some.inj (expires.symm.trans found)
  exact isExpired_iff.mpr ⟨expiry, before, le.trans past⟩

theorem Outlives.add (outlives : r.Outlives s) (now : Instant) (id : ParticipantId) :
    (r.add now id).Outlives (s.add now id) where
  ids := by
    by_cases present : s.contains id = true
    · rw [add_of_contains _ _ present, add_of_contains _ _ ((outlives.contains id).trans present),
        ids_refresh, ids_refresh, outlives.ids]
    · have absent : s.contains id = false := by simpa using present
      rw [ids_add _ _ _ absent, ids_add _ _ _ ((outlives.contains id).trans absent), outlives.ids]
  given := by rw [expiryFrom_add, expiryFrom_add, outlives.given]
  later other expiry expires := by
    rw [expiry?_add] at expires ⊢
    by_cases same : other = id
    · rw [if_pos same] at expires ⊢
      rw [outlives.given, expires]
      exact ⟨expiry, rfl, Nat.le_refl _⟩
    · rw [if_neg same] at expires ⊢
      exact outlives.later other expiry expires

theorem Outlives.remove (outlives : r.Outlives s) (id : ParticipantId) :
    (r.remove id).Outlives (s.remove id) where
  ids := by rw [ids_remove, ids_remove, outlives.ids]
  given := outlives.given
  later other expiry expires := by
    rw [expiry?_remove] at expires ⊢
    by_cases same : other = id
    · rw [if_pos same] at expires
      cases expires
    · rw [if_neg same] at expires ⊢
      exact outlives.later other expiry expires

theorem Outlives.refresh (outlives : r.Outlives s) (now : Instant) (id : ParticipantId) :
    (r.refresh now id).Outlives (s.refresh now id) where
  ids := by rw [ids_refresh, ids_refresh, outlives.ids]
  given := outlives.given
  later other expiry expires := by
    rw [expiry?_refresh] at expires ⊢
    by_cases same : other = id
    · rw [if_pos same] at expires ⊢
      obtain ⟨earlier, before, rfl⟩ := Option.map_eq_some_iff.mp expires
      obtain ⟨kept, found, _⟩ := outlives.later id earlier before
      rw [found, outlives.given]
      exact ⟨_, rfl, Nat.le_refl _⟩
    · rw [if_neg same] at expires ⊢
      exact outlives.later other expiry expires

/-- Whoever is heard from expires later than before, if nobody expires later than that. -/
theorem Outlives.heard (outlives : r.Outlives s)
    (bounded : ∀ id expiry, s.expiry? id = some expiry → expiry ≤ s.expiryFrom now)
    (id : ParticipantId) : (r.refresh now id).Outlives s where
  ids := by rw [ids_refresh, outlives.ids]
  given := outlives.given
  later other expiry expires := by
    obtain ⟨kept, found, le⟩ := outlives.later other expiry expires
    rw [expiry?_refresh]
    split
    · subst other
      rw [found, outlives.given]
      exact ⟨_, rfl, bounded id expiry expires⟩
    · exact ⟨kept, found, le⟩

theorem Outlives.change (outlives : r.Outlives s) (now : Instant) {change : Change}
    (alive : ∀ id observed, change = .removeIfExpired id observed →
      s.isExpired observed id = false) :
    (r.change now change).Outlives (s.change now change) := by
  cases change with
  | add id => exact outlives.add now id
  | remove id => exact outlives.remove id
  | refresh id => exact outlives.refresh now id
  | removeIfExpired id observed =>
    have stays := alive id observed rfl
    unfold Registry.change removeIfExpired
    dsimp only
    rw [stays, outlives.alive stays]
    exact outlives

end Registry

def Outcome.withRegistry {σ α ρ : Type} (o : Outcome σ α ρ) (registry : Registry) : Outcome σ α ρ :=
  ⟨o.reply, o.next.withRegistry registry, o.log⟩

/-- Two outcomes that differ in when participants expire, and in nothing else. -/
def Outcome.Outlives {σ α ρ : Type} (p o : Outcome σ α ρ) : Prop :=
  ∃ registry, registry.Outlives o.next.registry ∧ p = o.withRegistry registry

namespace Coordinator
variable {σ α ρ τ : Type} {rules : Rules σ α} {now : Instant} {c : Coordinator σ α}
  {registry : Registry}

theorem openRound_withRegistry (rules : Rules σ α) (same : registry.ids = c.registry.ids) :
    openRound rules (c.withRegistry registry) =
      ((openRound rules c).1.withRegistry registry, (openRound rules c).2) := by
  unfold openRound withRegistry
  dsimp only
  rw [same]

theorem advance_withRegistry (rules : Rules σ α) (same : registry.ids = c.registry.ids) :
    (c.withRegistry registry).advance rules =
      ((c.advance rules).1.withRegistry registry, (c.advance rules).2) := by
  by_cases ended : rules.config.rounds ≤ c.current + 1
  · have ends : rules.config.rounds ≤ (c.withRegistry registry).current + 1 := ended
    rw [advance_finished ended, advance_finished ends]
    rfl
  · have goes : ¬rules.config.rounds ≤ (c.withRegistry registry).current + 1 := ended
    rw [advance_next ended, advance_next goes]
    exact openRound_withRegistry (c := { c with
      current := c.current + 1, epochBase := c.epochBase + rules.config.epochs }) rules same

theorem completeRound_withRegistry (rules : Rules σ α) (same : registry.ids = c.registry.ids) :
    (c.withRegistry registry).completeRound rules =
      (c.completeRound rules).withRegistry registry := by
  cases result : (c.aggregation rules).1 with
  | error error =>
    have refused : ((c.withRegistry registry).aggregation rules).1 = .error error := result
    rw [completeRound_failed result, completeRound_failed refused]
    rfl
  | ok weights =>
    have aggregated : ((c.withRegistry registry).aggregation rules).1 = .ok weights := result
    rw [completeRound_published result, completeRound_published aggregated]
    have advanced := advance_withRegistry (c := c.publish rules weights) rules same
    change Outcome.mk _ (((c.publish rules weights).withRegistry registry).advance rules).1
      (_ :: (((c.publish rules weights).withRegistry registry).advance rules).2) = _
    rw [advanced]
    rfl

theorem refusal?_withRegistry (same : registry.Outlives c.registry) (id : ParticipantId)
    (training : Training) :
    (c.withRegistry registry).refusal? id training = c.refusal? id training := by
  unfold refusal? withRegistry
  dsimp only
  rw [same.contains]

theorem startTraining_withRegistry (rules : Rules σ α) (same : registry.Outlives c.registry)
    (id : ParticipantId) :
    (c.withRegistry registry).startTraining rules id =
      (c.startTraining rules id).withRegistry registry := by
  unfold startTraining
  rw [refusal?_withRegistry same]
  cases c.refusal? id .start <;> rfl

theorem endTraining_withRegistry (rules : Rules σ α) (same : registry.Outlives c.registry)
    (id : ParticipantId) (update : Update) :
    (c.withRegistry registry).endTraining rules id update =
      (c.endTraining rules id update).withRegistry registry := by
  have passes := refusal?_withRegistry same id .finish
  cases refusal : c.refusal? id .finish with
  | some error =>
    rw [endTraining_refused refusal, endTraining_refused (passes.trans refusal)]
    rfl
  | none =>
    by_cases again : c.round.hasUpdate id = true
    · have repeats : (c.withRegistry registry).round.hasUpdate id = true := again
      rw [endTraining_repeated refusal again, endTraining_repeated (passes.trans refusal) repeats]
      rfl
    have first : c.round.hasUpdate id = false := by simpa using again
    have early : (c.withRegistry registry).round.hasUpdate id = false := first
    rw [endTraining_admitted refusal first, endTraining_admitted (passes.trans refusal) early]
    change (if (c.record id update).round.isFinished then
      (⟨(((c.record id update).withRegistry registry).completeRound rules).reply,
        (((c.record id update).withRegistry registry).completeRound rules).next,
        _ :: (((c.record id update).withRegistry registry).completeRound rules).log⟩ :
          Outcome σ α (Except CoordinatorError Unit))
      else ⟨.ok (), (c.record id update).withRegistry registry, _⟩) = _
    rw [completeRound_withRegistry (c := c.record id update) rules same.ids]
    dsimp only
    split <;> rfl

theorem afterRemoval_withRegistry (rules : Rules σ α) (same : registry.size = c.registry.size)
    (id : ParticipantId) :
    afterRemoval rules id (c.withRegistry registry) =
      ((afterRemoval rules id c).1.withRegistry registry, (afterRemoval rules id c).2) := by
  unfold afterRemoval withRegistry
  dsimp only
  rw [same]
  split <;> rfl

theorem Outlives.map {o p : Outcome σ α ρ} (outlives : p.Outlives o) (f : ρ → τ) :
    (p.map f).Outlives (o.map f) := by
  obtain ⟨registry, later, rfl⟩ := outlives
  exact ⟨registry, later, rfl⟩

theorem Outlives.received {o p : Outcome σ α ρ} (outlives : p.Outlives o) (notice : Notice) :
    ({ p with log := notice :: p.log } : Outcome σ α ρ).Outlives
      { o with log := notice :: o.log } := by
  obtain ⟨registry, later, rfl⟩ := outlives
  exact ⟨registry, later, rfl⟩

theorem rendezvous_outlives (rules : Rules σ α) (now : Instant)
    (later : registry.Outlives c.registry) (id : ParticipantId) :
    ((c.withRegistry registry).rendezvous rules now id).Outlives (c.rendezvous rules now id) := by
  have size : (c.withRegistry registry).registry.size = c.registry.size := later.size
  have contains : (c.withRegistry registry).registry.contains id = c.registry.contains id :=
    later.contains id
  have joined : ((c.withRegistry registry).registry.add now id).Outlives (c.registry.add now id) :=
    later.add now id
  unfold rendezvous
  by_cases full : rules.quorum ≤ c.registry.size
  · rw [if_pos full, if_pos (full.trans_eq size.symm), size]
    exact ⟨registry, later, rfl⟩
  rw [if_neg full, if_neg (by rwa [size])]
  by_cases registered : c.registry.contains id = true
  · rw [if_pos registered, if_pos (contains.trans registered)]
    exact ⟨_, later.refresh now id, rfl⟩
  rw [if_neg registered, if_neg (by rwa [contains])]
  dsimp only
  by_cases opens : rules.quorum ≤ (c.registry.add now id).size ∧ c.phase = .standBy
  · rw [if_pos opens, if_pos (by rwa [joined.size]), joined.size]
    have opened : openRound rules { c.withRegistry registry with
        registry := (c.withRegistry registry).registry.add now id } = _ :=
      openRound_withRegistry (c := { c with registry := c.registry.add now id }) rules joined.ids
    rw [opened]
    refine ⟨_, ?_, rfl⟩
    change Registry.Outlives _
      (openRound rules { c with registry := c.registry.add now id }).1.registry
    rw [openRound_registry]
    exact joined
  · rw [if_neg opens, if_neg (by rwa [joined.size]), joined.size]
    exact ⟨_, joined, rfl⟩

theorem heartbeat_outlives (now : Instant) (later : registry.Outlives c.registry)
    (id : ParticipantId) :
    ((c.withRegistry registry).heartbeat now id).Outlives (c.heartbeat now id) := by
  unfold heartbeat
  change Outcome.Outlives (if registry.contains id then _ else _) _
  rw [later.contains]
  split
  · exact ⟨_, later.refresh now id, rfl⟩
  · exact ⟨registry, later, rfl⟩

theorem startTraining_outlives (rules : Rules σ α) (later : registry.Outlives c.registry)
    (id : ParticipantId) :
    ((c.withRegistry registry).startTraining rules id).Outlives (c.startTraining rules id) := by
  refine ⟨registry, ?_, startTraining_withRegistry rules later id⟩
  rw [startTraining_next]
  exact later

theorem endTraining_outlives (rules : Rules σ α) (later : registry.Outlives c.registry)
    (id : ParticipantId) (update : Update) :
    ((c.withRegistry registry).endTraining rules id update).Outlives
      (c.endTraining rules id update) := by
  refine ⟨registry, ?_, endTraining_withRegistry rules later id update⟩
  rw [(endTraining_submission rules c id update).registry]
  exact later

theorem afterRemoval_outlives (rules : Rules σ α) (later : registry.Outlives c.registry)
    (id : ParticipantId) (reply : ρ) :
    (⟨reply, (afterRemoval rules id { c with registry := registry.remove id }).1,
      (afterRemoval rules id { c with registry := registry.remove id }).2⟩ :
        Outcome σ α ρ).Outlives
      ⟨reply, (afterRemoval rules id { c with registry := c.registry.remove id }).1,
        (afterRemoval rules id { c with registry := c.registry.remove id }).2⟩ := by
  have left := later.remove id
  have same := afterRemoval_withRegistry
    (c := { c with registry := c.registry.remove id }) rules left.size id
  dsimp only [withRegistry] at same
  rw [same]
  refine ⟨registry.remove id, ?_, rfl⟩
  rw [afterRemoval_registry]
  exact left

theorem remove_outlives (rules : Rules σ α) (later : registry.Outlives c.registry)
    (id : ParticipantId) :
    ((c.withRegistry registry).remove rules id).Outlives (c.remove rules id) := by
  have same : (c.withRegistry registry).registry.contains id = c.registry.contains id :=
    later.contains id
  by_cases registered : c.registry.contains id = true
  · rw [remove_registered registered, remove_registered (same.trans registered)]
    exact afterRemoval_outlives rules later id ()
  · rw [remove_absent registered, remove_absent (by rwa [same])]
    exact ⟨registry, later, rfl⟩

theorem removeExpired_outlives (rules : Rules σ α) (later : registry.Outlives c.registry)
    {id : ParticipantId} {observed : Instant} (alive : c.registry.isExpired observed id = false) :
    ((c.withRegistry registry).removeExpired rules id observed).Outlives
      (c.removeExpired rules id observed) := by
  have stays : (c.withRegistry registry).registry.isExpired observed id = false :=
    later.alive alive
  rw [removeExpired_alive (Bool.eq_false_iff.mp alive),
    removeExpired_alive (Bool.eq_false_iff.mp stays)]
  exact ⟨registry, later, rfl⟩

theorem onMessage_outlives (rules : Rules σ α) (now : Instant)
    (later : registry.Outlives c.registry) (id : ParticipantId) (message : Message) :
    ((c.withRegistry registry).onMessage rules now id message).Outlives
      (c.onMessage rules now id message) := by
  cases message with
  | rendezvous => exact Outlives.received (Outlives.map (rendezvous_outlives rules now later id) _) _
  | heartbeat => exact Outlives.received (Outlives.map (heartbeat_outlives now later id) _) _
  | startTraining =>
    exact Outlives.received (Outlives.map (startTraining_outlives rules later id) _) _
  | endTraining update =>
    exact Outlives.received (Outlives.map (endTraining_outlives rules later id update) _) _

/-- A request is answered as it would be if participants expired earlier, unless one is removed for
that. -/
theorem handle_outlives (rules : Rules σ α) (now : Instant) (later : registry.Outlives c.registry)
    {request : Request}
    (alive : ∀ id observed, request = .removeExpired id observed →
      c.registry.isExpired observed id = false) :
    ((c.withRegistry registry).handle rules now request).Outlives (c.handle rules now request) := by
  cases request with
  | rendezvous id => exact Outlives.map (rendezvous_outlives rules now later id) _
  | heartbeat id => exact Outlives.map (heartbeat_outlives now later id) _
  | startTraining id => exact Outlives.map (startTraining_outlives rules later id) _
  | endTraining id update => exact Outlives.map (endTraining_outlives rules later id update) _
  | message id message => exact Outlives.map (onMessage_outlives rules now later id message) _
  | remove id => exact Outlives.map (remove_outlives rules later id) _
  | removeExpired id observed =>
    exact Outlives.map (removeExpired_outlives rules later (alive id observed rfl)) _

end Coordinator
end FederatedRounds
