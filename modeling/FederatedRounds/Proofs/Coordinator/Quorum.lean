import FederatedRounds.Proofs.Coordinator.Transition
import FederatedRounds.Proofs.Selection

/-! The quorum while only the coordinator changes the registry. Participants are let in until the
quorum is met and no further, so that a round runs with exactly the quorum connected, and without
one of them it is abandoned. None of this holds once others add or remove participants. -/
namespace FederatedRounds

/-- The participants of a round are registered, stand once each, and make up the fraction of the
quorum that the configuration asks for. -/
structure Round.Staffed (config : Config) (registry : Registry) (r : Round) : Prop where
  registered : ∀ id ∈ r.selected, registry.contains id = true
  distinct : r.selected.Nodup
  share : r.selected.length = selectionSize config.quorum config.fraction

namespace Coordinator
variable {σ α : Type}

/-- Fewer than the quorum are connected while the session waits, and just the quorum while a round
runs. -/
structure Quorate (config : Config) (c : Coordinator σ α) : Prop where
  bounded : c.registry.size ≤ config.quorum
  waiting : c.phase = .standBy → c.registry.size < config.quorum
  running : c.phase = .round →
    c.registry.size = config.quorum ∧ c.round.Staffed config c.registry

variable {rules : Rules σ α} {now : Instant} {c c' : Coordinator σ α}

theorem openRound_staffed (selects : rules.selector.Exact)
    (full : c.registry.size = rules.config.quorum) :
    (openRound rules c).1.round.Staffed rules.config c.registry where
  registered id member :=
    (c.registry.contains_iff id).mpr
      (selects.selectFraction_subset c.selecting c.registry.once rules.config.fraction member)
  distinct := selects.selectFraction_nodup c.selecting c.registry.once rules.config.fraction
  share := by
    rw [← full, ← c.registry.length_ids]
    exact selects.selectFraction_length c.selecting c.registry.once rules.config.fraction

/-- While a round runs, whoever leaves takes the quorum with them. -/
theorem Quorate.short_of_remove {config : Config} (quorate : c.Quorate config)
    {id : ParticipantId} (registered : c.registry.contains id = true) :
    (c.registry.remove id).size < config.quorum :=
  Nat.lt_of_lt_of_le (c.registry.size_remove_lt id registered) quorate.bounded

theorem Transition.quorate (selects : rules.selector.Exact) {effect : Effect}
    (inside : effect.isOutside = false) (quorate : c.Quorate rules.config)
    (transition : Transition rules now c effect c') : c'.Quorate rules.config := by
  cases transition with
  | unchanged => exact quorate
  | eventTaken => exact ⟨quorate.bounded, quorate.waiting, quorate.running⟩
  | outside change => cases inside
  | refreshed id registered =>
    have same := c.registry.size_refresh now id
    refine ⟨same.symm ▸ quorate.bounded, fun waits => same.symm ▸ quorate.waiting waits, ?_⟩
    intro runs
    obtain ⟨full, staffed⟩ := quorate.running runs
    refine ⟨same.trans full, ?_, staffed.distinct, staffed.share⟩
    intro other member
    rw [Registry.contains_refresh]
    exact staffed.registered other member
  | joined id absent room waits =>
    have more := c.registry.size_add now id absent
    refine ⟨?_, ?_, ?_⟩
    · rw [more]
      exact room
    · intro waiting
      rw [more]
      exact Nat.not_le.mp fun reached => waits ⟨reached, waiting⟩
    · intro runs
      exact absurd (quorate.running runs).1 (Nat.ne_of_lt room)
  | opened id absent room reached waiting =>
    have full : (c.registry.add now id).size = rules.config.quorum := by
      rw [c.registry.size_add now id absent]
      exact Nat.le_antisymm room reached
    refine ⟨Nat.le_of_eq full, nofun, ?_⟩
    intro _
    exact ⟨full, openRound_staffed (c := { c with registry := c.registry.add now id }) selects full⟩
  | recorded id update admitted missing =>
    obtain ⟨full, staffed⟩ := quorate.running admitted.running
    refine ⟨quorate.bounded, quorate.waiting, ?_⟩
    intro _
    exact ⟨full, staffed.registered, staffed.distinct, staffed.share⟩
  | failed => exact ⟨quorate.bounded, nofun, nofun⟩
  | finished => exact ⟨quorate.bounded, nofun, nofun⟩
  | advanced id update weights admitted last aggregated more =>
    have full := (quorate.running admitted.running).1
    refine ⟨quorate.bounded, quorate.waiting, ?_⟩
    intro _
    exact ⟨full, openRound_staffed selects full⟩
  | removed id registered kept =>
    have short := quorate.short_of_remove registered
    refine ⟨Nat.le_of_lt short, fun _ => short, ?_⟩
    intro runs
    exact absurd ⟨runs, short⟩ kept
  | abandoned id registered running short =>
    exact ⟨Nat.le_of_lt short, fun _ => short, nofun⟩

theorem initial_quorate {config : Config} (valid : config.validate = .ok ()) (time timeout : Nat)
    (weights : Weights) (selecting : σ) (aggregating : α) :
    (Coordinator.initial (.empty time timeout) weights selecting aggregating).Quorate config where
  bounded := Nat.zero_le _
  waiting _ := Config.one_le_quorum valid
  running := nofun

theorem rendezvous_accepts_iff (now : Instant) (id : ParticipantId) :
    (c.rendezvous rules now id).reply = .accept ↔ c.registry.size < rules.quorum := by
  unfold rendezvous
  by_cases full : rules.quorum ≤ c.registry.size
  · rw [if_pos full]
    simpa using full
  · rw [if_neg full]
    refine iff_of_true ?_ (Nat.not_le.mp full)
    dsimp only
    split_ifs <;> rfl

theorem onMessage_accepts_iff (now : Instant) (id : ParticipantId) :
    (c.onMessage rules now id .rendezvous).reply = .ok (.rendezvous .accept) ↔
      c.registry.size < rules.quorum := by
  rw [← rendezvous_accepts_iff now id]
  change Except.ok (Response.rendezvous (c.rendezvous rules now id).reply) = _ ↔ _
  simp

theorem Quorate.afterRemoval_abandons (quorate : c.Quorate rules.config)
    (runs : c.phase = .round) {id : ParticipantId} (registered : c.registry.contains id = true) :
    let left := (afterRemoval rules id { c with registry := c.registry.remove id }).1
    left.phase = .standBy ∧ left.round = .empty := by
  unfold afterRemoval
  have short := quorate.short_of_remove registered
  dsimp only
  rw [if_pos ⟨runs, short⟩]
  exact ⟨rfl, rfl⟩

theorem Quorate.remove_abandons (quorate : c.Quorate rules.config) (runs : c.phase = .round)
    {id : ParticipantId} (registered : c.registry.contains id = true) :
    (c.remove rules id).next.phase = .standBy ∧ (c.remove rules id).next.round = .empty := by
  rw [remove_registered registered]
  exact quorate.afterRemoval_abandons runs registered

theorem Quorate.removeExpired_abandons (quorate : c.Quorate rules.config)
    (runs : c.phase = .round) {id : ParticipantId} {observed : Instant}
    (expired : c.registry.isExpired observed id = true) :
    (c.removeExpired rules id observed).next.phase = .standBy ∧
      (c.removeExpired rules id observed).next.round = .empty := by
  rw [removeExpired_expired expired]
  exact quorate.afterRemoval_abandons runs (Registry.contains_of_isExpired expired)

end Coordinator

theorem Situation.final_quorate {σ α : Type} {rules : Rules σ α} (selects : rules.selector.Exact)
    {operations : List Operation} (inside : ∀ operation ∈ operations, operation.isOutside = false)
    {s : Situation σ α} (quorate : s.coordinator.Quorate rules.config) :
    (s.final rules operations).coordinator.Quorate rules.config := by
  refine final_invariant (fun s => s.coordinator.Quorate rules.config) ?_ quorate
  intro operation member s kept
  obtain ⟨effect, shown⟩ := s.step_shows rules operation
  refine shown.transition.quorate selects ?_ kept
  rw [← shown.outside]
  exact inside operation member

theorem quorum_connected_while_round_runs {α : Type} {rules : Rules Unit α}
    (ordered : rules.selector = .order) {time timeout : Nat} {weights : Weights} {aggregating : α}
    {opened : Outcome Unit α Unit}
    (starts : rules.open (.empty time timeout) weights () aggregating = .ok opened) (now : Instant)
    {operations : List Operation} (inside : ∀ operation ∈ operations, operation.isOutside = false) :
    let c := ((⟨now, opened.next⟩ : Situation Unit α).final rules operations).coordinator
    c.registry.size ≤ rules.quorum ∧
      (c.phase = .standBy → c.registry.size < rules.quorum) ∧
      (c.phase = .round → c.registry.size = rules.quorum ∧
        (∀ id ∈ c.round.selected, c.registry.contains id = true) ∧ c.round.selected.Nodup ∧
        c.round.selected.length = selectionSize rules.quorum rules.config.fraction) ∧
      (∀ instant id,
        ((c.rendezvous rules instant id).reply = .accept ↔ c.registry.size < rules.quorum) ∧
        ((c.onMessage rules instant id .rendezvous).reply = .ok (.rendezvous .accept) ↔
          c.registry.size < rules.quorum)) ∧
      (c.phase = .round → ∀ id, c.registry.contains id = true →
        ((c.remove rules id).next.phase = .standBy ∧ (c.remove rules id).next.round = .empty) ∧
        ∀ observed, c.registry.isExpired observed id = true →
          (c.removeExpired rules id observed).next.phase = .standBy ∧
            (c.removeExpired rules id observed).next.round = .empty) := by
  obtain ⟨valid, rfl⟩ := Rules.open_eq_ok_iff.mp starts
  intro c
  have selects : rules.selector.Exact := ordered ▸ Selector.order_exact
  have quorate : c.Quorate rules.config :=
    Situation.final_quorate selects inside (Coordinator.initial_quorate valid time timeout _ _ _)
  refine ⟨quorate.bounded, quorate.waiting, ?_, ?_, ?_⟩
  · intro runs
    obtain ⟨full, staffed⟩ := quorate.running runs
    exact ⟨full, staffed.registered, staffed.distinct, staffed.share⟩
  · intro instant id
    exact ⟨Coordinator.rendezvous_accepts_iff instant id,
      Coordinator.onMessage_accepts_iff instant id⟩
  · intro runs id registered
    refine ⟨quorate.remove_abandons runs registered, ?_⟩
    intro observed expired
    exact quorate.removeExpired_abandons runs expired

/-- With a quorum of two, a third participant is turned away, and the round is abandoned when a
participant leaves. -/
theorem quorum_of_two_lost :
    Trial.rules.open (.empty 10000 5000) [] () () = .ok Trial.opened ∧
      (∀ operation ∈ Trial.quorumMet, operation.isOutside = false) ∧
      Trial.firstRound.coordinator.registry.size = Trial.rules.quorum ∧
      (Trial.firstRound.coordinator.rendezvous Trial.rules 0 ⟨"cat"⟩).reply ≠ .accept ∧
      (Trial.firstRound.coordinator.remove Trial.rules Trial.bob).next.phase = .standBy := by
  have inside : ∀ operation ∈ Trial.quorumMet, operation.isOutside = false := by decide
  obtain ⟨_, _, running, accepts, leaves⟩ :=
    quorum_connected_while_round_runs rfl Trial.starts 0 inside
  rw [← Trial.firstRound] at running accepts leaves
  have runs : Trial.firstRound.coordinator.phase = .round := by decide +kernel
  have full := (running runs).1
  refine ⟨Trial.starts, inside, full, ?_, ?_⟩
  · intro accepted
    exact absurd ((accepts 0 _).1.mp accepted) (Nat.not_lt.mpr (Nat.le_of_eq full.symm))
  · exact (leaves runs Trial.bob (by decide +kernel)).1.1

end FederatedRounds
