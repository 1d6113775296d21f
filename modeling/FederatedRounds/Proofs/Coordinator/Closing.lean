import FederatedRounds.Proofs.Coordinator.Aggregated
import FederatedRounds.Proofs.Coordinator.Interleaving
import FederatedRounds.Proofs.Coordinator.Quorum

/-! How a round ends. Whoever is missing may submit in any order and among any other requests: the
last submission, and none before it, has the updates aggregated, in the order of the selection. What
the session comes to, and what the last submission is answered, is the same for all these orders. -/
namespace FederatedRounds

namespace Coordinator
variable {σ α : Type} (rules : Rules σ α) (payload : ParticipantId → Update) (c : Coordinator σ α)

/-- What the aggregator makes of the updates that were submitted and of those yet to come. -/
def closing : Except AggregationError Weights × α :=
  rules.aggregator.aggregate c.aggregating
    ((c.round.contributions payload).map fun (_, update) => (update.weights, update.weight))

/-- The state that a running round leaves behind. -/
def closed : Coordinator σ α :=
  match (c.closing rules payload).1 with
  | .error _ =>
    { c with phase := .finished, round := .empty, aggregating := (c.closing rules payload).2 }
  | .ok weights =>
    if c.current.toNat + 1 < rules.config.rounds.toNat then
      let selection :=
        rules.selector.selectFraction c.selecting c.registry.ids rules.config.fraction
      { c with
        round := .start selection.1
        current := c.current + 1
        epochBase := c.epochBase + rules.config.epochs
        weights
        selecting := selection.2
        aggregating := (c.closing rules payload).2 }
    else
      { c with
        phase := .finished
        round := .empty
        weights
        aggregating := (c.closing rules payload).2 }

/-- The error that the last submission is answered with, if it is. -/
def verdict? : Option CoordinatorError :=
  match (c.closing rules payload).1 with
  | .error error => some (.aggregation error)
  | .ok _ => none

/-- The events of a completed round, the request for its last update left out. -/
def publication : List Event :=
  match (c.closing rules payload).1 with
  | .error _ => []
  | .ok weights =>
    (c.round.contributions payload).map (fun (id, update) => .writeMetrics id update.metrics) ++
      [.writeGlobalWeights c.current weights]

theorem verdict?_accepts : (c.verdict? rules payload).any CoordinatorError.isRefusal = false := by
  unfold verdict?
  split <;> rfl

theorem closed_aggregating :
    (c.closed rules payload).aggregating = (c.closing rules payload).2 := by
  unfold closed
  split
  · rfl
  · split <;> rfl

theorem closed_registry : (c.closed rules payload).registry = c.registry := by
  unfold closed
  split
  · rfl
  · split <;> rfl

end Coordinator

namespace Coordinator
variable {σ α : Type} {rules : Rules σ α} {payload : ParticipantId → Update}
  {c c' : Coordinator σ α} {now : Instant}

theorem endTraining_reply_last {id : ParticipantId} {update : Update} (admitted : c.Admits id)
    (last : (c.record id update).round.isFinished = true) :
    (c.endTraining rules id update).reply = ((c.record id update).completeRound rules).reply := by
  rw [endTraining_admitted (admitted.passes _) admitted.first]
  dsimp only
  rw [if_pos last]

/-- A running round lacks an update. -/
theorem Transition.unfinished (valid : rules.config.validate = .ok ())
    (selects : rules.selector.Exact) {effect : Effect} (inside : effect.isOutside = false)
    (quorate : c.Quorate rules.config)
    (unfinished : c.phase = .round → c.round.isFinished = false)
    (transition : Transition rules now c effect c') :
    c'.phase = .round → c'.round.isFinished = false := by
  have kept := transition.quorate selects inside quorate
  -- A new round holds no update, and somebody is selected for it.
  have fresh (empty : c'.round.updates = []) (runs : c'.phase = .round) :
      c'.round.isFinished = false := by
    have share := (kept.running runs).2.share
    have least := one_le_selectionSize (Config.one_le_quorum valid) rules.config.fraction
    rw [← share] at least
    rw [Round.isFinished, empty]
    exact decide_eq_false (Nat.ne_of_lt least)
  intro runs
  cases transition with
  | opened => exact fresh rfl runs
  | advanced => exact fresh rfl runs
  | recorded id update admitted missing => exact missing
  | failed => cases runs
  | finished => cases runs
  | abandoned => cases runs
  | _ => exact unfinished runs

theorem Ready.missing_ne_nil {config : Config} (ready : c.Ready config)
    (unfinished : c.round.isFinished = false) : c.round.missing ≠ [] := by
  intro complete
  rw [ready.sound.isFinished_iff.mpr complete] at unfinished
  cases unfinished

/-- A round ends in the next one, unless it is the last one or cannot be aggregated. -/
theorem Bookkept.closed_leaves (payload : ParticipantId → Update)
    (valid : rules.config.validate = .ok ()) (bookkept : c.Bookkept rules.config)
    (runs : c.phase = .round) :
    ((c.closed rules payload).phase = .finished ↔
        (∃ error, (c.closing rules payload).1 = .error error) ∨
          c.current.toNat + 1 = rules.config.rounds.toNat) ∧
      ((c.closed rules payload).phase ≠ .finished → (c.closed rules payload).phase = .round ∧
        (c.closed rules payload).current.toNat = c.current.toNat + 1) := by
  have below := bookkept.below
  unfold closed
  cases (c.closing rules payload).1 with
  | error error => exact ⟨iff_of_true rfl (Or.inl ⟨error, rfl⟩), fun ends => absurd rfl ends⟩
  | ok weights =>
    dsimp only
    by_cases more : c.current.toNat + 1 < rules.config.rounds.toNat
    · rw [if_pos more]
      refine ⟨iff_of_false ?_ ?_, fun _ => ⟨runs, toNat_add_of_lt (bookkept.room valid).1⟩⟩
      · rw [runs]
        decide
      · rintro (⟨_, failed⟩ | last)
        · cases failed
        · exact Nat.ne_of_lt more last
    · rw [if_neg more]
      exact ⟨iff_of_true rfl (Or.inr (by omega)), fun ends => absurd rfl ends⟩

/-- A round with all its updates ends as it had to, whatever the order in which they came. -/
theorem Alike.completeRound (valid : rules.config.validate = .ok ())
    (bookkept : c.Bookkept rules.config) {ids : List ParticipantId}
    (alike : (c.filled payload ids).Alike c')
    (taken : c'.round.inSelectionOrder = c.round.contributions payload) :
    (c.closed rules payload).Alike (c'.completeRound rules).next ∧
      (Answer.endTraining (c'.completeRound rules).reply).error? = c.verdict? rules payload ∧
      (c'.completeRound rules).next.events = c'.events ++ c.publication rules payload := by
  have aggregated : c'.aggregation rules = c.closing rules payload := by
    unfold aggregation Round.payloads closing
    rw [taken, alike.aggregating]
    rfl
  have current : c'.current = c.current := alike.current
  have aggregating := congrArg Prod.snd aggregated
  unfold closed verdict? publication
  cases result : (c.closing rules payload).1 with
  | error error =>
    rw [← aggregated] at result
    rw [completeRound_failed result]
    exact ⟨⟨alike.ids, rfl, rfl, current, alike.epochBase, alike.weights, alike.selecting,
      aggregating⟩, rfl, (List.append_nil _).symm⟩
  | ok weights =>
    rw [← aggregated] at result
    rw [completeRound_published result]
    have events : (c'.publish rules weights).events = c'.events ++
        ((c.round.contributions payload).map
            (fun (id, update) => Event.writeMetrics id update.metrics) ++
          [.writeGlobalWeights c.current weights]) := by
      rw [← taken, ← current]
      rfl
    have next : ¬rules.config.rounds ≤ (c'.publish rules weights).current + 1 ↔
        c.current.toNat + 1 < rules.config.rounds.toNat := by
      rw [← bookkept.more_iff valid, ← current]
      rfl
    dsimp only
    by_cases more : c.current.toNat + 1 < rules.config.rounds.toNat
    · rw [if_pos more, advance_next (next.mpr more)]
      have selection : rules.selector.selectFraction c'.selecting c'.registry.ids
          rules.config.fraction =
            rules.selector.selectFraction c.selecting c.registry.ids rules.config.fraction := by
        rw [alike.selecting, alike.ids]
        rfl
      have round : Round.start (rules.selector.selectFraction c'.selecting c'.registry.ids
          rules.config.fraction).1 = _ := congrArg (fun chosen => Round.start chosen.1) selection
      have selecting : (rules.selector.selectFraction c'.selecting c'.registry.ids
          rules.config.fraction).2 = _ := congrArg (fun chosen => chosen.2) selection
      exact ⟨⟨alike.ids, alike.phase, round, congrArg (· + 1) current,
        congrArg (· + rules.config.epochs) alike.epochBase, rfl, selecting, aggregating⟩,
        rfl, events⟩
    · rw [if_neg more, advance_finished (Classical.not_not.mp (mt next.mp more))]
      exact ⟨⟨alike.ids, rfl, rfl, current, alike.epochBase, rfl, alike.selecting, aggregating⟩,
        rfl, events⟩

end Coordinator

section Runs
variable {σ α : Type} {rules : Rules σ α} {payload : ParticipantId → Update}
  {c : Coordinator σ α} {s : Situation σ α} {front : List ParticipantId} {last : ParticipantId}
  {before after schedule : List Operation} {operation : Operation}

/-- The step takes the last update of a round and ends the round. -/
structure Step.Closes (rules : Rules σ α) (payload : ParticipantId → Update) (c : Coordinator σ α)
    (last : ParticipantId) (step : Step σ α) : Prop where
  accepted : step.accepted? = some (last, payload last)
  answered : step.error? = c.verdict? rules payload
  reached : (c.closed rules payload).Alike step.after.coordinator
  emitted : step.emitted = .readLocalWeights last c.current :: c.publication rules payload

theorem Situation.step_closes (valid : rules.config.validate = .ok ())
    (bookkept : c.Bookkept rules.config) (ready : c.Ready rules.config)
    (alike : (c.filled payload front).Alike s.coordinator)
    (permuted : (front ++ [last]).Perm c.round.missing)
    (submits : operation.submission? = some (last, payload last)) :
    (s.step rules operation).Closes rules payload c last := by
  have absent : last ∈ c.round.missing := permuted.subset (by simp)
  have once := permuted.nodup_iff.mpr ready.sound.missing_nodup
  have later : last ∉ front := fun member =>
    List.disjoint_of_nodup_append once member (List.mem_singleton_self last)
  have admitted := ready.admits alike absent later
  have recorded := alike.record last
  have complete : (s.coordinator.record last (payload last)).round.isFinished = true := by
    rw [recorded.round]
    exact ready.sound.isFinished_filled.mpr permuted.length_eq
  have taken : (s.coordinator.record last (payload last)).round.inSelectionOrder =
      c.round.contributions payload := by
    rw [recorded.round]
    exact ready.sound.inSelectionOrder_filled permuted
  obtain ⟨closes, verdict, published⟩ := recorded.completeRound valid bookkept taken
  obtain ⟨next, answered, emitted⟩ := s.step_submission rules submits
  rw [Coordinator.endTraining_last admitted complete] at next emitted
  rw [Coordinator.endTraining_reply_last admitted complete, verdict] at answered
  have accepted : (s.step rules operation).accepted? = some (last, payload last) := by
    unfold Step.accepted?
    rw [answered, Coordinator.verdict?_accepts]
    exact submits
  have current : s.coordinator.current = c.current := alike.current
  refine ⟨accepted, answered, next ▸ closes, ?_⟩
  rw [emitted, published, ← current]
  change ((s.coordinator.events ++ [_]) ++ _).drop _ = _
  rw [List.append_assoc]
  exact List.drop_left

/-- What a schedule shows in which all who are missing submit, the last one of them at the given
operation: the round waits until then, and nothing changes after that. The same schedule under an
aggregator that keeps a record shows that it is called once, and at that operation. -/
structure Situation.Closes (rules : Rules σ α) (payload : ParticipantId → Update)
    (front : List ParticipantId) (last : ParticipantId) (before : List Operation)
    (operation : Operation) (after : List Operation) (s : Situation σ α) : Prop where
  waits : s.Collects rules payload s.coordinator front before
  closes : ((s.final rules before).step rules operation).Closes rules payload s.coordinator last
  rests : (s.final rules (before ++ [operation])).Collects rules payload
    (s.coordinator.closed rules payload) [] after
  recorded : (s.recording.run rules.recording (before ++ operation :: after)).1 =
    (s.run rules (before ++ operation :: after)).1
  idle : ∀ step ∈ s.recording.steps rules.recording before, step.after.calls = []
  called : ∀ step ∈ (s.recording.final rules.recording before).steps rules.recording
    (operation :: after), step.after.calls = [(s.coordinator.round.contributions payload).map
      fun (_, update) => (update.weights, update.weight)]

section Closing
variable (valid : rules.config.validate = .ok ()) (bookkept : s.coordinator.Bookkept rules.config)
  (ready : s.coordinator.Ready rules.config)
  (permuted : (front ++ [last]).Perm s.coordinator.round.missing)
include valid bookkept ready permuted

theorem Situation.closes (early : s.Interleaves rules payload front before)
    (submits : operation.submission? = some (last, payload last))
    (late : (s.final rules (before ++ [operation])).Interleaves rules payload [] after) :
    s.Collects rules payload s.coordinator front before ∧
      ((s.final rules before).step rules operation).Closes rules payload s.coordinator last ∧
      (s.final rules (before ++ [operation])).Collects rules payload
        (s.coordinator.closed rules payload) [] after := by
  have once := permuted.nodup_iff.mpr ready.sound.missing_nodup
  have fewer : front.length < s.coordinator.round.missing.length := by
    rw [← permuted.length_eq, List.length_append]
    exact Nat.lt_succ_self _
  have start : (s.coordinator.filled payload []).Alike s.coordinator := by
    rw [Coordinator.filled_nil]
    exact .refl _
  have waits := early.collects ready start once.of_append_left
    (fun _ member => permuted.subset (List.mem_append_left _ member)) fewer
  rw [Coordinator.filled_nil] at waits
  have closes := step_closes valid bookkept ready waits.reached permuted submits
  have full : rules.quorum ≤ (s.coordinator.closed rules payload).registry.size := by
    rw [Coordinator.closed_registry]
    exact ready.full
  rw [final_append] at late ⊢
  exact ⟨waits, closes, late.collects_nil full closes.reached⟩

/-- The record of the calls is empty up to the last submission and holds one call from then on. -/
theorem Situation.recording_calls (early : s.Interleaves rules payload front before)
    (submits : operation.submission? = some (last, payload last))
    (late : (s.final rules (before ++ [operation])).Interleaves rules payload [] after) :
    (∀ step ∈ s.recording.steps rules.recording before, step.after.calls = []) ∧
      ∀ step ∈ (s.recording.final rules.recording before).steps rules.recording
        (operation :: after), step.after.calls = [(s.coordinator.round.contributions payload).map
          fun (_, update) => (update.weights, update.weight)] := by
  have checked : rules.recording.config.validate = .ok () := valid
  have books : s.recording.coordinator.Bookkept rules.recording.config :=
    ⟨bookkept.below, bookkept.counted⟩
  have prepared : s.recording.coordinator.Ready rules.recording.config :=
    ⟨ready.full, ready.running, ready.sound, ready.registered⟩
  have first : s.recording.Interleaves rules.recording payload front before := .recording early
  have same := final_unrecorded rules (before ++ [operation]) s.recording
  have second : (s.recording.final rules.recording (before ++ [operation])).Interleaves
      rules.recording payload [] after := .recording (same ▸ late)
  obtain ⟨waits, closes, rests⟩ :=
    Situation.closes checked books prepared permuted first submits second
  have calls : (s.recording.coordinator.closed rules.recording payload).aggregating.2 =
      [(s.coordinator.round.contributions payload).map
        fun (_, update) => (update.weights, update.weight)] := by
    rw [Coordinator.closed_aggregating]
    rfl
  refine ⟨?_, List.forall_mem_cons.mpr ⟨?_, ?_⟩⟩
  · intro step member
    obtain ⟨part, _, alike⟩ := waits.states step member
    exact congrArg Prod.snd alike.aggregating
  · exact (congrArg Prod.snd closes.reached.aggregating).trans calls
  · intro step member
    rw [final_append] at rests
    obtain ⟨part, front, alike⟩ := rests.states step member
    rw [List.prefix_nil.mp front, Coordinator.filled_nil] at alike
    exact (congrArg Prod.snd alike.aggregating).trans calls

theorem Situation.Interleaves.closes
    (interleaves : s.Interleaves rules payload (front ++ [last]) schedule) :
    ∃ before operation after, schedule = before ++ operation :: after ∧
      s.Closes rules payload front last before operation after := by
  obtain ⟨before, operation, after, rfl, early, submits, late⟩ := interleaves.split
  obtain ⟨waits, closes, rests⟩ :=
    Situation.closes valid bookkept ready permuted early submits late
  obtain ⟨idle, called⟩ :=
    Situation.recording_calls valid bookkept ready permuted early submits late
  have recorded := congrArg Prod.fst
    (run_unrecorded rules (before ++ operation :: after) s.recording).symm
  exact ⟨before, operation, after, rfl, waits, closes, rests, recorded, idle, called⟩

end Closing

theorem Situation.Closes.final (closes : s.Closes rules payload front last before operation after) :
    (s.coordinator.closed rules payload).Alike
      (s.final rules (before ++ operation :: after)).coordinator := by
  have reached := closes.rests.reached
  rw [Coordinator.filled_nil, ← final_append, ← List.append_cons] at reached
  exact reached

/-- The events tell the order of the submissions, and end in the same way for all orders. -/
theorem Situation.Closes.trace (closes : s.Closes rules payload front last before operation after) :
    s.trace rules (before ++ operation :: after) =
      s.coordinator.events ++
        ((front ++ [last]).map (fun id => Event.readLocalWeights id s.coordinator.current) ++
          s.coordinator.publication rules payload) := by
  have rests := closes.rests.emitted
  rw [final_append] at rests
  have rests : (((s.final rules before).step rules operation).after.steps rules after).flatMap
      Step.emitted = [] := rests
  rw [trace_eq, steps_append, steps, List.flatMap_append, List.flatMap_cons, closes.waits.emitted,
    closes.closes.emitted, rests, List.map_append]
  simp

theorem Coordinator.Quorate.ready {config : Config} (quorate : c.Quorate config)
    (sound : c.round.Sound) (runs : c.phase = .round) : c.Ready config := by
  obtain ⟨full, staffed⟩ := quorate.running runs
  exact ⟨Nat.le_of_eq full.symm, runs, sound, staffed.registered⟩

theorem Situation.final_unfinished (valid : rules.config.validate = .ok ())
    (selects : rules.selector.Exact) {operations : List Operation}
    (inside : ∀ operation ∈ operations, operation.isOutside = false)
    (quorate : s.coordinator.Quorate rules.config)
    (unfinished : s.coordinator.phase = .round → s.coordinator.round.isFinished = false) :
    (s.final rules operations).coordinator.phase = .round →
      (s.final rules operations).coordinator.round.isFinished = false := by
  refine (final_invariant (fun s => s.coordinator.Quorate rules.config ∧
    (s.coordinator.phase = .round → s.coordinator.round.isFinished = false)) ?_
      ⟨quorate, unfinished⟩).2
  intro operation member s ⟨quorate, unfinished⟩
  obtain ⟨effect, shown⟩ := s.step_shows rules operation
  have stays : effect.isOutside = false := by
    rw [← shown.outside]
    exact inside operation member
  exact ⟨shown.transition.quorate selects stays quorate,
    shown.transition.unfinished valid selects stays quorate unfinished⟩

theorem round_closes_alike_in_every_order {α : Type} {rules : Rules Unit α}
    (ordered : rules.selector = .order) {time timeout : Nat} {weights : Weights} {aggregating : α}
    {opened : Outcome Unit α Unit}
    (starts : rules.open (.empty time timeout) weights () aggregating = .ok opened) (now : Instant)
    {operations : List Operation} (inside : ∀ operation ∈ operations, operation.isOutside = false)
    (payload : ParticipantId → Update) :
    let s := (⟨now, opened.next⟩ : Situation Unit α).final rules operations
    let c := s.coordinator
    let closed := c.closed rules payload
    c.phase = .round →
      c.round.missing ≠ [] ∧
        (closed.phase = .finished ↔
          (∃ error, (c.closing rules payload).1 = .error error) ∨
            c.current.toNat + 1 = rules.config.rounds.toNat) ∧
        (closed.phase ≠ .finished →
          closed.phase = .round ∧ closed.current.toNat = c.current.toNat + 1) ∧
        (∀ front last schedule, (front ++ [last]).Perm c.round.missing →
          s.Interleaves rules payload (front ++ [last]) schedule →
          (∃ before operation after, schedule = before ++ operation :: after ∧
            s.Closes rules payload front last before operation after) ∧
          s.trace rules schedule = c.events ++
            ((front ++ [last]).map (fun id => Event.readLocalWeights id c.current) ++
              c.publication rules payload)) ∧
        ∀ order order' schedule schedule', order.Perm c.round.missing →
          order'.Perm c.round.missing → s.Interleaves rules payload order schedule →
          s.Interleaves rules payload order' schedule' →
          (s.final rules schedule).coordinator.Alike (s.final rules schedule').coordinator := by
  obtain ⟨valid, rfl⟩ := Rules.open_eq_ok_iff.mp starts
  intro s c closed runs
  have selects : rules.selector.Exact := ordered ▸ Selector.order_exact
  have initial : (Coordinator.initial (.empty time timeout) weights () aggregating).Quorate
      rules.config := Coordinator.initial_quorate valid time timeout _ _ _
  have quorate : c.Quorate rules.config := Situation.final_quorate selects inside initial
  have sound : c.round.Sound := Situation.final_sound selects operations Round.empty_sound
  have bookkept : c.Bookkept rules.config :=
    Situation.final_bookkept valid operations (Coordinator.initial_bookkept valid _ _ _ _)
  have unfinished : c.round.isFinished = false :=
    Situation.final_unfinished valid selects inside initial nofun runs
  have ready := quorate.ready sound runs
  have lacking := ready.missing_ne_nil unfinished
  obtain ⟨ends, goes⟩ := bookkept.closed_leaves payload valid runs
  have each : ∀ order schedule, order.Perm c.round.missing →
      s.Interleaves rules payload order schedule →
      closed.Alike (s.final rules schedule).coordinator := by
    intro order schedule permuted interleaves
    rcases List.eq_nil_or_concat' order with rfl | ⟨front, last, rfl⟩
    · exact absurd permuted.nil_eq.symm lacking
    · obtain ⟨before, operation, after, rfl, closes⟩ :=
        Situation.Interleaves.closes valid bookkept ready permuted interleaves
      exact closes.final
  refine ⟨lacking, ends, goes, ?_, ?_⟩
  · intro front last schedule permuted interleaves
    obtain ⟨before, operation, after, rfl, closes⟩ :=
      Situation.Interleaves.closes valid bookkept ready permuted interleaves
    exact ⟨⟨before, operation, after, rfl, closes⟩, closes.trace⟩
  · intro order order' schedule schedule' permuted permuted' interleaves interleaves'
    exact (each order schedule permuted interleaves).symm.trans
      (each order' schedule' permuted' interleaves')

end Runs

namespace Trial

def own (id : ParticipantId) : Update := ⟨[], 1, [(id.text, [])]⟩

def annFirst : List Operation :=
  [.request (.endTraining ann (own ann)), .advance 5, .request (.endTraining bob (own bob))]

/-- Bob submits twice and is refused the second time; another participant is turned away. -/
def bobFirst : List Operation :=
  [.request (.heartbeat ann), .request (.endTraining bob (own bob)),
    .request (.message bob (.endTraining (own bob))),
    .request (.message ann (.endTraining (own ann))), .request (.rendezvous ⟨"cat"⟩)]

end Trial

/-- The second round begins alike, whoever submits first in the first one. -/
theorem both_orders_close_alike :
    let first := Trial.firstRound.final Trial.rules Trial.annFirst
    let second := Trial.firstRound.final Trial.rules Trial.bobFirst
    Trial.rules.open (.empty 10000 5000) [] () () = .ok Trial.opened ∧
      (∀ operation ∈ Trial.quorumMet, operation.isOutside = false) ∧
      Trial.firstRound.coordinator.phase = .round ∧
      Trial.firstRound.coordinator.round.missing = [Trial.ann, Trial.bob] ∧
      Trial.firstRound.Interleaves Trial.rules Trial.own [Trial.ann, Trial.bob] Trial.annFirst ∧
      Trial.firstRound.Interleaves Trial.rules Trial.own [Trial.bob, Trial.ann] Trial.bobFirst ∧
      first.coordinator.Alike second.coordinator ∧ second.coordinator.current = 1 ∧
      Trial.firstRound.trace Trial.rules Trial.bobFirst =
        [.readLocalWeights Trial.bob 0, .readLocalWeights Trial.ann 0,
          .writeMetrics Trial.ann [("ann", [])], .writeMetrics Trial.bob [("bob", [])],
          .writeGlobalWeights 0 []] := by
  intro first second
  have inside : ∀ operation ∈ Trial.quorumMet, operation.isOutside = false := by decide
  have runs : Trial.firstRound.coordinator.phase = .round := by decide +kernel
  have missing : Trial.firstRound.coordinator.round.missing = [Trial.ann, Trial.bob] := by
    decide +kernel
  have one : Trial.firstRound.Interleaves Trial.rules Trial.own [Trial.ann, Trial.bob]
      Trial.annFirst := .submission rfl (.bystander rfl (.submission rfl .nil))
  have other : Trial.firstRound.Interleaves Trial.rules Trial.own [Trial.bob, Trial.ann]
      Trial.bobFirst :=
    .bystander rfl (.submission rfl (.bystander (by decide +kernel)
      (.submission rfl (.bystander rfl .nil))))
  have closes := round_closes_alike_in_every_order rfl Trial.starts 0 inside Trial.own
  rw [← Trial.firstRound] at closes
  obtain ⟨_, _, _, each, alike⟩ := closes runs
  rw [missing] at each alike
  have swapped : [Trial.bob, Trial.ann].Perm [Trial.ann, Trial.bob] := .swap _ _ _
  obtain ⟨_, trace⟩ := each [Trial.bob] Trial.ann Trial.bobFirst swapped other
  refine ⟨Trial.starts, inside, runs, missing, one, other, ?_, by decide +kernel, ?_⟩
  · exact alike _ _ _ _ (.refl _) swapped one other
  · rw [trace]
    decide +kernel

end FederatedRounds
