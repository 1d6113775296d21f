import FederatedRounds.Proofs.Coordinator.Publication
import FederatedRounds.Proofs.Service.Schedule
import FederatedRounds.Proofs.Table

/-! What the memory of the stores holds. Its operations are carried out in the order in which the
coordinator emits their events, each once, whatever the stores of the other kinds do. At any moment
it holds what came of the events so far, and when the service has stopped it holds what came of all.
-/
namespace FederatedRounds
open Storage

/-- The metrics that an event asks to be written. -/
def Event.reported? : Event → Option (ParticipantId × Metrics)
  | .writeMetrics id metrics => some (id, metrics)
  | _ => none

namespace Service
/-- An operation changes the memory if its store is the memory, and only for what its event asks. -/
theorem carryOut_memory (stores : Stores) (memory : MemoryStore) (event : Event) :
    (StoreQueue.carryOut stores memory event).1 =
      { memory with
        global :=
          if stores.global = .memory then
            event.written?.toList.foldl (fun t entry => t.set entry.1 entry.2) memory.global
          else memory.global
        metrics :=
          if stores.metrics = .memory then memory.metrics ++ event.reported?.toList
          else memory.metrics } := by
  cases event with
  | writeGlobalWeights round weights =>
    cases kind : stores.global <;>
      simp [StoreQueue.carryOut, kind, Event.written?, Event.reported?, MemoryStore.writeGlobal]
  | writeMetrics id metrics =>
    cases kind : stores.metrics <;>
      simp [StoreQueue.carryOut, kind, Event.written?, Event.reported?, MemoryStore.writeMetrics]
  | readLocalWeights id round =>
    have kept : (StoreQueue.carryOut stores memory (.readLocalWeights id round)).1 = memory := by
      unfold StoreQueue.carryOut
      dsimp only
      split
      · split <;> rfl
      all_goals rfl
    rw [kept]
    simp [Event.written?, Event.reported?]

/-- The memory holds what these events ask for, as far as it is the store for it. -/
structure Holds (stores : Stores) (events : List Event) (memory : MemoryStore) : Prop where
  global : memory.global =
    if stores.global = .memory then Table.ofEntries (events.filterMap Event.written?) else []
  metrics : memory.metrics =
    if stores.metrics = .memory then events.filterMap Event.reported? else []

theorem empty_holds (stores : Stores) : Holds stores [] .empty :=
  ⟨(ite_self _).symm, (ite_self _).symm⟩

theorem Holds.carryOut {stores : Stores} {events : List Event} {memory : MemoryStore}
    (holds : Holds stores events memory) (event : Event) :
    Holds stores (events ++ [event]) (StoreQueue.carryOut stores memory event).1 := by
  have single {τ : Type} (f : Event → Option τ) : [event].filterMap f = (f event).toList := by
    rw [List.filterMap_cons]
    cases f event <;> rfl
  rw [carryOut_memory]
  refine ⟨?_, ?_⟩ <;> dsimp only
  · rw [holds.global, List.filterMap_append, single, Table.ofEntries_append]
    split <;> rfl
  · rw [holds.metrics, List.filterMap_append, single]
    split <;> rfl

theorem Holds.carryOuts {stores : Stores} {events : List Event} {memory : MemoryStore}
    (holds : Holds stores events memory) (rest : List Event) :
    Holds stores (events ++ rest)
      (rest.foldl (fun memory event => (StoreQueue.carryOut stores memory event).1) memory) := by
  induction rest generalizing events memory with
  | nil =>
    rw [List.append_nil]
    exact holds
  | cons event rest ih =>
    have next := ih (holds.carryOut event)
    rw [List.append_assoc] at next
    exact next

theorem finish_memory (q : StoreQueue) :
    q.finish.memory = (q.waiting.map (·.2)).foldl
      (fun memory event => (StoreQueue.carryOut q.stores memory event).1) q.memory := by
  have each (asked : List (Instant × Event)) (q : StoreQueue) :
      (asked.foldl (fun q (entry : Instant × Event) => q.perform entry.1 entry.2) q).memory =
        (asked.map (·.2)).foldl
          (fun memory event => (StoreQueue.carryOut q.stores memory event).1) q.memory := by
    induction asked generalizing q with
    | nil => rfl
    | cons entry rest ih => exact ih (q.perform entry.1 entry.2)
  exact each q.waiting q

/-- The local weights that a move makes available. -/
def Move.put? : Move → Option ((ParticipantId × UInt32) × Weights)
  | .putLocal id round weights => some ((id, round), weights)
  | _ => none

namespace Pipeline
variable {σ α : Type} {rules : Rules σ α} {stores : Stores}

theorem Moved.holds {p q : Pipeline σ α} {move : Move} (moved : p.Moved rules stores move q)
    (holds : Holds stores p.carried p.memory) : Holds stores q.carried q.memory := by
  cases moved with
  | carriedOut event => exact holds.carryOut event
  | put => exact ⟨holds.global, holds.metrics⟩
  | _ => exact holds

theorem Moved.locals {p q : Pipeline σ α} {move : Move} (moved : p.Moved rules stores move q) :
    q.memory.locals =
      move.put?.toList.foldl (fun t entry => t.set entry.1 entry.2) p.memory.locals := by
  cases moved with
  | carriedOut event =>
    dsimp only
    rw [carryOut_memory]
    rfl
  | _ => rfl

theorem locals_follow (moves : List Move) (p : Pipeline σ α) :
    (p.follow rules stores moves).memory.locals =
      (moves.filterMap Move.put?).foldl (fun t entry => t.set entry.1 entry.2) p.memory.locals := by
  induction moves generalizing p with
  | nil => rfl
  | cons move rest ih =>
    rw [follow_cons, ih, (p.moved rules stores move).locals, ← List.foldl_append,
      List.filterMap_cons]
    cases move.put? <;> rfl

theorem holds_follow (s : Situation σ α) (moves : List Move) :
    Holds stores ((start s).follow rules stores moves).carried
      ((start s).follow rules stores moves).memory :=
  follow_invariant (fun p => Holds stores p.carried p.memory)
    (fun p move held => (p.moved rules stores move).holds held) moves (empty_holds stores)

/-- A service that is stopped carries out what waits. -/
theorem Mirrors.stop {p : Pipeline σ α} {v : Service σ α} (mirrors : p.Mirrors stores v)
    (holds : Holds stores p.carried p.memory) :
    Holds stores (p.carried ++ p.waiting) v.stop.memory := by
  have finished : v.stop.memory = v.queue.finish.memory := by
    unfold Service.stop
    rw [if_pos mirrors.running]
  rw [finished, finish_memory, ← mirrors.waiting, ← mirrors.memory, mirrors.stores]
  exact holds.carryOuts p.waiting

theorem Tells.trace {s : Situation σ α} {p : Pipeline σ α} (tells : p.Tells rules s) :
    s.trace rules p.operations = p.carried ++ (p.waiting ++ p.situation.coordinator.events) := by
  rw [Situation.trace, ← tells.taken, ← tells.situation, List.append_assoc]

theorem follow_stop (rules : Rules σ α) (stores : Stores) {p : Pipeline σ α}
    (closed : p.closed = true) :
    ∃ rest : List Move, (∀ move ∈ rest, move.isOfService = true) ∧
      (p.follow rules stores rest).Stopped := by
  obtain ⟨moves, own, still, served, drained⟩ := p.follow_serve rules stores
  let q := p.follow rules stores moves
  refine ⟨moves ++ List.replicate q.waiting.length .carryOut, ?_, ?_⟩
  · intro move member
    rcases List.mem_append.mp member with first | last
    · rcases own move first with rfl | rfl <;> rfl
    · rw [List.eq_of_mem_replicate last]
      rfl
  · rw [follow_append]
    change (q.follow rules stores _).Stopped
    rw [follow_carryOuts]
    exact ⟨still.trans closed, served, drained, rfl⟩

end Pipeline

section Runs
variable {σ α : Type} {rules : Rules σ α} {registry : Registry} {weights : Weights} {selecting : σ}
  {aggregating : α} {opened : Outcome σ α Unit}

/-- At any moment the memory holds what came of the first of the emitted events, beside the local
weights that were put into it, and in the end what came of all of them: the weights of each round
that was aggregated, and all metrics. So it is for every schedule and for the service in time, and
a service that nobody can reach any more can always be stopped. -/
theorem memory_follows_events
    (starts : rules.open registry weights selecting aggregating = .ok opened) (stores : Stores) :
    let s : Situation σ α := ⟨0, opened.next⟩
    (∀ moves : List Move,
      let p := (Pipeline.start s).follow rules stores moves
      let emitted := s.trace rules p.operations
      emitted = p.carried ++ (p.waiting ++ p.situation.coordinator.events) ∧
        Holds stores p.carried p.memory ∧
        p.memory.locals = Table.ofEntries (moves.filterMap Move.put?) ∧
        (p.closed = true → ∃ rest : List Move, (∀ move ∈ rest, move.isOfService = true) ∧
          (p.follow rules stores rest).Stopped) ∧
        (p.Stopped → p.carried = emitted ∧
          (stores.global = .memory → p.memory.global = s.written rules p.operations) ∧
          (stores.metrics = .memory → p.memory.metrics = emitted.filterMap Event.reported?))) ∧
    (∀ (monitored : Bool) (script : List Action),
      let v := start opened.next stores true monitored
      let w := v.enact rules script
      let emitted := s.trace rules (v.story rules script)
      (∃ carried, carried <+: emitted ∧ Holds stores carried w.queue.memory) ∧
        Holds stores emitted w.stop.memory) ∧
    ∀ operations : List Operation,
      let written := s.written rules operations
      written.map (·.1.toNat) = List.range written.length ∧
        ∀ round weights, (round, weights) ∈ written ↔
          ∃ step ∈ s.steps rules operations, step.before.coordinator.current = round ∧
            ∃ id update, step.Aggregates rules id update weights := by
  obtain ⟨valid, rfl⟩ := Rules.open_eq_ok_iff.mp starts
  intro s
  have published (operations : List Operation) :=
    Situation.final_published valid operations (s := s)
      (Coordinator.initial_bookkept valid registry weights selecting aggregating)
      (Coordinator.initial_published registry weights selecting aggregating)
  have tells (moves : List Move) : ((Pipeline.start s).follow rules stores moves).Tells rules s :=
    (Pipeline.start_tells s).follow moves
  refine ⟨?_, ?_, ?_⟩
  · intro moves p emitted
    have traced : emitted = p.carried ++ (p.waiting ++ p.situation.coordinator.events) :=
      (tells moves).trace
    have holds : Holds stores p.carried p.memory := Pipeline.holds_follow s moves
    refine ⟨traced, holds, Pipeline.locals_follow moves _, Pipeline.follow_stop rules stores, ?_⟩
    intro stopped
    -- Nothing waits and nothing is on the queue, so what was carried out is all that was emitted.
    have all : p.carried = emitted := by
      rw [traced, stopped.carried, stopped.drained]
      exact (List.append_nil _).symm
    rw [all] at holds
    refine ⟨all, ?_, ?_⟩
    · intro kind
      rw [holds.global, if_pos kind]
      exact Table.ofEntries_of_nodup (published p.operations).distinct
    · intro kind
      rw [holds.metrics, if_pos kind]
  · intro monitored script v w emitted
    obtain ⟨moves, mirrors, done⟩ := exists_mirrors starts stores monitored script
    let p := (Pipeline.start s).follow rules stores moves
    have holds : Holds stores p.carried p.memory := Pipeline.holds_follow s moves
    have traced : emitted = p.carried ++ p.waiting := by
      change s.trace rules (v.story rules script) = _
      rw [← done, (tells moves).trace, mirrors.situation]
      change _ ++ (_ ++ w.coordinator.events) = _
      rw [mirrors.drained, List.append_nil]
    rw [traced]
    refine ⟨⟨p.carried, List.prefix_append _ _, ?_⟩, mirrors.stop holds⟩
    rw [← mirrors.memory]
    exact holds
  · intro operations written
    exact ⟨(published operations).numbered, fun round weights =>
      Situation.mem_written_iff_aggregates rfl⟩

end Runs
end Service

/-- The operations that wait behind one that never ends are carried out in the end. -/
theorem round_kept_beside_stalled_reads :
    let v := Service.start Trial.opened.next ⟨.memory, .stalled, .memory⟩ true true
    let w := v.enact Trial.rules Trial.script
    Trial.rules.open (.empty 10000 5000) [] () () = .ok Trial.opened ∧
      w.queue.memory.metrics = [] ∧ w.stop.memory.global = [(0, [])] ∧
      w.stop.memory.metrics = [(Trial.ann, []), (Trial.bob, [])] := by
  intro v w
  let s : Situation Unit Unit := ⟨0, Trial.opened.next⟩
  have early : w.queue.memory.metrics = [] := by decide +kernel
  have emitted : s.trace Trial.rules (v.story Trial.rules Trial.script) =
      [.readLocalWeights Trial.ann 0, .readLocalWeights Trial.bob 0, .writeMetrics Trial.ann [],
        .writeMetrics Trial.bob [], .writeGlobalWeights 0 []] := by decide +kernel
  obtain ⟨_, last⟩ :=
    (Service.memory_follows_events Trial.starts ⟨.memory, .stalled, .memory⟩).2.1 true Trial.script
  change Service.Holds _ (s.trace Trial.rules (v.story Trial.rules Trial.script)) w.stop.memory
    at last
  rw [emitted] at last
  exact ⟨Trial.starts, early, last.global, last.metrics⟩

end FederatedRounds
