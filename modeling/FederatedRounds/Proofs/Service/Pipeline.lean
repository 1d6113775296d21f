import FederatedRounds.Proofs.Service.Session

/-! The parts of a service at work side by side. Requests arrive whenever they are sent. The
coordinator handles them one at a time, in the order in which they arrived, and its events are taken
over one by one; the operations that they ask of the stores are carried out in turn, as late as may
be. A schedule is a list of moves of these parts in any order. What a part has no work for leaves
all as it is. The service that keeps time follows some of the schedules. -/
namespace FederatedRounds
open Storage

namespace Service

/-- A service in the midst of its work: the requests that arrived and were not handled yet, the
coordinator, and the events whose operations are still to be carried out. The last three fields keep
a record of the answers, of what was done to the coordinator and of what was carried out. -/
structure Pipeline (σ α : Type) where
  closed : Bool
  arrived : List Request
  situation : Situation σ α
  waiting : List Event
  memory : MemoryStore
  answers : List Answer
  operations : List Operation
  carried : List Event

inductive Move where
  | arrive (request : Request)
  | close
  | handle
  | handOver
  | carryOut
  | pass (span : Nat)
  | registry (change : Registry.Change)
  | putLocal (id : ParticipantId) (round : UInt32) (weights : Weights)

namespace Move

/-- Whether the move is one of the stores and of those who use them directly. -/
def isOfStores : Move → Bool
  | carryOut | putLocal .. => true
  | _ => false

/-- The moves with which a service that nobody can reach any more finishes its work. -/
def isOfService : Move → Bool
  | handle | handOver | carryOut => true
  | _ => false

/-- The requests that a schedule has arrive; after it closed the service none does. -/
def arrivals : List Move → List Request
  | [] => []
  | arrive request :: rest => request :: arrivals rest
  | close :: _ => []
  | _ :: rest => arrivals rest

end Move

namespace Pipeline
variable {σ α : Type}

def start (s : Situation σ α) : Pipeline σ α := ⟨false, [], s, [], .empty, [], [], []⟩

def perform (rules : Rules σ α) (operation : Operation) (p : Pipeline σ α) : Pipeline σ α :=
  let step := p.situation.step rules operation
  { p with
    situation := step.after
    waiting := p.waiting ++ step.observation.taken.toList
    answers := p.answers ++ step.observation.answer.toList
    operations := p.operations ++ [operation] }

def arrive (request : Request) (p : Pipeline σ α) : Pipeline σ α :=
  if p.closed then p else { p with arrived := p.arrived ++ [request] }

def handle (rules : Rules σ α) (p : Pipeline σ α) : Pipeline σ α :=
  match p.arrived, p.situation.coordinator.events with
  | request :: rest, [] => perform rules (.request request) { p with arrived := rest }
  | _, _ => p

def carryOut (stores : Stores) (p : Pipeline σ α) : Pipeline σ α :=
  match p.waiting with
  | event :: rest =>
    { p with
      waiting := rest
      memory := (StoreQueue.carryOut stores p.memory event).1
      carried := p.carried ++ [event] }
  | [] => p

def move (rules : Rules σ α) (stores : Stores) (p : Pipeline σ α) : Move → Pipeline σ α
  | .arrive request => p.arrive request
  | .close => { p with closed := true }
  | .handle => p.handle rules
  | .handOver => p.perform rules .takeEvent
  | .carryOut => p.carryOut stores
  | .pass span => p.perform rules (.advance span)
  | .registry change => p.perform rules (.registry change)
  | .putLocal id round weights => { p with memory := p.memory.writeLocal id round weights }

def follow (rules : Rules σ α) (stores : Stores) (moves : List Move) (p : Pipeline σ α) :
    Pipeline σ α :=
  moves.foldl (move rules stores) p

/-- Nobody can reach the service any more, and it has finished its work. -/
structure Stopped (p : Pipeline σ α) : Prop where
  closed : p.closed = true
  handled : p.arrived = []
  drained : p.situation.coordinator.events = []
  carried : p.waiting = []

variable {rules : Rules σ α} {stores : Stores}

@[simp] theorem follow_cons (first : Move) (rest : List Move) (p : Pipeline σ α) :
    p.follow rules stores (first :: rest) = (p.move rules stores first).follow rules stores rest :=
  rfl

theorem follow_append (first rest : List Move) (p : Pipeline σ α) :
    p.follow rules stores (first ++ rest) =
      (p.follow rules stores first).follow rules stores rest :=
  List.foldl_append

/-- What holds at the start and is kept by every move of a schedule holds at its end. -/
theorem follow_invariant (Holds : Pipeline σ α → Prop)
    (kept : ∀ p move, Holds p → Holds (p.move rules stores move)) (moves : List Move)
    {p : Pipeline σ α} (start : Holds p) : Holds (p.follow rules stores moves) := by
  induction moves generalizing p with
  | nil => exact start
  | cons move rest ih => exact ih (kept p move start)

/-- All that a move can do. A closed service lets no request in, and a part without work waits. -/
inductive Moved (rules : Rules σ α) (stores : Stores) (p : Pipeline σ α) :
    Move → Pipeline σ α → Prop
  | refused (request : Request) (closed : p.closed = true) :
      Moved rules stores p (.arrive request) p
  | arrived (request : Request) (reachable : p.closed = false) :
      Moved rules stores p (.arrive request) { p with arrived := p.arrived ++ [request] }
  | closed : Moved rules stores p .close { p with closed := true }
  | unready : Moved rules stores p .handle p
  | handled (request : Request) (rest : List Request) (next : p.arrived = request :: rest) :
      Moved rules stores p .handle (perform rules (.request request) { p with arrived := rest })
  | handedOver : Moved rules stores p .handOver (p.perform rules .takeEvent)
  | idle : Moved rules stores p .carryOut p
  | carriedOut (event : Event) (rest : List Event) (next : p.waiting = event :: rest) :
      Moved rules stores p .carryOut
        { p with
          waiting := rest
          memory := (StoreQueue.carryOut stores p.memory event).1
          carried := p.carried ++ [event] }
  | passed (span : Nat) : Moved rules stores p (.pass span) (p.perform rules (.advance span))
  | changed (change : Registry.Change) :
      Moved rules stores p (.registry change) (p.perform rules (.registry change))
  | put (id : ParticipantId) (round : UInt32) (weights : Weights) :
      Moved rules stores p (.putLocal id round weights)
        { p with memory := p.memory.writeLocal id round weights }

theorem moved (rules : Rules σ α) (stores : Stores) (p : Pipeline σ α) (move : Move) :
    p.Moved rules stores move (p.move rules stores move) := by
  cases move with
  | arrive request =>
    change p.Moved rules stores _ (p.arrive request)
    unfold arrive
    split
    · next closed => exact .refused request closed
    · next reachable => exact .arrived request (by simpa using reachable)
  | close => exact .closed
  | handle =>
    change p.Moved rules stores _ (p.handle rules)
    unfold handle
    split
    · next request rest next _ => exact .handled request rest next
    · exact .unready
  | handOver => exact .handedOver
  | carryOut =>
    change p.Moved rules stores _ (p.carryOut stores)
    unfold carryOut
    split
    · next event rest next => exact .carriedOut event rest next
    · exact .idle
  | pass span => exact .passed span
  | registry change => exact .changed change
  | putLocal id round weights => exact .put id round weights

/-! What is done to the coordinator is a run of it, and the events are taken off its queue in that
run and no others are carried out. -/

/-- The record of a pipeline that started in a situation. -/
structure Tells (rules : Rules σ α) (s : Situation σ α) (p : Pipeline σ α) : Prop where
  situation : p.situation = s.final rules p.operations
  answers : p.answers = (s.run rules p.operations).1.filterMap Observation.answer
  taken : p.carried ++ p.waiting = (s.run rules p.operations).1.filterMap Observation.taken

theorem start_tells (s : Situation σ α) : (start s).Tells rules s := ⟨rfl, rfl, rfl⟩

theorem Tells.perform {s : Situation σ α} {p : Pipeline σ α} (tells : p.Tells rules s)
    (operation : Operation) : (p.perform rules operation).Tells rules s where
  situation := by
    change (p.situation.step rules operation).after = s.final rules (p.operations ++ [operation])
    rw [Situation.final_concat, ← tells.situation]
  answers := by
    change p.answers ++ _ = (s.run rules (p.operations ++ [operation])).1.filterMap _
    rw [Situation.run_concat, List.filterMap_append, ← tells.answers, ← tells.situation]
    cases answered : (p.situation.step rules operation).observation.answer <;> simp [answered]
  taken := by
    change p.carried ++ (p.waiting ++ _) = (s.run rules (p.operations ++ [operation])).1.filterMap _
    rw [Situation.run_concat, List.filterMap_append, ← tells.taken, ← tells.situation,
      List.append_assoc]
    cases event : (p.situation.step rules operation).observation.taken <;> simp [event]

theorem Tells.moved {s : Situation σ α} {p q : Pipeline σ α} {move : Move} (tells : p.Tells rules s)
    (moved : p.Moved rules stores move q) : q.Tells rules s := by
  cases moved with
  | refused => exact tells
  | unready => exact tells
  | idle => exact tells
  | arrived => exact ⟨tells.situation, tells.answers, tells.taken⟩
  | closed => exact ⟨tells.situation, tells.answers, tells.taken⟩
  | put => exact ⟨tells.situation, tells.answers, tells.taken⟩
  | handled request rest =>
    have waits : ({ p with arrived := rest } : Pipeline σ α).Tells rules s :=
      ⟨tells.situation, tells.answers, tells.taken⟩
    exact waits.perform _
  | handedOver => exact tells.perform _
  | passed span => exact tells.perform _
  | changed change => exact tells.perform _
  | carriedOut event rest next =>
    have taken := tells.taken
    rw [next] at taken
    exact ⟨tells.situation, tells.answers, (List.append_assoc _ _ _).trans taken⟩

theorem Tells.follow {s : Situation σ α} {p : Pipeline σ α} (tells : p.Tells rules s)
    (moves : List Move) : (p.follow rules stores moves).Tells rules s :=
  follow_invariant (Tells rules s) (fun p move told => told.moved (p.moved rules stores move)) moves
    tells

/-! Requests are handled in the order in which they arrived. -/

def handled (p : Pipeline σ α) : List Request := p.operations.filterMap Operation.request?

/-- All requests that arrived. -/
def sent (p : Pipeline σ α) : List Request := p.handled ++ p.arrived

theorem handled_perform (operation : Operation) (p : Pipeline σ α) :
    (p.perform rules operation).handled = p.handled ++ operation.request?.toList := by
  change (p.operations ++ [operation]).filterMap Operation.request? = _
  rw [List.filterMap_append]
  cases operation <;> rfl

theorem sent_perform {operation : Operation} (silent : operation.request? = none)
    (p : Pipeline σ α) : (p.perform rules operation).sent = p.sent := by
  change (p.perform rules operation).handled ++ p.arrived = _
  rw [handled_perform, silent, Option.toList_none, List.append_nil]
  rfl

theorem Moved.sent {p q : Pipeline σ α} {move : Move} (moved : p.Moved rules stores move q)
    (rest : List Move) :
    (q.sent ++ if q.closed then [] else Move.arrivals rest) =
      p.sent ++ if p.closed then [] else Move.arrivals (move :: rest) := by
  cases moved with
  | refused request closed => rw [if_pos closed, if_pos closed]
  | arrived request reachable => simp [reachable, Pipeline.sent, Pipeline.handled, Move.arrivals]
  | closed =>
    rw [Move.arrivals, ite_self]
    rfl
  | handled request left next =>
    have same : (perform rules (.request request) { p with arrived := left }).sent = p.sent := by
      change (perform rules (.request request) { p with arrived := left }).handled ++ left = _
      rw [handled_perform, Pipeline.sent, next, List.append_assoc]
      rfl
    rw [same]
    rfl
  | handedOver =>
    rw [sent_perform rfl]
    rfl
  | passed span =>
    rw [sent_perform rfl]
    rfl
  | changed change =>
    rw [sent_perform rfl]
    rfl
  | _ => rfl

theorem sent_follow (rules : Rules σ α) (stores : Stores) (moves : List Move) (p : Pipeline σ α) :
    (p.follow rules stores moves).sent =
      p.sent ++ if p.closed then [] else Move.arrivals moves := by
  induction moves generalizing p with
  | nil =>
    rw [Move.arrivals, ite_self, List.append_nil]
    rfl
  | cons move rest ih =>
    rw [follow_cons, ih]
    exact (p.moved rules stores move).sent rest

/-! What the stores do, and when, is not seen by anybody who sends requests. -/

/-- Two pipelines that differ in what the stores have yet to do and have done. -/
def Agrees (p q : Pipeline σ α) : Prop :=
  ∃ waiting memory carried, q = { p with waiting, memory, carried }

theorem Agrees.refl (p : Pipeline σ α) : p.Agrees p := ⟨_, _, _, rfl⟩

theorem Agrees.symm {p q : Pipeline σ α} (agrees : p.Agrees q) : q.Agrees p := by
  obtain ⟨_, _, _, rfl⟩ := agrees
  exact ⟨p.waiting, p.memory, p.carried, rfl⟩

theorem Agrees.trans {p q r : Pipeline σ α} (first : p.Agrees q) (second : q.Agrees r) :
    p.Agrees r := by
  obtain ⟨_, _, _, rfl⟩ := first
  obtain ⟨_, _, _, rfl⟩ := second
  exact ⟨_, _, _, rfl⟩

theorem Moved.agrees {p q : Pipeline σ α} {move : Move} (moved : p.Moved rules stores move q)
    (store : move.isOfStores = true) : p.Agrees q := by
  cases moved with
  | idle => exact Agrees.refl p
  | carriedOut => exact ⟨_, _, _, rfl⟩
  | put => exact ⟨_, _, _, rfl⟩
  | _ => cases store

theorem Agrees.move {p q : Pipeline σ α} (agrees : p.Agrees q) {move : Move}
    (service : move.isOfStores = false) (stores other : Stores) :
    (p.move rules stores move).Agrees (q.move rules other move) := by
  obtain ⟨waiting, memory, carried, rfl⟩ := agrees
  cases move with
  | arrive request =>
    change (p.arrive request).Agrees (arrive request _)
    unfold arrive
    split <;> exact ⟨_, _, _, rfl⟩
  | handle =>
    change (p.handle rules).Agrees (handle rules _)
    unfold handle
    dsimp only
    split <;> exact ⟨_, _, _, rfl⟩
  | carryOut => cases service
  | putLocal => cases service
  | _ => exact ⟨_, _, _, rfl⟩

theorem Agrees.follow {p q : Pipeline σ α} (agrees : p.Agrees q) (rules : Rules σ α)
    (stores other : Stores) (moves : List Move) :
    (p.follow rules stores moves).Agrees
      (q.follow rules other (moves.filter fun move => !move.isOfStores)) := by
  induction moves generalizing p q with
  | nil => exact agrees
  | cons move rest ih =>
    cases store : move.isOfStores with
    | true =>
      rw [List.filter_cons_of_neg (by simp [store])]
      exact ih (((p.moved rules stores move).agrees store).symm.trans agrees)
    | false =>
      rw [List.filter_cons_of_pos (by simp [store])]
      exact ih (agrees.move store stores other)

/-! What the coordinator and the stores can do by themselves. -/

section Alone
variable (rules stores)

/-- Taking over all events leaves none on the queue of the coordinator. -/
theorem follow_handOver {events : List Event} {p : Pipeline σ α}
    (emitted : p.situation.coordinator.events = events) :
    p.follow rules stores (List.replicate events.length .handOver) =
      { p with
        situation := ⟨p.situation.now, { p.situation.coordinator with events := [] }⟩
        waiting := p.waiting ++ events
        operations := p.operations ++ List.replicate events.length .takeEvent } := by
  induction events generalizing p with
  | nil =>
    have idle : { p.situation.coordinator with events := [] } = p.situation.coordinator := by
      rw [← emitted]
    rw [List.length_nil, idle]
    change p = { p with waiting := p.waiting ++ [], operations := p.operations ++ [] }
    rw [List.append_nil, List.append_nil]
  | cons event rest ih =>
    have tail : (p.perform rules .takeEvent).situation.coordinator.events = rest := by
      change p.situation.coordinator.events.tail = rest
      rw [emitted]
      rfl
    have taken : (p.perform rules .takeEvent).waiting = p.waiting ++ [event] := by
      change p.waiting ++ p.situation.coordinator.events.head?.toList = _
      rw [emitted]
      rfl
    have quiet : (p.perform rules .takeEvent).answers = p.answers := List.append_nil _
    rw [List.length_cons, List.replicate_succ, follow_cons]
    change follow rules stores _ (p.perform rules .takeEvent) = _
    rw [ih tail, taken, quiet, List.append_assoc]
    change Pipeline.mk _ _ _ _ _ _ ((p.operations ++ [_]) ++ List.replicate rest.length _) _ = _
    rw [List.append_assoc]
    rfl

theorem follow_drain (p : Pipeline σ α) :
    let q := p.follow rules stores
      (List.replicate p.situation.coordinator.events.length .handOver)
    q.closed = p.closed ∧ q.arrived = p.arrived ∧ q.situation.coordinator.events = [] := by
  intro q
  change (p.follow rules stores _).closed = _ ∧ (p.follow rules stores _).arrived = _ ∧
    (p.follow rules stores _).situation.coordinator.events = _
  rw [follow_handOver rules stores rfl]
  exact ⟨rfl, rfl, rfl⟩

theorem follow_serve_drained {arrived : List Request} {p : Pipeline σ α}
    (left : p.arrived = arrived) (drained : p.situation.coordinator.events = []) :
    ∃ moves : List Move, (∀ move ∈ moves, move = .handle ∨ move = .handOver) ∧
      let q := p.follow rules stores moves
      q.closed = p.closed ∧ q.arrived = [] ∧ q.situation.coordinator.events = [] := by
  -- A request is handled only while no event waits: those it emits are taken over before the next.
  induction arrived generalizing p with
  | nil => exact ⟨[], fun _ member => absurd member List.not_mem_nil, rfl, left, drained⟩
  | cons request rest ih =>
    let q : Pipeline σ α := perform rules (.request request) { p with arrived := rest }
    have handles : p.move rules stores .handle = q := by
      change p.handle rules = q
      unfold handle
      rw [left, drained]
    obtain ⟨closed, arrived, empty⟩ := follow_drain rules stores q
    obtain ⟨moves, own, closed', served⟩ := ih arrived empty
    refine ⟨.handle :: (List.replicate q.situation.coordinator.events.length .handOver ++ moves),
      ?_, ?_⟩
    · intro move member
      rcases List.mem_cons.mp member with first | member
      · exact Or.inl first
      · rcases List.mem_append.mp member with taken | later
        · exact Or.inr (List.eq_of_mem_replicate taken)
        · exact own move later
    · rw [follow_cons, handles, follow_append]
      exact ⟨closed'.trans closed, served⟩

/-- Whatever the stores do, the coordinator can go on until no request and no event waits for it. -/
theorem follow_serve (p : Pipeline σ α) :
    ∃ moves : List Move, (∀ move ∈ moves, move = .handle ∨ move = .handOver) ∧
      let q := p.follow rules stores moves
      q.closed = p.closed ∧ q.arrived = [] ∧ q.situation.coordinator.events = [] := by
  obtain ⟨closed, -, drained⟩ := follow_drain rules stores p
  obtain ⟨moves, own, closed', served⟩ :=
    follow_serve_drained rules stores rfl drained
  refine ⟨List.replicate p.situation.coordinator.events.length .handOver ++ moves, ?_, ?_⟩
  · intro move member
    rcases List.mem_append.mp member with taken | later
    · exact Or.inr (List.eq_of_mem_replicate taken)
    · exact own move later
  · rw [follow_append]
    exact ⟨closed'.trans closed, served⟩

theorem arrivals_served {moves : List Move}
    (own : ∀ move ∈ moves, move = .handle ∨ move = .handOver) : Move.arrivals moves = [] := by
  induction moves with
  | nil => rfl
  | cons move rest ih =>
    obtain ⟨first, others⟩ := List.forall_mem_cons.mp own
    rcases first with rfl | rfl
    · exact ih others
    · exact ih others

/-- The stores can carry out all that waits. -/
theorem follow_carryOuts (p : Pipeline σ α) :
    p.follow rules stores (List.replicate p.waiting.length .carryOut) =
      { p with
        waiting := []
        memory := p.waiting.foldl
          (fun memory event => (StoreQueue.carryOut stores memory event).1) p.memory
        carried := p.carried ++ p.waiting } := by
  -- The memory and the record change with each operation, so the induction is over all of them.
  obtain ⟨closed, arrived, situation, waiting, memory, answers, operations, carried⟩ := p
  induction waiting generalizing memory carried with
  | nil =>
    rw [List.append_nil]
    rfl
  | cons event rest ih =>
    refine (ih (StoreQueue.carryOut stores memory event).1 (carried ++ [event])).trans ?_
    rw [List.append_assoc]
    rfl

theorem agrees_follow_carryOut (count : Nat) (p : Pipeline σ α) :
    p.Agrees (p.follow rules stores (List.replicate count .carryOut)) := by
  induction count generalizing p with
  | zero => exact Agrees.refl p
  | succ count ih => exact ((p.moved rules stores .carryOut).agrees rfl).trans (ih _)

theorem carryOut_cons {p : Pipeline σ α} {event : Event} {rest : List Event}
    (next : p.waiting = event :: rest) :
    (p.carryOut stores).waiting = rest ∧
      (p.carryOut stores).memory = (StoreQueue.carryOut stores p.memory event).1 := by
  unfold carryOut
  rw [next]
  exact ⟨rfl, rfl⟩

end Alone
end Pipeline
end Service
end FederatedRounds
