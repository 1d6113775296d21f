import FederatedRounds.Proofs.Coordinator.History
import FederatedRounds.Service.Basic

/-! The session that a service runs. What a running service does to its coordinator is a run in
which the requests that it was sent are handled in order, and the events of each are taken off the
queue before the next one. -/
namespace FederatedRounds

def Operation.request? : Operation → Option Request
  | .request sent => some sent
  | _ => none

namespace Situation
variable {σ α : Type} {rules : Rules σ α}

theorem final_concat (operations : List Operation) (operation : Operation) (s : Situation σ α) :
    s.final rules (operations ++ [operation]) =
      ((s.final rules operations).step rules operation).after := by
  rw [final_append]
  rfl

theorem run_append (first rest : List Operation) (s : Situation σ α) :
    (s.run rules (first ++ rest)).1 =
      (s.run rules first).1 ++ ((s.final rules first).run rules rest).1 := by
  simp only [← map_observation_steps, steps_append, List.map_append]

theorem run_concat (operations : List Operation) (operation : Operation) (s : Situation σ α) :
    (s.run rules (operations ++ [operation])).1 =
      (s.run rules operations).1 ++
        [((s.final rules operations).step rules operation).observation] :=
  run_append _ _ s

theorem final_takeEvents (count : Nat) (s : Situation σ α) :
    s.final rules (List.replicate count .takeEvent) =
      { s with
        coordinator := { s.coordinator with events := s.coordinator.events.drop count } } := by
  induction count generalizing s with
  | zero => rfl
  | succ count ih =>
    rw [List.replicate_succ, final_cons, ih]
    change Situation.mk _ { s.coordinator with events := s.coordinator.events.tail.drop count } = _
    rw [List.drop_tail]
    rfl

/-- Taking events off the queue is not answered. -/
theorem answers_takeEvents (count : Nat) (s : Situation σ α) :
    (s.run rules (List.replicate count .takeEvent)).1.filterMap Observation.answer = [] := by
  induction count generalizing s with
  | zero => rfl
  | succ count ih =>
    rw [List.replicate_succ]
    exact ih (s.step rules .takeEvent).after

end Situation

namespace Service
variable {σ α : Type} {rules : Rules σ α} {v : Service σ α}

def situation (v : Service σ α) : Situation σ α := ⟨v.now, v.coordinator⟩

/-- The operations of a session in which a service handles a request. -/
def handling (rules : Rules σ α) (v : Service σ α) (r : Request) : List Operation :=
  .request r :: List.replicate (v.coordinator.handle rules v.now r).next.events.length .takeEvent

/-- The operations in which it handles several requests, one after the other. -/
def session (rules : Rules σ α) : List Request → Service σ α → List Operation
  | [], _ => []
  | r :: rest, v => v.handling rules r ++ session rules rest (v.request rules r).2

theorem mem_session {r : Request} {rs : List Request} (member : r ∈ rs) (v : Service σ α) :
    .request r ∈ v.session rules rs := by
  induction rs generalizing v with
  | nil => exact absurd member List.not_mem_nil
  | cons first rest ih =>
    rw [session, List.mem_append]
    rcases List.mem_cons.mp member with rfl | later
    · exact Or.inl List.mem_cons_self
    · exact Or.inr (ih later _)

theorem request_running (rules : Rules σ α) (running : v.running = true) (r : Request) :
    v.request rules r = (some (v.coordinator.handle rules v.now r).reply,
      { v with
        coordinator := { (v.coordinator.handle rules v.now r).next with events := [] }
        queue := v.queue.push v.now (v.coordinator.handle rules v.now r).next.events }) :=
  if_pos running

theorem situation_request (running : v.running = true) (r : Request) :
    (v.request rules r).2.situation = v.situation.final rules (v.handling rules r) := by
  have taken : (v.situation.step rules (.request r)).after.coordinator.events.drop
      (v.coordinator.handle rules v.now r).next.events.length = [] := List.drop_length
  rw [handling, Situation.final_cons, Situation.final_takeEvents, taken,
    request_running rules running]
  rfl

/-- A running service answers every request at once, and only the coordinator and the operations of
its stores move on. -/
theorem requests_running (rules : Rules σ α) (running : v.running = true) (rs : List Request) :
    (∃ coordinator queue, (v.requests rules rs).2 = { v with coordinator, queue }) ∧
      (∀ answer ∈ (v.requests rules rs).1, answer.isSome = true) ∧
      (v.requests rules rs).2.situation = v.situation.final rules (v.session rules rs) := by
  induction rs generalizing v with
  | nil => exact ⟨⟨_, _, rfl⟩, fun _ member => absurd member List.not_mem_nil, rfl⟩
  | cons r rest ih =>
    have handled := request_running rules running r
    have goes : (v.request rules r).2.running = true := by
      rw [handled]
      exact running
    have told : (v.request rules r).1.isSome = true := by
      rw [handled]
      rfl
    obtain ⟨⟨coordinator, queue, moved⟩, answered, reached⟩ := ih goes
    rw [handled] at moved
    refine ⟨⟨coordinator, queue, ?_⟩, List.forall_mem_cons.mpr ⟨told, answered⟩, ?_⟩
    · rw [requests, handled]
      exact moved
    · rw [session, Situation.final_append, ← situation_request running]
      exact reached

theorem requests_session (rs : List Request) (v : Service σ α) :
    (v.session rules rs).filterMap Operation.request? = rs := by
  induction rs generalizing v with
  | nil => rfl
  | cons r rest ih =>
    have silent (count : Nat) :
        (List.replicate count Operation.takeEvent).filterMap Operation.request? = [] := by
      simp [Operation.request?]
    rw [session, List.filterMap_append, ih, handling, List.filterMap_cons, silent]
    rfl

/-- The answers are those that the coordinator gives in the run. -/
theorem answers_requests (running : v.running = true) (rs : List Request) :
    (v.requests rules rs).1 =
      ((v.situation.run rules (v.session rules rs)).1.filterMap Observation.answer).map some := by
  induction rs generalizing v with
  | nil => rfl
  | cons r rest ih =>
    have handled := request_running rules running r
    have goes : (v.request rules r).2.running = true := by
      rw [handled]
      exact running
    have first : (v.situation.run rules (v.handling rules r)).1.filterMap Observation.answer =
        [(v.coordinator.handle rules v.now r).reply] := by
      change (_ :: (Situation.run rules _ _).1).filterMap Observation.answer = _
      rw [List.filterMap_cons, Situation.answers_takeEvents]
      rfl
    rw [requests, session, Situation.run_append, List.filterMap_append, first,
      ← situation_request running, List.map_append, ← ih goes, handled]
    rfl

end Service
end FederatedRounds
