import FederatedRounds.Proofs.Service.Pipeline
import FederatedRounds.Proofs.Service.Script

/-! What a service does in time is one of the schedules of its parts: each request arrives, is
handled and has its events taken over before the next one, and an operation of the stores is carried
out as soon as those before it have ended. Whatever the stores do, the coordinator and all who send
requests see the same. -/
namespace FederatedRounds
namespace Service
variable {σ α : Type}

/-! A running service is a pipeline in which no request waits. -/

namespace Pipeline

/-- The pipeline is at work for the service. -/
structure Mirrors (stores : Stores) (p : Pipeline σ α) (v : Service σ α) : Prop where
  running : v.running = true
  stores : v.queue.stores = stores
  drained : v.coordinator.events = []
  reachable : p.closed = false
  served : p.arrived = []
  situation : p.situation = v.situation
  waiting : p.waiting = v.queue.waiting.map (·.2)
  memory : p.memory = v.queue.memory

variable (rules : Rules σ α) {stores : Stores}

/-- The operations that a queue carries out by an instant are the next ones. -/
theorem follow_settleList (now : Instant) {asked : List (Instant × Event)} {q : StoreQueue}
    {p : Pipeline σ α} (given : q.stores = stores) (waiting : p.waiting = asked.map (·.2))
    (memory : p.memory = q.memory) :
    ∃ count, let r := p.follow rules stores (List.replicate count .carryOut)
      let t := StoreQueue.settleList now asked q
      r.waiting = t.waiting.map (·.2) ∧ r.memory = t.memory ∧ t.stores = stores := by
  induction asked generalizing q p with
  | nil => exact ⟨0, waiting, memory, given⟩
  | cons entry rest ih =>
    obtain ⟨instant, event⟩ := entry
    unfold StoreQueue.settleList
    by_cases starts : max q.freeAt instant ≤ now
    · simp only [if_pos starts]
      obtain ⟨taken, changed⟩ := carryOut_cons stores waiting
      have carried : (p.carryOut stores).memory = (q.perform instant event).memory := by
        rw [changed, memory, ← given]
        rfl
      obtain ⟨count, reached⟩ := ih (q := q.perform instant event) given taken carried
      exact ⟨count + 1, reached⟩
    · simp only [if_neg starts]
      exact ⟨0, waiting, memory, given⟩

end Pipeline

section Following
variable {rules : Rules σ α} {stores : Stores}
open Pipeline

/-- A schedule with these operations leads from one service to the other. -/
def Leads (rules : Rules σ α) (stores : Stores) (operations : List Operation)
    (v w : Service σ α) : Prop :=
  ∀ p : Pipeline σ α, p.Mirrors stores v →
    ∃ moves, let q := p.follow rules stores moves
      q.Mirrors stores w ∧ q.operations = p.operations ++ operations

theorem leads_refl (v : Service σ α) : v.Leads rules stores [] v := by
  intro p mirrors
  exact ⟨[], mirrors, (List.append_nil _).symm⟩

theorem Leads.trans {v w u : Service σ α} {first rest : List Operation}
    (before : v.Leads rules stores first w) (after : w.Leads rules stores rest u) :
    v.Leads rules stores (first ++ rest) u := by
  intro p mirrors
  obtain ⟨moves, between, done⟩ := before p mirrors
  obtain ⟨more, last, done'⟩ := after _ between
  refine ⟨moves ++ more, ?_⟩
  rw [follow_append]
  refine ⟨last, ?_⟩
  rw [done', done, List.append_assoc]

/-- The monitor is not seen by a pipeline. -/
theorem Leads.wakeAt {v w : Service σ α} {operations : List Operation}
    (leads : v.Leads rules stores operations w) (wakeAt : Option Instant) :
    v.Leads rules stores operations { w with wakeAt } := by
  intro p mirrors
  obtain ⟨moves, reached, done⟩ := leads p mirrors
  have unseen : (p.follow rules stores moves).Mirrors stores { w with wakeAt } := { reached with }
  exact ⟨moves, unseen, done⟩

variable (rules stores)

/-- The stores of a service may carry out what they can by an instant. -/
theorem Pipeline.settles {p : Pipeline σ α} {v : Service σ α} {t : StoreQueue}
    (running : v.running = true) (drained : v.coordinator.events = []) (reachable : p.closed = false)
    (served : p.arrived = []) (situation : p.situation = v.situation) (given : t.stores = stores)
    (waiting : p.waiting = t.waiting.map (·.2)) (memory : p.memory = t.memory)
    (now : Instant) :
    ∃ count, let q := p.follow rules stores (List.replicate count .carryOut)
      q.Mirrors stores { v with queue := t.settle now } ∧ q.operations = p.operations := by
  obtain ⟨count, left, changed, kept⟩ := follow_settleList rules now given waiting memory
  obtain ⟨_, _, _, same⟩ := agrees_follow_carryOut rules stores count p
  refine ⟨count, ⟨running, kept, drained, ?_, ?_, ?_, left, changed⟩, ?_⟩
  all_goals rw [same]
  · exact reachable
  · exact served
  · exact situation

theorem leads_request (v : Service σ α) (r : Request) :
    v.Leads rules stores (v.handling rules r) (v.request rules r).2 := by
  intro p mirrors
  have idle : p.situation.coordinator.events = [] := by
    rw [mirrors.situation]
    exact mirrors.drained
  have arrives : p.arrive r = { p with arrived := [r] } := by
    rw [arrive, mirrors.reachable, mirrors.served]
    rfl
  let q : Pipeline σ α := perform rules (.request r) { p with arrived := [] }
  have handles : handle rules { p with arrived := [r] } = q := by
    unfold handle
    dsimp only
    rw [idle]
  let outcome := v.coordinator.handle rules v.now r
  have next : q.situation = ⟨v.now, outcome.next⟩ := by
    change (p.situation.step rules (.request r)).after = _
    rw [mirrors.situation]
    rfl
  have taken : q.waiting = p.waiting := List.append_nil _
  have emptied := follow_handOver rules stores (congrArg (·.coordinator.events) next)
  have asked : (v.queue.waiting ++ outcome.next.events.map fun event => (v.now, event)).map
      (·.2) = p.waiting ++ outcome.next.events := by
    rw [mirrors.waiting, List.map_append, List.map_map]
    simp [Function.comp_def]
  -- What is asked for now is carried out behind all that waits, as far as that can be done at once.
  obtain ⟨count, settled, done⟩ := Pipeline.settles rules stores
    (p := q.follow rules stores (List.replicate outcome.next.events.length .handOver))
    (v := { v with coordinator := { outcome.next with events := [] } })
    (t := { v.queue with
      waiting := v.queue.waiting ++ outcome.next.events.map fun event => (v.now, event) })
    mirrors.running rfl (by rw [emptied]; exact mirrors.reachable) (by rw [emptied]; rfl)
    (by rw [emptied, next]; rfl) mirrors.stores (by rw [emptied, taken, asked])
    (by rw [emptied]; exact mirrors.memory) v.now
  refine ⟨.arrive r :: .handle :: (List.replicate outcome.next.events.length .handOver ++
    List.replicate count .carryOut), ?_⟩
  rw [follow_cons, follow_cons]
  change Mirrors stores (follow rules stores _ (handle rules (p.arrive r))) _ ∧
    (follow rules stores _ (handle rules (p.arrive r))).operations = _
  rw [arrives, handles, follow_append, request_running rules mirrors.running]
  refine ⟨settled, ?_⟩
  rw [done, emptied]
  exact List.append_assoc _ _ _

theorem leads_requests (v : Service σ α) (rs : List Request) :
    v.Leads rules stores (v.session rules rs) (v.requests rules rs).2 := by
  induction rs generalizing v with
  | nil => exact leads_refl v
  | cons r rest ih => exact (leads_request rules stores v r).trans (ih _)

theorem leads_passTo (v : Service σ α) (target : Instant) :
    v.Leads rules stores [.advance (target - v.now)] (v.passTo target) := by
  intro p mirrors
  let q : Pipeline σ α := p.perform rules (.advance (target - v.now))
  have later : v.now + (target - v.now) = max v.now target := by
    rw [Nat.add_comm, Nat.sub_add_eq_max, Nat.max_comm]
  have next : q.situation = ⟨max v.now target, v.coordinator⟩ := by
    change (p.situation.step rules (.advance (target - v.now))).after = _
    rw [mirrors.situation, ← later]
    rfl
  have waiting : q.waiting = p.waiting := List.append_nil _
  obtain ⟨count, settled, done⟩ := Pipeline.settles rules stores (p := q)
    (v := { v with now := max v.now target }) mirrors.running mirrors.drained mirrors.reachable
    mirrors.served next mirrors.stores (waiting.trans mirrors.waiting) mirrors.memory
    (max v.now target)
  exact ⟨.pass (target - v.now) :: List.replicate count .carryOut, settled, done⟩

theorem leads_scan (v : Service σ α) :
    v.Leads rules stores (v.session rules v.removals) (v.scan rules) := by
  have removed := leads_requests rules stores v v.removals
  unfold scan
  dsimp only
  split
  · exact removed.wakeAt _
  · exact removed.wakeAt _

theorem leads_sleepUntil (target : Instant) (turns : Nat) (v : Service σ α) :
    v.Leads rules stores (v.sleeping rules target turns) (v.sleepUntil rules target turns) := by
  induction turns generalizing v with
  | zero => exact leads_passTo rules stores v target
  | succ turns ih =>
    unfold sleepUntil sleeping
    cases v.wakeAt with
    | none => exact leads_passTo rules stores v target
    | some wake =>
      by_cases due : wake ≤ target
      · simp only [if_pos due]
        have woken := leads_passTo rules stores v wake
        exact woken.trans ((leads_scan rules stores (v.passTo wake)).trans (ih _))
      · simp only [if_neg due]
        exact leads_passTo rules stores v target

theorem leads_changeRegistry (v : Service σ α) (change : Registry.Change) :
    v.Leads rules stores [.registry change] (v.changeRegistry change) := by
  intro p mirrors
  let q : Pipeline σ α := p.perform rules (.registry change)
  have next : q.situation = (v.changeRegistry change).situation := by
    change (p.situation.step rules (.registry change)).after = _
    rw [mirrors.situation]
    rfl
  have waiting : q.waiting = v.queue.waiting.map (·.2) := by
    rw [← mirrors.waiting]
    exact List.append_nil _
  have reached : q.Mirrors stores (v.changeRegistry change) :=
    { mirrors with situation := next, waiting := waiting }
  exact ⟨[.registry change], reached, rfl⟩

theorem leads_putLocal (v : Service σ α) (id : ParticipantId) (round : UInt32)
    (weights : Weights) : v.Leads rules stores [] (v.putLocal id round weights) := by
  intro p mirrors
  have memory : p.memory.writeLocal id round weights =
      v.queue.memory.writeLocal id round weights := by rw [mirrors.memory]
  have reached : Mirrors stores { p with memory := p.memory.writeLocal id round weights }
      (v.putLocal id round weights) :=
    { mirrors with memory := memory }
  exact ⟨[.putLocal id round weights], reached, (List.append_nil _).symm⟩

theorem leads_act (v : Service σ α) (action : Action) :
    v.Leads rules stores (v.operations rules action) (v.act rules action).2 := by
  cases action with
  | requests batch => exact leads_requests rules stores v batch
  | sleep span => exact leads_sleepUntil rules stores _ _ v
  | registry change => exact leads_changeRegistry rules stores v change
  | putLocal id round weights => exact leads_putLocal rules stores v id round weights
  | stopMonitor => exact (leads_refl v).wakeAt none

theorem leads_enact (script : List Action) (v : Service σ α) :
    v.Leads rules stores (v.story rules script) (v.enact rules script) := by
  induction script generalizing v with
  | nil => exact leads_refl v
  | cons action rest ih => exact (leads_act rules stores v action).trans (ih _)

end Following

section Runs
variable {rules : Rules σ α} {registry : Registry} {weights : Weights} {selecting : σ}
  {aggregating : α} {opened : Outcome σ α Unit}

theorem exists_mirrors (starts : rules.open registry weights selecting aggregating = .ok opened)
    (stores : Stores) (monitored : Bool) (script : List Action) :
    let v := start opened.next stores true monitored
    ∃ moves, let p := (Pipeline.start ⟨0, opened.next⟩).follow rules stores moves
      p.Mirrors stores (v.enact rules script) ∧ p.operations = v.story rules script := by
  obtain ⟨-, rfl⟩ := Rules.open_eq_ok_iff.mp starts
  exact leads_enact rules stores script _ _ ⟨rfl, rfl, rfl, rfl, rfl, rfl, rfl, rfl⟩

/-- The answers and the situations of the coordinator are the same for any two behaviours of the
stores, however late these are, and are those of the requests handled one after the other, in the
order in which they arrived, by a coordinator without stores. The requests that arrived can always be
handled without a move of the stores. What a service does in time is one of these schedules, in which
it answers every request of a batch. -/
theorem answers_regardless_of_stores
    (starts : rules.open registry weights selecting aggregating = .ok opened)
    (stores others : Stores) :
    let s : Situation σ α := ⟨0, opened.next⟩
    (∀ moves moves' : List Move,
      (moves.filter fun move => !move.isOfStores) = (moves'.filter fun move => !move.isOfStores) →
      ((Pipeline.start s).follow rules stores moves).Agrees
        ((Pipeline.start s).follow rules others moves')) ∧
    (∀ moves : List Move,
      let p := (Pipeline.start s).follow rules stores moves
      p.sent = Move.arrivals moves ∧ p.Tells rules s ∧
        ∃ rest : List Move, (∀ move ∈ rest, move = .handle ∨ move = .handOver) ∧
          (p.follow rules stores rest).handled = Move.arrivals moves) ∧
    ∀ (monitored : Bool) (script : List Action),
      let v := start opened.next stores true monitored
      let w := v.enact rules script
      v.observe rules script =
          (start opened.next others true monitored).observe rules script ∧
        (∃ moves : List Move,
          let p := (Pipeline.start s).follow rules stores moves
          p.Mirrors stores w ∧ p.operations = v.story rules script) ∧
        w.situation = s.final rules (v.story rules script) ∧
        ∀ batch : List Request,
          (w.session rules batch).filterMap Operation.request? = batch ∧
            (w.requests rules batch).1 =
              ((w.situation.run rules (w.session rules batch)).1.filterMap
                Observation.answer).map some := by
  intro s
  refine ⟨?_, ?_, ?_⟩
  · intro moves moves' same
    have one := (Pipeline.Agrees.refl (Pipeline.start s)).follow rules stores stores moves
    have other := (Pipeline.Agrees.refl (Pipeline.start s)).follow rules others stores moves'
    rw [← same] at other
    exact one.trans other.symm
  · intro moves p
    have sent : p.sent = Move.arrivals moves := Pipeline.sent_follow rules stores moves _
    obtain ⟨rest, own, -, served, -⟩ := p.follow_serve rules stores
    refine ⟨sent, (Pipeline.start_tells s).follow moves, rest, own, ?_⟩
    have kept := Pipeline.sent_follow rules stores rest p
    rw [Pipeline.arrivals_served own, ite_self, List.append_nil, sent, Pipeline.sent, served,
      List.append_nil] at kept
    exact kept
  · intro monitored script v w
    obtain ⟨moves, mirrors, done⟩ := exists_mirrors starts stores monitored script
    have tells : ((Pipeline.start s).follow rules stores moves).Tells rules s :=
      (Pipeline.start_tells s).follow moves
    refine ⟨Alike.observe rules ⟨_, rfl⟩ script, ⟨moves, mirrors, done⟩, ?_, ?_⟩
    · rw [← done, ← tells.situation]
      exact mirrors.situation.symm
    · intro batch
      exact ⟨requests_session batch w, answers_requests mirrors.running batch⟩

end Runs
end Service

namespace Trial

def script : List Service.Action :=
  [.requests [.rendezvous ann, .rendezvous bob], .sleep 3000,
    .requests [.endTraining ann (update 1), .endTraining bob (update 2)]]

end Trial

/-- Stores that never answer are not seen while a round is completed. -/
theorem round_completed_beside_stalled_stores :
    let stalled := Service.start Trial.opened.next ⟨.stalled, .stalled, .stalled⟩ true true
    let mixed := Service.start Trial.opened.next ⟨.memory, .null, .failing⟩ true true
    Trial.rules.open (.empty 10000 5000) [] () () = .ok Trial.opened ∧
      stalled.observe Trial.rules Trial.script = mixed.observe Trial.rules Trial.script ∧
      (stalled.observe Trial.rules Trial.script).map (fun shown => shown.2.coordinator.current) =
        [0, 0, 1] :=
  ⟨Trial.starts,
    ((Service.answers_regardless_of_stores Trial.starts _ _).2.2 true Trial.script).1,
    by decide +kernel⟩

end FederatedRounds
