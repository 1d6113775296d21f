import FederatedRounds.Proofs.Service.Monitor

/-! What is asked of a service over time, its monitor being at work, and the run of its coordinator
that comes of it. As long as the monitor is at work, nobody is registered who has expired, whatever
is asked. Two services that differ in their stores alone answer alike and go on to differ in their
stores alone. -/
namespace FederatedRounds.Service

/-- What is asked of a service and of what it shares with others. The requests of a batch are
handled in order. -/
inductive Action where
  | requests (batch : List Request)
  | sleep (span : Nat)
  | registry (change : Registry.Change)
  | putLocal (id : ParticipantId) (round : UInt32) (weights : Weights)
  | stopMonitor

variable {σ α : Type}

/-- The answers that an action gets, and the service after it. -/
def act (rules : Rules σ α) (v : Service σ α) : Action → List (Option Answer) × Service σ α
  | .requests batch => v.requests rules batch
  | .sleep span => ([], v.sleep rules span)
  | .registry change => ([], v.changeRegistry change)
  | .putLocal id round weights => ([], v.putLocal id round weights)
  | .stopMonitor => ([], v.stopMonitor)

def enact (rules : Rules σ α) (script : List Action) (v : Service σ α) : Service σ α :=
  script.foldl (fun v action => (v.act rules action).2) v

/-- The answers to each action of a script, and the coordinator after it. -/
def observe (rules : Rules σ α) : List Action → Service σ α →
    List (List (Option Answer) × Situation σ α)
  | [], _ => []
  | action :: rest, v =>
    let (answers, v) := v.act rules action
    (answers, v.situation) :: observe rules rest v

/-- What is done to the coordinator of a service that sleeps: between the turns of its monitor, time
passes. -/
def sleeping (rules : Rules σ α) (target : Instant) : Nat → Service σ α → List Operation
  | 0, v => [.advance (target - v.now)]
  | turns + 1, v =>
    match v.wakeAt with
    | some wake =>
      if wake ≤ target then
        let woken := v.passTo wake
        .advance (wake - v.now) :: (woken.session rules woken.removals ++
          sleeping rules target turns (woken.scan rules))
      else [.advance (target - v.now)]
    | none => [.advance (target - v.now)]

def operations (rules : Rules σ α) (v : Service σ α) : Action → List Operation
  | .requests batch => v.session rules batch
  | .sleep span => v.sleeping rules (v.now + span) (span + 1)
  | .registry change => [.registry change]
  | .putLocal .. | .stopMonitor => []

/-- What is done to the coordinator in the course of a script. -/
def story (rules : Rules σ α) : List Action → Service σ α → List Operation
  | [], _ => []
  | action :: rest, v => v.operations rules action ++ story rules rest (v.act rules action).2

section Monitor
variable (rules : Rules σ α)

/-- A service that is attended, with the next turn of its monitor still to come. -/
structure Ahead (v : Service σ α) : Prop where
  attended : v.Attended
  early : ∀ wake, v.wakeAt = some wake → v.now < wake

theorem start_ahead {c : Coordinator σ α} {time timeout : Nat} (positive : 0 < time + timeout)
    (fresh : c.registry = .empty time timeout) (stores : Stores) :
    (start c stores true true).Ahead := by
  have first : (Registry.empty time timeout).nextExpiration 0 = time + timeout := by
    simp [Registry.nextExpiration, Registry.empty, Registry.expiryFrom]
  refine ⟨start_attended positive fresh stores, ?_⟩
  rintro wake ⟨⟩
  rw [fresh, first]
  exact positive

theorem Ahead.requests {v : Service σ α} (ahead : v.Ahead) (batch : List Request) :
    (v.requests rules batch).2.Ahead := by
  have running := ahead.attended.running
  obtain ⟨⟨coordinator, queue, moved⟩, _, reached⟩ := requests_running rules running batch
  refine ⟨ahead.attended.asleep ?_ ?_ reached, ?_⟩ <;> rw [moved]
  · exact running
  · exact ahead.early

theorem Ahead.sleep {v : Service σ α} (ahead : v.Ahead) (span : Nat) :
    (v.sleep rules span).Ahead := by
  obtain ⟨_, attended, now, next, sleeps, later⟩ := ahead.attended.sleep rules span 0
  refine ⟨attended, ?_⟩
  intro wake wakes
  obtain rfl : next = wake := Option.some.inj (sleeps.symm.trans wakes)
  exact now.trans_lt later

theorem Ahead.act {v : Service σ α} (ahead : v.Ahead) {action : Action}
    (monitored : action ≠ .stopMonitor) : (v.act rules action).2.Ahead := by
  have running := ahead.attended.running
  cases action with
  | requests batch => exact ahead.requests rules batch
  | sleep span => exact ahead.sleep rules span
  | registry change =>
    have reached : (v.changeRegistry change).situation =
        v.situation.final rules [.registry change] := rfl
    exact ⟨ahead.attended.asleep running rfl reached, ahead.early⟩
  | putLocal id round weights =>
    have reached : (v.putLocal id round weights).situation = v.situation.final rules [] := rfl
    exact ⟨ahead.attended.asleep running rfl reached, ahead.early⟩
  | stopMonitor => exact absurd rfl monitored

theorem Ahead.enact {script : List Action} (monitored : ∀ action ∈ script, action ≠ .stopMonitor)
    {v : Service σ α} (ahead : v.Ahead) : (v.enact rules script).Ahead := by
  induction script generalizing v with
  | nil => exact ahead
  | cons action rest ih =>
    obtain ⟨first, later⟩ := List.forall_mem_cons.mp monitored
    exact ih later (ahead.act rules first)

theorem Ahead.lt_expiry {v : Service σ α} (ahead : v.Ahead) {id : ParticipantId} {expiry : Instant}
    (expires : v.coordinator.registry.expiry? id = some expiry) : v.now < expiry := by
  obtain ⟨wake, wakes, _, before⟩ := ahead.attended.monitored
  exact (ahead.early wake wakes).trans_le (before id expiry expires)

/-- Whatever is asked of a service whose monitor is not stopped, and however long it sleeps, nobody
is registered who has expired. -/
theorem nobody_overdue {c : Coordinator σ α} {time timeout : Nat} (positive : 0 < time + timeout)
    (fresh : c.registry = .empty time timeout) (stores : Stores) {script : List Action}
    (monitored : ∀ action ∈ script, action ≠ .stopMonitor) :
    let v := (start c stores true true).enact rules script
    ∀ id expiry, v.coordinator.registry.expiry? id = some expiry → v.now < expiry := by
  intro v id expiry expires
  exact ((start_ahead positive fresh stores).enact rules monitored).lt_expiry expires

end Monitor

section Stores
variable (rules : Rules σ α)

/-- Two services that differ in their stores and what these have yet to do and have done. -/
def Alike (v w : Service σ α) : Prop := ∃ queue, w = { v with queue }

theorem Alike.request {v w : Service σ α} (alike : v.Alike w) (r : Request) :
    (v.request rules r).1 = (w.request rules r).1 ∧
      (v.request rules r).2.Alike (w.request rules r).2 := by
  obtain ⟨queue, rfl⟩ := alike
  unfold Service.request
  dsimp only
  split <;> exact ⟨rfl, _, rfl⟩

theorem Alike.requests {v w : Service σ α} (alike : v.Alike w) (rs : List Request) :
    (v.requests rules rs).1 = (w.requests rules rs).1 ∧
      (v.requests rules rs).2.Alike (w.requests rules rs).2 := by
  induction rs generalizing v w with
  | nil => exact ⟨rfl, alike⟩
  | cons r rest ih =>
    obtain ⟨same, next⟩ := alike.request rules r
    obtain ⟨others, last⟩ := ih next
    unfold Service.requests
    dsimp only
    rw [same, others]
    exact ⟨rfl, last⟩

theorem Alike.passTo {v w : Service σ α} (alike : v.Alike w) (target : Instant) :
    (v.passTo target).Alike (w.passTo target) := by
  obtain ⟨queue, rfl⟩ := alike
  exact ⟨_, rfl⟩

theorem Alike.scan {v w : Service σ α} (alike : v.Alike w) :
    (v.scan rules).Alike (w.scan rules) := by
  have expired : w.coordinator.registry.expired w.now = v.coordinator.registry.expired v.now := by
    obtain ⟨queue, rfl⟩ := alike
    rfl
  have instant : w.now = v.now := by
    obtain ⟨queue, rfl⟩ := alike
    rfl
  unfold Service.scan
  rw [expired, instant]
  obtain ⟨same, queue, next⟩ := alike.requests rules
    ((v.coordinator.registry.expired v.now).map fun id => .removeExpired id v.now)
  dsimp only
  rw [← same, next]
  split <;> exact ⟨_, rfl⟩

theorem Alike.sleepUntil {v w : Service σ α} (alike : v.Alike w) (target : Instant) (turns : Nat) :
    (v.sleepUntil rules target turns).Alike (w.sleepUntil rules target turns) := by
  induction turns generalizing v w with
  | zero => exact alike.passTo target
  | succ turns ih =>
    have wakes : w.wakeAt = v.wakeAt := by
      obtain ⟨queue, rfl⟩ := alike
      rfl
    unfold Service.sleepUntil
    rw [wakes]
    split
    · split
      · exact ih ((alike.passTo _).scan rules)
      · exact alike.passTo target
    · exact alike.passTo target

theorem Alike.act {v w : Service σ α} (alike : v.Alike w) (action : Action) :
    (v.act rules action).1 = (w.act rules action).1 ∧
      (v.act rules action).2.Alike (w.act rules action).2 := by
  cases action with
  | requests batch => exact alike.requests rules batch
  | sleep span =>
    have instant : w.now = v.now := by
      obtain ⟨queue, rfl⟩ := alike
      rfl
    refine ⟨rfl, ?_⟩
    change (v.sleepUntil rules (v.now + span) (span + 1)).Alike
      (w.sleepUntil rules (w.now + span) (span + 1))
    rw [instant]
    exact alike.sleepUntil rules _ _
  | _ =>
    obtain ⟨queue, rfl⟩ := alike
    exact ⟨rfl, _, rfl⟩

theorem Alike.observe {v w : Service σ α} (alike : v.Alike w) (script : List Action) :
    v.observe rules script = w.observe rules script := by
  induction script generalizing v w with
  | nil => rfl
  | cons action rest ih =>
    obtain ⟨same, next⟩ := alike.act rules action
    have situation : (v.act rules action).2.situation = (w.act rules action).2.situation := by
      obtain ⟨queue, moved⟩ := next
      rw [moved]
      rfl
    unfold Service.observe
    dsimp only
    rw [same, situation, ih next]

end Stores

end FederatedRounds.Service
