import FederatedRounds.Proofs.Coordinator.Expiry
import FederatedRounds.Proofs.Service.Session

/-! The monitor of a service. Expiries are given for the same span ahead, by a clock that does not
go back. A monitor that sleeps until the least expiry of all, or for this span when there is none,
is therefore awake before anybody expires, whoever joins or is heard from in the meantime. After a
turn in which it removed all whom it found expired, it goes to sleep until a later instant. -/
namespace FederatedRounds

/-- The participant that is removed if it has expired by an instant, at the request of the monitor
or by others. -/
def Operation.removesExpired? : Operation → Option (ParticipantId × Instant)
  | .request (.removeExpired id observed) | .registry (.removeIfExpired id observed) =>
    some (id, observed)
  | _ => none

section Runs
variable {σ α : Type} {rules : Rules σ α} {id : ParticipantId} {expiry : Instant}

namespace Situation

/-- The expiry of a participant that is heard from now. -/
def horizon (s : Situation σ α) : Instant := s.coordinator.registry.expiryFrom s.now

/-- Nobody expires later than a participant that is heard from now. -/
def Bounded (s : Situation σ α) : Prop :=
  ∀ id expiry, s.coordinator.registry.expiry? id = some expiry → expiry ≤ s.horizon

theorem given_or_kept {s : Situation σ α} {operation : Operation}
    (expires : (s.step rules operation).after.coordinator.registry.expiry? id = some expiry) :
    expiry = s.horizon ∨ s.coordinator.registry.expiry? id = some expiry := by
  obtain ⟨effect, shown⟩ := s.step_shows rules operation
  rcases shown.transition.registry with same | ⟨change, changed⟩
  · rw [same] at expires
    exact Or.inr expires
  · rw [changed] at expires
    exact Registry.expiry?_change expires

theorem horizon_le_step (rules : Rules σ α) (s : Situation σ α) (operation : Operation) :
    s.horizon ≤ (s.step rules operation).after.horizon := by
  unfold horizon
  rw [s.step_expiryFrom operation]
  exact s.coordinator.registry.expiryFrom_mono (s.now_le_step operation)

theorem horizon_le_final (s : Situation σ α) (operations : List Operation) :
    s.horizon ≤ (s.final rules operations).horizon := by
  refine final_invariant (fun t => s.horizon ≤ t.horizon) ?_ (Nat.le_refl _)
  intro operation _ t le
  exact le.trans (t.horizon_le_step rules operation)

theorem final_expiryFrom (s : Situation σ α) (operations : List Operation) :
    (s.final rules operations).coordinator.registry.expiryFrom =
      s.coordinator.registry.expiryFrom := by
  refine final_invariant
    (fun t => t.coordinator.registry.expiryFrom = s.coordinator.registry.expiryFrom) ?_ rfl
  intro operation _ t same
  exact (t.step_expiryFrom operation).trans same

theorem final_bounded (operations : List Operation) {s : Situation σ α} (bounded : s.Bounded) :
    (s.final rules operations).Bounded := by
  refine final_invariant Bounded ?_ bounded
  intro operation _ t bounded id expiry expires
  have later := t.horizon_le_step rules operation
  rcases given_or_kept expires with given | kept
  · exact given.le.trans later
  · exact (bounded id expiry kept).trans later

/-- A participant that does not expire before an instant, and would not if it were heard from now,
will never expire before it. -/
theorem final_le_expiry {bound : Instant} {s : Situation σ α} (soon : bound ≤ s.horizon)
    (start : ∀ expiry, s.coordinator.registry.expiry? id = some expiry → bound ≤ expiry)
    (operations : List Operation)
    (expires : (s.final rules operations).coordinator.registry.expiry? id = some expiry) :
    bound ≤ expiry := by
  refine (final_invariant (fun t => bound ≤ t.horizon ∧
    ∀ expiry, t.coordinator.registry.expiry? id = some expiry → bound ≤ expiry) ?_
      ⟨soon, start⟩).2 expiry expires
  intro operation _ t ⟨soon, start⟩
  refine ⟨soon.trans (t.horizon_le_step rules operation), ?_⟩
  intro expiry expires
  rcases given_or_kept expires with given | kept
  · rw [given]
    exact soon
  · exact start expiry kept

theorem step_removesExpired {s : Situation σ α} {operation : Operation} {observed : Instant}
    (removes : operation.removesExpired? = some (id, observed))
    (expires : (s.step rules operation).after.coordinator.registry.expiry? id = some expiry) :
    observed < expiry := by
  unfold Operation.removesExpired? at removes
  split at removes
  · cases removes
    have removed : (s.coordinator.removeExpired rules id observed).next.registry.expiry? id =
      some expiry := expires
    rw [Coordinator.removeExpired_registry] at removed
    exact Registry.lt_of_removeIfExpired removed
  · cases removes
    exact Registry.lt_of_removeIfExpired expires
  · cases removes

theorem Bounded.nextExpiration_le_horizon {s : Situation σ α} (bounded : s.Bounded) :
    s.coordinator.registry.nextExpiration s.now ≤ s.horizon := by
  rcases s.coordinator.registry.nextExpiration_attained s.now with default | ⟨id, found⟩
  · exact default.le
  · exact bounded id _ found

/-- Nobody expires before the next expiration, whatever happens from now on. -/
theorem Bounded.nextExpiration_le {s : Situation σ α} (bounded : s.Bounded)
    (operations : List Operation)
    (expires : (s.final rules operations).coordinator.registry.expiry? id = some expiry) :
    s.coordinator.registry.nextExpiration s.now ≤ expiry :=
  final_le_expiry bounded.nextExpiration_le_horizon
    (fun _ found => Registry.nextExpiration_le s.now found) operations expires

/-- The removals of all that have expired by an instant leave nobody who has. -/
theorem lt_expiry_of_removed {s : Situation σ α} {observed : Instant} (ahead : observed < s.horizon)
    {operations : List Operation}
    (handled : ∀ id ∈ s.coordinator.registry.expired observed,
      ∃ operation ∈ operations, operation.removesExpired? = some (id, observed))
    (expires : (s.final rules operations).coordinator.registry.expiry? id = some expiry) :
    observed < expiry := by
  by_cases expired : id ∈ s.coordinator.registry.expired observed
  · obtain ⟨operation, member, removes⟩ := handled id expired
    obtain ⟨first, rest, rfl⟩ := List.append_of_mem member
    rw [final_append, final_cons] at expires
    -- Once its removal is handled, the participant is gone or expires later, and so it stays.
    refine final_le_expiry ?_ (fun _ found => step_removesExpired removes found) rest expires
    exact (Nat.succ_le_of_lt ahead).trans ((s.horizon_le_final first).trans (horizon_le_step _ _ _))
  · refine final_le_expiry ahead ?_ operations expires
    intro expiry found
    rw [Registry.mem_expired_iff, Registry.isExpired_iff] at expired
    exact Nat.lt_of_not_le fun past => expired ⟨expiry, found, past⟩

theorem lt_nextExpiration_of_removed {s : Situation σ α} {observed : Instant}
    (ahead : observed < s.horizon) {operations : List Operation}
    (handled : ∀ id ∈ s.coordinator.registry.expired observed,
      ∃ operation ∈ operations, operation.removesExpired? = some (id, observed)) :
    let t := s.final rules operations
    observed < t.coordinator.registry.nextExpiration t.now := by
  intro t
  rcases t.coordinator.registry.nextExpiration_attained t.now with default | ⟨id, found⟩
  · rw [default]
    exact ahead.trans_le (s.horizon_le_final operations)
  · exact lt_expiry_of_removed ahead handled found

end Situation

namespace Service

def removals (v : Service σ α) : List Request :=
  (v.coordinator.registry.expired v.now).map fun id => .removeExpired id v.now

/-- A turn of the monitor handles the removals, and sets the next one to the next expiration. -/
theorem scan_running (rules : Rules σ α) {v : Service σ α} (running : v.running = true) :
    let left := (v.requests rules v.removals).2
    v.scan rules =
      { left with wakeAt := some (left.coordinator.registry.nextExpiration left.now) } := by
  intro left
  have answered : ¬(v.requests rules v.removals).1.any (·.isNone) = true := by
    rw [Bool.not_eq_true, List.any_eq_false]
    intro answer member
    have told := (requests_running rules running v.removals).2.1 answer member
    simpa [Option.isSome_iff_ne_none] using told
  exact if_neg answered

theorem scan_wakes (rules : Rules σ α) {v : Service σ α} (running : v.running = true) :
    (v.scan rules).running = true ∧ (v.scan rules).now = v.now ∧
      (v.scan rules).wakeAt =
        some ((v.scan rules).coordinator.registry.nextExpiration (v.scan rules).now) ∧
      ∃ operations, (v.scan rules).situation = v.situation.final rules operations ∧
        ∀ id ∈ v.coordinator.registry.expired v.now,
          ∃ operation ∈ operations, operation.removesExpired? = some (id, v.now) := by
  obtain ⟨⟨_, _, moved⟩, _, reached⟩ := requests_running rules running v.removals
  rw [scan_running rules running]
  refine ⟨?_, ?_, rfl, v.session rules v.removals, reached, ?_⟩
  · rw [moved]
    exact running
  · rw [moved]
  · intro id member
    have asked : Request.removeExpired id v.now ∈ v.removals :=
      List.mem_map_of_mem (f := fun id => Request.removeExpired id v.now) member
    exact ⟨_, mem_session asked v, rfl⟩

theorem scan_ahead (rules : Rules σ α) {v : Service σ α} (running : v.running = true)
    (patient : v.now < v.situation.horizon) :
    v.now < (v.scan rules).coordinator.registry.nextExpiration (v.scan rules).now := by
  obtain ⟨_, _, _, operations, reached, handled⟩ := scan_wakes rules running
  have next : v.now < (v.situation.final rules operations).coordinator.registry.nextExpiration
      (v.situation.final rules operations).now :=
    Situation.lt_nextExpiration_of_removed patient handled
  rw [← reached] at next
  exact next

/-- A running service that its monitor watches over: the monitor wakes before anybody expires, and
before anybody could who is heard from in the meantime. -/
structure Attended (v : Service σ α) : Prop where
  running : v.running = true
  bounded : v.situation.Bounded
  patient : ∀ instant, instant < v.coordinator.registry.expiryFrom instant
  monitored : ∃ wake, v.wakeAt = some wake ∧ wake ≤ v.situation.horizon ∧
    ∀ id expiry, v.coordinator.registry.expiry? id = some expiry → wake ≤ expiry

theorem start_attended {c : Coordinator σ α} {time timeout : Nat} (positive : 0 < time + timeout)
    (fresh : c.registry = .empty time timeout) (stores : Stores) :
    (start c stores true true).Attended := by
  have bounded : (start c stores true true).situation.Bounded := by
    intro id expiry expires
    change c.registry.expiry? id = some expiry at expires
    rw [fresh] at expires
    cases expires
  refine ⟨rfl, bounded, ?_, _, rfl, bounded.nextExpiration_le_horizon, ?_⟩
  · intro instant
    change instant < c.registry.expiryFrom instant
    rw [fresh]
    exact (Nat.lt_add_of_pos_right positive).trans_eq (Nat.add_assoc _ _ _).symm
  · exact fun _ _ => Registry.nextExpiration_le 0

theorem Attended.patient_final {v w : Service σ α} (attended : v.Attended)
    {operations : List Operation} (reached : w.situation = v.situation.final rules operations)
    (instant : Instant) : instant < w.coordinator.registry.expiryFrom instant := by
  have same : w.situation.coordinator.registry.expiryFrom =
      v.situation.coordinator.registry.expiryFrom := by
    rw [reached, Situation.final_expiryFrom]
  exact (attended.patient instant).trans_eq (congrFun same instant).symm

/-- Whatever becomes of the coordinator while the monitor sleeps, it wakes in time: whoever is heard
from expires later still. -/
theorem Attended.asleep {v w : Service σ α} (attended : v.Attended) {operations : List Operation}
    (running : w.running = true) (sleeps : w.wakeAt = v.wakeAt)
    (reached : w.situation = v.situation.final rules operations) : w.Attended := by
  obtain ⟨wake, wakes, soon, before⟩ := attended.monitored
  refine ⟨running, ?_, attended.patient_final reached, wake, sleeps.trans wakes, ?_, ?_⟩
  · rw [reached]
    exact Situation.final_bounded _ attended.bounded
  · rw [reached]
    exact soon.trans (v.situation.horizon_le_final _)
  · intro id expiry expires
    change w.situation.coordinator.registry.expiry? id = some expiry at expires
    rw [reached] at expires
    exact Situation.final_le_expiry soon (before id) _ expires

theorem Attended.passTo {v : Service σ α} (attended : v.Attended) (target : Instant) :
    (v.passTo target).Attended := by
  have later : v.situation.horizon ≤ (v.passTo target).situation.horizon :=
    v.coordinator.registry.expiryFrom_mono (Nat.le_max_left _ _)
  obtain ⟨wake, wakes, soon, before⟩ := attended.monitored
  have bounded : (v.passTo target).situation.Bounded := fun id expiry expires =>
    (attended.bounded id expiry expires).trans later
  exact ⟨attended.running, bounded, attended.patient, wake, wakes, soon.trans later, before⟩

theorem Attended.scan (rules : Rules σ α) {v : Service σ α} (attended : v.Attended) :
    (v.scan rules).Attended := by
  obtain ⟨still, _, sleeps, _, reached, _⟩ := scan_wakes rules attended.running
  have bounded : (v.scan rules).situation.Bounded := by
    rw [reached]
    exact Situation.final_bounded _ attended.bounded
  exact ⟨still, bounded, attended.patient_final reached, _, sleeps,
    bounded.nextExpiration_le_horizon, fun _ _ => Registry.nextExpiration_le _⟩

theorem sleepUntil_of_lt {v : Service σ α} {target wake : Instant} (wakes : v.wakeAt = some wake)
    (later : target < wake) (turns : Nat) : v.sleepUntil rules target turns = v.passTo target := by
  cases turns with
  | zero => rfl
  | succ turns =>
    unfold sleepUntil
    rw [wakes]
    exact if_neg (Nat.not_le.mpr later)

theorem sleepUntil_of_le {v : Service σ α} {target wake : Instant} (wakes : v.wakeAt = some wake)
    (due : wake ≤ target) (turns : Nat) :
    v.sleepUntil rules target (turns + 1) =
      ((v.passTo wake).scan rules).sleepUntil rules target turns := by
  rw [sleepUntil, wakes]
  exact if_pos due

/-- Each turn of the monitor is at a later instant than the one before, so that there are no more
turns than instants. -/
theorem Attended.sleepUntil {turns : Nat} {v : Service σ α} (attended : v.Attended)
    {target wake : Instant} (wakes : v.wakeAt = some wake) (reach : v.now ≤ target)
    (near : target < max v.now wake + turns) (extra : Nat) :
    let w := v.sleepUntil rules target turns
    v.sleepUntil rules target (turns + extra) = w ∧ w.Attended ∧ w.now = target ∧
      ∃ wake, w.wakeAt = some wake ∧ target < wake := by
  induction turns generalizing v wake with
  | zero =>
    have later : target < wake := (lt_max_iff.mp near).resolve_left (Nat.not_lt.mpr reach)
    rw [sleepUntil_of_lt wakes later, sleepUntil_of_lt wakes later]
    exact ⟨rfl, attended.passTo target, Nat.max_eq_right reach, wake, wakes, later⟩
  | succ turns ih =>
    rcases Nat.lt_or_ge target wake with later | due
    · rw [sleepUntil_of_lt wakes later, sleepUntil_of_lt wakes later]
      exact ⟨rfl, attended.passTo target, Nat.max_eq_right reach, wake, wakes, later⟩
    -- A turn is due, and the next one will be at a later instant.
    have woken := attended.passTo wake
    obtain ⟨_, here, sleeps, _⟩ := scan_wakes rules woken.running
    have further := scan_ahead rules woken.running (woken.patient _)
    rw [Nat.add_right_comm, sleepUntil_of_le wakes due, sleepUntil_of_le wakes due]
    refine ih (woken.scan rules) sleeps (here.trans_le (Nat.max_le.mpr ⟨reach, due⟩)) ?_
    calc
      target < max v.now wake + (turns + 1) := near
      _ = (v.passTo wake).now + 1 + turns := Nat.add_right_comm _ turns 1
      _ ≤ _ := Nat.add_le_add_right (further.trans_le (Nat.le_max_right _ _)) turns

/-- The turns that a sleep allows for are as good as any greater number, and after them the monitor
is ahead of time. -/
theorem Attended.sleep (rules : Rules σ α) {v : Service σ α} (attended : v.Attended)
    (span extra : Nat) :
    let w := v.sleep rules span
    v.sleepUntil rules (v.now + span) (span + 1 + extra) = w ∧ w.Attended ∧ w.now = v.now + span ∧
      ∃ wake, w.wakeAt = some wake ∧ v.now + span < wake := by
  obtain ⟨wake, wakes, _, _⟩ := attended.monitored
  refine attended.sleepUntil wakes (Nat.le_add_right _ _) ?_ extra
  exact Nat.add_lt_add_of_le_of_lt (Nat.le_max_left _ _) (Nat.lt_succ_self span)

end Service

theorem monitor_wakes_in_time (rules : Rules σ α) {time timeout : Nat} {start : Situation σ α}
    (fresh : start.coordinator.registry = .empty time timeout) (operations : List Operation) :
    let s := start.final rules operations
    let wake := s.coordinator.registry.nextExpiration s.now
    (∀ later id expiry,
        (s.final rules later).coordinator.registry.expiry? id = some expiry → wake ≤ expiry) ∧
      (0 < time + timeout → ∀ observed later, observed ≤ s.now →
        (∀ id ∈ s.coordinator.registry.expired observed,
          ∃ operation ∈ later, operation.removesExpired? = some (id, observed)) →
        let t := s.final rules later
        (∀ id expiry, t.coordinator.registry.expiry? id = some expiry → observed < expiry) ∧
          observed < t.coordinator.registry.nextExpiration t.now) ∧
      ∀ v : Service σ α, v.situation = s → v.running = true →
        let w := v.scan rules
        ∃ wake, w.wakeAt = some wake ∧ (0 < time + timeout → v.now < wake) ∧
          ∀ later id expiry,
            (w.situation.final rules later).coordinator.registry.expiry? id = some expiry →
              wake ≤ expiry := by
  intro s wake
  have bounded : start.Bounded := by
    intro id expiry expires
    rw [fresh] at expires
    cases expires
  have given (instant : Instant) : s.coordinator.registry.expiryFrom instant =
      instant + (time + timeout) := by
    rw [Situation.final_expiryFrom, fresh]
    exact Nat.add_assoc _ _ _
  have ahead (positive : 0 < time + timeout) {observed : Instant} (past : observed ≤ s.now) :
      observed < s.horizon := by
    rw [Situation.horizon, given]
    exact past.trans_lt (Nat.lt_add_of_pos_right positive)
  have kept : s.Bounded := Situation.final_bounded operations bounded
  refine ⟨fun later id expiry => kept.nextExpiration_le later, ?_, ?_⟩
  · intro positive observed later past handled t
    exact ⟨fun id expiry => Situation.lt_expiry_of_removed (ahead positive past) handled,
      Situation.lt_nextExpiration_of_removed (ahead positive past) handled⟩
  · intro v same running w
    obtain ⟨_, _, sleeps, further, reached, _⟩ := Service.scan_wakes rules running
    refine ⟨_, sleeps, ?_, ?_⟩
    · intro positive
      apply Service.scan_ahead rules running
      rw [same]
      exact ahead positive (congrArg Situation.now same).le
    · intro later id expiry
      have still : w.situation.Bounded := by
        rw [reached, same]
        exact Situation.final_bounded further kept
      exact still.nextExpiration_le later

end Runs

namespace Trial

/-- Ann joins while the monitor of an empty registry sleeps. -/
def newcomer : List Operation := [.advance 5000, .request (.rendezvous ann), .advance 10000]

def joined : Situation Unit Unit :=
  (⟨0, opened.next⟩ : Situation Unit Unit).final rules newcomer

/-- Both have expired, and Bob is heard from between the two removals. -/
def turn : List Operation :=
  [.request (.removeExpired ann 15000), .request (.heartbeat bob),
    .request (.removeExpired bob 15000)]

def left : Situation Unit Unit := silent.final rules turn

/-- A service in which the monitor is about to take its turn. -/
def serving (s : Situation Unit Unit) : Service Unit Unit :=
  ⟨s.now, true, s.coordinator, ⟨⟨.null, .null, .null⟩, .empty, [], 0, []⟩, some s.now⟩

theorem serving_situation (s : Situation Unit Unit) : (serving s).situation = s := rfl

end Trial

/-- Ann, who joined late, expires after the monitor wakes. Bob, who was heard from in time, stays,
and a monitor that finds both expired sleeps until later. -/
theorem monitor_keeps_pace :
    Trial.opened.next.registry = .empty 10000 5000 ∧
      Trial.joined.now = Trial.opened.next.registry.nextExpiration 0 ∧
      Trial.joined.coordinator.registry.expiry? Trial.ann = some 20000 ∧
      Trial.opened.next.registry.nextExpiration 0 ≤ 20000 ∧
      Trial.silent.coordinator.registry.expired 15000 = [Trial.ann, Trial.bob] ∧
      Trial.left.coordinator.registry.ids = [Trial.bob] ∧
      15000 < Trial.left.coordinator.registry.nextExpiration Trial.left.now ∧
      ∃ wake,
        ((Trial.serving Trial.silent).scan Trial.rules).wakeAt = some wake ∧ 15000 < wake := by
  have fresh : (⟨0, Trial.opened.next⟩ : Situation Unit Unit).coordinator.registry =
    .empty 10000 5000 := rfl
  have early : ∀ later id expiry, ((⟨0, Trial.opened.next⟩ : Situation Unit Unit).final
      Trial.rules later).coordinator.registry.expiry? id = some expiry →
        Trial.opened.next.registry.nextExpiration 0 ≤ expiry :=
    (monitor_wakes_in_time Trial.rules fresh []).1
  have awake := early Trial.newcomer Trial.ann 20000
  obtain ⟨_, turns, monitors⟩ := monitor_wakes_in_time Trial.rules fresh Trial.silence
  rw [← Trial.joined] at awake
  rw [← Trial.silent] at turns monitors
  obtain ⟨woken, anew, instant, both, stays⟩ :
      Trial.joined.now = Trial.opened.next.registry.nextExpiration 0 ∧
      Trial.joined.coordinator.registry.expiry? Trial.ann = some 20000 ∧
      Trial.silent.now = 15000 ∧
      Trial.silent.coordinator.registry.expired 15000 = [Trial.ann, Trial.bob] ∧
      Trial.left.coordinator.registry.ids = [Trial.bob] := by decide +kernel
  have handled : ∀ id ∈ Trial.silent.coordinator.registry.expired 15000,
      ∃ operation ∈ Trial.turn, operation.removesExpired? = some (id, 15000) := by
    rw [both]
    decide
  have ahead := (turns (by decide) 15000 Trial.turn instant.ge handled).2
  obtain ⟨wake, sleeps, later, _⟩ :=
    monitors (Trial.serving Trial.silent) (Trial.serving_situation _) rfl
  exact ⟨fresh, woken, anew, awake anew, both, stays, ahead, wake, sleeps,
    instant.ge.trans_lt (later (by decide))⟩

end FederatedRounds
