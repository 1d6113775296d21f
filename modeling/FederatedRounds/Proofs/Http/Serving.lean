import FederatedRounds.Http.Response
import FederatedRounds.Proofs.Coordinator.Expiry
import FederatedRounds.Proofs.Http.Route
import FederatedRounds.Proofs.Service.Session
import FederatedRounds.Proofs.Wire.RoundTrip

/-! What becomes of a request. It asks something of the coordinator, which then does what it would
do if it were asked directly, and the answer tells how that went; or it asks nothing, and the
service does not get to know of it. -/
namespace FederatedRounds.Http

namespace Request
variable {limit : Nat} {r : Request}

/-- What a request asks of the coordinator; `fresh` is the id for a participant without one. Only an
update has a body that matters: of a declared length within the limit, JSON if there is a content
type, of which the first counts, and an update when it is read. -/
inductive Asks (limit : Nat) (fresh : ParticipantId) (r : Request) :
    FederatedRounds.Request → Prop where
  | rendezvous (post : r.method = "POST") (path : Spells r.target ["rendezvous"]) :
      Asks limit fresh r (.rendezvous fresh)
  | heartbeat (id : ParticipantId) (get : r.method = "GET")
      (path : Spells r.target ["heartbeat", id.text]) : Asks limit fresh r (.heartbeat id)
  | startTraining (id : ParticipantId) (get : r.method = "GET")
      (path : Spells r.target ["start_training_round", id.text]) :
      Asks limit fresh r (.startTraining id)
  | endTraining (id : ParticipantId) (update : Update) (length : Nat) (post : r.method = "POST")
      (path : Spells r.target ["end_training_round", id.text])
      (declared : r.header "content-length" ≠ [])
      (agreed : ∀ value ∈ r.header "content-length",
        Digit.unsigned? 64 value.toList = some length)
      (within : length ≤ limit)
      (json : ∀ value, (r.header "content-type").head? = some value →
        MediaType.parse? value = some .json)
      (decodes : Json.decode? Update.ofJson? r.body = some update) :
      Asks limit fresh r (.endTraining id update)

theorem declaredLength?_eq_some_iff {length : Nat} : r.declaredLength? = some length ↔
    r.header "content-length" ≠ [] ∧
      ∀ value ∈ r.header "content-length", Digit.unsigned? 64 value.toList = some length := by
  unfold declaredLength?
  generalize r.header "content-length" = values
  constructor
  · intro declared
    split at declared
    · rename_i first others read
      split at declared
      · rename_i alike
        cases declared
        have each := Json.mapM_eq_some_iff.mp read
        refine ⟨?_, ?_⟩
        · rintro rfl
          cases each
        · intro value member
          have found := List.mem_map_of_mem
            (f := fun value => Digit.unsigned? 64 value.toList) member
          rw [each] at found
          simp only [List.map_cons, List.mem_cons, List.mem_map] at found
          rcases found with same | ⟨other, among, same⟩
          · exact same
          · rw [← same, of_decide_eq_true (List.all_eq_true.mp alike other among)]
      · cases declared
    · cases declared
  · rintro ⟨nonempty, each⟩
    obtain ⟨value, rest, rfl⟩ := List.exists_cons_of_ne_nil nonempty
    have read : (value :: rest).mapM (fun value => Digit.unsigned? 64 value.toList) =
        some (length :: rest.map fun _ => length) := by
      rw [Json.mapM_eq_some_iff, ← List.map_cons (f := fun _ => length), List.map_map]
      exact List.map_congr_left each
    rw [read]
    simp

theorem admitsJson_iff : r.admitsJson = true ↔
    ∀ value, (r.header "content-type").head? = some value →
      MediaType.parse? value = some .json := by
  unfold admitsJson
  cases r.header "content-type" with
  | nil => simp
  | cons value others => simp

theorem update_eq_ok_iff {update : Update} : r.update limit = .ok update ↔
    ∃ length, r.declaredLength? = some length ∧ length ≤ limit ∧ r.admitsJson = true ∧
      Json.decode? Update.ofJson? r.body = some update := by
  unfold Request.update
  cases r.declaredLength? with
  | none => simp
  | some length =>
    by_cases long : limit < length
    · simp [long]
    by_cases admitted : r.admitsJson = true
    · cases read : Json.decode? Update.ofJson? r.body with
      | none =>
        rw [Json.decode?] at read
        simp [long, admitted, read]
      | some found =>
        rw [Json.decode?] at read
        simp [long, admitted, read, Nat.not_lt.mp long]
    · simp [long, admitted]

theorem asks_of_call {call : Call} (made : r.call limit = .ok call) (fresh : ParticipantId) :
    r.Asks limit fresh (call.request fresh) := by
  unfold Request.call at made
  split at made
  · cases made
  rename_i route found
  have path := Route.ofTarget?_eq_some_iff.mp found
  split at made
  · rename_i method
    cases route with
    | rendezvous =>
      cases made
      exact .rendezvous method path
    | heartbeat id =>
      cases made
      exact .heartbeat id method path
    | startTraining id =>
      cases made
      exact .startTraining id method path
    | endTraining id =>
      dsimp only at made
      cases sent : r.update limit with
      | error rejection =>
        rw [sent] at made
        cases made
      | ok update =>
        rw [sent] at made
        cases made
        obtain ⟨length, declared, within, json, decodes⟩ := update_eq_ok_iff.mp sent
        obtain ⟨present, agreed⟩ := declaredLength?_eq_some_iff.mp declared
        exact .endTraining id update length method path present agreed within
          (admitsJson_iff.mp json) decodes
  · cases made

theorem Asks.call {fresh : ParticipantId} {request : FederatedRounds.Request}
    (asks : r.Asks limit fresh request) :
    ∃ call, r.call limit = .ok call ∧ call.request fresh = request := by
  unfold Request.call
  cases asks with
  | rendezvous post path =>
    have found : Route.ofTarget? r.target = some .rendezvous :=
      Route.ofTarget?_eq_some_iff.mpr path
    rw [found]
    exact ⟨.rendezvous, if_pos post, rfl⟩
  | heartbeat id get path =>
    have found : Route.ofTarget? r.target = some (.heartbeat id) :=
      Route.ofTarget?_eq_some_iff.mpr path
    rw [found]
    exact ⟨.heartbeat id, if_pos get, rfl⟩
  | startTraining id get path =>
    have found : Route.ofTarget? r.target = some (.startTraining id) :=
      Route.ofTarget?_eq_some_iff.mpr path
    rw [found]
    exact ⟨.startTraining id, if_pos get, rfl⟩
  | endTraining id update length post path present agreed within json decodes =>
    have found : Route.ofTarget? r.target = some (.endTraining id) :=
      Route.ofTarget?_eq_some_iff.mpr path
    have declared := declaredLength?_eq_some_iff.mpr ⟨present, agreed⟩
    have sent : r.update limit = .ok update :=
      update_eq_ok_iff.mpr ⟨length, declared, within, admitsJson_iff.mpr json, decodes⟩
    rw [found, sent]
    exact ⟨.endTraining id update, if_pos post, rfl⟩

/-- No request asks two things. -/
theorem asks_iff {call : Call} (made : r.call limit = .ok call) {fresh : ParticipantId}
    {request : FederatedRounds.Request} :
    r.Asks limit fresh request ↔ request = call.request fresh := by
  constructor
  · intro asks
    obtain ⟨other, found, rfl⟩ := asks.call
    rw [Except.ok.inj (found.symm.trans made)]
  · rintro rfl
    exact asks_of_call made fresh

end Request

namespace Response
variable {fresh : ParticipantId} {response : Response} {reply : Answer}

/-- The JSON of a reply that is no error. A participant that is accepted gets the id that was made up
for it. -/
inductive Replies (fresh : ParticipantId) : Answer → Json → Prop where
  | accepted : Replies fresh (.rendezvous .accept) (Admission.toJson ⟨.accept, some fresh⟩)
  | later : Replies fresh (.rendezvous .later) (Admission.toJson ⟨.later, none⟩)
  | heartbeat (beat : Heartbeat) : Replies fresh (.heartbeat (.ok beat)) beat.toJson
  | startTraining (task : TrainingTask) : Replies fresh (.startTraining (.ok task)) task.toJson
  | endTraining : Replies fresh (.endTraining (.ok ())) (Acknowledgement.toJson ⟨⟩)

/-- The status for an error of the coordinator, or for none. Each stands for one kind of error. -/
inductive Status : Option CoordinatorError → Nat → Prop where
  | done : Status none 200
  | unknown (id : ParticipantId) : Status (some (.unknownParticipant id)) 403
  | invalid (reason : Refusal) : Status (some (.invalidRequest reason)) 412
  | duplicated (id : ParticipantId) : Status (some (.duplicatedUpdate id)) 409
  | aggregation (cause : AggregationError) : Status (some (.aggregation cause)) 500

theorem Status.ne_unavailable {error : Option CoordinatorError} {status : Nat}
    (stands : Status error status) : status ≠ 503 := by
  cases stands <;> decide

/-- A response that tells how a call went. -/
structure Tells (response : Response) (fresh : ParticipantId) (reply : Answer) : Prop where
  json : response.contentType = some "application/json"
  status : Status reply.error? response.status
  success : reply.error? = none → ∃ value, Replies fresh reply value ∧ response.body = value.render
  failure : ∀ error, reply.error? = some error →
    Json.decode? Complaint.ofJson? response.body = some ⟨error.message⟩

theorem decode?_ofJson {τ : Type} {read? : Json → Option τ} {value : Json} {made : τ} (status : Nat)
    (read : read? value = some made) : Json.decode? read? (ofJson status value).body = some made :=
  Json.decode?_render read

theorem decode?_ofError (error : RequestError) :
    Json.decode? Complaint.ofJson? (ofError error).body = some ⟨error.message⟩ :=
  decode?_ofJson (errorStatus error) (Complaint.ofJson?_toJson _)

theorem tells_of_error {error : CoordinatorError} (failed : reply.error? = some error) :
    (ofError (.coordinator error)).Tells fresh reply where
  json := rfl
  status := by
    rw [failed]
    cases error with
    | unknownParticipant id => exact .unknown id
    | invalidRequest reason => exact .invalid reason
    | duplicatedUpdate id => exact .duplicated id
    | aggregation cause => exact .aggregation cause
  success none := by
    rw [failed] at none
    cases none
  failure other found := by
    obtain rfl : error = other := Option.some.inj (failed.symm.trans found)
    exact decode?_ofError _

theorem tells_of_ok {value : Json} (fine : reply.error? = none)
    (replies : Replies fresh reply value) : (ofJson 200 value).Tells fresh reply where
  json := rfl
  status := by
    rw [fine]
    exact .done
  success _ := ⟨value, replies, rfl⟩
  failure error failed := by
    rw [fine] at failed
    cases failed

end Response

section Service
variable {σ α : Type}

/-- Whatever a call asks of the coordinator, the response tells how it went. -/
theorem ofAnswer_tells (rules : Rules σ α) (now : Instant) (fresh : ParticipantId) (call : Call)
    (c : Coordinator σ α) :
    (Response.ofAnswer fresh (some (c.handle rules now (call.request fresh)).reply)).Tells fresh
      (c.handle rules now (call.request fresh)).reply := by
  cases call with
  | rendezvous =>
    change (Response.ofAnswer fresh (some (.rendezvous (c.rendezvous rules now fresh).reply))).Tells
      fresh (.rendezvous (c.rendezvous rules now fresh).reply)
    cases (c.rendezvous rules now fresh).reply with
    | accept => exact Response.tells_of_ok rfl .accepted
    | later => exact Response.tells_of_ok rfl .later
  | heartbeat id =>
    change (Response.ofAnswer fresh (some (.heartbeat (c.heartbeat now id).reply))).Tells fresh
      (.heartbeat (c.heartbeat now id).reply)
    cases (c.heartbeat now id).reply with
    | error error => exact Response.tells_of_error rfl
    | ok beat => exact Response.tells_of_ok rfl (.heartbeat beat)
  | startTraining id =>
    change (Response.ofAnswer fresh (some (.startTraining (c.startTraining rules id).reply))).Tells
      fresh (.startTraining (c.startTraining rules id).reply)
    cases (c.startTraining rules id).reply with
    | error error => exact Response.tells_of_error rfl
    | ok task => exact Response.tells_of_ok rfl (.startTraining task)
  | endTraining id update =>
    change (Response.ofAnswer fresh
      (some (.endTraining (c.endTraining rules id update).reply))).Tells fresh
        (.endTraining (c.endTraining rules id update).reply)
    cases (c.endTraining rules id update).reply with
    | error error => exact Response.tells_of_error rfl
    | ok => exact Response.tells_of_ok rfl .endTraining

theorem handle_rendezvous (rules : Rules σ α) (now : Instant) (fresh : ParticipantId)
    (c : Coordinator σ α) : c.handle rules now (.rendezvous fresh) =
      (c.rendezvous rules now fresh).map .rendezvous := rfl

theorem next_map {ρ τ : Type} (f : ρ → τ) (o : Outcome σ α ρ) : (o.map f).next = o.next := rfl

theorem coordinator_request (rules : Rules σ α) {s : Service σ α} (running : s.running = true)
    (request : FederatedRounds.Request) : (s.request rules request).2.coordinator =
      { (s.coordinator.handle rules s.now request).next with events := [] } := by
  rw [Service.request_running rules running]

theorem registry_request (rules : Rules σ α) {s : Service σ α} (running : s.running = true)
    (request : FederatedRounds.Request) : (s.request rules request).2.coordinator.registry =
      (s.coordinator.handle rules s.now request).next.registry := by
  rw [Service.request_running rules running]

theorem registered_of_accept (rules : Rules σ α) {now : Instant} {id : ParticipantId}
    {c : Coordinator σ α} (accepted : (c.rendezvous rules now id).reply = .accept) :
    (c.rendezvous rules now id).next.registry.contains id = true := by
  have dates : (c.rendezvous rules now id).Dates now c
      (if (c.rendezvous rules now id).reply = .accept then some id else none) none :=
    c.rendezvous_dates id
  rw [accepted] at dates
  exact Registry.contains_iff_expires.mpr ⟨_, (dates id).trans (if_pos rfl)⟩

theorem Rejection.status_bounds (rejection : Rejection) :
    400 ≤ (Response.ofRejection rejection).status ∧
      (Response.ofRejection rejection).status < 500 := by
  cases rejection <;> decide

theorem serve_rejected (rules : Rules σ α) {limit : Nat} (fresh : ParticipantId) {r : Request}
    {rejection : Rejection} (rejected : r.call limit = .error rejection) (s : Service σ α) :
    serve rules limit fresh r s = (.ofRejection rejection, s) := by
  unfold serve
  rw [rejected]

theorem request_stopped (rules : Rules σ α) {s : Service σ α} (stopped : s.running = false)
    (request : FederatedRounds.Request) : s.request rules request = (none, s) :=
  if_neg (by simp [stopped])

theorem serve_stopped (rules : Rules σ α) {limit : Nat} (fresh : ParticipantId) {r : Request}
    {call : Call} (made : r.call limit = .ok call) {s : Service σ α} (stopped : s.running = false) :
    serve rules limit fresh r s = (.ofError .shutDown, s) := by
  unfold serve
  rw [made]
  dsimp only
  rw [request_stopped rules stopped]
  rfl

theorem serve_running (rules : Rules σ α) {limit : Nat} (fresh : ParticipantId) {r : Request}
    {call : Call} (made : r.call limit = .ok call) {s : Service σ α} (running : s.running = true) :
    serve rules limit fresh r s =
      (.ofAnswer fresh (some (s.coordinator.handle rules s.now (call.request fresh)).reply),
        (s.request rules (call.request fresh)).2) := by
  unfold serve
  rw [made]
  dsimp only
  rw [Service.request_running rules running]

/-- A participant gets an id exactly if it is accepted, and is registered under it then. -/
theorem admission_of_rendezvous (rules : Rules σ α) {limit : Nat} {fresh : ParticipantId}
    {r : Request} {call : Call} (made : r.call limit = .ok call)
    (asked : call.request fresh = .rendezvous fresh) {s : Service σ α}
    (running : s.running = true) :
    let served := serve rules limit fresh r s
    ∃ admission, Json.decode? Admission.ofJson? served.1.body = some admission ∧
      (admission.id.isSome = true ↔ admission.reply = .accept) ∧
      ∀ id, admission.id = some id → served.2.coordinator.registry.contains id = true := by
  intro served
  have handled : served = _ := serve_running rules fresh made running
  have told : (s.coordinator.handle rules s.now (.rendezvous fresh)).reply =
      .rendezvous (s.coordinator.rendezvous rules s.now fresh).reply := rfl
  rw [handled, asked, told]
  dsimp only
  rw [registry_request rules running, handle_rendezvous, next_map]
  cases replied : (s.coordinator.rendezvous rules s.now fresh).reply with
  | accept =>
    refine ⟨⟨.accept, some fresh⟩, Response.decode?_ofJson 200 (Admission.ofJson?_toJson _),
      by simp, ?_⟩
    rintro id ⟨⟩
    exact registered_of_accept rules replied
  | later =>
    exact ⟨⟨.later, none⟩, Response.decode?_ofJson 200 (Admission.ofJson?_toJson _), by simp, nofun⟩

/-- The service gets what the request asks of the coordinator, and the response tells what came of
it. -/
theorem served_or_rejected (rules : Rules σ α) (limit : Nat) (fresh : ParticipantId) (r : Request)
    (s : Service σ α) :
    let served := serve rules limit fresh r s
    (∃ request, (∀ asked, r.Asks limit fresh asked ↔ asked = request) ∧
        served.2 = (s.request rules request).2 ∧
        (served.1.status = 503 ↔ s.running = false) ∧
        (s.running = true →
          let outcome := s.coordinator.handle rules s.now request
          served.2.coordinator = { outcome.next with events := [] } ∧
            served.1.Tells fresh outcome.reply) ∧
        (s.running = false → served.2 = s ∧
          Json.decode? Complaint.ofJson? served.1.body = some ⟨RequestError.shutDown.message⟩) ∧
        (request = .rendezvous fresh → s.running = true →
          ∃ admission, Json.decode? Admission.ofJson? served.1.body = some admission ∧
            (admission.id.isSome = true ↔ admission.reply = .accept) ∧
            ∀ id, admission.id = some id →
              served.2.coordinator.registry.contains id = true)) ∨
      (∀ request, ¬r.Asks limit fresh request) ∧ 400 ≤ served.1.status ∧ served.1.status < 500 ∧
        served.2 = s := by
  intro served
  cases made : r.call limit with
  | error rejection =>
    have rejected : served = _ := serve_rejected rules fresh made s
    rw [rejected]
    refine Or.inr ⟨?_, rejection.status_bounds.1, rejection.status_bounds.2, rfl⟩
    intro request asks
    obtain ⟨call, found, _⟩ := asks.call
    rw [made] at found
    cases found
  | ok call =>
    refine Or.inl ⟨call.request fresh, fun asked => Request.asks_iff made, ?_⟩
    cases running : s.running with
    | false =>
      have stopped : served = _ := serve_stopped rules fresh made running
      rw [stopped, request_stopped rules running]
      exact ⟨rfl, ⟨fun _ => rfl, fun _ => rfl⟩, nofun,
        fun _ => ⟨rfl, Response.decode?_ofError .shutDown⟩, nofun⟩
    | true =>
      have handled : served = _ := serve_running rules fresh made running
      have tells := ofAnswer_tells rules s.now fresh call s.coordinator
      refine ⟨by rw [handled], ?_, fun _ => ⟨?_, ?_⟩, nofun, ?_⟩
      · rw [handled]
        exact iff_of_false tells.status.ne_unavailable (by simp)
      · rw [handled]
        exact coordinator_request rules running (call.request fresh)
      · rw [handled]
        exact tells
      · exact fun asked _ => admission_of_rendezvous rules made asked running

/-- The limit is on the declared length, and six characters are as many. -/
example : (Request.call 6 ⟨"POST", "/end_training_round/ann",
    [("Content-Length", "6"), ("Content-Type", "Application/JSON; q=1")], "[[],1]"⟩).isOk =
      true := by
  decide +kernel

end Service
end FederatedRounds.Http
