import FederatedRounds.Proofs.Json.RoundTrip
import FederatedRounds.Proofs.Table
import FederatedRounds.Proofs.Tensor
import FederatedRounds.Wire.Message
import Mathlib.Algebra.BigOperators.Group.List.Lemmas
import Mathlib.Algebra.BigOperators.Ring.List

/-! Requests and replies are read back from the text in which they are sent. Of the text of a number
it is only taken that a finite single reads back from it; the shape of a tensor may be any that its
elements bear out, and metrics may be written in any order. -/
namespace FederatedRounds

namespace Json

/-- Reads a message from its text. -/
def decode? {τ : Type} (read? : Json → Option τ) (text : String) : Option τ :=
  (parse? text).bind read?

theorem decode?_render {τ : Type} {read? : Json → Option τ} {value : Json} {made : τ}
    (read : read? value = some made) : decode? read? value.render = some made := by
  rw [decode?, parse?_render]
  exact read

theorem mapM_eq_some_iff {α β : Type} {read? : α → Option β} {values : List α} {items : List β} :
    values.mapM read? = some items ↔ values.map read? = items.map some := by
  induction values generalizing items with
  | nil => cases items <;> simp
  | cons value rest ih =>
    rw [List.mapM_cons, List.map_cons]
    cases items with
    | nil => cases read? value <;> simp [Option.bind_eq_some_iff]
    | cons item others =>
      simp only [Option.bind_eq_bind, Option.bind_eq_some_iff, Option.pure_def, Option.some.injEq,
        List.cons.injEq, List.map_cons, ← ih]
      constructor
      · rintro ⟨_, first, _, later, rfl, rfl⟩
        exact ⟨first, later⟩
      · rintro ⟨first, later⟩
        exact ⟨item, first, others, later, rfl, rfl⟩

theorem mapM_map {α β : Type} {write : α → β} {read? : β → Option α} {values : List α}
    (reads : ∀ value ∈ values, read? (write value) = some value) :
    (values.map write).mapM read? = some values := by
  rw [mapM_eq_some_iff, List.map_map]
  exact List.map_congr_left reads

theorem nat?_nat {bits n : Nat} (bound : n < Nat.pow 2 bits) : (nat n).nat? bits = some n := by
  change (some n).filter (fun n => n < Nat.pow 2 bits) = some n
  simp only [Option.filter_some, decide_eq_true_eq, bound, if_true]

theorem members?_record (members : List (String × Json)) :
    (record members).members? = some members := mapM_map fun _ _ => rfl

/-- What an object says under the names of a structure is what was written under them. -/
theorem entry_record {members : List (String × Json)} (distinct : (members.map (·.1)).Nodup)
    (name : String) :
    entry name (members.map fun member => (some member.1, member.2)) =
      match Table.get? name members with
      | some value => .once value
      | none => .absent := by
  induction members with
  | nil => rfl
  | cons member rest ih =>
    obtain ⟨key, value⟩ := member
    obtain ⟨absent, distinct⟩ := List.nodup_cons.mp distinct
    have others := ih distinct
    unfold entry at others ⊢
    rw [List.map_cons, List.filter_cons]
    by_cases same : key = name
    · subst same
      have none : (rest.map fun member => (some member.1, member.2)).filter
          (fun member : Member => member.1 = some key) = [] := by
        rw [List.filter_eq_nil_iff]
        intro other inside found
        obtain ⟨entry, member, rfl⟩ := List.mem_map.mp inside
        have name : entry.1 = key := Option.some.inj (of_decide_eq_true found)
        exact absent (List.mem_map.mpr ⟨entry, member, name⟩)
      rw [if_pos (decide_eq_true rfl), none]
      simp [Table.get?]
    · rw [if_neg (by simpa using same), others]
      simp [Table.get?, same]

theorem fields?_record {members : List (String × Json)} (distinct : (members.map (·.1)).Nodup)
    (names : List String) (least : Nat) :
    (record members).fields? names least = some fun name => Table.get? name members := by
  have named : named (members.map fun member => ((some member.1, member.2) : Member)) = true := by
    simp [Json.named]
  have once : names.all (standsOnce ·
      (members.map fun member => ((some member.1, member.2) : Member))) = true := by
    rw [List.all_eq_true]
    intro name _
    unfold standsOnce
    rw [entry_record distinct]
    cases Table.get? name members <;> rfl
  change (if _ && _ then _ else _) = _
  rw [if_pos (Bool.and_eq_true_iff.mpr ⟨named, once⟩)]
  congr 1
  funext name
  rw [entry_record distinct]
  cases Table.get? name members <;> rfl

end Json

namespace Tensor

/-- The extents of a well-formed tensor fit a word, those of an empty one too. -/
theorem WellFormed.extent_lt {α : Type} {t : Tensor α} (wellFormed : t.WellFormed) {extent : Nat}
    (member : extent ∈ t.shape) : extent < Nat.pow 2 64 := by
  have word : UInt64.size = Nat.pow 2 64 := rfl
  by_cases zero : extent = 0
  · rw [zero]
    exact Nat.two_pow_pos 64
  · have bound := wellFormed.2
    have inside : extent ∈ t.shape.filter (· ≠ 0) :=
      List.mem_filter.mpr ⟨member, decide_eq_true zero⟩
    have positive : 0 < (t.shape.filter (· ≠ 0)).prod := by
      refine Nat.pos_of_ne_zero fun none => ?_
      have zero := List.prod_eq_zero_iff.mp none
      exact of_decide_eq_true (List.mem_filter.mp zero).2 rfl
    have le := Nat.le_of_dvd positive (List.dvd_prod inside)
    rw [size_eq_prod, word] at bound
    omega

/-- A tensor as it can be sent: well formed, of finite elements, each of which reads back from the
text of its number. -/
structure Sendable (t : Tensor Single) : Prop where
  wellFormed : t.WellFormed
  finite : ∀ x ∈ t.elements, x.isFinite = true
  legible : ∀ x ∈ t.elements, x.isFinite = true → Single.ofJson? x.toJson = some x

instance (t : Tensor Single) : Decidable t.Sendable :=
  decidable_of_iff (t.WellFormed ∧ (∀ x ∈ t.elements, x.isFinite = true) ∧
      ∀ x ∈ t.elements, x.isFinite = true → Single.ofJson? x.toJson = some x)
    ⟨fun ⟨wellFormed, finite, legible⟩ => ⟨wellFormed, finite, legible⟩,
      fun sendable => ⟨sendable.wellFormed, sendable.finite, sendable.legible⟩⟩

/-- What is read of the object that is written for a tensor. -/
theorem ofJson?_toJson_eq (t : Tensor Single) : ofJson? (toJson t) =
    (shape? (.array (t.shape.map .nat))).bind fun shape =>
      (elements? (.array (t.elements.map Single.toJson))).bind (checked? shape) := by
  have members : (toJson t).members? = some [("v", .nat 1), ("dim", .array (t.shape.map .nat)),
      ("data", .array (t.elements.map Single.toJson))] := Json.members?_record _
  have object : ofJson? (toJson t) = (toJson t).members?.bind ofMembers? := rfl
  have version : version? (.nat 1) = some 1 := rfl
  rw [object, members, Option.bind_some, ofMembers?]
  simp [last?, version, Option.bind_assoc]

theorem ofJson?_toJson {t : Tensor Single} (sendable : t.Sendable) :
    ofJson? (toJson t) = some t := by
  have shape : shape? (.array (t.shape.map .nat)) = some t.shape :=
    Json.mapM_map fun _ member => Json.nat?_nat (sendable.wellFormed.extent_lt member)
  have elements : elements? (.array (t.elements.map Single.toJson)) = some t.elements :=
    Json.mapM_map fun x member => sendable.legible x member (sendable.finite x member)
  rw [ofJson?_toJson_eq, shape, elements]
  exact if_pos sendable.wellFormed

end Tensor

theorem Weights.ofJson?_toJson {weights : Weights} (sendable : ∀ t ∈ weights, t.Sendable) :
    ofJson? (toJson weights) = some weights :=
  Json.mapM_map fun t member => Tensor.ofJson?_toJson (sendable t member)

theorem Metrics.ofJson?_toJson {metrics : Metrics} (distinct : (metrics.map (·.1)).Nodup)
    (sendable : ∀ entry ∈ metrics, ∀ t ∈ entry.2, t.Sendable) :
    ofJson? (toJson metrics) = some metrics := by
  have entries : (metrics.map fun entry => (entry.1, Weights.toJson entry.2)).mapM
      (fun member => (Weights.ofJson? member.2).map fun epochs => (member.1, epochs)) =
        some metrics := by
    refine Json.mapM_map ?_
    intro entry member
    rw [Weights.ofJson?_toJson (sendable entry member)]
    rfl
  unfold ofJson? toJson
  rw [Json.members?_record]
  apply (congrArg (Option.bind · fun entries => some (Table.ofEntries entries)) entries).trans
  exact congrArg some (Table.ofEntries_of_nodup distinct)

theorem ParticipantId.ofJson?_toJson (id : ParticipantId) : ofJson? (toJson id) = some id := rfl

theorem Phase.ofJson?_toJson (phase : Phase) : ofJson? (toJson phase) = some phase := by
  cases phase <;> rfl

theorem Rendezvous.ofJson?_toJson (reply : Rendezvous) : ofJson? (toJson reply) = some reply := by
  cases reply <;> rfl

theorem Heartbeat.ofJson?_toJson (h : Heartbeat) : ofJson? (toJson h) = some h := by
  unfold ofJson? toJson
  rw [Json.fields?_record (by simp)]
  have round : (Json.nat h.round.toNat).nat? 32 = some h.round.toNat :=
    Json.nat?_nat h.round.toNat_lt
  simp [Table.get?, Phase.ofJson?_toJson, round]

theorem Complaint.ofJson?_toJson (c : Complaint) : ofJson? (toJson c) = some c := by
  unfold ofJson? toJson
  rw [Json.fields?_record (by simp)]
  rfl

theorem Acknowledgement.ofJson?_toJson (a : Acknowledgement) : ofJson? (toJson a) = some a := rfl

theorem Admission.ofJson?_toJson (a : Admission) : ofJson? (toJson a) = some a := by
  obtain ⟨reply, id⟩ := a
  unfold ofJson? toJson
  cases id with
  | none =>
    rw [Json.fields?_record (by simp)]
    simp [Table.get?, Rendezvous.ofJson?_toJson]
  | some id =>
    rw [Json.fields?_record (by simp)]
    simp [Table.get?, Rendezvous.ofJson?_toJson, ParticipantId.toJson, Json.str]
    rfl

theorem TrainingTask.ofJson?_toJson {task : TrainingTask}
    (sendable : ∀ t ∈ task.weights, t.Sendable) : ofJson? (toJson task) = some task := by
  unfold ofJson? toJson
  rw [Json.fields?_record (by simp)]
  have epochs : (Json.nat task.epochs.toNat).nat? 32 = some task.epochs.toNat :=
    Json.nat?_nat task.epochs.toNat_lt
  have epochBase : (Json.nat task.epochBase.toNat).nat? 32 = some task.epochBase.toNat :=
    Json.nat?_nat task.epochBase.toNat_lt
  simp [Table.get?, Weights.ofJson?_toJson sendable, epochs, epochBase]

theorem Update.ofJson?_toJson {update : Update} (weights : ∀ t ∈ update.weights, t.Sendable)
    (metrics : ∀ entry ∈ update.metrics, ∀ t ∈ entry.2, t.Sendable)
    (distinct : (update.metrics.map (·.1)).Nodup) : ofJson? (toJson update) = some update := by
  -- The fields are looked up first: beside the open lookups the names would be compared bit by bit.
  obtain ⟨field, fields, first, second, third⟩ : ∃ field,
      (toJson update).fields? ["weights", "aggregation_weight", "metrics"] 2 = some field ∧
        field "weights" = some (Weights.toJson update.weights) ∧
        field "aggregation_weight" = some (.nat update.weight.toNat) ∧
        field "metrics" = some (Metrics.toJson update.metrics) :=
    ⟨_, Json.fields?_record (by simp) _ _, by simp [Table.get?], by simp [Table.get?],
      by simp [Table.get?]⟩
  have weight : (Json.nat update.weight.toNat).nat? 64 = some update.weight.toNat :=
    Json.nat?_nat update.weight.toNat_lt
  unfold ofJson?
  rw [fields]
  simp [first, second, third, Weights.ofJson?_toJson weights, weight,
    Metrics.ofJson?_toJson distinct metrics]

/-- Whatever is sent reads back from its text as it was. The metrics of an update read back in the
order in which they were written, and are the same in every order. -/
theorem messages_read_back :
    (∀ (update : Update) (written : Metrics), (∀ t ∈ update.weights, t.Sendable) →
      (∀ entry ∈ update.metrics, ∀ t ∈ entry.2, t.Sendable) →
      (update.metrics.map (·.1)).Nodup → written.Perm update.metrics →
      Json.decode? Update.ofJson? (Update.toJson { update with metrics := written }).render =
          some { update with metrics := written } ∧
        ∀ name, Table.get? name written = Table.get? name update.metrics) ∧
    (∀ task : TrainingTask, (∀ t ∈ task.weights, t.Sendable) →
      Json.decode? TrainingTask.ofJson? task.toJson.render = some task) ∧
    (∀ weights : Weights, (∀ t ∈ weights, t.Sendable) →
      Json.decode? Weights.ofJson? weights.toJson.render = some weights) ∧
    (∀ reply : Heartbeat, Json.decode? Heartbeat.ofJson? reply.toJson.render = some reply) ∧
    (∀ reply : Acknowledgement,
      Json.decode? Acknowledgement.ofJson? reply.toJson.render = some reply) ∧
    (∀ reply : Admission, Json.decode? Admission.ofJson? reply.toJson.render = some reply) ∧
    (∀ reply : Complaint, Json.decode? Complaint.ofJson? reply.toJson.render = some reply) ∧
    ∀ id : ParticipantId, Json.decode? ParticipantId.ofJson? id.toJson.render = some id := by
  refine ⟨?_, ?_, ?_, ?_, ?_, ?_, ?_, ?_⟩
  · intro update written weights metrics distinct permuted
    refine ⟨?_, Table.get?_of_perm permuted distinct⟩
    have sendable : ∀ entry ∈ written, ∀ t ∈ entry.2, t.Sendable := fun entry member =>
      metrics entry (permuted.subset member)
    have once : (written.map (·.1)).Nodup := (permuted.map _).nodup_iff.mpr distinct
    have read : Update.ofJson? (Update.toJson { update with metrics := written }) =
        some { update with metrics := written } := Update.ofJson?_toJson weights sendable once
    exact Json.decode?_render read
  · intro task sendable
    exact Json.decode?_render (task.ofJson?_toJson sendable)
  · intro weights sendable
    exact Json.decode?_render (weights.ofJson?_toJson sendable)
  · exact fun reply => Json.decode?_render reply.ofJson?_toJson
  · exact fun reply => Json.decode?_render reply.ofJson?_toJson
  · exact fun reply => Json.decode?_render reply.ofJson?_toJson
  · exact fun reply => Json.decode?_render reply.ofJson?_toJson
  · exact fun id => Json.decode?_render id.ofJson?_toJson

namespace Trial

/-- A layer without extents, one without elements, and metrics under names that need escapes. -/
def sent : Update :=
  ⟨[⟨[], [.one]⟩, ⟨[2, 0], []⟩], 3, [("loss", [⟨[1], [.zero]⟩]), ("\"π\"\n", [])]⟩

end Trial

theorem odd_update_reads_back :
    (∀ t ∈ Trial.sent.weights, t.Sendable) ∧
      (∀ entry ∈ Trial.sent.metrics, ∀ t ∈ entry.2, t.Sendable) ∧
      (Trial.sent.metrics.map (·.1)).Nodup ∧
      Json.decode? Update.ofJson?
          (Update.toJson { Trial.sent with metrics := Trial.sent.metrics.reverse }).render =
        some { Trial.sent with metrics := Trial.sent.metrics.reverse } := by
  have weights : ∀ t ∈ Trial.sent.weights, t.Sendable := by decide +kernel
  have metrics : ∀ entry ∈ Trial.sent.metrics, ∀ t ∈ entry.2, t.Sendable := by decide +kernel
  have distinct : (Trial.sent.metrics.map (·.1)).Nodup := by decide +kernel
  have read := messages_read_back.1 Trial.sent _ weights metrics distinct (List.reverse_perm _)
  exact ⟨weights, metrics, distinct, read.1⟩

end FederatedRounds
