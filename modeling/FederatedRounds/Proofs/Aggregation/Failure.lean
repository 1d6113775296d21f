import FederatedRounds.Proofs.Aggregation.Shapes
import Mathlib.Tactic.Ring

/-! When updates cannot be combined, and what is said about it. They are compared with the first of
them one after the other; the first that differs is reported, by its number of layers if that is
wrong, else by its first layer of another shape. An average also needs a weight that counts. -/
namespace FederatedRounds

namespace Aggregation
variable {α : Type}

/-- All updates have the same number of layers, and these have the same shapes. -/
def Agree (updates : List (Layers α × UInt64)) : Prop :=
  ∀ one ∈ updates, ∀ other ∈ updates, one.1.shapes = other.1.shapes

/-- How layers differ from the expected ones: in their number, or else in the shape of a layer when
all layers before it have the expected shapes. -/
inductive Differs (expected actual : Layers α) : AggregationError → Prop
  | count (apart : expected.length ≠ actual.length) :
      Differs expected actual (.layerCountMismatch expected.length actual.length)
  | shape (layer : Nat) (one other : List Nat) (count : expected.length = actual.length)
      (before : expected.shapes.take layer = actual.shapes.take layer)
      (here : expected.shapes[layer]? = some one) (there : actual.shapes[layer]? = some other)
      (apart : one ≠ other) :
      Differs expected actual (.shapeMismatch layer one other)

/-- Why updates are not compared layer by layer to the end: there are none, or one of them is the
first that differs from the first of all. -/
inductive Refused (updates : List (Layers α × UInt64)) : AggregationError → Prop
  | empty (none : updates = []) : Refused updates .noUpdates
  | differing (first update : Layers α × UInt64) (alike later : List (Layers α × UInt64))
      (split : updates = first :: (alike ++ update :: later))
      (same : ∀ other ∈ alike, other.1.shapes = first.1.shapes) (error : AggregationError)
      (differs : Differs first.1 update.1 error) : Refused updates error

theorem shapeMismatch?_eq_some_iff {start : Nat} {expected actual : Layers α}
    {error : AggregationError} :
    shapeMismatch? start expected actual = some error ↔
      ∃ layer one other, expected.shapes.take layer = actual.shapes.take layer ∧
        expected.shapes[layer]? = some one ∧ actual.shapes[layer]? = some other ∧ one ≠ other ∧
        error = .shapeMismatch (start + layer) one other := by
  induction expected generalizing start actual with
  | nil => simp [shapeMismatch?, Layers.shapes]
  | cons first rest ih =>
    cases actual with
    | nil => simp [shapeMismatch?, Layers.shapes]
    | cons other others =>
      have left : Layers.shapes (first :: rest) = first.shape :: Layers.shapes rest := rfl
      have right : Layers.shapes (other :: others) = other.shape :: Layers.shapes others := rfl
      rw [shapeMismatch?, left, right]
      by_cases same : first.shape = other.shape
      · rw [if_pos same, ih]
        constructor
        · rintro ⟨layer, one, another, before, here, there, apart, rfl⟩
          refine ⟨layer + 1, one, another, ?_, here, there, apart, ?_⟩
          · rw [List.take_succ_cons, List.take_succ_cons, before, same]
          · rw [Nat.add_right_comm, Nat.add_assoc]
        · rintro ⟨layer, one, another, before, here, there, apart, rfl⟩
          cases layer with
          | zero => exact absurd (Option.some.inj (here.symm.trans (same ▸ there))) apart
          | succ layer =>
            rw [List.take_succ_cons, List.take_succ_cons] at before
            refine ⟨layer, one, another, (List.cons.inj before).2, here, there, apart, ?_⟩
            rw [Nat.add_right_comm, Nat.add_assoc]
      · rw [if_neg same]
        constructor
        · intro reported
          exact ⟨0, _, _, rfl, rfl, rfl, same, (Option.some.inj reported).symm⟩
        · rintro ⟨layer, one, another, before, here, there, apart, rfl⟩
          cases layer with
          | zero =>
            cases here
            cases there
            rfl
          | succ layer =>
            rw [List.take_succ_cons, List.take_succ_cons] at before
            exact absurd (List.cons.inj before).1 same

theorem mismatch?_eq_some_iff {expected actual : Layers α} {error : AggregationError} :
    mismatch? expected actual = some error ↔ Differs expected actual error := by
  unfold mismatch?
  by_cases count : expected.length = actual.length
  · rw [if_pos count, shapeMismatch?_eq_some_iff]
    constructor
    · rintro ⟨layer, one, other, before, here, there, apart, rfl⟩
      rw [Nat.zero_add]
      exact .shape layer one other count before here there apart
    · intro differs
      cases differs with
      | count apart => exact absurd count apart
      | shape layer one other _ before here there apart =>
        exact ⟨layer, one, other, before, here, there, apart, by rw [Nat.zero_add]⟩
  · rw [if_neg count]
    constructor
    · intro reported
      cases reported
      exact .count count
    · intro differs
      cases differs with
      | count => rfl
      | shape _ _ _ same => exact absurd same count

theorem agreedLayers_eq_error_iff {updates : List (Layers α × UInt64)} {error : AggregationError} :
    agreedLayers updates = .error error ↔ Refused updates error := by
  cases updates with
  | nil =>
    constructor
    · intro failed
      cases failed
      exact .empty rfl
    · intro refused
      cases refused with
      | empty => rfl
      | differing first update alike later split => cases split
  | cons first rest =>
    have searched : agreedLayers (first :: rest) = .error error ↔
        rest.findSome? (fun payload => mismatch? first.1 payload.1) = some error := by
      unfold agreedLayers
      cases found : rest.findSome? fun payload => mismatch? first.1 payload.1 <;> simp [found]
    rw [searched, List.findSome?_eq_some_iff]
    constructor
    · rintro ⟨alike, update, later, rfl, differs, same⟩
      refine .differing first update alike later rfl ?_ error (mismatch?_eq_some_iff.mp differs)
      intro other member
      exact mismatch?_eq_none_iff.mp (same other member)
    · intro refused
      cases refused with
      | empty none => cases none
      | differing _ update alike later split same _ differs =>
        obtain ⟨rfl, rfl⟩ := List.cons.inj split
        refine ⟨alike, update, later, rfl, mismatch?_eq_some_iff.mpr differs, ?_⟩
        intro other member
        exact mismatch?_eq_none_iff.mpr (same other member)

theorem exists_agreedLayers_iff {updates : List (Layers α × UInt64)} :
    (∃ expected, agreedLayers updates = .ok expected) ↔ updates ≠ [] ∧ Agree updates := by
  simp only [agreedLayers_eq_ok_iff]
  constructor
  · rintro ⟨expected, head, alike⟩
    refine ⟨?_, ?_⟩
    · rintro rfl
      cases head
    · intro one first other second
      rw [alike one first, alike other second]
  · rintro ⟨some, agree⟩
    obtain ⟨first, rest, rfl⟩ := List.exists_cons_of_ne_nil some
    exact ⟨first.1, rfl, fun payload member => agree payload member first List.mem_cons_self⟩

theorem Agree.perm {updates other : List (Layers α × UInt64)} (permuted : other.Perm updates) :
    Agree other ↔ Agree updates := by
  unfold Agree
  simp only [permuted.mem_iff]

/-! The total weight. -/

theorem totalWeight_cons (payload : Layers α × UInt64) (rest : List (Layers α × UInt64)) :
    totalWeight (payload :: rest) = payload.2.toNat + totalWeight rest := by
  have folded (start : Nat) : rest.foldl (fun total payload => total + payload.2.toNat) start =
      start + rest.foldl (fun total payload => total + payload.2.toNat) 0 := by
    induction rest generalizing start with
    | nil => rfl
    | cons first others ih =>
      rw [List.foldl_cons, List.foldl_cons, ih (start + _), ih (0 + _)]
      ring
  unfold totalWeight
  rw [List.foldl_cons, folded]
  ring

theorem totalWeight_eq_zero_iff {updates : List (Layers α × UInt64)} :
    totalWeight updates = 0 ↔ ∀ payload ∈ updates, payload.2 = 0 := by
  induction updates with
  | nil => exact iff_of_true rfl nofun
  | cons payload rest ih =>
    rw [totalWeight_cons, Nat.add_eq_zero_iff, ih, List.forall_mem_cons, ← UInt64.toNat_inj]
    rfl

theorem totalWeight_le (updates : List (Layers α × UInt64)) :
    totalWeight updates ≤ updates.length * (UInt64.size - 1) := by
  induction updates with
  | nil => exact Nat.zero_le _
  | cons payload rest ih =>
    have word : payload.2.toNat ≤ UInt64.size - 1 := Nat.le_sub_one_of_lt payload.2.toNat_lt
    rw [totalWeight_cons, List.length_cons, Nat.succ_mul, Nat.add_comm]
    exact Nat.add_le_add ih word

/-- A sum of weights that is kept to 128 bits is the whole sum. -/
theorem totalWeight_lt {updates : List (Layers α × UInt64)}
    (few : updates.length ≤ UInt64.size) : totalWeight updates < Nat.pow 2 128 :=
  calc totalWeight updates
    _ ≤ updates.length * (UInt64.size - 1) := totalWeight_le updates
    _ ≤ UInt64.size * (UInt64.size - 1) := Nat.mul_le_mul_right _ few
    _ < Nat.pow 2 128 := by decide +kernel

/-! The shapes of what is made. -/

theorem shapes_zipLayers {a b : Layers α} (f : α → α → α) (count : a.length = b.length) :
    (zipLayers f a b).shapes = a.shapes := by
  induction a generalizing b with
  | nil => rfl
  | cons first rest ih =>
    cases b with
    | nil => cases count
    | cons other others => exact congrArg (first.shape :: ·) (ih (Nat.succ.inj count))

theorem length_shapes (layers : Layers α) : layers.shapes.length = layers.length :=
  List.length_map _

theorem shapes_fold (f : UInt64 → α → α → α) {updates : List (Layers α × UInt64)}
    {start : Layers α} (alike : ∀ payload ∈ updates, payload.1.shapes = start.shapes) :
    (updates.foldl (fun sum payload => zipLayers (f payload.2) sum payload.1) start).shapes =
      start.shapes := by
  induction updates generalizing start with
  | nil => rfl
  | cons payload rest ih =>
    obtain ⟨first, others⟩ := List.forall_mem_cons.mp alike
    have count : start.length = payload.1.length := by
      rw [← length_shapes, ← length_shapes, first]
    have next := shapes_zipLayers (f payload.2) count
    rw [List.foldl_cons, ih (fun other member => (others other member).trans next.symm), next]

theorem shapes_zeros (s : Scalars α) (layers : Layers α) :
    (zeros s layers).shapes = layers.shapes := (zeros_fits s layers).shaped

/-! The ways to combine updates, one by one. -/

section Outcomes
variable {s : Scalars α} {updates : List (Layers α × UInt64)}

theorem sum_eq_error_iff {error : AggregationError} :
    sum s updates = .error error ↔ Refused updates error := by
  rw [← agreedLayers_eq_error_iff]
  unfold sum
  cases agreedLayers updates <;> simp

theorem exists_sum_iff : (∃ made, sum s updates = .ok made) ↔ updates ≠ [] ∧ Agree updates := by
  rw [← exists_agreedLayers_iff]
  unfold sum
  cases agreedLayers updates <;> simp

theorem average_eq_error_iff {error : AggregationError} :
    average s updates = .error error ↔ Refused updates error ∨ (updates ≠ [] ∧ Agree updates) ∧
      (∀ payload ∈ updates, payload.2 = 0) ∧ error = .zeroTotalWeight := by
  rw [← agreedLayers_eq_error_iff, ← exists_agreedLayers_iff, ← totalWeight_eq_zero_iff]
  unfold average
  cases agreedLayers updates with
  | error other => simp
  | ok expected =>
    by_cases none : totalWeight updates = 0 <;> simp [none, eq_comm]

theorem exists_average_iff : (∃ made, average s updates = .ok made) ↔
    updates ≠ [] ∧ Agree updates ∧ ∃ payload ∈ updates, payload.2 ≠ 0 := by
  have weighed : (∃ payload ∈ updates, payload.2 ≠ 0) ↔ totalWeight updates ≠ 0 := by
    rw [Ne, totalWeight_eq_zero_iff]
    push Not
    rfl
  rw [weighed, ← and_assoc, ← exists_agreedLayers_iff]
  unfold average
  cases agreedLayers updates with
  | error other => simp
  | ok expected =>
    by_cases none : totalWeight updates = 0 <;> simp [none]

theorem only_eq_ok_iff {made : Layers α} :
    only updates = .ok made ↔ ∃ weight, updates = [(made, weight)] := by
  unfold only
  split
  · simp
  · next alone =>
    refine iff_of_false nofun ?_
    rintro ⟨weight, rfl⟩
    exact alone made weight rfl

theorem only_eq_error_iff {error : AggregationError} :
    only updates = .error error ↔
      updates.length ≠ 1 ∧ error = .unexpectedUpdateCount 1 updates.length := by
  unfold only
  split
  · simp
  · next alone =>
    have count : updates.length ≠ 1 := by
      intro one
      obtain ⟨payload, rfl⟩ := List.length_eq_one_iff.mp one
      exact alone payload.1 payload.2 rfl
    simp [count, eq_comm]

theorem shapes_of_sum {made : Layers α} (combined : sum s updates = .ok made) :
    ∀ payload ∈ updates, payload.1.shapes = made.shapes := by
  unfold sum at combined
  cases agreed : agreedLayers updates with
  | error error =>
    rw [agreed] at combined
    cases combined
  | ok expected =>
    rw [agreed] at combined
    cases combined
    have alike := (agreedLayers_eq_ok_iff.mp agreed).2
    intro payload member
    rw [shapes_fold (fun _ => s.add), shapes_zeros, alike payload member]
    simpa only [shapes_zeros] using alike

theorem shapes_of_average {made : Layers α} (combined : average s updates = .ok made) :
    ∀ payload ∈ updates, payload.1.shapes = made.shapes := by
  unfold average at combined
  cases agreed : agreedLayers updates with
  | error error =>
    rw [agreed] at combined
    cases combined
  | ok expected =>
    rw [agreed] at combined
    dsimp only at combined
    split at combined
    · cases combined
    · cases combined
      have alike := (agreedLayers_eq_ok_iff.mp agreed).2
      intro payload member
      rw [shapes_fold (fun weight acc x =>
        s.add acc (s.mul (s.share weight.toNat (totalWeight updates)) x)), shapes_zeros,
        alike payload member]
      simpa only [shapes_zeros] using alike

theorem shapes_of_only {made : Layers α} (combined : only updates = .ok made) :
    ∀ payload ∈ updates, payload.1.shapes = made.shapes := by
  obtain ⟨weight, rfl⟩ := only_eq_ok_iff.mp combined
  exact List.forall_mem_singleton.mpr rfl

theorem exists_only_iff : (∃ made, only updates = .ok made) ↔ updates.length = 1 := by
  simp only [only_eq_ok_iff]
  constructor
  · rintro ⟨made, weight, rfl⟩
    rfl
  · intro one
    obtain ⟨payload, rfl⟩ := List.length_eq_one_iff.mp one
    exact ⟨payload.1, payload.2, rfl⟩

end Outcomes
end Aggregation

open Aggregation

theorem Strategy.shapes_of_aggregate {strategy : Strategy} {updates : List (Weights × UInt64)}
    {made : Weights} (combined : strategy.aggregate updates = .ok made) :
    ∀ payload ∈ updates, payload.1.shapes = made.shapes := by
  cases strategy with
  | federatedAveraging => exact shapes_of_average combined
  | identity => exact shapes_of_only combined
  | modelSum => exact shapes_of_sum combined

/-- Whether updates can be combined does not depend on their order, although what is made of them
may. -/
theorem Strategy.succeeds_perm (strategy : Strategy) {updates other : List (Weights × UInt64)}
    (permuted : other.Perm updates) : (∃ made, strategy.aggregate other = .ok made) ↔
      ∃ made, strategy.aggregate updates = .ok made := by
  have none : other ≠ [] ↔ updates ≠ [] := by
    rw [← List.length_pos_iff, ← List.length_pos_iff, permuted.length_eq]
  cases strategy with
  | federatedAveraging =>
    refine (exists_average_iff.trans ?_).trans exists_average_iff.symm
    rw [none, Agree.perm permuted]
    simp only [permuted.mem_iff]
  | identity =>
    refine (exists_only_iff.trans ?_).trans exists_only_iff.symm
    rw [permuted.length_eq]
  | modelSum =>
    refine (exists_sum_iff.trans ?_).trans exists_sum_iff.symm
    rw [none, Agree.perm permuted]

/-- When each way to combine updates succeeds, and what it complains of otherwise. -/
theorem aggregation_fails_for_cause (updates : List (Weights × UInt64)) :
    ((∃ made, Strategy.modelSum.aggregate updates = .ok made) ↔
      updates ≠ [] ∧ Agree updates) ∧
    ((∃ made, Strategy.federatedAveraging.aggregate updates = .ok made) ↔
      updates ≠ [] ∧ Agree updates ∧ ∃ payload ∈ updates, payload.2 ≠ 0) ∧
    (updates.length ≤ UInt64.size →
      (totalWeight updates % Nat.pow 2 128 = 0 ↔ ∀ payload ∈ updates, payload.2 = 0)) ∧
    (∀ made, Strategy.identity.aggregate updates = .ok made ↔
      ∃ weight, updates = [(made, weight)]) ∧
    (∀ error, Strategy.modelSum.aggregate updates = .error error ↔ Refused updates error) ∧
    (∀ error, Strategy.federatedAveraging.aggregate updates = .error error ↔
      Refused updates error ∨ (updates ≠ [] ∧ Agree updates) ∧
        (∀ payload ∈ updates, payload.2 = 0) ∧ error = .zeroTotalWeight) ∧
    (∀ error, Strategy.identity.aggregate updates = .error error ↔
      updates.length ≠ 1 ∧ error = .unexpectedUpdateCount 1 updates.length) ∧
    ∀ strategy : Strategy,
      (∀ made, strategy.aggregate updates = .ok made →
        ∀ payload ∈ updates, payload.1.shapes = made.shapes) ∧
      ∀ other, other.Perm updates → ((∃ made, strategy.aggregate other = .ok made) ↔
        ∃ made, strategy.aggregate updates = .ok made) := by
  refine ⟨exists_sum_iff, exists_average_iff, ?_, fun made => only_eq_ok_iff,
    fun error => sum_eq_error_iff, fun error => average_eq_error_iff,
    fun error => only_eq_error_iff, ?_⟩
  · intro few
    rw [Nat.mod_eq_of_lt (totalWeight_lt few), totalWeight_eq_zero_iff]
  · intro strategy
    exact ⟨fun made combined => Strategy.shapes_of_aggregate combined,
      fun other permuted => strategy.succeeds_perm permuted⟩

namespace Trial

def flat (count : Nat) : Tensor Single := .fill .one [count]

/-- The third update has one layer too many, and its first layer has another shape too. -/
def ragged : List (Weights × UInt64) :=
  [([flat 2], 1), ([flat 2], 0), ([flat 3, flat 1], 5), ([flat 4], 1)]

end Trial

/-- The number of layers comes first, of the update that differs first. -/
theorem third_update_reported :
    Strategy.modelSum.aggregate Trial.ragged = .error (.layerCountMismatch 1 2) ∧
      Strategy.federatedAveraging.aggregate Trial.ragged = .error (.layerCountMismatch 1 2) ∧
      Strategy.identity.aggregate Trial.ragged = .error (.unexpectedUpdateCount 1 4) ∧
      Trial.ragged.length ≤ UInt64.size ∧ totalWeight Trial.ragged % Nat.pow 2 128 ≠ 0 ∧
      Trial.ragged.reverse.Perm Trial.ragged ∧
      ¬∃ made, Strategy.modelSum.aggregate Trial.ragged.reverse = .ok made := by
  have refused : Refused Trial.ragged (.layerCountMismatch 1 2) := by
    refine .differing ([Trial.flat 2], 1) ([Trial.flat 3, Trial.flat 1], 5) [([Trial.flat 2], 0)]
      [([Trial.flat 4], 1)] rfl (List.forall_mem_singleton.mpr rfl) _ ?_
    exact .count (by decide)
  have few : Trial.ragged.length ≤ UInt64.size := by decide
  have permuted : Trial.ragged.reverse.Perm Trial.ragged := List.reverse_perm _
  obtain ⟨_, _, weighs, _, sums, averages, only, every⟩ := aggregation_fails_for_cause Trial.ragged
  have failed := (sums _).mpr refused
  refine ⟨failed, (averages _).mpr (Or.inl refused), (only _).mpr ⟨by decide, rfl⟩, few, ?_,
    permuted, ?_⟩
  · rw [Ne, weighs few]
    intro zero
    exact absurd (zero ([Trial.flat 2], 1) List.mem_cons_self) (by decide)
  · rw [(every .modelSum).2 _ permuted, failed]
    nofun

/-- Not every way to combine updates names the empty list for what it is: the one that takes the only
update tells how many there are. -/
theorem identity_reports_count :
    ¬∀ (strategy : Strategy) (updates : List (Weights × UInt64)) (error : AggregationError),
      strategy.aggregate updates = .error error →
        Refused updates error ∨ (updates ≠ [] ∧ Agree updates) ∧
          (∀ payload ∈ updates, payload.2 = 0) ∧ error = .zeroTotalWeight := by
  intro stated
  have counted : Strategy.identity.aggregate [] = .error (.unexpectedUpdateCount 1 0) := rfl
  rcases stated .identity [] _ counted with refused | ⟨⟨some, _⟩, _⟩
  · cases refused with
    | differing first update alike later split => cases split
  · exact some rfl

end FederatedRounds
