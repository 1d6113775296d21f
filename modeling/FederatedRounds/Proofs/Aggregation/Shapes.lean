import FederatedRounds.Aggregation
import FederatedRounds.Proofs.Tensor

/-! The layers that come out of an aggregation. They have the shapes of the updates and are filled as
these are. Beside each way to combine updates stands one that looks up every layer and every element
and fails when one is missing or left over; over filled updates it never fails. -/
namespace FederatedRounds

namespace Layers
variable {α : Type} {shapes : List (List Nat)} {a b : Layers α}

theorem Fits.forall₂ (first : a.Fits shapes) (second : b.Fits shapes) :
    List.Forall₂ (fun x y => x.Filled ∧ y.Filled ∧ x.shape = y.shape) a b := by
  have alike : List.Forall₂ (fun x y => x.shape = y.shape) a b := by
    have equal : a.shapes = b.shapes := first.shaped.trans second.shaped.symm
    rw [← List.forall₂_eq_eq_eq] at equal
    exact List.forall₂_map_left_iff.mp (List.forall₂_map_right_iff.mp equal)
  obtain ⟨count, same⟩ := List.forall₂_iff_zip.mp alike
  refine List.forall₂_iff_zip.mpr ⟨count, ?_⟩
  intro x y pair
  obtain ⟨left, right⟩ := List.of_mem_zip pair
  exact ⟨first.filled x left, second.filled y right, same pair⟩

theorem zipLayers_fits
    (pairs : List.Forall₂ (fun x y => x.Filled ∧ y.Filled ∧ x.shape = y.shape) a b)
    (f : α → α → α) : (Aggregation.zipLayers f a b).Fits a.shapes := by
  induction pairs with
  | nil => exact ⟨rfl, nofun⟩
  | cons pair _ ih =>
    obtain ⟨left, right, same⟩ := pair
    have head := left.zipWith right same f
    exact ⟨congrArg (_ :: ·) ih.shaped, List.forall_mem_cons.mpr ⟨head, ih.filled⟩⟩

theorem Fits.zip (first : a.Fits shapes) (second : b.Fits shapes) (f : α → α → α) :
    (Aggregation.zipLayers f a b).Fits shapes := by
  rw [← first.shaped]
  exact zipLayers_fits (first.forall₂ second) f

/-- Combines layers one with one, and their elements likewise. -/
def zipExactly? (f : α → α → α) (a b : Layers α) : Option (Layers α) :=
  FederatedRounds.zipExactly? (Tensor.zipExactly? f) a b

theorem Fits.zipExactly? (first : a.Fits shapes) (second : b.Fits shapes) (f : α → α → α) :
    Layers.zipExactly? f a b = some (Aggregation.zipLayers f a b) := by
  apply zipExactly?_eq_some
  refine (first.forall₂ second).imp ?_
  rintro x y ⟨left, right, same⟩
  exact left.zipExactly? right same f

end Layers

namespace Aggregation
variable {α : Type}

/-! The shapes that are compared. -/

theorem shapeMismatch?_eq_none_iff {layer : Nat} {expected actual : Layers α}
    (count : expected.length = actual.length) :
    shapeMismatch? layer expected actual = none ↔ actual.shapes = expected.shapes := by
  induction expected generalizing layer actual with
  | nil =>
    cases List.length_eq_zero_iff.mp count.symm
    simp [shapeMismatch?]
  | cons first rest ih =>
    cases actual with
    | nil => cases count
    | cons other others =>
      have remaining : rest.length = others.length := Nat.succ.inj count
      have split : Layers.shapes (other :: others) = Layers.shapes (first :: rest) ↔
          other.shape = first.shape ∧ Layers.shapes others = Layers.shapes rest := List.cons_eq_cons
      rw [split, shapeMismatch?]
      by_cases same : first.shape = other.shape
      · rw [if_pos same, ih remaining]
        simp [same]
      · rw [if_neg same]
        simp [Ne.symm same]

theorem mismatch?_eq_none_iff {expected actual : Layers α} :
    mismatch? expected actual = none ↔ actual.shapes = expected.shapes := by
  unfold mismatch?
  split
  · next count => exact shapeMismatch?_eq_none_iff count
  · next count =>
    have apart : actual.shapes ≠ expected.shapes := by
      intro same
      have lengths := congrArg List.length same
      rw [Layers.shapes, Layers.shapes, List.length_map, List.length_map] at lengths
      exact count lengths.symm
    simp [apart]

/-- Updates agree when all of them have the shapes of the first. -/
theorem agreedLayers_eq_ok_iff {updates : List (Layers α × UInt64)} {expected : Layers α} :
    agreedLayers updates = .ok expected ↔
      (updates.head?.map (·.1)) = some expected ∧
        ∀ payload ∈ updates, payload.1.shapes = expected.shapes := by
  cases updates with
  | nil => simp [agreedLayers]
  | cons payload rest =>
    obtain ⟨first, weight⟩ := payload
    unfold agreedLayers
    dsimp only
    split
    · next error found =>
      obtain ⟨other, member, differs⟩ := List.exists_of_findSome?_eq_some found
      constructor
      · nofun
      · rintro ⟨head, alike⟩
        cases head
        have same := mismatch?_eq_none_iff.mpr (alike other (List.mem_cons_of_mem _ member))
        rw [same] at differs
        cases differs
    · next found =>
      rw [List.findSome?_eq_none_iff] at found
      constructor
      · intro agreed
        cases agreed
        refine ⟨rfl, List.forall_mem_cons.mpr ⟨rfl, ?_⟩⟩
        intro other member
        exact mismatch?_eq_none_iff.mp (found other member)
      · rintro ⟨head, _⟩
        cases head
        rfl

theorem zeros_fits (s : Scalars α) (layers : Layers α) : (zeros s layers).Fits layers.shapes := by
  constructor
  · simp [Layers.shapes, zeros, Tensor.fill]
  · intro layer member
    obtain ⟨_, _, rfl⟩ := List.mem_map.mp member
    exact Tensor.fill_filled _ _

/-- The updates of a round added up one after the other, each of them changed by its weight. -/
theorem fold_fits {shapes : List (List Nat)} (f : UInt64 → α → α → α)
    {updates : List (Layers α × UInt64)} (fits : ∀ payload ∈ updates, payload.1.Fits shapes)
    {start : Layers α} (begins : start.Fits shapes) :
    updates.foldlM (fun sum payload => Layers.zipExactly? (f payload.2) sum payload.1) start =
        some (updates.foldl (fun sum payload => zipLayers (f payload.2) sum payload.1) start) ∧
      (updates.foldl (fun sum payload => zipLayers (f payload.2) sum payload.1) start).Fits
        shapes := by
  induction updates generalizing start with
  | nil => exact ⟨rfl, begins⟩
  | cons payload rest ih =>
    obtain ⟨first, others⟩ := List.forall_mem_cons.mp fits
    rw [List.foldlM_cons, begins.zipExactly? first]
    exact ih others (begins.zip first _)

/-! The ways to combine updates with every position looked up. -/

def shapeMismatchExactly? (layer : Nat) :
    Layers α → Layers α → Option (Option AggregationError)
  | expected :: expecteds, actual :: actuals =>
    if expected.shape = actual.shape then shapeMismatchExactly? (layer + 1) expecteds actuals
    else some (some (.shapeMismatch layer expected.shape actual.shape))
  | [], [] => some none
  | _, _ => none

def mismatchExactly? (expected actual : Layers α) : Option (Option AggregationError) :=
  if expected.length = actual.length then shapeMismatchExactly? 0 expected actual
  else some (some (.layerCountMismatch expected.length actual.length))

def agreedExactly? : List (Layers α × UInt64) → Option (Except AggregationError (Layers α))
  | [] => some (.error .noUpdates)
  | (expected, _) :: rest =>
    (rest.findSomeM? fun payload => mismatchExactly? expected payload.1).map fun
      | some error => .error error
      | none => .ok expected

def averageExactly? (s : Scalars α) (updates : List (Layers α × UInt64)) :
    Option (Except AggregationError (Layers α)) :=
  match agreedExactly? updates with
  | none => none
  | some (.error error) => some (.error error)
  | some (.ok expected) =>
    let total := totalWeight updates
    if total = 0 then some (.error .zeroTotalWeight)
    else (updates.foldlM (fun sum payload =>
      let share := s.share payload.2.toNat total
      Layers.zipExactly? (fun acc x => s.add acc (s.mul share x)) sum payload.1)
        (zeros s expected)).map .ok

def sumExactly? (s : Scalars α) (updates : List (Layers α × UInt64)) :
    Option (Except AggregationError (Layers α)) :=
  match agreedExactly? updates with
  | none => none
  | some (.error error) => some (.error error)
  | some (.ok expected) =>
    (updates.foldlM (fun sum payload => Layers.zipExactly? s.add sum payload.1)
      (zeros s expected)).map .ok

/-- Takes the last of the updates once there is one. -/
def onlyExactly? (updates : List (Layers α × UInt64)) :
    Option (Except AggregationError (Layers α)) :=
  if updates.length = 1 then updates.getLast?.map fun (layers, _) => .ok layers
  else some (.error (.unexpectedUpdateCount 1 updates.length))

theorem shapeMismatchExactly?_eq {layer : Nat} {expected actual : Layers α}
    (count : expected.length = actual.length) :
    shapeMismatchExactly? layer expected actual = some (shapeMismatch? layer expected actual) := by
  induction expected generalizing layer actual with
  | nil =>
    cases List.length_eq_zero_iff.mp count.symm
    rfl
  | cons first rest ih =>
    cases actual with
    | nil => cases count
    | cons other others =>
      have remaining : rest.length = others.length := Nat.succ.inj count
      rw [shapeMismatchExactly?, shapeMismatch?, ih remaining]
      exact (apply_ite some _ _ _).symm

theorem mismatchExactly?_eq (expected actual : Layers α) :
    mismatchExactly? expected actual = some (mismatch? expected actual) := by
  unfold mismatchExactly? mismatch?
  split
  · next count => exact shapeMismatchExactly?_eq count
  · rfl

theorem agreedExactly?_eq (updates : List (Layers α × UInt64)) :
    agreedExactly? updates = some (agreedLayers updates) := by
  cases updates with
  | nil => rfl
  | cons payload rest =>
    obtain ⟨expected, weight⟩ := payload
    have searched : rest.findSomeM? (fun payload => mismatchExactly? expected payload.1) =
        some (rest.findSome? fun payload => mismatch? expected payload.1) := by
      induction rest with
      | nil => rfl
      | cons other others ih =>
        rw [List.findSomeM?, List.findSome?, mismatchExactly?_eq]
        cases mismatch? expected other.1 with
        | some error => rfl
        | none => exact ih
    rw [agreedExactly?, searched, agreedLayers]
    cases rest.findSome? fun payload => mismatch? expected payload.1 <;> rfl

/-- A result that is found with every position looked up. Layers that it has are filled, and they
have the shapes of all updates. -/
structure Combines (updates : List (Layers α × UInt64))
    (exactly : Option (Except AggregationError (Layers α)))
    (result : Except AggregationError (Layers α)) : Prop where
  found : exactly = some result
  shaped : ∀ made, result = .ok made →
    made.Filled ∧ ∀ payload ∈ updates, payload.1.shapes = made.shapes

section Combines
variable {updates : List (Layers α × UInt64)} {expected : Layers α}

theorem Combines.of_error (updates : List (Layers α × UInt64)) (error : AggregationError) :
    Combines updates (some (.error error)) (.error error) := ⟨rfl, nofun⟩

theorem fold_combines (f : UInt64 → α → α → α) (s : Scalars α)
    (filled : ∀ payload ∈ updates, payload.1.Filled) (agreed : agreedLayers updates = .ok expected) :
    Combines updates
      ((updates.foldlM (fun sum payload => Layers.zipExactly? (f payload.2) sum payload.1)
        (zeros s expected)).map .ok)
      (.ok (updates.foldl (fun sum payload => zipLayers (f payload.2) sum payload.1)
        (zeros s expected))) := by
  have fits : ∀ payload ∈ updates, payload.1.Fits expected.shapes := by
    intro payload member
    exact ⟨(agreedLayers_eq_ok_iff.mp agreed).2 payload member, filled payload member⟩
  obtain ⟨found, made⟩ := fold_fits f fits (zeros_fits s expected)
  constructor
  · rw [found]
    rfl
  · rintro _ ⟨⟩
    refine ⟨made.filled, ?_⟩
    intro payload member
    exact (fits payload member).shaped.trans made.shaped.symm

theorem average_combines (s : Scalars α) (filled : ∀ payload ∈ updates, payload.1.Filled) :
    Combines updates (averageExactly? s updates) (average s updates) := by
  unfold averageExactly? average
  rw [agreedExactly?_eq]
  cases agreed : agreedLayers updates with
  | error error => exact .of_error updates error
  | ok expected =>
    dsimp only
    split
    · exact .of_error updates .zeroTotalWeight
    · exact fold_combines (fun weight acc x =>
        s.add acc (s.mul (s.share weight.toNat (totalWeight updates)) x)) s filled agreed

theorem sum_combines (s : Scalars α) (filled : ∀ payload ∈ updates, payload.1.Filled) :
    Combines updates (sumExactly? s updates) (sum s updates) := by
  unfold sumExactly? sum
  rw [agreedExactly?_eq]
  cases agreed : agreedLayers updates with
  | error error => exact .of_error updates error
  | ok expected => exact fold_combines (fun _ => s.add) s filled agreed

theorem only_combines (filled : ∀ payload ∈ updates, payload.1.Filled) :
    Combines updates (onlyExactly? updates) (only updates) := by
  by_cases one : updates.length = 1
  · obtain ⟨payload, rfl⟩ := List.length_eq_one_iff.mp one
    have found : only [payload] = .ok payload.1 := rfl
    rw [found]
    refine ⟨rfl, ?_⟩
    rintro _ ⟨⟩
    exact ⟨filled payload (List.mem_singleton_self _), List.forall_mem_singleton.mpr rfl⟩
  · have refused : only updates = .error (.unexpectedUpdateCount 1 updates.length) := by
      unfold only
      split
      · exact absurd rfl one
      · rfl
    rw [refused, onlyExactly?, if_neg one]
    exact .of_error updates _

end Combines

end Aggregation

namespace Strategy

def aggregateExactly? :
    Strategy → List (Weights × UInt64) → Option (Except AggregationError Weights)
  | federatedAveraging => Aggregation.averageExactly? .single
  | identity => Aggregation.onlyExactly?
  | modelSum => Aggregation.sumExactly? .single

theorem aggregate_combines (strategy : Strategy) {updates : List (Weights × UInt64)}
    (filled : ∀ payload ∈ updates, Layers.Filled payload.1) :
    Aggregation.Combines updates (strategy.aggregateExactly? updates)
      (strategy.aggregate updates) := by
  cases strategy with
  | federatedAveraging => exact Aggregation.average_combines _ filled
  | identity => exact Aggregation.only_combines filled
  | modelSum => exact Aggregation.sum_combines _ filled

/-- A layer that lacks an element is found out. -/
example : modelSum.aggregateExactly? [([⟨[2], [.one]⟩], 1)] = none := rfl

end Strategy
end FederatedRounds
