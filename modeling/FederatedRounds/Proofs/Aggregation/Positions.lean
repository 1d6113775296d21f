import FederatedRounds.Proofs.Aggregation.Failure

/-! Aggregation position by position. An element of the result is made of the elements that the
updates hold at its position, taken in the order of the updates, and of their weights. Nothing is
assumed of the operations on elements. -/
namespace FederatedRounds

/-- The element of a layer at a position, counted in row-major order. -/
def Layers.element? {α : Type} (layers : Layers α) (layer position : Nat) : Option α :=
  layers[layer]?.bind fun t => t.elements[position]?

namespace Aggregation
variable {α : Type} {updates others : List (Layers α × UInt64)} {layer position : Nat}

/-- What the updates hold at a position, each element with the weight of its update. There is no
column where an update has no element. -/
def column? (updates : List (Layers α × UInt64)) (layer position : Nat) :
    Option (List (α × UInt64)) :=
  updates.mapM fun payload => (payload.1.element? layer position).map fun x => (x, payload.2)

/-- Layers made by going through the updates at each position by itself. -/
structure Folds (updates : List (Layers α × UInt64)) (step : UInt64 → α → α → α) (start : α)
    (made : Layers α) : Prop where
  filled : made.Filled
  shaped : ∀ payload ∈ updates, payload.1.shapes = made.shapes
  element : ∀ layer position, made.element? layer position =
    (column? updates layer position).map fun column =>
      column.foldl (fun acc entry => step entry.2 acc entry.1) start

/-! One position of what is added up. -/

theorem element?_zeros (s : Scalars α) {layers : Layers α} (filled : layers.Filled)
    (layer position : Nat) : (zeros s layers).element? layer position =
      (layers.element? layer position).map fun _ => s.zero := by
  unfold Layers.element? zeros
  rw [List.getElem?_map]
  cases found : layers[layer]? with
  | none => rfl
  | some t =>
    have whole : t.elements.length = Tensor.size t.shape := by
      rw [filled t (List.mem_of_getElem? found), Tensor.size_eq_prod]
    by_cases inside : position < Tensor.size t.shape <;>
      simp [Tensor.fill, whole, inside]

theorem element?_zipLayers (f : α → α → α) (a b : Layers α) (layer position : Nat) :
    (zipLayers f a b).element? layer position =
      (a.element? layer position).bind fun x => (b.element? layer position).map (f x) := by
  unfold Layers.element? zipLayers
  rw [List.getElem?_zipWith]
  cases a[layer]? with
  | none => rfl
  | some one =>
    cases b[layer]? with
    | none => simp
    | some other =>
      simp only [Option.bind_some, Tensor.zipWith, List.getElem?_zipWith]
      cases one.elements[position]? <;> cases other.elements[position]? <;> rfl

theorem column?_cons (payload : Layers α × UInt64) (rest : List (Layers α × UInt64)) :
    column? (payload :: rest) layer position =
      (payload.1.element? layer position).bind fun x =>
        (column? rest layer position).map fun column => (x, payload.2) :: column := by
  have split : column? (payload :: rest) layer position =
      ((payload.1.element? layer position).map fun x => (x, payload.2)).bind fun entry =>
        (column? rest layer position).bind fun column => some (entry :: column) := List.mapM_cons
  rw [split]
  cases payload.1.element? layer position with
  | none => rfl
  | some x => cases column? rest layer position <;> rfl

/-- Adding the updates up layer by layer adds their elements up position by position. -/
theorem element?_fold (f : UInt64 → α → α → α) (updates : List (Layers α × UInt64))
    (start : Layers α) :
    (updates.foldl (fun sum payload => zipLayers (f payload.2) sum payload.1) start).element?
        layer position =
      (start.element? layer position).bind fun first =>
        (column? updates layer position).map fun column =>
          column.foldl (fun acc entry => f entry.2 acc entry.1) first := by
  induction updates generalizing start with
  | nil =>
    have none : column? ([] : List (Layers α × UInt64)) layer position = some [] := rfl
    simp [none]
  | cons payload rest ih =>
    rw [List.foldl_cons, ih, element?_zipLayers, column?_cons]
    cases start.element? layer position with
    | none => rfl
    | some first =>
      cases payload.1.element? layer position with
      | none => rfl
      | some x => cases column? rest layer position <;> rfl

theorem fold_folds (f : UInt64 → α → α → α) (s : Scalars α) {expected : Layers α}
    (filled : ∀ payload ∈ updates, payload.1.Filled) (agreed : agreedLayers updates = .ok expected) :
    Folds updates f s.zero
      (updates.foldl (fun sum payload => zipLayers (f payload.2) sum payload.1)
        (zeros s expected)) := by
  obtain ⟨whole, shaped⟩ := (fold_combines f s filled agreed).shaped _ rfl
  refine ⟨whole, shaped, ?_⟩
  intro layer position
  obtain ⟨first, rest, rfl⟩ : ∃ first rest, updates = first :: rest := by
    cases updates with
    | nil => cases agreed
    | cons first rest => exact ⟨first, rest, rfl⟩
  have same : first.1 = expected := Option.some.inj (agreedLayers_eq_ok_iff.mp agreed).1
  have complete : expected.Filled := same ▸ filled first List.mem_cons_self
  -- The zeros stand where the first update has elements, which is where the column begins.
  rw [element?_fold, element?_zeros s complete, column?_cons, same]
  cases expected.element? layer position <;> rfl

theorem Folds.of_sum {s : Scalars α} {made : Layers α}
    (filled : ∀ payload ∈ updates, payload.1.Filled) (combined : sum s updates = .ok made) :
    Folds updates (fun _ => s.add) s.zero made := by
  unfold sum at combined
  cases agreed : agreedLayers updates with
  | error error =>
    rw [agreed] at combined
    cases combined
  | ok expected =>
    rw [agreed] at combined
    cases combined
    exact fold_folds (fun _ => s.add) s filled agreed

theorem Folds.of_average {s : Scalars α} {made : Layers α}
    (filled : ∀ payload ∈ updates, payload.1.Filled) (combined : average s updates = .ok made) :
    Folds updates
      (fun weight acc x => s.add acc (s.mul (s.share weight.toNat (totalWeight updates)) x))
      s.zero made := by
  unfold average at combined
  cases agreed : agreedLayers updates with
  | error error =>
    rw [agreed] at combined
    cases combined
  | ok expected =>
    rw [agreed] at combined
    dsimp only at combined
    split at combined
    · cases combined
    · cases combined
      exact fold_folds _ s filled agreed

theorem exists_sum_folds (s : Scalars α) (some : updates ≠ []) (agree : Agree updates)
    (filled : ∀ payload ∈ updates, payload.1.Filled) :
    ∃ made, sum s updates = .ok made ∧ Folds updates (fun _ => s.add) s.zero made := by
  obtain ⟨made, combined⟩ := exists_sum_iff.mpr ⟨some, agree⟩
  exact ⟨made, combined, Folds.of_sum filled combined⟩

theorem exists_average_folds (s : Scalars α) (some : updates ≠ []) (agree : Agree updates)
    (filled : ∀ payload ∈ updates, payload.1.Filled)
    (weighed : ∃ payload ∈ updates, payload.2 ≠ 0) :
    ∃ made, average s updates = .ok made ∧ Folds updates
      (fun weight acc x => s.add acc (s.mul (s.share weight.toNat (totalWeight updates)) x))
      s.zero made := by
  obtain ⟨made, combined⟩ := exists_average_iff.mpr ⟨some, agree, weighed⟩
  exact ⟨made, combined, Folds.of_average filled combined⟩

/-! What an element depends on. -/

theorem totalWeight_eq_sum (updates : List (Layers α × UInt64)) :
    totalWeight updates = (updates.map fun payload => payload.2.toNat).sum := by
  induction updates with
  | nil => rfl
  | cons payload rest ih => rw [totalWeight_cons, ih, List.map_cons, List.sum_cons]

theorem weights_of_column? {column : List (α × UInt64)}
    (held : column? updates layer position = some column) :
    column.map Prod.snd = updates.map Prod.snd := by
  induction updates generalizing column with
  | nil =>
    cases held
    rfl
  | cons payload rest ih =>
    rw [column?_cons] at held
    obtain ⟨x, _, held⟩ := Option.bind_eq_some_iff.mp held
    obtain ⟨remaining, found, rfl⟩ := Option.map_eq_some_iff.mp held
    rw [List.map_cons, List.map_cons, ih found]

theorem sum_congr {s : Scalars α} {made other : Layers α}
    (filled : ∀ payload ∈ updates, payload.1.Filled)
    (filled' : ∀ payload ∈ others, payload.1.Filled)
    (combined : sum s updates = .ok made) (combined' : sum s others = .ok other)
    (same : column? updates layer position = column? others layer position) :
    made.element? layer position = other.element? layer position := by
  rw [(Folds.of_sum filled combined).element, (Folds.of_sum filled' combined').element, same]

theorem average_congr {s : Scalars α} {made other : Layers α}
    (filled : ∀ payload ∈ updates, payload.1.Filled)
    (filled' : ∀ payload ∈ others, payload.1.Filled)
    (combined : average s updates = .ok made) (combined' : average s others = .ok other)
    (same : column? updates layer position = column? others layer position) :
    made.element? layer position = other.element? layer position := by
  rw [(Folds.of_average filled combined).element, (Folds.of_average filled' combined').element,
    same]
  cases held : column? others layer position with
  | none => rfl
  | some column =>
    have weights : updates.map Prod.snd = others.map Prod.snd := by
      rw [← weights_of_column? (same.trans held), weights_of_column? held]
    have total : totalWeight updates = totalWeight others := by
      have sums := congrArg (fun weights => (weights.map UInt64.toNat).sum) weights
      simpa [totalWeight_eq_sum, Function.comp_def] using sums
    rw [total]

end Aggregation

open Aggregation

/-- Sums and averages of updates that agree are made position by position, for any scalars and so
for singles, and what stands at a position depends on nothing that the updates hold elsewhere. -/
theorem aggregation_goes_by_position :
    (∀ (α : Type) (s : Scalars α) (updates : List (Layers α × UInt64)), updates ≠ [] →
      Agree updates → (∀ payload ∈ updates, payload.1.Filled) →
      (∃ made, sum s updates = .ok made ∧ Folds updates (fun _ acc x => s.add acc x) s.zero made) ∧
      ((∃ payload ∈ updates, payload.2 ≠ 0) → ∃ made, average s updates = .ok made ∧
        Folds updates
          (fun weight acc x => s.add acc (s.mul (s.share weight.toNat (totalWeight updates)) x))
          s.zero made)) ∧
    (∀ (α : Type) (s : Scalars α) (updates others : List (Layers α × UInt64)),
      (∀ payload ∈ updates, payload.1.Filled) → (∀ payload ∈ others, payload.1.Filled) →
      ∀ layer position, column? updates layer position = column? others layer position →
        (∀ made other, sum s updates = .ok made → sum s others = .ok other →
          made.element? layer position = other.element? layer position) ∧
        ∀ made other, average s updates = .ok made → average s others = .ok other →
          made.element? layer position = other.element? layer position) ∧
    (∀ updates : List (Weights × UInt64), updates ≠ [] → Agree updates →
      (∀ payload ∈ updates, Layers.Filled payload.1) →
      (∃ made, Strategy.modelSum.aggregate updates = .ok made ∧
        Folds updates (fun _ acc x => Ieee.add acc x) .zero made) ∧
      ((∃ payload ∈ updates, payload.2 ≠ 0) →
        ∃ made, Strategy.federatedAveraging.aggregate updates = .ok made ∧
          Folds updates (fun weight acc x =>
            let total := (updates.map fun payload => payload.2.toNat).sum
            let share : Double := Ieee.div (.ofNat weight.toNat) (.ofNat total)
            Ieee.add acc (Ieee.mul share.convert x)) .zero made)) ∧
    (.zero : Single).bits? = some 0 := by
  refine ⟨?_, ?_, ?_, by decide +kernel⟩
  · intro α s updates some agree filled
    exact ⟨exists_sum_folds s some agree filled, exists_average_folds s some agree filled⟩
  · intro α s updates others filled filled' layer position same
    refine ⟨fun made other combined combined' => ?_, fun made other combined combined' => ?_⟩
    · exact sum_congr filled filled' combined combined' same
    · exact average_congr filled filled' combined combined' same
  · intro updates some agree filled
    refine ⟨exists_sum_folds .single some agree filled, fun weighed => ?_⟩
    rw [← totalWeight_eq_sum]
    exact exists_average_folds .single some agree filled weighed

namespace Trial

/-- A layer of four elements, one that has an extent but no elements, and a layer without extents. -/
def layers (corner alone : Nat) : Weights :=
  [⟨[2, 2], [.zero, .one, .one, .ofNat corner]⟩, ⟨[0, 3], []⟩, ⟨[], [.ofNat alone]⟩]

def weighted : List (Weights × UInt64) := [(layers 1 2, 1), (layers 5 6, 3)]

end Trial

/-- The last element of a layer, and the only one of another, averaged with weights of 1 and 3. -/
theorem corner_averaged :
    Trial.weighted ≠ [] ∧ Agree Trial.weighted ∧
      (∀ payload ∈ Trial.weighted, Layers.Filled payload.1) ∧
      (∃ payload ∈ Trial.weighted, payload.2 ≠ 0) ∧
      ∃ made, Strategy.federatedAveraging.aggregate Trial.weighted = .ok made ∧
        made.element? 0 3 = some (.ofNat 4) ∧ made.element? 1 0 = none ∧
        made.element? 2 0 = some (.ofNat 5) := by
  have some : Trial.weighted ≠ [] := List.cons_ne_nil _ _
  have agree : Agree Trial.weighted := by
    unfold Agree
    decide
  have filled : ∀ payload ∈ Trial.weighted, Layers.Filled payload.1 := by decide
  have weighed : ∃ payload ∈ Trial.weighted, payload.2 ≠ 0 := ⟨_, List.mem_cons_self, by decide⟩
  obtain ⟨made, combined, folds⟩ :=
    (aggregation_goes_by_position.2.2.1 Trial.weighted some agree filled).2 weighed
  refine ⟨some, agree, filled, weighed, made, combined, ?_, ?_, ?_⟩
  · rw [folds.element]
    decide +kernel
  · rw [folds.element]
    decide +kernel
  · rw [folds.element]
    decide +kernel

end FederatedRounds
