import FederatedRounds.Json.Reader
import FederatedRounds.Proofs.Aggregation.Positions
import FederatedRounds.Proofs.Number.Zero
import FederatedRounds.Wire.Message

/-! Updates without weight in an average of singles. The share of such an update is a zero, and what
it adds to a finite element is a zero too, so that the average is the same without the update. An
infinite element, or one that is no number, makes NaN of the average at its position. -/
namespace FederatedRounds

namespace Layers
variable {α : Type} {a b : Layers α}

/-- Filled layers have elements at the positions within their shapes. -/
theorem Filled.element?_isSome_iff (filled : a.Filled) {layer position : Nat} :
    (a.element? layer position).isSome ↔
      ∃ shape, a.shapes[layer]? = some shape ∧ position < shape.prod := by
  unfold element? shapes
  rw [List.getElem?_map]
  cases found : a[layer]? with
  | none => simp
  | some t =>
    have whole : t.elements.length = t.shape.prod := filled t (List.mem_of_getElem? found)
    simp [whole]

theorem ext_element? (shapes : a.shapes = b.shapes)
    (same : ∀ layer position, a.element? layer position = b.element? layer position) : a = b := by
  apply List.ext_getElem?
  intro layer
  have shape : (a[layer]?).map Tensor.shape = (b[layer]?).map Tensor.shape := by
    rw [← List.getElem?_map, ← List.getElem?_map]
    exact congrArg (·[layer]?) shapes
  have elements := same layer
  unfold element? at elements
  revert shape elements
  cases a[layer]? with
  | none => cases b[layer]? <;> simp
  | some one =>
    cases b[layer]? with
    | none => simp
    | some other =>
      intro shape elements
      have listed : one.elements = other.elements := List.ext_getElem? elements
      obtain ⟨_, _⟩ := one
      obtain ⟨_, _⟩ := other
      cases listed
      cases Option.some.inj shape
      rfl

end Layers

namespace Aggregation

theorem column?_append {α : Type} (first rest : List (Layers α × UInt64)) (layer position : Nat) :
    column? (first ++ rest) layer position =
      (column? first layer position).bind fun column =>
        (column? rest layer position).map (column ++ ·) := by
  induction first with
  | nil =>
    have none : column? ([] : List (Layers α × UInt64)) layer position = some [] := rfl
    simp [none]
  | cons payload more ih =>
    rw [List.cons_append, column?_cons, column?_cons, ih]
    cases payload.1.element? layer position with
    | none => rfl
    | some x =>
      cases column? more layer position with
      | none => rfl
      | some column => cases column? rest layer position <;> rfl

theorem totalWeight_append {α : Type} (first rest : List (Layers α × UInt64)) :
    totalWeight (first ++ rest) = totalWeight first + totalWeight rest := by
  simp only [totalWeight_eq_sum, List.map_append, List.sum_append]

theorem share_isZero {total : Nat} (some : total ≠ 0) : (Scalars.single.share 0 total).IsZero := by
  have dividend : (Ieee.ofNat 0 : Double).IsZero := Ieee.ofNat_zero_isZero (by decide) (by decide)
  have divisor : (Ieee.ofNat total : Double).Reaches Format.double.one :=
    Ieee.ofNat_reaches_one (by decide) some
  have quotient : (Ieee.div (.ofNat 0 : Double) (.ofNat total)).IsZero :=
    Ieee.div_isZero (by decide) dividend Format.double.one_pos divisor
  unfold Scalars.single
  dsimp only
  exact Ieee.convert_isZero (by decide) (by decide) quotient

/-- What an average becomes when an element is added by the share of its weight in a total. -/
def addShare {α : Type} (s : Scalars α) (total : Nat) (weight : UInt64) (acc x : α) : α :=
  s.add acc (s.mul (s.share weight.toNat total) x)

/-- The elements of a column added to an average one after the other. -/
def addColumn {α : Type} (s : Scalars α) (total : Nat) (start : α) (column : List (α × UInt64)) :
    α :=
  column.foldl (fun acc entry => addShare s total entry.2 acc entry.1) start

section Single
variable {total : Nat} {start : Single}

theorem addShare_weightless (some : total ≠ 0) (other : ¬start.IsNegativeZero) (x : Single) :
    addShare .single total 0 start x = if x.isFinite then start else .nan := by
  have zero := share_isZero some
  unfold addShare
  rw [UInt64.toNat_zero]
  generalize Scalars.single.share 0 total = share at zero ⊢
  change Ieee.add start (Ieee.mul share x) = _
  cases finite : x.isFinite with
  | true => exact Ieee.add_of_isZero (by decide) (Ieee.mul_isZero (by decide) zero finite) other
  | false =>
    rw [Ieee.mul_eq_nan zero finite]
    exact Ieee.add_nan start

theorem addColumn_not_isNegativeZero (other : ¬start.IsNegativeZero)
    (column : List (Single × UInt64)) : ¬(addColumn .single total start column).IsNegativeZero := by
  induction column generalizing start with
  | nil => exact other
  | cons entry rest ih => exact ih fun below => other (below.of_add (by decide))

theorem addColumn_nan (total : Nat) (column : List (Single × UInt64)) :
    addColumn .single total .nan column = .nan := by
  induction column with
  | nil => rfl
  | cons entry rest ih => exact ih

/-- An element without weight leaves an average as it is, or makes NaN of it. -/
theorem addColumn_weightless (some : total ≠ 0) (first rest : List (Single × UInt64)) (x : Single) :
    addColumn .single total .zero (first ++ (x, 0) :: rest) =
      if x.isFinite then addColumn .single total .zero (first ++ rest) else .nan := by
  have reached : ¬(addColumn .single total .zero first).IsNegativeZero :=
    addColumn_not_isNegativeZero (Ieee.zero_not_isNegativeZero (by decide)) first
  have split (later : List (Single × UInt64)) : addColumn .single total .zero (first ++ later) =
      addColumn .single total (addColumn .single total .zero first) later := List.foldl_append
  rw [split, split]
  change addColumn .single total (addShare .single total 0 _ x) rest = _
  rw [addShare_weightless some reached]
  cases x.isFinite with
  | true => rfl
  | false => exact addColumn_nan total rest

end Single

section Removal
variable {before after : List (Weights × UInt64)} {layers : Weights}

theorem totalWeight_weightless {α : Type} (before after : List (Layers α × UInt64))
    (layers : Layers α) :
    totalWeight (before ++ (layers, 0) :: after) = totalWeight (before ++ after) := by
  rw [totalWeight_append, totalWeight_append, totalWeight_cons, UInt64.toNat_zero, Nat.zero_add]

theorem subset_insert {α : Type} (before after : List α) (a : α) :
    before ++ after ⊆ before ++ a :: after :=
  ((List.sublist_cons_self a after).append_left before).subset

/-- What an average without an update becomes at each position when the update is added to it. -/
theorem element?_weightless {made whole : Weights}
    (filled : ∀ payload ∈ before ++ (layers, 0) :: after, Layers.Filled payload.1)
    (some : totalWeight (before ++ (layers, 0) :: after) ≠ 0)
    (combined : average .single (before ++ after) = .ok made)
    (combined' : average .single (before ++ (layers, 0) :: after) = .ok whole)
    (layer position : Nat) : whole.element? layer position =
      (made.element? layer position).bind fun y =>
        (layers.element? layer position).map fun x => if x.isFinite then y else .nan := by
  have fewer := fun payload member => filled payload (subset_insert before after _ member)
  have without := (Folds.of_average fewer combined).element layer position
  have withAll := (Folds.of_average filled combined').element layer position
  rw [← totalWeight_weightless before after layers] at without
  rw [withAll, without, column?_append, column?_append, column?_cons]
  cases column? before layer position with
  | none => rfl
  | some first =>
    cases layers.element? layer position with
    | none => cases column? after layer position <;> rfl
    | some x =>
      cases column? after layer position with
      | none => rfl
      | some rest => exact congrArg Option.some (addColumn_weightless some first rest x)

/-- There is an average with and without the update, in the shapes of the update. -/
theorem exists_averages (agree : Agree (before ++ (layers, 0) :: after))
    (some : totalWeight (before ++ (layers, 0) :: after) ≠ 0) :
    ∃ made whole, average .single (before ++ after) = .ok made ∧
      average .single (before ++ (layers, 0) :: after) = .ok whole ∧
        whole.shapes = made.shapes ∧ layers.shapes = made.shapes := by
  have kept := subset_insert before after (layers, 0)
  have counts : ∃ payload ∈ before ++ after, payload.2 ≠ 0 := by
    rw [totalWeight_weightless, Ne, totalWeight_eq_zero_iff] at some
    push Not at some
    exact some
  obtain ⟨payload, member, counted⟩ := counts
  obtain ⟨made, combined⟩ := exists_average_iff.mpr ⟨List.ne_nil_of_mem member,
    fun one first other second => agree one (kept first) other (kept second),
    payload, member, counted⟩
  obtain ⟨whole, combined'⟩ := exists_average_iff.mpr
    ⟨List.ne_nil_of_mem (kept member), agree, payload, kept member, counted⟩
  have shapes := shapes_of_average combined payload member
  have inside : (layers, 0) ∈ before ++ (layers, 0) :: after := by simp
  exact ⟨made, whole, combined, combined',
    (shapes_of_average combined' payload (kept member)).symm.trans shapes,
    (agree _ inside _ (kept member)).trans shapes⟩

end Removal
end Aggregation

open Aggregation

/-- An update without weight is ignored in an average exactly when each of its elements that is not
finite stands where the average is NaN without it. -/
theorem weightless_update_ignored_iff (before after : List (Weights × UInt64)) (layers : Weights)
    (agree : Agree (before ++ (layers, 0) :: after))
    (filled : ∀ payload ∈ before ++ (layers, 0) :: after, Layers.Filled payload.1)
    (weighed : totalWeight (before ++ (layers, 0) :: after) ≠ 0) :
    ∃ made, Strategy.federatedAveraging.aggregate (before ++ after) = .ok made ∧
      (Strategy.federatedAveraging.aggregate (before ++ (layers, 0) :: after) = .ok made ↔
        ∀ layer position x y, layers.element? layer position = some x →
          made.element? layer position = some y → x.isFinite = false → y = .nan) := by
  obtain ⟨made, whole, combined, combined', shapes, alike⟩ := exists_averages agree weighed
  have element := element?_weightless filled weighed combined combined'
  refine ⟨made, combined, ?_⟩
  change average .single (before ++ (layers, 0) :: after) = .ok made ↔ _
  rw [combined', Except.ok.injEq]
  constructor
  · rintro rfl layer position x y held there other
    have same := element layer position
    rw [held, there] at same
    simpa [other] using same
  · intro ignored
    have inside : (layers, 0) ∈ before ++ (layers, 0) :: after := by simp
    have complete : made.Filled := (Folds.of_average
      (fun payload member => filled payload (subset_insert before after _ member)) combined).filled
    apply Layers.ext_element? shapes
    intro layer position
    rw [element]
    cases there : made.element? layer position with
    | none => rfl
    | some y =>
      have standing : (layers.element? layer position).isSome := by
        rw [(filled _ inside).element?_isSome_iff, alike, ← complete.element?_isSome_iff, there]
        rfl
      obtain ⟨x, held⟩ := Option.isSome_iff_exists.mp standing
      rw [held]
      cases finite : x.isFinite with
      | true => simp [finite]
      | false => simp [finite, ignored layer position x y held there finite]

namespace Trial

/-- An infinity of either sign, beside a finite element. -/
def endless (negative : Bool) : List (Weights × UInt64) :=
  [([⟨[2], [.infinite negative, .one]⟩], 1)]

/-- An infinity, and a negative zero. -/
def idle : Weights := [⟨[2], [.infinite false, Ieee.neg .zero]⟩]

end Trial

/-- Infinities of both signs have made NaN of an element already. -/
theorem infinity_ignored_under_nan :
    Agree (Trial.endless false ++ (Trial.idle, 0) :: Trial.endless true) ∧
      (∀ payload ∈ Trial.endless false ++ (Trial.idle, 0) :: Trial.endless true,
        Layers.Filled payload.1) ∧
      totalWeight (Trial.endless false ++ (Trial.idle, 0) :: Trial.endless true) ≠ 0 ∧
      Strategy.federatedAveraging.aggregate
          (Trial.endless false ++ (Trial.idle, 0) :: Trial.endless true) =
        .ok [⟨[2], [.nan, .one]⟩] := by
  have agree : Agree (Trial.endless false ++ (Trial.idle, 0) :: Trial.endless true) := by
    unfold Agree
    decide
  have filled : ∀ payload ∈ Trial.endless false ++ (Trial.idle, 0) :: Trial.endless true,
      Layers.Filled payload.1 := by decide
  have weighed : totalWeight (Trial.endless false ++ (Trial.idle, 0) :: Trial.endless true) ≠ 0 :=
    by decide
  have without : Strategy.federatedAveraging.aggregate (Trial.endless false ++ Trial.endless true) =
      .ok [⟨[2], [.nan, .one]⟩] := by decide +kernel
  obtain ⟨made, combined, ignored⟩ := weightless_update_ignored_iff _ _ _ agree filled weighed
  obtain rfl := Except.ok.inj (combined.symm.trans without)
  refine ⟨agree, filled, weighed, ignored.mpr ?_⟩
  intro layer position x y held there other
  match layer, position with
  | 0, 0 => exact (Option.some.inj there).symm
  | 0, 1 =>
    obtain rfl := Option.some.inj held
    exact absurd other (by decide +kernel)
  | 0, _ + 2 => cases held
  | _ + 1, _ => cases held

/-- An update without weight, as it can be received, makes NaN of the average. -/
theorem weightless_infinity_spoils_average :
    ((Json.parse? "[[[1,[1],[1e39]]],0]").bind Update.ofJson?).map
        (fun update => (update.weights, update.weight)) = some ([⟨[1], [.infinite false]⟩], 0) ∧
      Strategy.federatedAveraging.aggregate [([⟨[1], [.ofNat 3]⟩], 4)] =
        .ok [⟨[1], [.ofNat 3]⟩] ∧
      Strategy.federatedAveraging.aggregate
          [([⟨[1], [.infinite false]⟩], 0), ([⟨[1], [.ofNat 3]⟩], 4)] = .ok [⟨[1], [.nan]⟩] := by
  refine ⟨by decide +kernel, by decide +kernel, by decide +kernel⟩

end FederatedRounds
