import FederatedRounds.Tensor
import Mathlib.Algebra.BigOperators.Group.List.Lemmas
import Mathlib.Data.List.Forall2

/-! Tensors with an element at each of their positions. Tensors of one shape are combined position by
position, and a version that looks every position up finds all of them. -/
namespace FederatedRounds

section Zip
variable {α β γ : Type}

/-- Goes through two lists together. There is no result when one of them ends before the other. -/
def zipExactly? (f : α → β → Option γ) : List α → List β → Option (List γ)
  | [], [] => some []
  | x :: xs, y :: ys => do
    let z ← f x y
    let zs ← zipExactly? f xs ys
    pure (z :: zs)
  | _, _ => none

theorem zipExactly?_eq_some {f : α → β → Option γ} {g : α → β → γ} {xs : List α} {ys : List β}
    (each : List.Forall₂ (fun x y => f x y = some (g x y)) xs ys) :
    zipExactly? f xs ys = some (List.zipWith g xs ys) := by
  induction each with
  | nil => rfl
  | cons first _ ih => simp [zipExactly?, first, ih]

end Zip

namespace Tensor
variable {α : Type}

theorem size_eq_prod (shape : List Nat) : size shape = shape.prod := List.prod_eq_foldl.symm

/-- There are exactly as many elements as the extents multiply to. -/
def Filled (t : Tensor α) : Prop := t.elements.length = t.shape.prod

instance (t : Tensor α) : Decidable t.Filled := inferInstanceAs (Decidable (_ = _))

theorem WellFormed.filled {t : Tensor α} (wellFormed : t.WellFormed) : t.Filled :=
  wellFormed.1.trans (size_eq_prod t.shape)

theorem fill_filled (value : α) (shape : List Nat) : (fill value shape).Filled := by
  change (List.replicate (size shape) value).length = shape.prod
  rw [List.length_replicate, size_eq_prod]

theorem Filled.length_eq {a b : Tensor α} (first : a.Filled) (second : b.Filled)
    (same : a.shape = b.shape) : a.elements.length = b.elements.length := by
  rw [first, second, same]

theorem Filled.zipWith {a b : Tensor α} (first : a.Filled) (second : b.Filled)
    (same : a.shape = b.shape) (f : α → α → α) : (Tensor.zipWith f a b).Filled := by
  change (List.zipWith f a.elements b.elements).length = a.shape.prod
  rw [List.length_zipWith, first.length_eq second same, Nat.min_self, second, same]

/-- Combines two tensors of one shape, each element of one with that of the other. -/
def zipExactly? (f : α → α → α) (a b : Tensor α) : Option (Tensor α) :=
  if a.shape = b.shape then
    (FederatedRounds.zipExactly? (fun x y => some (f x y)) a.elements b.elements).map
      (Tensor.mk a.shape)
  else none

theorem Filled.zipExactly? {a b : Tensor α} (first : a.Filled) (second : b.Filled)
    (same : a.shape = b.shape) (f : α → α → α) :
    Tensor.zipExactly? f a b = some (Tensor.zipWith f a b) := by
  have each : List.Forall₂ (fun x y => some (f x y) = some (f x y)) a.elements b.elements :=
    List.forall₂_iff_zip.mpr ⟨first.length_eq second same, fun _ => rfl⟩
  rw [Tensor.zipExactly?, if_pos same, zipExactly?_eq_some each]
  rfl

end Tensor

namespace Layers
variable {α : Type}

/-- The shape of each layer. -/
def shapes (layers : Layers α) : List (List Nat) := layers.map Tensor.shape

def Filled (layers : Layers α) : Prop := ∀ layer ∈ layers, layer.Filled

instance (layers : Layers α) : Decidable layers.Filled :=
  inferInstanceAs (Decidable (∀ _ ∈ _, _))

/-- Filled layers of the given shapes. -/
structure Fits (shapes : List (List Nat)) (layers : Layers α) : Prop where
  shaped : layers.shapes = shapes
  filled : layers.Filled

end Layers
end FederatedRounds
