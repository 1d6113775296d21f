import FederatedRounds.Number.Ieee
import FederatedRounds.Table
/-! Tensors in row-major order, over any type of elements. A layer of a model is a tensor of
singles. A tensor read from outside is well formed; nothing here forces one to be. -/
namespace FederatedRounds

structure Tensor (α : Type) where
  shape : List Nat
  elements : List α
deriving DecidableEq

namespace Tensor
variable {α : Type}

/-- Number of elements that a shape calls for; one for the shape of a scalar. -/
def size (shape : List Nat) : Nat := shape.foldl (· * ·) 1

/-- The elements are as many as the shape calls for, and the extents other than zero multiply to a
number of at most 63 bits, so that every stride can be counted. -/
def WellFormed (t : Tensor α) : Prop :=
  t.elements.length = size t.shape ∧ 2 * size (t.shape.filter (· ≠ 0)) < UInt64.size

instance (t : Tensor α) : Decidable t.WellFormed := by unfold WellFormed; infer_instance

def vector (elements : List α) : Tensor α := ⟨[elements.length], elements⟩

def fill (value : α) (shape : List Nat) : Tensor α := ⟨shape, List.replicate (size shape) value⟩

def zipWith (f : α → α → α) (a b : Tensor α) : Tensor α :=
  ⟨a.shape, List.zipWith f a.elements b.elements⟩

end Tensor

abbrev Layers (α : Type) := List (Tensor α)

abbrev Weights := Layers Single

/-- For each metric, one tensor per local epoch. A name stands once. -/
abbrev Metrics := Table String (List (Tensor Single))

/-- What a participant sends at the end of a round: its weights, how much they count, and its
metrics. -/
structure Update where
  weights : Weights
  weight : UInt64
  metrics : Metrics
deriving DecidableEq

end FederatedRounds
