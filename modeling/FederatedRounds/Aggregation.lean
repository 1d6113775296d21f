import FederatedRounds.Number.Digits
import FederatedRounds.Tensor
/-! Combining the updates of a round into new weights: the weighted average, the plain sum, and the
weights of a single update. The first two are written over any scalars, and refuse updates whose
layers differ. -/
namespace FederatedRounds

inductive AggregationError where
  | noUpdates
  | zeroTotalWeight
  | layerCountMismatch (expected actual : Nat)
  | shapeMismatch (layer : Nat) (expected actual : List Nat)
  | unexpectedUpdateCount (expected actual : Nat)
deriving DecidableEq

/-- A list of extents between brackets. -/
def shapeText (shape : List Nat) : String :=
  "[" ++ ", ".intercalate (shape.map natText) ++ "]"

def AggregationError.message : AggregationError → String
  | noUpdates => "no updates to aggregate"
  | zeroTotalWeight => "the total aggregation weight is zero"
  | layerCountMismatch expected actual =>
    s!"expected {natText expected} layers but an update has {natText actual}"
  | shapeMismatch layer expected actual =>
    s!"layer {natText layer} has shape {shapeText expected} but an update has shape " ++
      shapeText actual
  | unexpectedUpdateCount expected actual =>
    s!"expected {natText expected} update(s) but got {natText actual}"

/-- The operations on elements that aggregation uses. `share w t` is the part that a weight `w` has
in a total `t`. -/
structure Scalars (α : Type) where
  zero : α
  add : α → α → α
  mul : α → α → α
  share : Nat → Nat → α

/-- Single precision, each operation rounded once. A share is a quotient of doubles. -/
def Scalars.single : Scalars Single where
  zero := .zero
  add := .add
  mul := .mul
  share weight total := (Ieee.div (.ofNat weight : Double) (.ofNat total)).convert

namespace Aggregation
variable {α : Type}

/-- The first layer, counted from `layer`, whose shape is not the expected one. -/
def shapeMismatch? (layer : Nat) : Layers α → Layers α → Option AggregationError
  | expected :: expecteds, actual :: actuals =>
    if expected.shape = actual.shape then shapeMismatch? (layer + 1) expecteds actuals
    else some (.shapeMismatch layer expected.shape actual.shape)
  | _, _ => none

/-- How the layers of an update differ from the expected ones, the number of layers first. -/
def mismatch? (expected actual : Layers α) : Option AggregationError :=
  if expected.length = actual.length then shapeMismatch? 0 expected actual
  else some (.layerCountMismatch expected.length actual.length)

/-- The layers of the first update, when all the others have the same layers. -/
def agreedLayers : List (Layers α × UInt64) → Except AggregationError (Layers α)
  | [] => .error .noUpdates
  | (expected, _) :: rest =>
    match rest.findSome? fun (actual, _) => mismatch? expected actual with
    | some error => .error error
    | none => .ok expected

def zeros (s : Scalars α) (layers : Layers α) : Layers α :=
  layers.map fun layer => Tensor.fill s.zero layer.shape

def zipLayers (f : α → α → α) (a b : Layers α) : Layers α := List.zipWith (Tensor.zipWith f) a b

def totalWeight (updates : List (Layers α × UInt64)) : Nat :=
  updates.foldl (fun total (_, weight) => total + weight.toNat) 0

/-- The average of each element, every update counting by its share in the total weight. -/
def average (s : Scalars α) (updates : List (Layers α × UInt64)) :
    Except AggregationError (Layers α) :=
  match agreedLayers updates with
  | .error error => .error error
  | .ok expected =>
    let total := totalWeight updates
    if total = 0 then .error .zeroTotalWeight
    else .ok <| updates.foldl (fun sum (layers, weight) =>
      let share := s.share weight.toNat total
      zipLayers (fun acc x => s.add acc (s.mul share x)) sum layers) (zeros s expected)

/-- The sum of each element, whatever the updates weigh. -/
def sum (s : Scalars α) (updates : List (Layers α × UInt64)) :
    Except AggregationError (Layers α) :=
  match agreedLayers updates with
  | .error error => .error error
  | .ok expected =>
    .ok <| updates.foldl (fun sum (layers, _) => zipLayers s.add sum layers) (zeros s expected)

/-- The layers of the only update. -/
def only : List (Layers α × UInt64) → Except AggregationError (Layers α)
  | [(layers, _)] => .ok layers
  | updates => .error (.unexpectedUpdateCount 1 updates.length)

end Aggregation

/-- A way to combine updates; it may keep a state between rounds. -/
structure Aggregator (σ : Type) where
  aggregate : σ → List (Weights × UInt64) → Except AggregationError Weights × σ

/-- The ways to combine updates that a session can be set up with. -/
inductive Strategy where
  | federatedAveraging
  | identity
  | modelSum
deriving DecidableEq

namespace Strategy

def aggregate : Strategy → List (Weights × UInt64) → Except AggregationError Weights
  | federatedAveraging => Aggregation.average .single
  | identity => Aggregation.only
  | modelSum => Aggregation.sum .single

def aggregator (strategy : Strategy) : Aggregator Unit where
  aggregate _ updates := (strategy.aggregate updates, ())

def name : Strategy → String
  | federatedAveraging => "federated_averaging"
  | identity => "identity"
  | modelSum => "model_sum"

def all : List Strategy := [federatedAveraging, identity, modelSum]

def ofName? (name : String) : Option Strategy := all.find? fun strategy => strategy.name = name

end Strategy
end FederatedRounds
