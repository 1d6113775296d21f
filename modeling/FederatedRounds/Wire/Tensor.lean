import FederatedRounds.Tensor
import FederatedRounds.Wire.Number
/-! Tensors, weights and metrics in messages. A tensor is an object with the version 1, the shape
and the elements, or the list of these three. What is read is always well formed. -/
namespace FederatedRounds

namespace Tensor

def toJson (t : Tensor Single) : Json :=
  .record [("v", .nat 1), ("dim", .array (t.shape.map .nat)),
    ("data", .array (t.elements.map Single.toJson))]

def version? (value : Json) : Option Nat := (value.nat? 8).filter fun version => version = 1

def shape? (value : Json) : Option (List Nat) :=
  value.items?.bind fun items => items.mapM (Json.nat? 64)

def elements? (value : Json) : Option (List Single) :=
  value.items?.bind fun items => items.mapM Single.ofJson?

def checked? (shape : List Nat) (elements : List Single) : Option (Tensor Single) :=
  let t : Tensor Single := ⟨shape, elements⟩
  if t.WellFormed then some t else none

theorem checked?_wellFormed {shape : List Nat} {elements : List Single} {t : Tensor Single}
    (h : checked? shape elements = some t) : t.WellFormed := by
  unfold checked? at h
  grind

/-- The last of the values under a name, if every one of them reads. -/
def last? {α : Type} (name : String) (read? : Json → Option α)
    (members : List (String × Json)) : Option α :=
  ((members.filter fun member => member.1 = name).mapM fun member => read? member.2).bind
    List.getLast?

/-- Only the three names may occur; one that is repeated has its last value. -/
def ofMembers? (members : List (String × Json)) : Option (Tensor Single) := do
  guard (members.all fun member => ["v", "dim", "data"].contains member.1)
  let _version ← last? "v" version? members
  let shape ← last? "dim" shape? members
  let elements ← last? "data" elements? members
  checked? shape elements

def ofItems? : List Json → Option (Tensor Single)
  | [version, shape, elements] => do
    let _version ← version? version
    checked? (← shape? shape) (← elements? elements)
  | _ => none

def ofJson? : Json → Option (Tensor Single)
  | .array items => ofItems? items
  | value => value.members?.bind ofMembers?

end Tensor

namespace Weights

def toJson (weights : Weights) : Json := .array (weights.map Tensor.toJson)

def ofJson? (value : Json) : Option Weights :=
  value.items?.bind fun items => items.mapM Tensor.ofJson?

end Weights

namespace Metrics

def toJson (metrics : Metrics) : Json :=
  .record (metrics.map fun (name, epochs) => (name, Weights.toJson epochs))

/-- A name that is repeated has its last value. -/
def ofJson? (value : Json) : Option Metrics := do
  let entries ← (← value.members?).mapM fun (name, epochs) =>
    (Weights.ofJson? epochs).map fun epochs => (name, epochs)
  pure (Table.ofEntries entries)

end Metrics
end FederatedRounds
