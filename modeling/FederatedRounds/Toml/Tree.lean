import FederatedRounds.Table
import FederatedRounds.Toml.Scalar
/-! The tables of a TOML document while it is read. A key is set once and a table is defined once;
by which means it was defined decides what may still be added to it. -/
namespace FederatedRounds

inductive Toml where
  | scalar (value : Toml.Scalar)
  | list (items : List Toml)
  | table (members : List (String × Toml))

namespace Toml

/-- How a table came to be: by its own header, by the header of a table in it, or by a dotted key.
-/
inductive Definition where
  | header
  | implied
  | dotted

/-- What stands under a key. Of an array of tables the last one comes first. -/
inductive Node where
  | value (value : Toml)
  | branch (definition : Definition) (members : List (String × Node))
  | branches (members : List (List (String × Node)))

abbrev Members := List (String × Node)

mutual

def Node.close : Node → Toml
  | .value value => value
  | .branch _ members => .table (closeMembers members)
  | .branches all => .list (closeAll all).reverse

def closeMembers : List (String × Node) → List (String × Toml)
  | [] => []
  | (key, node) :: rest => (key, node.close) :: closeMembers rest

def closeAll : List (List (String × Node)) → List Toml
  | [] => []
  | members :: rest => .table (closeMembers members) :: closeAll rest

end

def setKey (value : Toml) : List String → Members → Option Members
  | [], _ => none
  | [key], members =>
    match Table.get? key members with
    | none => some (members ++ [(key, .value value)])
    | some _ => none
  | key :: rest, members =>
    match Table.get? key members with
    | none => (setKey value rest []).map fun inner => members ++ [(key, .branch .dotted inner)]
    | some (.branch .dotted inner) =>
      (setKey value rest inner).map fun inner => Table.set key (.branch .dotted inner) members
    | some _ => none

/-- The members of a table that headers may still add to: of the last one, in an array of tables.
Dotted keys close the tables that they make. -/
def Node.opened? : Node → Option (Members × (Members → Node))
  | .branch .header inner => some (inner, .branch .header)
  | .branch .implied inner => some (inner, .branch .implied)
  | .branches (inner :: done) => some (inner, fun inner => .branches (inner :: done))
  | _ => none

def openTable : List String → Members → Option Members
  | [], _ => none
  | [key], members =>
    match Table.get? key members with
    | none => some (members ++ [(key, .branch .header [])])
    | some (.branch .implied inner) => some (Table.set key (.branch .header inner) members)
    | some _ => none
  | key :: rest, members =>
    match Table.get? key members with
    | none => (openTable rest []).map fun inner => members ++ [(key, .branch .implied inner)]
    | some node => do
      let (inner, rebuild) ← node.opened?
      pure (Table.set key (rebuild (← openTable rest inner)) members)

/-- Adds a table to an array of tables by its header. -/
def openItem : List String → Members → Option Members
  | [], _ => none
  | [key], members =>
    match Table.get? key members with
    | none => some (members ++ [(key, .branches [[]])])
    | some (.branches done) => some (Table.set key (.branches ([] :: done)) members)
    | some _ => none
  | key :: rest, members =>
    match Table.get? key members with
    | none => (openItem rest []).map fun inner => members ++ [(key, .branch .implied inner)]
    | some node => do
      let (inner, rebuild) ← node.opened?
      pure (Table.set key (rebuild (← openItem rest inner)) members)

/-- Sets a dotted key to a value in the table with the given header. -/
def setBelow (keys : List String) (value : Toml) : List String → Members → Option Members
  | [], members => setKey value keys members
  | key :: rest, members =>
    match Table.get? key members with
    | some node => do
      let (inner, rebuild) ← node.opened?
      pure (Table.set key (rebuild (← setBelow keys value rest inner)) members)
    | none => none

end Toml
end FederatedRounds
