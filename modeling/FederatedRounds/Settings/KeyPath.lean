import FederatedRounds.Settings.Value
import FederatedRounds.Table
/-! Where a value is set: a name, and then names of members after points and positions in lists
between brackets. Setting a value makes the tables and lists on the way, and a table is merged into
the one that is there. -/
namespace FederatedRounds.Settings

/-- A position below zero counts from the end of the list. -/
inductive Step where
  | member (name : String)
  | item (position : Int)

structure KeyPath where
  name : String
  steps : List Step

namespace KeyPath

def isNameChar (c : Char) : Bool := c.isAlphanum || c = ' ' || c = '_' || c = '-'

def isBlank (c : Char) : Bool := c = ' ' || c = '\t'

/-- The position between brackets, of 64 bits with a sign, and what follows it. -/
def position? (text : List Char) : Option (Int × List Char) :=
  let (negative, rest) :=
    match text.dropWhile isBlank with
    | '-' :: rest => (true, rest)
    | rest => (false, rest)
  let (digits, rest) := Digit.run rest
  let value : Int := if negative then -(Digit.value digits) else Digit.value digits
  match rest.dropWhile isBlank with
  | ']' :: rest =>
    if digits ≠ [] ∧ -UInt64.size ≤ 2 * value ∧ 2 * value < UInt64.size then some (value, rest)
    else none
  | _ => none

/-- Every step takes at least two characters. -/
def stepsFrom (text : List Char) : Nat → Option (List Step)
  | 0 => if text = [] then some [] else none
  | fuel + 1 =>
    match text with
    | [] => some []
    | '.' :: rest =>
      let name := rest.takeWhile isNameChar
      if name = [] then none
      else (stepsFrom (rest.dropWhile isNameChar) fuel).map (.member (String.ofList name) :: ·)
    | '[' :: rest => do
      let (position, rest) ← position? rest
      let steps ← stepsFrom rest fuel
      pure (.item position :: steps)
    | _ => none

/-- The path that a text spells. A text that spells none is a name as a whole. -/
def ofText (text : String) : KeyPath :=
  let characters := text.toList
  let name := characters.takeWhile isNameChar
  match stepsFrom (characters.dropWhile isNameChar) characters.length with
  | some steps => if name = [] then ⟨text, []⟩ else ⟨String.ofList name, steps⟩
  | none => ⟨text, []⟩

end KeyPath

namespace Value

def emptyTable : Value := .table none []

/-- The members of a value; of what is no table there are none. -/
def members : Value → List (String × Value)
  | .table _ members => members
  | _ => []

/-- A table with another origin keeps it, all else becomes a table without. -/
def withMembers (v : Value) (members : List (String × Value)) : Value :=
  match v with
  | .table origin _ => .table origin members
  | _ => .table none members

mutual

/-- Puts a value in the place of another. A table is merged into a table, and everything else is
replaced. -/
def merge (old : Option Value) : Value → Value
  | .table _ [] => old.getD emptyTable
  | .table _ (first :: rest) =>
    let old := old.getD emptyTable
    old.withMembers (mergeMembers old.members (first :: rest))
  | value => value

def mergeMembers (old : List (String × Value)) : List (String × Value) → List (String × Value)
  | [] => old
  | (name, value) :: rest =>
    mergeMembers (Table.set name (merge (Table.get? name old) value) old) rest

end

def items : Value → List Value
  | .list _ items => items
  | _ => []

def withItems (v : Value) (items : List Value) : Value :=
  match v with
  | .list origin _ => .list origin items
  | _ => .list none items

/-- Where a position is in a list of so many items. -/
def place (position : Int) (length : Nat) : Nat :=
  (if position < 0 then position + length else position).toNat

/-- Items at the places before one that is set are null if there are none. -/
def padded (place : Nat) (items : List Value) : List Value :=
  items ++ List.replicate (place + 1 - items.length) (.null none)

def setBelow (value : Value) : List Step → Option Value → Value
  | [], old => merge old value
  | .member name :: rest, old =>
    let parent := old.getD emptyTable
    let child := setBelow value rest (Table.get? name parent.members)
    parent.withMembers (Table.set name child parent.members)
  | [.item position], old =>
    let parent := old.getD emptyTable
    let place := place position parent.items.length
    parent.withItems ((padded place parent.items).set place value)
  | .item position :: rest, old =>
    let parent := old.getD emptyTable
    let place := place position parent.items.length
    let items := padded place parent.items
    parent.withItems (items.set place (setBelow value rest items[place]?))

def setAt (root : Value) (path : KeyPath) (value : Value) : Value :=
  setBelow value (.member path.name :: path.steps) (some root)

end Value
end FederatedRounds.Settings
