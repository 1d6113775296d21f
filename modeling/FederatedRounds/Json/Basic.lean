import FederatedRounds.Number.Digits
/-! JSON values as they are spelled: numbers keep their digits, members keep their order and may
repeat a name. What a number or a repeated name means is left to those who read the value. -/
namespace FederatedRounds

/-- A number literal: digits before the point, digits behind it, and an exponent if it has one. -/
structure Numeral where
  negative : Bool
  whole : Nat
  fraction : List Digit
  exponent : Option Int
deriving DecidableEq

namespace Numeral

def ofNat (n : Nat) : Numeral := ⟨false, n, [], none⟩

/-- Spelled without a point and without an exponent. -/
def isInteger (n : Numeral) : Bool := n.fraction.isEmpty && n.exponent.isNone

/-- The value of an unsigned integer literal. -/
def nat? (n : Numeral) : Option Nat :=
  if n.isInteger && !n.negative then some n.whole else none

end Numeral

inductive Json where
  | null
  | boolean (value : Bool)
  | number (literal : Numeral)
  | string (text : Option String)
  | array (items : List Json)
  | object (members : List (Option String × Json))

namespace Json

/-- The text of a string literal; there is none when its escapes spell an unpaired surrogate. -/
abbrev Text := Option String

abbrev Member := Text × Json

def nat (n : Nat) : Json := number (.ofNat n)

def str (text : String) : Json := string (some text)

def record (members : List (String × Json)) : Json :=
  object (members.map fun (name, value) => (some name, value))

mutual

def depth : Json → Nat
  | array items => 1 + depthItems items
  | object members => 1 + depthMembers members
  | _ => 0

def depthItems : List Json → Nat
  | [] => 0
  | item :: rest => max item.depth (depthItems rest)

def depthMembers : List (Text × Json) → Nat
  | [] => 0
  | (_, value) :: rest => max value.depth (depthMembers rest)

end

/-- What an object says under a name. -/
inductive Entry where
  | absent
  | once (value : Json)
  | repeated

def entry (name : String) (members : List Member) : Entry :=
  match members.filter (fun member => member.1 = some name) with
  | [] => .absent
  | [(_, value)] => .once value
  | _ => .repeated

/-- Every name of an object is a text. -/
def named (members : List Member) : Bool := members.all fun member => member.1.isSome

end Json
end FederatedRounds
