import FederatedRounds.Number.Decimal
import FederatedRounds.Text.Quoted
/-! The values that settings are read from, with the file or the environment that they come from. A
field takes values of several kinds and converts them to its own; what it cannot convert is a wrong
type. -/
namespace FederatedRounds.Settings

/-- Where a value comes from. Tables are put together from several places and have none. -/
abbrev Origin := Option String

inductive Scalar where
  | boolean (value : Bool)
  | integer (value : Int)
  | real (value : Double)
  | text (value : String)

inductive Value where
  | null (origin : Origin)
  | scalar (origin : Origin) (value : Scalar)
  | list (origin : Origin) (items : List Value)
  | table (origin : Origin) (members : List (String × Value))

/-- A value of the wrong type: what it is, what was expected, where it stands and where it comes
from. -/
structure WrongType where
  found : String
  expected : String
  key : String
  origin : Origin

def WrongType.message (e : WrongType) : String :=
  let key := if e.key = "" then "" else " for key `" ++ e.key ++ "`"
  let origin :=
    match e.origin with
    | some origin => " in " ++ origin
    | none => ""
  "invalid type: " ++ e.found ++ ", expected " ++ e.expected ++ key ++ origin

def intText (i : Int) : String := if i < 0 then "-" ++ natText i.natAbs else natText i.natAbs

def Scalar.spelling : Scalar → String
  | boolean true => "true"
  | boolean false => "false"
  | integer value => intText value
  | real value => value.text
  | text value => value

namespace Value

def origin : Value → Origin
  | null origin => origin
  | scalar origin _ => origin
  | list origin _ => origin
  | table origin _ => origin

/-- What a value is, to a field that could not convert it. -/
def found : Value → String
  | null _ => "unit value"
  | scalar _ (.boolean value) => "boolean `" ++ Scalar.spelling (.boolean value) ++ "`"
  | scalar _ (.integer value) => "integer 64 bit `" ++ intText value ++ "`"
  | scalar _ (.real value) => "floating point `" ++ value.text ++ "`"
  | scalar _ (.text value) => "string " ++ Text.quoted value
  | list .. => "sequence"
  | table .. => "map"

def wrongType (v : Value) (expected : String) : WrongType := ⟨v.found, expected, "", v.origin⟩

/-- The words that stand for one and zero, in any case. -/
def truth? (text : String) : Option Bool :=
  let word := text.toLower
  if ["true", "on", "yes"].contains word then some true
  else if ["false", "off", "no"].contains word then some false
  else none

/-- A number of 64 bits. Reals are rounded, a half away from zero, and kept in range. -/
def toWord (v : Value) : Except WrongType UInt64 :=
  match v with
  | scalar _ (.integer value) =>
    if value < 0 then .error (v.wrongType "an unsigned 64 bit or less integer")
    else .ok value.toNat.toUInt64
  | scalar _ (.boolean value) => .ok (if value then 1 else 0)
  | scalar _ (.real value) => .ok (value.roundToNat 64).toUInt64
  | scalar _ (.text text) =>
    match truth? text with
    | some value => .ok (if value then 1 else 0)
    | none =>
      match Digit.unsigned? 64 text.toList with
      | some n => .ok n.toUInt64
      | none => .error (v.wrongType "an integer")
  | v => .error (v.wrongType "an integer")

/-- The last 32 bits of a number of 64 bits. -/
def toHalfWord (v : Value) : Except WrongType UInt32 := v.toWord.map UInt64.toUInt32

def toReal (v : Value) : Except WrongType Double :=
  match v with
  | scalar _ (.integer value) => .ok (.ofInt value)
  | scalar _ (.boolean value) => .ok (if value then .one else .zero)
  | scalar _ (.real value) => .ok value
  | scalar _ (.text text) =>
    match truth? text with
    | some value => .ok (if value then .one else .zero)
    | none =>
      match Decimal.read? text with
      | some value => .ok value
      | none => .error (v.wrongType "a floating point")
  | v => .error (v.wrongType "a floating point")

def toText (v : Value) : Except WrongType String :=
  match v with
  | scalar _ value => .ok value.spelling
  | v => .error (v.wrongType "a string")

end Value
end FederatedRounds.Settings
