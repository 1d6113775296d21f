import FederatedRounds.Json.Reader
import FederatedRounds.Settings.KeyPath
import FederatedRounds.Toml.Reader
import FederatedRounds.Wire.Number
/-! The sources of settings: a file in one of two formats, and the environment, which is set over
the file. Names at the top of a file and names of variables are paths. -/
namespace FederatedRounds.Settings

inductive Format where
  | toml
  | json
deriving DecidableEq

namespace Format

def extension : Format → String
  | toml => "toml"
  | json => "json"

def all : List Format := [toml, json]

def ofExtension? (extension : String) : Option Format :=
  all.find? fun format => format.extension = extension

end Format

namespace Value

mutual

def ofToml (origin : Origin) : Toml → Value
  | .scalar (.text value) => .scalar origin (.text value)
  | .scalar (.integer value) => .scalar origin (.integer value)
  | .scalar (.real value) => .scalar origin (.real value)
  | .scalar (.boolean value) => .scalar origin (.boolean value)
  | .list items => .list origin (ofTomlItems origin items)
  | .table members => .table origin (ofTomlMembers origin members)

def ofTomlItems (origin : Origin) : List Toml → List Value
  | [] => []
  | item :: rest => ofToml origin item :: ofTomlItems origin rest

def ofTomlMembers (origin : Origin) : List (String × Toml) → List (String × Value)
  | [] => []
  | (name, value) :: rest => (name, ofToml origin value) :: ofTomlMembers origin rest

end

/-- Integers of 64 bits with a sign stay integers; all other literals are doubles. -/
def ofNumeral? (literal : Numeral) : Option Scalar :=
  if literal.isWord ∧ (literal.negative ∨ 2 * literal.whole < UInt64.size) then
    some (.integer (if literal.negative then -literal.whole else literal.whole))
  else literal.double?.map .real

mutual

/-- Of a repeated name the last value counts. -/
def ofJson? (origin : Origin) : Json → Option Value
  | .null => some (.null origin)
  | .boolean value => some (.scalar origin (.boolean value))
  | .number literal => (ofNumeral? literal).map (.scalar origin)
  | .string text => text.map fun text => .scalar origin (.text text)
  | .array items => (ofJsonItems? origin items).map (.list origin)
  | .object members =>
    (ofJsonMembers? origin members).map fun members => .table origin (Table.ofEntries members)

def ofJsonItems? (origin : Origin) : List Json → Option (List Value)
  | [] => some []
  | item :: rest => do
    let item ← ofJson? origin item
    let rest ← ofJsonItems? origin rest
    pure (item :: rest)

def ofJsonMembers? (origin : Origin) :
    List (Option String × Json) → Option (List (String × Value))
  | [] => some []
  | (name, value) :: rest => do
    let name ← name
    let value ← ofJson? origin value
    let rest ← ofJsonMembers? origin rest
    pure ((name, value) :: rest)

end

end Value

/-- Arrays and objects may stand inside one another up to a limit. -/
def depthLimit : Nat := 127

namespace Format

/-- The members at the top of a file. A file whose top is no table has none. -/
def read? (format : Format) (origin : Origin) (text : String) : Option (List (String × Value)) :=
  match format with
  | toml => (Toml.parse? text).map (Value.ofTomlMembers origin)
  | json => do
    let json ← Json.parse? text
    if depthLimit < json.depth then none
    else
      let value ← Value.ofJson? origin json
      pure value.members

end Format

/-- What the names of variables start with, in lower case. -/
def variablePrefix : String := "coordinator__"

/-- Two underscores become a point. -/
def dotted : List Char → List Char
  | '_' :: '_' :: rest => '.' :: dotted rest
  | c :: rest => c :: dotted rest
  | [] => []

/-- A character in lower case. Of those beyond ASCII only the Kelvin sign has a letter of ASCII for
it, and names with any other character are no paths in whatever case. -/
def lower : Char → Char
  | '\u212a' => 'k'
  | c => c.toLower

/-- The members that the variables of the environment make. Names are taken in lower case. -/
def environmentMembers (environment : List (String × String)) : List (String × Value) :=
  environment.filterMap fun (name, value) =>
    let name := name.toList.map lower
    let start := variablePrefix.toList
    if start.isPrefixOf name then
      let path := String.ofList (dotted (name.drop start.length))
      some (path, .scalar (some "the environment") (.text value))
    else none

def Value.setAll (root : Value) (members : List (String × Value)) : Value :=
  members.foldl (fun root (path, value) => root.setAt (KeyPath.ofText path) value) root

end FederatedRounds.Settings
