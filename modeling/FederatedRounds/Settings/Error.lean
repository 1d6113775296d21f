import FederatedRounds.Settings.Value
/-! Why settings are refused. -/
namespace FederatedRounds

/-- A structure or a choice that settings are made of, by the name under which errors know it. -/
inductive Settings.Shape where
  | record (name : String)
  | fields (name : String) (count : Nat)
  | tagged (name : String)
  | variantFields (name variant : String) (count : Nat)
  | sequence (count : Nat)

namespace Settings

def countText (count : Nat) : String :=
  natText count ++ if count = 1 then " element" else " elements"

def Shape.text : Shape → String
  | record name => "struct " ++ name
  | fields name count => "struct " ++ name ++ " with " ++ countText count
  | tagged name => "internally tagged enum " ++ name
  | variantFields name variant count =>
    "struct variant " ++ name ++ "::" ++ variant ++ " with " ++ countText count
  | sequence count => countText count ++ " in sequence"

end Settings

inductive SettingsError where
  | fileNotFound (path : String)
  | unknownFormat (path : String)
  | malformedFile
  | wrongType (error : Settings.WrongType)
  | wrongShape (found expected : String)
  | wrongLength (length : Nat) (expected : Settings.Shape)
  | missingField (name : String)
  | notAVariant (choice variant : String)
  | notAChoice (choice : String)
  | unknownTag (tag : String) (known : List String)
  | badAddress

namespace SettingsError

def message : SettingsError → String
  | fileNotFound path => "configuration file \"" ++ path ++ "\" not found"
  | unknownFormat path => "configuration file \"" ++ path ++ "\" is not of a registered file format"
  | malformedFile => "the configuration file is malformed"
  | wrongType error => error.message
  | wrongShape found expected => "invalid type: " ++ found ++ ", expected " ++ expected
  | wrongLength length expected =>
    "invalid length " ++ natText length ++ ", expected " ++ expected.text
  | missingField name => "missing field `" ++ name ++ "`"
  | notAVariant choice variant =>
    "enum " ++ choice ++ " does not have variant constructor " ++ variant
  | notAChoice choice =>
    "value of enum " ++ choice ++
      " should be represented by either string or table with exactly one key"
  | unknownTag tag known =>
    "unknown variant `" ++ tag ++ "`, expected " ++
      " or ".intercalate (known.map fun name => "`" ++ name ++ "`")
  | badAddress => "invalid socket address syntax"

/-- Puts a step before the key of a wrong type. Only names are set apart by points. -/
def below (before : String) : SettingsError → SettingsError
  | wrongType e =>
    let point := if e.key = "" ∨ e.key.toList.head? = some '[' then "" else "."
    wrongType { e with key := before ++ point ++ e.key }
  | error => error

end SettingsError
end FederatedRounds
