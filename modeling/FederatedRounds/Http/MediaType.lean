/-! Media types as a content-type header names them: a type and a subtype, a structured-syntax
suffix, and parameters. Letters count without regard to case. -/
namespace FederatedRounds.Http

structure MediaType where
  main : String
  sub : String
deriving DecidableEq

namespace MediaType

def json : MediaType := ⟨"application", "json"⟩

/-- The characters that names and unquoted values are made of. -/
def isTokenChar (c : Char) : Bool := c.isAlphanum || "!#$%&'*+-.^_`|~".toList.contains c

/-- The characters of a header between quotes: those of ASCII that show. -/
def isQuotedChar (c : Char) : Bool := 32 ≤ c.toNat && c.toNat < 127

/-- What may follow what has been read of the parameters. -/
inductive State where
  | beforeName
  | name
  | beforeValue
  | value
  | openQuote
  | quoted
  | afterQuote

def step : State → Char → Option State
  | .beforeName, ' ' => some .beforeName
  | .beforeName, c => if isTokenChar c then some .name else none
  | .name, '=' => some .beforeValue
  | .name, c => if isTokenChar c then some .name else none
  | .beforeValue, '"' => some .openQuote
  | .beforeValue, c => if isTokenChar c then some .value else none
  | .value, ';' => some .beforeName
  | .value, c => if isTokenChar c then some .value else none
  | .openQuote, c => if isQuotedChar c then some .quoted else none
  | .quoted, '"' => some .afterQuote
  | .quoted, c => if isQuotedChar c then some .quoted else none
  | .afterQuote, ';' => some .beforeName
  | .afterQuote, ' ' => some .afterQuote
  | .afterQuote, _ => none

def isFinal : State → Bool
  | .name | .openQuote | .quoted => false
  | _ => true

/-- Parameters: names and values, separated by semicolons. -/
def areParameters (text : List Char) : Bool :=
  match text.foldlM step .beforeName with
  | some state => isFinal state
  | none => false

/-- A subtype without its suffix, which starts at the last plus. -/
def withoutSuffix (sub : List Char) : List Char :=
  match sub with
  | [] => []
  | first :: rest =>
    match rest.reverse.dropWhile (· ≠ '+') with
    | [] => sub
    | _ :: before => first :: before.reverse

/-- Reads a media type. Only a semicolon ends the subtype. -/
def parse? (text : String) : Option MediaType :=
  let characters := text.toList.map Char.toLower
  match characters.span isTokenChar with
  | (main, '/' :: rest) =>
    let (sub, parameters) := rest.span isTokenChar
    let fine :=
      match parameters with
      | [] => true
      | mark :: parameters => sub ≠ [] && mark = ';' && areParameters parameters
    if main ≠ [] && fine then some ⟨String.ofList main, String.ofList (withoutSuffix sub)⟩ else none
  | _ => none

end MediaType
end FederatedRounds.Http
