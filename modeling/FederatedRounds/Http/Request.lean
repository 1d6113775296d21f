import FederatedRounds.Http.MediaType
import FederatedRounds.Number.Digits
/-! A request as it arrives: a method, a target, headers and a body. The body is a text: requests
with a body that is not UTF-8 are not represented, and nothing is said of what becomes of them. -/
namespace FederatedRounds.Http

structure Request where
  method : String
  target : String
  headers : List (String × String)
  body : String

namespace Request

/-- The values of a header in the order in which they stand. Names are compared without regard to
case. -/
def header (r : Request) (name : String) : List String :=
  (r.headers.filter fun header => header.1.toLower = name).map (·.2)

/-- The length that is declared for the body, when all headers that declare one agree. -/
def declaredLength? (r : Request) : Option Nat :=
  match (r.header "content-length").mapM fun value => Digit.unsigned? 64 value.toList with
  | some (length :: others) => if others.all (· = length) then some length else none
  | _ => none

/-- The body may be JSON: it is declared as such, or as nothing. -/
def admitsJson (r : Request) : Bool :=
  match r.header "content-type" with
  | [] => true
  | value :: _ => MediaType.parse? value = some .json

end Request
end FederatedRounds.Http
