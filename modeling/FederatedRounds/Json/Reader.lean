import FederatedRounds.Json.Token
/-! Reading a JSON value from its tokens, one token at a time. What has been read is kept in the
frames of the arrays and objects that are still open; a text is one value and nothing after it. -/
namespace FederatedRounds.Json

/-- An array or object that is still open, with what it holds so far, last first. -/
inductive Frame where
  | array (done : List Json)
  | object (done : List Member) (key : Text)

/-- What may follow what has been read. -/
inductive Reader where
  | value (stack : List Frame)
  | firstItem (stack : List Frame)
  | firstKey (stack : List Frame)
  | nextKey (done : List Member) (stack : List Frame)
  | colon (done : List Member) (key : Text) (stack : List Frame)
  | afterItem (done : List Json) (stack : List Frame)
  | afterMember (done : List Member) (stack : List Frame)
  | finished (value : Json)

namespace Reader

/-- Puts a complete value where it belongs. -/
def deliver (value : Json) : List Frame → Reader
  | [] => finished value
  | .array done :: stack => afterItem (value :: done) stack
  | .object done key :: stack => afterMember ((key, value) :: done) stack

def startValue (stack : List Frame) : Token → Option Reader
  | .openArray => some (firstItem stack)
  | .openObject => some (firstKey stack)
  | .null => some (deliver .null stack)
  | .boolean b => some (deliver (.boolean b) stack)
  | .number n => some (deliver (.number n) stack)
  | .string t => some (deliver (.string t) stack)
  | _ => none

def step : Reader → Token → Option Reader
  | value stack, token => startValue stack token
  | firstItem stack, .closeArray => some (deliver (.array []) stack)
  | firstItem stack, token => startValue (.array [] :: stack) token
  | firstKey stack, .closeObject => some (deliver (.object []) stack)
  | firstKey stack, .string key => some (colon [] key stack)
  | nextKey done stack, .string key => some (colon done key stack)
  | colon done key stack, .colon => some (value (.object done key :: stack))
  | afterItem done stack, .comma => some (value (.array done :: stack))
  | afterItem done stack, .closeArray => some (deliver (.array done.reverse) stack)
  | afterMember done stack, .comma => some (nextKey done stack)
  | afterMember done stack, .closeObject => some (deliver (.object done.reverse) stack)
  | _, _ => none

def result? : Reader → Option Json
  | finished complete => some complete
  | _ => none

end Reader

def ofTokens? (tokens : List Token) : Option Json :=
  (tokens.foldlM Reader.step (.value [])).bind Reader.result?

def parse? (text : String) : Option Json := (scan text.toList).bind ofTokens?

end FederatedRounds.Json
