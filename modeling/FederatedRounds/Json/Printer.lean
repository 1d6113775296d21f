import FederatedRounds.Json.Token
/-! Writing JSON values, without blanks. Only quotes, backslashes and control characters are escaped
in strings. An exponent is written with its sign. -/
namespace FederatedRounds.Json

def escape : Char → List Char
  | '"' => ['\\', '"']
  | '\\' => ['\\', '\\']
  | '\x08' => ['\\', 'b']
  | '\x0c' => ['\\', 'f']
  | '\n' => ['\\', 'n']
  | '\r' => ['\\', 'r']
  | '\t' => ['\\', 't']
  | c =>
    if c.toNat < 0x20 then
      '\\' :: 'u' :: Hexadecimal.padded 4 c.toNat
    else [c]

/-- A string literal; a string without a text is written as one unpaired surrogate. -/
def quoted : Text → List Char
  | some text => '"' :: (text.toList.flatMap escape ++ ['"'])
  | none => "\"\\ud800\"".toList

def numeralText (n : Numeral) : List Char :=
  let sign := if n.negative then ['-'] else []
  let fraction := if n.fraction.isEmpty then [] else '.' :: Digit.text n.fraction
  let exponent :=
    match n.exponent with
    | none => []
    | some e => 'e' :: (if e < 0 then '-' else '+') :: Digit.text (Digit.spell e.natAbs)
  sign ++ Digit.text (Digit.spell n.whole) ++ fraction ++ exponent

def Token.text : Token → List Char
  | .openArray => ['[']
  | .closeArray => [']']
  | .openObject => ['{']
  | .closeObject => ['}']
  | .comma => [',']
  | .colon => [':']
  | .null => "null".toList
  | .boolean true => "true".toList
  | .boolean false => "false".toList
  | .number literal => numeralText literal
  | .string t => quoted t

mutual

def toTokens : Json → List Token
  | null => [.null]
  | boolean b => [.boolean b]
  | number n => [.number n]
  | string t => [.string t]
  | array items => .openArray :: (itemTokens true items ++ [.closeArray])
  | object members => .openObject :: (memberTokens true members ++ [.closeObject])

def itemTokens (first : Bool) : List Json → List Token
  | [] => []
  | item :: rest =>
    (if first then [] else [.comma]) ++ item.toTokens ++ itemTokens false rest

def memberTokens (first : Bool) : List (Text × Json) → List Token
  | [] => []
  | (key, value) :: rest =>
    (if first then [] else [.comma]) ++ .string key :: .colon :: value.toTokens
      ++ memberTokens false rest

end

def render (value : Json) : String := String.ofList (value.toTokens.flatMap Token.text)

end FederatedRounds.Json
