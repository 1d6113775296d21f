import FederatedRounds.Number.Decimal
import FederatedRounds.Toml.Date
import FederatedRounds.Toml.Token
/-! Values that are written without quotes: truth values, integers in four bases, reals, dates and
times. They may take several tokens. -/
namespace FederatedRounds.Toml

/-- A date or time is kept as its text. -/
inductive Scalar where
  | text (value : String)
  | integer (value : Int)
  | real (value : Double)
  | boolean (value : Bool)

/-- Digits of a base, of which two neighbours may be kept apart by one underscore, and the rest. -/
structure Group where
  negative : Bool
  digits : List Nat
  rest : List Char

def Group.value (base : Nat) (g : Group) : Nat := g.digits.foldl (fun n d => base * n + d) 0

def digitOf? (base : Nat) (c : Char) : Option Nat :=
  (Hexadecimal.digit? c).filter fun digit => digit < base

/-- Reads on after a digit; an underscore has to stand between two digits. -/
def groupFrom (base : Nat) (done : List Nat) : List Char → Option (List Nat × List Char)
  | [] => some (done.reverse, [])
  | '_' :: c :: rest =>
    match digitOf? base c with
    | some digit => groupFrom base (digit :: done) rest
    | none => none
  | c :: rest =>
    if c = '_' then none
    else
      match digitOf? base c with
      | some digit => groupFrom base (digit :: done) rest
      | none => some (done.reverse, c :: rest)

/-- Without `zeros`, a zero does not stand before other digits. -/
def group? (base : Nat) (signed zeros : Bool) (text : List Char) : Option Group := do
  let (negative, body) :=
    match text with
    | '-' :: rest => if signed then (true, rest) else (false, text)
    | '+' :: rest => if signed then (false, rest) else (false, text)
    | text => (false, text)
  match body with
  | [] => none
  | c :: rest =>
    let digit ← digitOf? base c
    let (digits, rest) ← groupFrom base [digit] rest
    if digit = 0 ∧ 1 < digits.length ∧ !zeros then none else pure ⟨negative, digits, rest⟩

def integer? (base : Nat) (text : List Char) : Option Scalar := do
  let g ← group? base (base == 10) (base != 10) text
  let value : Int := if g.negative then -(g.value base) else g.value base
  if g.rest = [] ∧ -UInt64.size ≤ 2 * value ∧ 2 * value < UInt64.size then pure (.integer value)
  else none

/-- The number that a whole part, a fraction and an exponent spell, if it is finite. -/
def realOf? (whole : Group) (fraction : List Nat) (exponent : Int) : Option Scalar :=
  let coefficient := (whole.digits ++ fraction).foldl (fun n d => 10 * n + d) 0
  let value : Double :=
    Decimal.nearest ⟨whole.negative, coefficient, exponent - fraction.length⟩
  if value.isFinite then some (.real value) else none

/-- The exponent in what is left of a word, and the tokens after it. A plus is a token of its own.
-/
def exponent? (text : List Char) (rest : List Token) : Option (Int × List Token) :=
  match text with
  | [] => some (0, rest)
  | mark :: text =>
    if mark = 'e' ∨ mark = 'E' then
      let finish (g : Group) (rest : List Token) : Option (Int × List Token) :=
        if g.rest = [] then
          some (if g.negative then -(g.value 10 : Int) else g.value 10, rest)
        else none
      match text, rest with
      | [], .mark '+' :: .word text :: rest => (group? 10 false true text).bind (finish · rest)
      | [], _ => none
      | text, rest => (group? 10 true true text).bind (finish · rest)
    else none

def real? (word : List Char) (after : Option (List Char)) (rest : List Token) :
    Option (Scalar × List Token) := do
  let whole ← group? 10 true false word
  match after with
  | none =>
    let (exponent, rest) ← exponent? whole.rest rest
    pure (← realOf? whole [] exponent, rest)
  | some after =>
    let fraction ← group? 10 false true after
    if whole.rest = [] then
      let (exponent, rest) ← exponent? fraction.rest rest
      pure (← realOf? whole fraction.digits exponent, rest)
    else none

def number? (word : List Char) (rest : List Token) : Option (Scalar × List Token) :=
  let alone (value : Option Scalar) : Option (Scalar × List Token) :=
    value.map fun value => (value, rest)
  match word, rest with
  | '0' :: 'x' :: digits, _ => alone (integer? 16 digits)
  | '0' :: 'o' :: digits, _ => alone (integer? 8 digits)
  | '0' :: 'b' :: digits, _ => alone (integer? 2 digits)
  | ['i', 'n', 'f'], _ => alone (some (.real (.infinite false)))
  | ['-', 'i', 'n', 'f'], _ => alone (some (.real (.infinite true)))
  | ['n', 'a', 'n'], _ => alone (some (.real .nan))
  | ['-', 'n', 'a', 'n'], _ => alone (some (.real .nan))
  | word, rest =>
    if word.contains 'e' || word.contains 'E' then real? word none rest
    else
      match rest with
      | .mark '.' :: .word after :: rest => real? word (some after) rest
      | .mark '.' :: _ => none
      | _ => alone (integer? 10 word)

/-- A word that only a date can start with: it has a `T`, or a hyphen behind its first character
that is no sign of an exponent. -/
def startsDate (word : List Char) : Bool :=
  word.contains 'T' || word.contains 't' ||
    ((word.drop 1).contains '-' &&
      !(word.zip (word.drop 1)).any fun (a, b) => (a = 'e' || a = 'E') && b = '-')

/-- The tokens of a date or time after its first word: the text that they add, and the rest. -/
def clockTokens : List Token → Option (List Char × List Token)
  | .mark ':' :: .word minute :: .mark ':' :: .word second :: rest =>
    let start := ':' :: minute ++ ':' :: second
    let (start, rest) :=
      match rest with
      | .mark '.' :: .word places :: rest => (start ++ '.' :: places, rest)
      | rest => (start, rest)
    let (start, rest) :=
      match rest with
      | .mark '+' :: .word hours :: rest => (start ++ '+' :: hours, rest)
      | rest => (start, rest)
    match rest with
    | .mark ':' :: .word minutes :: rest => some (start ++ ':' :: minutes, rest)
    | rest => some (start, rest)
  | .mark ':' :: _ => none
  | rest => some ([], rest)

/-- A date and a time may be kept apart by one space. -/
def dateTokens (word : List Char) (rest : List Token) : Option (Scalar × List Token) := do
  let (word, rest) :=
    match rest with
    | .blank [' '] :: .word hour :: rest => (word ++ ' ' :: hour, rest)
    | rest => (word, rest)
  let (clock, rest) ← clockTokens rest
  let text ← dateText? (word ++ clock)
  pure (.text (String.ofList text), rest)

def scalarOf? (word : List Char) (rest : List Token) : Option (Scalar × List Token) :=
  match word with
  | ['t', 'r', 'u', 'e'] => some (.boolean true, rest)
  | ['f', 'a', 'l', 's', 'e'] => some (.boolean false, rest)
  | ['i', 'n', 'f'] => number? word rest
  | ['n', 'a', 'n'] => number? word rest
  | c :: _ =>
    if c = '-' ∨ c.isDigit then
      if startsDate word || rest.head? = some (.mark ':') then dateTokens word rest
      else number? word rest
    else none
  | [] => none

end FederatedRounds.Toml
