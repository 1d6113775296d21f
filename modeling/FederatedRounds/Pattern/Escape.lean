import FederatedRounds.Number.Hexadecimal
import FederatedRounds.Pattern.Basic
import FederatedRounds.Pattern.Property
/-! Escapes in the text of a pattern. An escape stands for a character, for a set of characters or
for a condition on a place. -/
namespace FederatedRounds.Pattern

/-- How a part of a text is read: letters in any case, edges at every line, dots for line ends too,
sets of all scripts, lines with carriage returns, and blanks and comments for the reader only. -/
structure Flags where
  anyCase : Bool
  multiline : Bool
  wideDots : Bool
  allScripts : Bool
  carriageReturn : Bool
  spaced : Bool

def Flags.plain : Flags := ⟨false, false, false, true, false, false⟩

def dropSpace (inComment : Bool) : List Char → List Char
  | [] => []
  | c :: rest =>
    if inComment then dropSpace (c ≠ '\n') rest
    else if c = '#' then dropSpace true rest
    else if Text.isBlank c then dropSpace false rest
    else c :: rest

/-- The text without the blanks and comments that it starts with, where they do not count. -/
def Flags.skip (flags : Flags) (text : List Char) : List Char :=
  if flags.spaced then dropSpace false text else text

inductive Atom where
  | char (c : Char)
  | set (set : CharSet)
  | edge (edge : Edge)

/-- So many hexadecimal digits, last first, and the rest. -/
def hexDigitsFrom (flags : Flags) (done : List Nat) :
    Nat → List Char → Option (List Nat × List Char)
  | 0, text => some (done, text)
  | _ + 1, [] => none
  | n + 1, c :: rest => do
    hexDigitsFrom flags ((← Hexadecimal.digit? c) :: done) n (flags.skip rest)

def charOf? (digits : List Nat) : Option Char :=
  let value := digits.foldr (fun digit value => 16 * value + digit) 0
  if value.isValidChar then some (Char.ofNat value) else none

def braced? (flags : Flags) : List Char → Option (List Char × List Char)
  | '\x7b' :: text =>
    match text.span (· ≠ '\x7d') with
    | (inside, _ :: rest) =>
      some (if flags.spaced then inside.filter fun c => !Text.isBlank c else inside, rest)
    | _ => none
  | _ => none

/-- A character by its code point, of so many digits or in braces. -/
def codePoint? (flags : Flags) (count : Nat) (text : List Char) : Option (Char × List Char) := do
  let text := flags.skip text
  match braced? flags text with
  | some (inside, rest) =>
    let digits ← inside.mapM Hexadecimal.digit?
    if digits = [] then none else pure (← charOf? digits.reverse, flags.skip rest)
  | none =>
    let (digits, rest) ← hexDigitsFrom flags [] count text
    pure (← charOf? digits, rest)

/-- A set in any case if the flags say so, or its complement. Without all scripts there is no
complement, since it would not be made of characters. -/
def Flags.finish? (flags : Flags) (negated : Bool) (set : CharSet) : Option CharSet :=
  let set := if flags.anyCase then .anyCase (!flags.allScripts) set else set
  if negated then (if flags.allScripts then some (.complement set) else none) else some set

/-- A set with a property, by a name of one letter or in braces. -/
def property (flags : Flags) (negated : Bool) (text : List Char) : Option (Atom × List Char) :=
  if flags.allScripts then do
    let text := flags.skip text
    match braced? flags text, text with
    | some (name, rest), _ =>
      let set ← flags.finish? negated (← propertySet? name)
      pure (.set set, rest)
    | none, c :: rest =>
      let set ← flags.finish? negated (← propertySet? [c])
      pure (.set set, flags.skip rest)
    | none, [] => none
  else none

def asciiKind : Kind → CharSet
  | .digit => .range '0' '9'
  | .blank => .union (.range '\t' '\r') (.ofChar ' ')
  | .word => .unions [.range '0' '9', .range 'a' 'z', .range 'A' 'Z', .ofChar '_']

def kindSet (flags : Flags) (kind : Kind) : CharSet :=
  if flags.allScripts then .kind kind else asciiKind kind

/-- An edge of words, of which the name may follow in braces. Other braces belong to a repetition.
-/
def wordEdge? (flags : Flags) (text : List Char) : Option (Atom × List Char) :=
  let ascii := !flags.allScripts
  let isNameChar (c : Char) : Bool := c.isAlpha || c = '-'
  match text with
  | '\x7b' :: rest =>
    match flags.skip rest with
    | [] => none
    | c :: _ =>
      if isNameChar c then do
        let (name, rest) ← braced? flags text
        match String.ofList name with
        | "start" => pure (.edge (.wordStart ascii), rest)
        | "end" => pure (.edge (.wordEnd ascii), rest)
        | "start-half" => pure (.edge (.noWordBefore ascii), rest)
        | "end-half" => pure (.edge (.noWordAfter ascii), rest)
        | _ => none
      else some (.edge (.wordEdge ascii), text)
  | _ => some (.edge (.wordEdge ascii), text)

/-- What the characters after a backslash stand for. Signs stand for themselves; letters and digits
without a meaning are refused. -/
def escape? (flags : Flags) : List Char → Option (Atom × List Char)
  | [] => none
  | c :: rest =>
    let ascii := !flags.allScripts
    let complementOf (kind : Kind) : Option (Atom × List Char) :=
      if ascii then none else some (.set (.complement (.kind kind)), rest)
    match c with
    | 'x' =>
      match codePoint? flags 2 rest with
      | some (c, after) =>
        if ascii ∧ 128 ≤ c.val ∧ (flags.skip rest).head? ≠ some '\x7b' then none
        else some (.char c, after)
      | none => none
    | 'u' => (codePoint? flags 4 rest).map fun (c, rest) => (.char c, rest)
    | 'U' => (codePoint? flags 8 rest).map fun (c, rest) => (.char c, rest)
    | 'p' => property flags false rest
    | 'P' => property flags true rest
    | 'd' => some (.set (kindSet flags .digit), rest)
    | 's' => some (.set (kindSet flags .blank), rest)
    | 'w' => some (.set (kindSet flags .word), rest)
    | 'D' => complementOf .digit
    | 'S' => complementOf .blank
    | 'W' => complementOf .word
    | 'a' => some (.char '\x07', rest)
    | 'f' => some (.char '\x0c', rest)
    | 't' => some (.char '\t', rest)
    | 'n' => some (.char '\n', rest)
    | 'r' => some (.char '\r', rest)
    | 'v' => some (.char '\x0b', rest)
    | 'A' => some (.edge .textStart, rest)
    | 'z' => some (.edge .textEnd, rest)
    | 'b' => wordEdge? flags rest
    | 'B' => some (.edge (.noWordEdge ascii), rest)
    | '<' => some (.edge (.wordStart ascii), rest)
    | '>' => some (.edge (.wordEnd ascii), rest)
    | c => if c.isAlphanum ∨ 128 ≤ c.val then none else some (.char c, rest)

end FederatedRounds.Pattern
