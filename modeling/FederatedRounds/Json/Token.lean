import FederatedRounds.Json.Basic
import FederatedRounds.Number.Hexadecimal
/-! The tokens of JSON text. `scan` reads a text into tokens and drops the blanks between them;
`Token.text` is the one spelling that this library writes for a token. -/
namespace FederatedRounds.Json

inductive Token where
  | openArray
  | closeArray
  | openObject
  | closeObject
  | comma
  | colon
  | null
  | boolean (value : Bool)
  | number (literal : Numeral)
  | string (text : Text)
deriving DecidableEq

def isBlank (c : Char) : Bool := c = ' ' || c = '\t' || c = '\n' || c = '\r'

/-- A piece of a string literal: a character, or a unit given by a numeric escape. -/
inductive Piece where
  | char (c : Char)
  | unit (value : Nat)

def unit? (a b c d : Char) : Option Nat :=
  match Hexadecimal.digit? a, Hexadecimal.digit? b, Hexadecimal.digit? c, Hexadecimal.digit? d with
  | some a, some b, some c, some d => some (((a * 16 + b) * 16 + c) * 16 + d)
  | _, _, _, _ => none

/-- The character that an escape of one letter stands for. -/
def simpleEscape? : Char → Option Char
  | '"' => some '"'
  | '\\' => some '\\'
  | '/' => some '/'
  | 'b' => some '\x08'
  | 'f' => some '\x0c'
  | 'n' => some '\n'
  | 'r' => some '\r'
  | 't' => some '\t'
  | _ => none

/-- Reads up to the closing quote. Control characters must be escaped. -/
def pieces : List Char → Option (List Piece × List Char)
  | [] => none
  | '"' :: rest => some ([], rest)
  | '\\' :: 'u' :: a :: b :: c :: d :: rest =>
    match unit? a b c d, pieces rest with
    | some value, some (more, rest) => some (.unit value :: more, rest)
    | _, _ => none
  | '\\' :: letter :: rest =>
    match simpleEscape? letter, pieces rest with
    | some c, some (more, rest) => some (.char c :: more, rest)
    | _, _ => none
  | c :: rest =>
    if c.toNat < 0x20 ∨ c = '\\' then none
    else match pieces rest with
      | some (more, rest) => some (.char c :: more, rest)
      | none => none

def isHighSurrogate (unit : Nat) : Bool := 0xD800 ≤ unit && unit < 0xDC00

def isLowSurrogate (unit : Nat) : Bool := 0xDC00 ≤ unit && unit < 0xE000

/-- Puts pairs of surrogates together; an unpaired one leaves no text. -/
def assemble : List Piece → Option (List Char)
  | [] => some []
  | .char c :: rest => (assemble rest).map (c :: ·)
  | .unit high :: .unit low :: rest =>
    if isHighSurrogate high then
      if isLowSurrogate low then
        (assemble rest).map
          (Char.ofNat (0x10000 + (high - 0xD800) * 0x400 + (low - 0xDC00)) :: ·)
      else none
    else if isLowSurrogate high then none
    else (assemble (.unit low :: rest)).map (Char.ofNat high :: ·)
  | .unit value :: rest =>
    if isHighSurrogate value || isLowSurrogate value then none
    else (assemble rest).map (Char.ofNat value :: ·)

/-- The whole part of a number: a zero alone, or digits that do not start with one. -/
def wholePart? (text : List Char) : Option (Nat × List Char) :=
  match Digit.run text with
  | ([], _) => none
  | ([d], rest) => some (d.val, rest)
  | (d :: ds, rest) => if d = 0 then none else some (Digit.value (d :: ds), rest)

def fractionPart? : List Char → Option (List Digit × List Char)
  | '.' :: rest =>
    match Digit.run rest with
    | ([], _) => none
    | (digits, rest) => some (digits, rest)
  | rest => some ([], rest)

def exponentDigits? (negative : Bool) (text : List Char) : Option (Option Int × List Char) :=
  match Digit.run text with
  | ([], _) => none
  | (digits, rest) =>
    let size : Int := Digit.value digits
    some (some (if negative then -size else size), rest)

def exponentPart? : List Char → Option (Option Int × List Char)
  | c :: '-' :: rest =>
    if c = 'e' ∨ c = 'E' then exponentDigits? true rest else some (none, c :: '-' :: rest)
  | c :: '+' :: rest =>
    if c = 'e' ∨ c = 'E' then exponentDigits? false rest else some (none, c :: '+' :: rest)
  | c :: rest =>
    if c = 'e' ∨ c = 'E' then exponentDigits? false rest else some (none, c :: rest)
  | [] => some (none, [])

def unsigned? (negative : Bool) (text : List Char) : Option (Numeral × List Char) := do
  let (whole, rest) ← wholePart? text
  let (fraction, rest) ← fractionPart? rest
  let (exponent, rest) ← exponentPart? rest
  pure (⟨negative, whole, fraction, exponent⟩, rest)

def numeral? : List Char → Option (Numeral × List Char)
  | '-' :: rest => unsigned? true rest
  | text => unsigned? false text

def next? : List Char → Option (Token × List Char)
  | '[' :: rest => some (.openArray, rest)
  | ']' :: rest => some (.closeArray, rest)
  | '{' :: rest => some (.openObject, rest)
  | '}' :: rest => some (.closeObject, rest)
  | ',' :: rest => some (.comma, rest)
  | ':' :: rest => some (.colon, rest)
  | 'n' :: 'u' :: 'l' :: 'l' :: rest => some (.null, rest)
  | 't' :: 'r' :: 'u' :: 'e' :: rest => some (.boolean true, rest)
  | 'f' :: 'a' :: 'l' :: 's' :: 'e' :: rest => some (.boolean false, rest)
  | '"' :: rest =>
    match pieces rest with
    | some (found, rest) => some (.string ((assemble found).map String.ofList), rest)
    | none => none
  | text =>
    match numeral? text with
    | some (literal, rest) => some (.number literal, rest)
    | none => none

private theorem pieces_shorter (text : List Char) :
    ∀ {found rest}, pieces text = some (found, rest) → rest.length < text.length := by
  fun_induction pieces text <;> intro found rest h <;>
    (try simp only [List.length_cons]) <;> grind

private theorem wholePart?_shorter {text rest : List Char} {whole : Nat}
    (h : wholePart? text = some (whole, rest)) : rest.length < text.length := by
  have count := Digit.run_length text
  unfold wholePart? at h
  grind

private theorem fractionPart?_shorter {text rest : List Char} {digits : List Digit}
    (h : fractionPart? text = some (digits, rest)) : rest.length ≤ text.length := by
  unfold fractionPart? at h
  split at h
  · rename_i tail
    have count := Digit.run_length tail
    grind
  · grind

private theorem exponentDigits?_shorter {negative : Bool} {text rest : List Char} {e : Option Int}
    (h : exponentDigits? negative text = some (e, rest)) : rest.length ≤ text.length := by
  have count := Digit.run_length text
  unfold exponentDigits? at h
  grind

private theorem exponentPart?_shorter {text rest : List Char} {e : Option Int}
    (h : exponentPart? text = some (e, rest)) : rest.length ≤ text.length := by
  unfold exponentPart? at h
  split at h <;> (try split at h) <;> grind [→ exponentDigits?_shorter]

private theorem unsigned?_shorter {negative : Bool} {text rest : List Char} {n : Numeral}
    (h : unsigned? negative text = some (n, rest)) : rest.length < text.length := by
  simp only [unsigned?, Option.bind_eq_bind, Option.bind_eq_some_iff, Option.pure_def,
    Option.some.injEq, Prod.mk.injEq] at h
  obtain ⟨⟨whole, r1⟩, h1, ⟨fraction, r2⟩, h2, ⟨e, r3⟩, h3, -, rfl⟩ := h
  have whole_shorter := wholePart?_shorter h1
  have fraction_shorter := fractionPart?_shorter h2
  have exponent_shorter := exponentPart?_shorter h3
  exact Nat.lt_of_le_of_lt (Nat.le_trans exponent_shorter fraction_shorter) whole_shorter

private theorem numeral?_shorter {text rest : List Char} {n : Numeral}
    (h : numeral? text = some (n, rest)) : rest.length < text.length := by
  unfold numeral? at h
  split at h
  · have := unsigned?_shorter h
    simp only [List.length_cons]
    omega
  · exact unsigned?_shorter h

theorem next?_shorter {text rest : List Char} {token : Token}
    (h : next? text = some (token, rest)) : rest.length < text.length := by
  unfold next? at h
  split at h
  case h_10 tail =>
    split at h
    · rename_i found rest' hp
      have := pieces_shorter tail hp
      grind
    · simp at h
  case h_11 =>
    split at h
    · rename_i literal rest' hn
      have := numeral?_shorter hn
      grind
    · simp at h
  all_goals grind

/-- The tokens of a text, without the blanks around them. -/
def scan (text : List Char) : Option (List Token) :=
  match text with
  | [] => some []
  | c :: rest =>
    if isBlank c then scan rest
    else
      match _found : next? (c :: rest) with
      | some (token, rest) => (scan rest).map (token :: ·)
      | none => none
termination_by text.length
decreasing_by
  · simp
  · exact next?_shorter _found

end FederatedRounds.Json
