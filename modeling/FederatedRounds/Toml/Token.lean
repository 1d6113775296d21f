import FederatedRounds.Number.Hexadecimal
/-! The tokens of TOML text: bare words, strings, marks, blanks and line ends. Comments are dropped.
A line end may be spelled with a carriage return. -/
namespace FederatedRounds.Toml

inductive Token where
  | blank (text : List Char)
  | lineEnd
  | word (text : List Char)
  | string (text : String) (multiline : Bool)
  | mark (c : Char)
deriving DecidableEq

/-- Line ends with a carriage return become plain ones. -/
def foldLineEnds : List Char → List Char
  | '\r' :: '\n' :: rest => '\n' :: foldLineEnds rest
  | c :: rest => c :: foldLineEnds rest
  | [] => []

def isWordChar (c : Char) : Bool := c.isAlphanum || c = '-' || c = '_'

def isMark (c : Char) : Bool := "=.,:+\x7b\x7d[]".toList.contains c

/-- Characters that a string may hold as they are, line ends apart. -/
def isTextChar (c : Char) : Bool := c = '\t' || (0x20 ≤ c.toNat && c.toNat ≠ 0x7f)

def push (front : List Char) (parts : List Char × List Char) : List Char × List Char :=
  (front ++ parts.1, parts.2)

/-- What a string on one line holds, escapes included, and what follows it. -/
def rawLine (quote : Char) (escapes : Bool) : List Char → Option (List Char × List Char)
  | [] => none
  | c :: rest =>
    if c = quote then some ([], rest)
    else if c = '\n' then none
    else if c = '\\' ∧ escapes then
      match rest with
      | [] => none
      | e :: rest => (rawLine quote escapes rest).map (push [c, e])
    else (rawLine quote escapes rest).map (push [c])

/-- What a string of several lines holds, escapes included, and what follows it. Of up to five
quotes at its end the last three close it. -/
def rawBlock (quote : Char) (escapes : Bool) : List Char → Option (List Char × List Char)
  | [] => none
  | c :: rest =>
    if c = quote ∧ rest.take 2 = [quote, quote] then
      let extra := ((rest.drop 2).take 2).takeWhile (· = quote)
      some (extra, rest.drop (2 + extra.length))
    else if c = '\\' ∧ escapes then
      match rest with
      | [] => none
      | e :: rest => (rawBlock quote escapes rest).map (push [c, e])
    else (rawBlock quote escapes rest).map (push [c])

/-- Where the reading of escapes stands. A backslash at the end of a line takes the blanks and line
ends after it away. -/
inductive Mode where
  | plain
  | escape
  | hex (left : Nat) (value : Nat)
  | seekLineEnd
  | skip
deriving DecidableEq

/-- The character of an escape by code point; surrogates are none. -/
def scalar? (value : Nat) : Option Char :=
  if value.isValidChar then some (Char.ofNat value) else none

/-- Takes one more character; `done` is what has been read, last first. -/
def unescapeStep (multiline : Bool) : List Char × Mode → Char → Option (List Char × Mode)
  | (done, .escape), c =>
    match c with
    | '"' => some ('"' :: done, .plain)
    | '\\' => some ('\\' :: done, .plain)
    | 'b' => some ('\x08' :: done, .plain)
    | 'f' => some ('\x0c' :: done, .plain)
    | 'n' => some ('\n' :: done, .plain)
    | 'r' => some ('\r' :: done, .plain)
    | 't' => some ('\t' :: done, .plain)
    | 'u' => some (done, .hex 4 0)
    | 'U' => some (done, .hex 8 0)
    | '\n' => if multiline then some (done, .skip) else none
    | c => if multiline ∧ (c = ' ' ∨ c = '\t') then some (done, .seekLineEnd) else none
  | (done, .hex left value), c =>
    match Hexadecimal.digit? c with
    | none => none
    | some digit =>
      let value := 16 * value + digit
      if left ≤ 1 then (scalar? value).map fun c => (c :: done, .plain)
      else some (done, .hex (left - 1) value)
  | (done, .seekLineEnd), c =>
    if c = '\n' then some (done, .skip)
    else if c = ' ' ∨ c = '\t' then some (done, .seekLineEnd)
    else none
  | (done, mode), c =>
    if mode = .skip ∧ (c = ' ' ∨ c = '\t' ∨ c = '\n') then some (done, .skip)
    else if c = '\\' then some (done, .escape)
    else if isTextChar c ∨ (multiline ∧ c = '\n') then some (c :: done, .plain)
    else none

def unescape? (multiline : Bool) (text : List Char) : Option (List Char) :=
  match text.foldlM (unescapeStep multiline) ([], .plain) with
  | some (done, .plain) => some done.reverse
  | some (done, .skip) => some done.reverse
  | _ => none

/-- A line end right after the opening quotes does not count. -/
def withoutFirstLineEnd : List Char → List Char
  | '\n' :: rest => rest
  | text => text

/-- The string after its first quote. Only strings in double quotes have escapes. -/
def string? (quote : Char) (text : List Char) : Option (Token × List Char) :=
  let escapes := quote = '"'
  let finish (multiline : Bool) (parts : List Char × List Char) : Option (Token × List Char) :=
    let body := if multiline then withoutFirstLineEnd parts.1 else parts.1
    let read :=
      if escapes then unescape? multiline body
      else if body.all fun c => isTextChar c || (multiline && c = '\n') then some body
      else none
    read.map fun body => (.string (String.ofList body) multiline, parts.2)
  if text.take 2 = [quote, quote] then (rawBlock quote escapes (text.drop 2)).bind (finish true)
  else (rawLine quote escapes text).bind (finish false)

def next? (c : Char) (rest : List Char) : Option (Token × List Char) :=
  if c = '\n' then some (.lineEnd, rest)
  else if c = ' ' ∨ c = '\t' then
    let isBlank (c : Char) : Bool := c = ' ' || c = '\t'
    some (.blank (c :: rest.takeWhile isBlank), rest.dropWhile isBlank)
  else if c = '"' ∨ c = '\'' then string? c rest
  else if isMark c then some (.mark c, rest)
  else if isWordChar c then some (.word (c :: rest.takeWhile isWordChar), rest.dropWhile isWordChar)
  else none

/-- Scans at most as many tokens and comments as `fuel` says. -/
def scanFrom : List Char → Nat → Option (List Token)
  | [], _ => some []
  | _ :: _, 0 => none
  | '#' :: rest, fuel + 1 =>
    scanFrom (rest.dropWhile fun c => c = '\t' || 0x20 ≤ c.toNat) fuel
  | c :: rest, fuel + 1 => do
    let (token, rest) ← next? c rest
    let tokens ← scanFrom rest fuel
    pure (token :: tokens)

/-- The tokens of a text. Every token takes at least one character, so there are at most as many. -/
def scan? (text : List Char) : Option (List Token) :=
  let text := foldLineEnds text
  let text := if text.head? = some '\ufeff' then text.drop 1 else text
  scanFrom text text.length

end FederatedRounds.Toml
