import FederatedRounds.Pattern.Escape
/-! Sets of characters in brackets. Characters, ranges, escapes, named sets and further brackets
stand beside one another for their union, and between operators for sets of their own. -/
namespace FederatedRounds.Pattern

/-- A set that has been read, and how many brackets, unions and operators stand in one another. -/
structure SetPart where
  set : CharSet
  depth : Nat

inductive SetOperator where
  | both
  | less
  | onlyOne

def namedSet? (name : String) : Option CharSet :=
  let lower : CharSet := .range 'a' 'z'
  let upper : CharSet := .range 'A' 'Z'
  let digit : CharSet := .range '0' '9'
  match name with
  | "alnum" => some (.unions [digit, upper, lower])
  | "alpha" => some (.union upper lower)
  | "ascii" => some (.range '\x00' '\x7f')
  | "blank" => some (.ofChars "\t ")
  | "cntrl" => some (.union (.range '\x00' '\x1f') (.ofChar '\x7f'))
  | "digit" => some digit
  | "graph" => some (.range '!' '~')
  | "lower" => some lower
  | "print" => some (.range ' ' '~')
  | "punct" =>
    some (.unions [.range '!' '/', .range ':' '@', .range '[' '\x60', .range '\x7b' '~'])
  | "space" => some (asciiKind .blank)
  | "upper" => some upper
  | "word" => some (asciiKind .word)
  | "xdigit" => some (.unions [digit, .range 'a' 'f', .range 'A' 'F'])
  | _ => none

/-- A named set after its first bracket. -/
def named? (flags : Flags) (text : List Char) : Option (Option CharSet × List Char) :=
  match text with
  | ':' :: text =>
    let (negated, text) :=
      match text with
      | '^' :: rest => (true, rest)
      | text => (false, text)
    match text.span (· ≠ ':') with
    | (name, ':' :: ']' :: rest) =>
      (namedSet? (String.ofList name)).map fun set => (flags.finish? negated set, rest)
    | _ => none
  | _ => none

def join (items : List SetPart) : SetPart :=
  match items with
  | [] => ⟨.nothing, 0⟩
  | [item] => item
  | items => ⟨.unions (items.map (·.set)), 1 + (items.map (·.depth)).foldl max 0⟩

def operate (flags : Flags) (left : Option (SetOperator × SetPart)) (right : SetPart) : SetPart :=
  match left with
  | none => right
  | some (operator, left) =>
    let ofCase (set : CharSet) : CharSet :=
      if flags.anyCase then .anyCase (!flags.allScripts) set else set
    let (a, b) := (ofCase left.set, ofCase right.set)
    let set : CharSet :=
      match operator with
      | .both => .intersection a b
      | .less => .difference a b
      | .onlyOne => .difference (.union a b) (.intersection a b)
    ⟨set, 1 + max left.depth right.depth⟩

/-- One character or escape in brackets. Bytes that are no characters have no place there. -/
def member? (flags : Flags) (text : List Char) : Option (Atom × List Char) := do
  let (atom, rest) ←
    match text with
    | '\\' :: rest => escape? flags rest
    | c :: rest => some (.char c, rest)
    | [] => none
  match atom with
  | .char c => if !flags.allScripts ∧ 128 ≤ c.val then none else pure (atom, rest)
  | .set _ => pure (atom, rest)
  | .edge _ => none

/-- The hyphen after a member makes a range, unless it stands before the end or another hyphen. -/
def startsRange (flags : Flags) : List Char → Bool
  | '-' :: rest =>
    match flags.skip rest with
    | ']' :: _ => false
    | '-' :: _ => false
    | _ => true
  | _ => false

def item? (flags : Flags) (text : List Char) : Option (SetPart × List Char) := do
  let (first, rest) ← member? flags text
  let rest := flags.skip rest
  if startsRange flags rest then
    let (last, rest) ← member? flags (flags.skip (rest.drop 1))
    match first, last with
    | .char first, .char last =>
      if first ≤ last then pure (⟨.range first last, 0⟩, rest) else none
    | _, _ => none
  else
    match first with
    | .char c => pure (⟨.ofChar c, 0⟩, rest)
    | .set set => pure (⟨set, 0⟩, rest)
    | .edge _ => none

/-- What a bracket may open with: a sign of negation, and hyphens or a closing bracket that are
members. -/
def opening (flags : Flags) (text : List Char) : Bool × List SetPart × List Char :=
  let text := flags.skip text
  let (negated, text) :=
    match text with
    | '^' :: rest => (true, flags.skip rest)
    | text => (false, text)
  match text with
  | ']' :: rest => (negated, [⟨.ofChar ']', 0⟩], flags.skip rest)
  | text =>
    let (hyphens, rest) := text.span (· = '-')
    (negated, hyphens.map fun c => ⟨.ofChar c, 0⟩, flags.skip rest)

/-- The set in a bracket of which the start has been read, up to its end. -/
def close? (flags : Flags) (negated : Bool) (part : SetPart) : Option SetPart :=
  (flags.finish? negated part.set).map fun set => ⟨set, part.depth + 1⟩

/-- The rest of a bracket. Everything in it takes at least one character. -/
def bracketFrom (flags : Flags) (negated : Bool) (left : Option (SetOperator × SetPart))
    (items : List SetPart) (text : List Char) : Nat → Option (SetPart × List Char)
  | 0 => none
  | fuel + 1 =>
    let here := operate flags left (join items)
    let operator (operator : SetOperator) (rest : List Char) : Option (SetPart × List Char) :=
      bracketFrom flags negated (some (operator, here)) [] rest fuel
    match flags.skip text with
    | [] => none
    | ']' :: rest => (close? flags negated here).map fun part => (part, rest)
    | '&' :: '&' :: rest => operator .both rest
    | '-' :: '-' :: rest => operator .less rest
    | '~' :: '~' :: rest => operator .onlyOne rest
    | '[' :: rest =>
      match named? flags rest with
      | some (set, rest) =>
        set.bind fun set => bracketFrom flags negated left (items ++ [⟨set, 0⟩]) rest fuel
      | none =>
        let (inner, first, rest) := opening flags rest
        match bracketFrom flags inner none first rest fuel with
        | some (part, rest) => bracketFrom flags negated left (items ++ [part]) rest fuel
        | none => none
    | text =>
      match item? flags text with
      | some (part, rest) => bracketFrom flags negated left (items ++ [part]) rest fuel
      | none => none

def bracket? (flags : Flags) (text : List Char) : Option (SetPart × List Char) :=
  let (negated, first, rest) := opening flags text
  bracketFrom flags negated none first rest (text.length + 1)

end FederatedRounds.Pattern
