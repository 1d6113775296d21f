import FederatedRounds.Toml.Tree
/-! Reading TOML documents: lines that set a key or open a table, in the order in which they stand.
A value may go over several lines inside an array. -/
namespace FederatedRounds.Toml

def skipBlank : List Token → List Token
  | .blank _ :: rest => skipBlank rest
  | tokens => tokens

def skipSpace : List Token → List Token
  | .blank _ :: rest => skipSpace rest
  | .lineEnd :: rest => skipSpace rest
  | tokens => tokens

def mark? (c : Char) : List Token → Option (List Token)
  | .mark d :: rest => if c = d then some rest else none
  | _ => none

/-- One part of a key: a word, or a string on one line. -/
def keyPart? : List Token → Option (String × List Token)
  | .word text :: rest => some (String.ofList text, rest)
  | .string text false :: rest => some (text, rest)
  | _ => none

/-- The parts of a key, with points between them. Every part takes at least one token. -/
def keyFrom (tokens : List Token) : Nat → Option (List String × List Token)
  | 0 => none
  | fuel + 1 => do
    let (part, rest) ← keyPart? (skipBlank tokens)
    match mark? '.' (skipBlank rest) with
    | some rest =>
      let (parts, rest) ← keyFrom rest fuel
      pure (part :: parts, rest)
    | none => pure ([part], skipBlank rest)

def key? (tokens : List Token) : Option (List String × List Token) :=
  keyFrom tokens (tokens.length + 1)

mutual

/-- A value. Two steps are at most taken for a token. -/
def valueFrom (tokens : List Token) : Nat → Option (Toml × List Token)
  | 0 => none
  | fuel + 1 =>
    match tokens with
    | .string text _ :: rest => some (.scalar (.text text), rest)
    | .word word :: rest => (scalarOf? word rest).map fun (value, rest) => (.scalar value, rest)
    | .mark '+' :: .word word :: rest =>
      (number? word rest).map fun (value, rest) => (.scalar value, rest)
    | .mark '[' :: rest => (itemsFrom [] rest fuel).map fun (items, rest) => (.list items, rest)
    | .mark '\x7b' :: rest =>
      match mark? '\x7d' (skipBlank rest) with
      | some rest => some (.table [], rest)
      | none =>
        (membersFrom [] rest fuel).map fun (members, rest) => (.table (closeMembers members), rest)
    | _ => none

def itemsFrom (done : List Toml) (tokens : List Token) : Nat → Option (List Toml × List Token)
  | 0 => none
  | fuel + 1 =>
    let tokens := skipSpace tokens
    match mark? ']' tokens with
    | some rest => some (done.reverse, rest)
    | none => do
      let (item, rest) ← valueFrom tokens fuel
      let rest := skipSpace rest
      match mark? ',' rest with
      | some rest => itemsFrom (item :: done) rest fuel
      | none =>
        let rest ← mark? ']' rest
        pure ((item :: done).reverse, rest)

def membersFrom (done : Members) (tokens : List Token) : Nat → Option (Members × List Token)
  | 0 => none
  | fuel + 1 => do
    let (keys, rest) ← key? tokens
    let rest ← mark? '=' rest
    let (value, rest) ← valueFrom (skipBlank rest) fuel
    let done ← setKey value keys done
    let rest := skipBlank rest
    match mark? ',' rest with
    | some rest => membersFrom done rest fuel
    | none =>
      let rest ← mark? '\x7d' rest
      pure (done, rest)

end

def value? (tokens : List Token) : Option (Toml × List Token) :=
  valueFrom tokens (2 * tokens.length + 2)

def lineEnd? (tokens : List Token) : Option (List Token) :=
  match skipBlank tokens with
  | [] => some []
  | .lineEnd :: rest => some rest
  | _ => none

/-- What has been read of a document, and the header under which its keys stand. -/
structure Document where
  members : Members
  header : List String

/-- The header of a table, or of one more table in an array. -/
def headerLine? (d : Document) (tokens : List Token) : Option (Document × List Token) :=
  match mark? '[' tokens with
  | some rest => do
    let (keys, rest) ← key? rest
    let rest ← lineEnd? (← mark? ']' (← mark? ']' rest))
    pure (⟨← openItem keys d.members, keys⟩, rest)
  | none => do
    let (keys, rest) ← key? tokens
    let rest ← lineEnd? (← mark? ']' rest)
    pure (⟨← openTable keys d.members, keys⟩, rest)

def keyLine? (d : Document) (tokens : List Token) : Option (Document × List Token) := do
  let (keys, rest) ← key? tokens
  let (value, rest) ← value? (skipBlank (← mark? '=' rest))
  let rest ← lineEnd? rest
  pure ({ d with members := ← setBelow keys value d.header d.members }, rest)

/-- Reads lines until none is left; every line takes at least one token. -/
def linesFrom (d : Document) (tokens : List Token) : Nat → Option Document
  | 0 => none
  | fuel + 1 =>
    match skipSpace tokens with
    | [] => some d
    | .mark '[' :: rest => do
      let (d, rest) ← headerLine? d rest
      linesFrom d rest fuel
    | tokens => do
      let (d, rest) ← keyLine? d tokens
      linesFrom d rest fuel

/-- The members of the table that a document is. -/
def parse? (text : String) : Option (List (String × Toml)) := do
  let tokens ← scan? text.toList
  let d ← linesFrom ⟨[], []⟩ tokens (tokens.length + 1)
  pure (closeMembers d.members)

end FederatedRounds.Toml
