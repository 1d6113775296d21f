import FederatedRounds.Number.Digits
import FederatedRounds.Pattern.Bracket
/-! Reading patterns. Flags hold up to the end of the group in which they are set, over all its
alternatives. A pattern that is nested too deep, names two groups alike or would need too large an
automaton is refused. -/
namespace FederatedRounds.Pattern

/-- A pattern that has been read, how many groups, repetitions and the like stand in one another in
it, and the names of its groups. -/
structure Part where
  pattern : Pattern
  depth : Nat
  names : List String

def Part.leaf (pattern : Pattern) : Part := ⟨pattern, 0, []⟩

def Part.combine (join : Pattern → Pattern → Pattern) (none : Pattern) : List Part → Part
  | [] => .leaf none
  | [part] => part
  | first :: rest =>
    ⟨rest.foldl (fun pattern part => join pattern part.pattern) first.pattern,
      1 + ((first :: rest).map (·.depth)).foldl max 0, (first :: rest).flatMap (·.names)⟩

/-- A repetition of at most one pass around one of at most one pass, without an end to both or to
the inner, is one repetition. -/
def repetition (p : Pattern) (least : Nat) (most : Option Nat) : Pattern :=
  match p with
  | .times inner first none =>
    if first ≤ 1 ∧ least ≤ 1 ∧ most ≠ some 0 then .times inner (first * least) none
    else .times p least most
  | p => .times p least most

def Part.repeat (part : Part) (least : Nat) (most : Option Nat) : Part :=
  ⟨repetition part.pattern least most, part.depth + 1, part.names⟩

def lineStart (flags : Flags) : Edge :=
  if flags.multiline then .lineStart flags.carriageReturn else .textStart

def lineEnd (flags : Flags) : Edge :=
  if flags.multiline then .lineEnd flags.carriageReturn else .textEnd

/-- A dot stands for any character, line ends apart. -/
def dot? (flags : Flags) : Option CharSet :=
  if !flags.allScripts then none
  else if flags.wideDots then some .all
  else if flags.carriageReturn then some (.complement (.ofChars "\r\n"))
  else some (.complement (.ofChar '\n'))

def charPattern (flags : Flags) (c : Char) : Pattern :=
  .one (if flags.anyCase then .anyCase (!flags.allScripts) (.ofChar c) else .ofChar c)

def Atom.pattern (flags : Flags) : Atom → Pattern
  | .char c => charPattern flags c
  | .set chars => .one chars
  | .edge place => .edge place

/-- A number below the count of words of 32 bits, between blanks, and the rest. -/
def decimal? (flags : Flags) (text : List Char) : Option (Nat × List Char) :=
  let text := text.dropWhile Text.isBlank
  let digits : List Char × List Char :=
    if flags.spaced then text.span fun c => c.isDigit || Text.isBlank c
    else text.span Char.isDigit
  let (run, _) := Digit.run (digits.1.filter Char.isDigit)
  if run = [] ∨ UInt32.size ≤ Digit.value run then none
  else some (Digit.value run, digits.2.dropWhile Text.isBlank)

/-- The least and the greatest number of passes, after the first brace. -/
def passes? (flags : Flags) (text : List Char) : Option (Nat × Option Nat × List Char) := do
  let (least, rest) ← decimal? flags (flags.skip text)
  match rest with
  | '\x7d' :: rest => pure (least, some least, flags.skip rest)
  | ',' :: rest =>
    match flags.skip rest with
    | '\x7d' :: rest => pure (least, none, flags.skip rest)
    | rest =>
      let (most, rest) ← decimal? flags rest
      match rest with
      | '\x7d' :: rest => if least ≤ most then pure (least, some most, flags.skip rest) else none
      | _ => none
  | _ => none

/-- The mark of a repetition that prefers few passes. What fits does not depend on it. -/
def withoutLazy : List Char → List Char
  | '?' :: rest => rest
  | text => text

/-- Sets flags by their letters, of which none comes twice. Those after a hyphen are unset. -/
def Flags.change? (flags : Flags) (letters : List Char) : Option Flags :=
  let (set, unset) := letters.span (· ≠ '-')
  let names := set ++ unset.drop 1
  let value (letter : Char) (old : Bool) : Bool :=
    if set.contains letter then true else if unset.contains letter then false else old
  if names.all (fun letter => "imsuURx".toList.contains letter) ∧ names.Nodup ∧ unset ≠ ['-'] then
    some ⟨value 'i' flags.anyCase, value 'm' flags.multiline, value 's' flags.wideDots,
      value 'u' flags.allScripts, value 'R' flags.carriageReturn, value 'x' flags.spaced⟩
  else none

/-- What stands after the parenthesis that opens a group: flags up to the end of the group around
it, or the flags and the name of a group. -/
inductive Opening where
  | flags (flags : Flags)
  | group (flags : Flags) (name : Option String)

def isNameStart (c : Char) : Bool := c = '_' || isLetter c

def isNameChar (c : Char) : Bool := isNameStart c || isDigit c || c = '.' || c = '[' || c = ']'

def groupName? (text : List Char) : Option (String × List Char) :=
  match text.span (· ≠ '>') with
  | (first :: name, _ :: rest) =>
    if isNameStart first && name.all isNameChar then some (String.ofList (first :: name), rest)
    else none
  | _ => none

def opening? (flags : Flags) (text : List Char) : Option (Opening × List Char) :=
  let named (text : List Char) : Option (Opening × List Char) :=
    (groupName? text).map fun (name, rest) => (.group flags (some name), rest)
  match flags.skip text with
  | '?' :: 'P' :: '<' :: text => named text
  | '?' :: '<' :: text => named text
  | '?' :: text =>
    match text.span fun c => c ≠ ':' ∧ c ≠ ')' with
    | (letters, mark :: rest) => do
      let flags ← flags.change? letters
      if mark = ':' then pure (.group flags none, rest)
      else if letters = [] then none
      else pure (.flags flags, rest)
    | _ => none
  | text => some (.group flags none, text)

/-- The alternatives so far, and the parts of the last one, last first. Flags are a part that cannot
be repeated. -/
structure Group where
  alternatives : List Part
  parts : List (Option Part)

namespace Group

def start : Group := ⟨[], []⟩

def add (g : Group) (part : Option Part) : Group := { g with parts := part :: g.parts }

/-- The last alternative as one part. Flags count as a part of it. -/
def last (g : Group) : Part :=
  Part.combine .sequence .empty (g.parts.reverse.map fun part => part.getD (.leaf .empty))

def next (g : Group) : Group := ⟨g.alternatives ++ [g.last], []⟩

def finish (g : Group) : Part := Part.combine .either .empty (g.alternatives ++ [g.last])

def repeatLast? (g : Group) (least : Nat) (most : Option Nat) : Option Group :=
  match g.parts with
  | some part :: rest => some { g with parts := some (part.repeat least most) :: rest }
  | _ => none

end Group

/-- Reads the rest of a group, or of a whole text. Everything takes at least one character. -/
def groupFrom (inside : Bool) (flags : Flags) (g : Group) (text : List Char) :
    Nat → Option (Part × List Char)
  | 0 => none
  | fuel + 1 =>
    let go (g : Option Group) (text : List Char) : Option (Part × List Char) :=
      g.bind fun g => groupFrom inside flags g text fuel
    let leaf (pattern : Pattern) (rest : List Char) : Option (Part × List Char) :=
      go (some (g.add (some (.leaf pattern)))) rest
    match flags.skip text with
    | [] => if inside then none else some (g.finish, [])
    | ')' :: rest => if inside then some (g.finish, rest) else none
    | '|' :: rest => go (some g.next) rest
    | '?' :: rest => go (g.repeatLast? 0 (some 1)) (withoutLazy rest)
    | '*' :: rest => go (g.repeatLast? 0 none) (withoutLazy rest)
    | '+' :: rest => go (g.repeatLast? 1 none) (withoutLazy rest)
    | '\x7b' :: rest =>
      (passes? flags rest).bind fun (least, most, rest) =>
        go (g.repeatLast? least most) (withoutLazy rest)
    | '.' :: rest => (dot? flags).bind fun set => leaf (.one set) rest
    | '^' :: rest => leaf (.edge (lineStart flags)) rest
    | '$' :: rest => leaf (.edge (lineEnd flags)) rest
    | '\\' :: rest => (escape? flags rest).bind fun (atom, rest) => leaf (atom.pattern flags) rest
    | '[' :: rest =>
      (bracket? flags rest).bind fun (part, rest) =>
        go (some (g.add (some ⟨.one part.set, part.depth, []⟩))) rest
    | '(' :: rest =>
      match opening? flags rest with
      | none => none
      | some (.flags flags, rest) => groupFrom inside flags (g.add none) rest fuel
      | some (.group inner name, rest) =>
        match groupFrom true inner .start rest fuel with
        | none => none
        | some (part, rest) =>
          go (some (g.add (some ⟨part.pattern, part.depth + 1, name.toList ++ part.names⟩))) rest
    | c :: rest => leaf (charPattern flags c) rest

def depthLimit : Nat := 250

/-- The states that fit into the memory that a pattern may take. -/
def stateLimit : Nat := 327680

def parse? (text : String) : Option Pattern := do
  let (part, _) ← groupFrom false .plain .start text.toList (text.length + 1)
  if part.depth ≤ depthLimit ∧ part.names.Nodup ∧ part.pattern.states ≤ stateLimit then
    pure part.pattern
  else none

end FederatedRounds.Pattern
