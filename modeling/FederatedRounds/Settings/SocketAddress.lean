import FederatedRounds.Number.Digits
import FederatedRounds.Number.Hexadecimal
/-! Internet socket addresses: an address of version 4 or 6 and a port. The text of an address of
version 6 leaves out the longest run of zero groups. -/
namespace FederatedRounds.Settings

/-- An address of version 6 has eight groups, and a scope that is zero for none. -/
inductive SocketAddress where
  | v4 (octets : List Nat) (port : Nat)
  | v6 (groups : List Nat) (scope : Nat) (port : Nat)
deriving DecidableEq

namespace SocketAddress

def digitRun (base : Nat) : List Char → List Nat × List Char
  | [] => ([], [])
  | c :: rest =>
    match (Hexadecimal.digit? c).filter fun digit => digit < base with
    | none => ([], c :: rest)
    | some digit =>
      let (digits, rest) := digitRun base rest
      (digit :: digits, rest)

/-- A number below a limit, of at most so many digits. Zeros before it may be forbidden. -/
def number? (base limit : Nat) (most : Option Nat) (zeros : Bool) (text : List Char) :
    Option (Nat × List Char) :=
  let (digits, rest) := digitRun base text
  let value := digits.foldl (fun n d => base * n + d) 0
  let short := most.all fun most => digits.length ≤ most
  let fine := zeros || digits.head? ≠ some 0 || digits.length = 1
  if digits ≠ [] && short && fine && value < limit then some (value, rest) else none

def char? (c : Char) : List Char → Option (List Char)
  | d :: rest => if c = d then some rest else none
  | [] => none

def octets? (text : List Char) : Option (List Nat × List Char) := do
  let octet := number? 10 256 (some 3) false
  let (a, rest) ← octet text
  let (b, rest) ← octet (← char? '.' rest)
  let (c, rest) ← octet (← char? '.' rest)
  let (d, rest) ← octet (← char? '.' rest)
  pure ([a, b, c, d], rest)

def groupsOf : List Nat → List Nat
  | [a, b, c, d] => [a * 256 + b, c * 256 + d]
  | _ => []

/-- At most so many groups, the last two of which may be spelled as octets, and whether they were.
-/
def groups (first : Bool) (text : List Char) : Nat → List Nat × Bool × List Char
  | 0 => ([], false, text)
  | left + 1 =>
    match if first then some text else char? ':' text with
    | none => ([], false, text)
    | some body =>
      match if 1 ≤ left then octets? body else none with
      | some (octets, rest) => (groupsOf octets, true, rest)
      | none =>
        match number? 16 65536 (some 4) true body with
        | some (group, rest) =>
          let (more, octets, rest) := groups false rest left
          (group :: more, octets, rest)
        | none => ([], false, text)

/-- Eight groups, or fewer with two colons in the place of at least one zero group. -/
def allGroups? (text : List Char) : Option (List Nat × List Char) := do
  let (front, octets, rest) := groups true text 8
  if front.length = 8 then pure (front, rest)
  else if octets then none
  else
    let rest ← char? ':' (← char? ':' rest)
    let (back, _, rest) := groups true rest (7 - front.length)
    pure (front ++ List.replicate (8 - front.length - back.length) 0 ++ back, rest)

def port? (text : List Char) : Option Nat := do
  let (port, rest) ← number? 10 65536 none true (← char? ':' text)
  if rest = [] then pure port else none

def scope? : List Char → Option (Nat × List Char)
  | '%' :: rest => number? 10 UInt32.size none true rest
  | rest => some (0, rest)

def parse? (text : String) : Option SocketAddress :=
  match text.toList with
  | '[' :: rest => do
    let (groups, rest) ← allGroups? rest
    let (scope, rest) ← scope? rest
    let port ← port? (← char? ']' rest)
    pure (.v6 groups scope port)
  | text => do
    let (octets, rest) ← octets? text
    let port ← port? rest
    pure (.v4 octets port)

def octetsText (octets : List Nat) : String := ".".intercalate (octets.map natText)

def groupText (group : Nat) : String := String.ofList (Hexadecimal.spell group)

def groupsText (groups : List Nat) : String := ":".intercalate (groups.map groupText)

/-- Start and length of the first of the longest runs of zero groups. -/
def zeroRun (groups : List Nat) : Nat × Nat :=
  let runs := (List.range groups.length).map fun start =>
    (start, ((groups.drop start).takeWhile (· = 0)).length)
  runs.foldl (fun best run => if best.2 < run.2 then run else best) (0, 0)

/-- An address that stands for one of version 4 shows its octets. -/
def addressText (groups : List Nat) : String :=
  match groups with
  | [0, 0, 0, 0, 0, 65535, high, low] =>
    "::ffff:" ++ octetsText [high / 256, high % 256, low / 256, low % 256]
  | groups =>
    let (start, length) := zeroRun groups
    if 1 < length then
      groupsText (groups.take start) ++ "::" ++ groupsText (groups.drop (start + length))
    else groupsText groups

def text : SocketAddress → String
  | v4 octets port => octetsText octets ++ ":" ++ natText port
  | v6 groups scope port =>
    let zone := if scope = 0 then "" else "%" ++ natText scope
    "[" ++ addressText groups ++ zone ++ "]:" ++ natText port

end SocketAddress
end FederatedRounds.Settings
