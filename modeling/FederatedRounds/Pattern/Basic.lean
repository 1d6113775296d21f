import FederatedRounds.Pattern.CharSet
/-! Patterns of texts. A pattern leads from places in a text to places further on, a place being
before a character or at the end of the text. A text fits a pattern if it leads from some place
anywhere. -/
namespace FederatedRounds

/-- A condition on a place. Words are those of ASCII or of all scripts. -/
inductive Pattern.Edge where
  | textStart
  | textEnd
  | lineStart (carriageReturn : Bool)
  | lineEnd (carriageReturn : Bool)
  | wordEdge (ascii : Bool)
  | noWordEdge (ascii : Bool)
  | wordStart (ascii : Bool)
  | wordEnd (ascii : Bool)
  | noWordBefore (ascii : Bool)
  | noWordAfter (ascii : Bool)
deriving DecidableEq

inductive Pattern where
  | empty
  | one (set : Pattern.CharSet)
  | edge (edge : Pattern.Edge)
  | sequence (first second : Pattern)
  | either (a b : Pattern)
  | times (p : Pattern) (least : Nat) (most : Option Nat)
deriving DecidableEq

namespace Pattern

structure Place where
  before : Option Char
  after : Option Char

def placesFrom (before : Option Char) : List Char → List Place
  | [] => [⟨before, none⟩]
  | c :: rest => ⟨before, some c⟩ :: placesFrom (some c) rest

/-- The places in a text, one more than there are characters. -/
def places (text : List Char) : List Place := placesFrom none text

def isWordChar (ascii : Bool) (c : Char) : Bool :=
  if ascii then c.isAlphanum || c = '_' else Kind.word.contains c

/-- A word edge has a character of a word on one side only. A line may end in a carriage return and
a line feed, and they belong together. -/
def Edge.holds (e : Edge) (p : Place) : Bool :=
  let wordBefore (ascii : Bool) : Bool := p.before.any (isWordChar ascii)
  let wordAfter (ascii : Bool) : Bool := p.after.any (isWordChar ascii)
  match e with
  | textStart => p.before.isNone
  | textEnd => p.after.isNone
  | lineStart false => p.before.isNone || p.before = some '\n'
  | lineStart true =>
    p.before.isNone || p.before = some '\n' || (p.before = some '\r' && p.after ≠ some '\n')
  | lineEnd false => p.after.isNone || p.after = some '\n'
  | lineEnd true =>
    p.after.isNone || p.after = some '\r' || (p.after = some '\n' && p.before ≠ some '\r')
  | wordEdge ascii => wordBefore ascii != wordAfter ascii
  | noWordEdge ascii => wordBefore ascii == wordAfter ascii
  | wordStart ascii => !wordBefore ascii && wordAfter ascii
  | wordEnd ascii => wordBefore ascii && !wordAfter ascii
  | noWordBefore ascii => !wordBefore ascii
  | noWordAfter ascii => !wordAfter ascii

/-- For every place in a text, whether it is among those meant. -/
abbrev Marks := List Bool

def Marks.or (a b : Marks) : Marks := a.zipWith (· || ·) b

/-- Takes a step so many times, or fewer if it changes nothing any more. -/
def repeated (step : Marks → Marks) : Nat → Marks → Marks
  | 0, marks => marks
  | n + 1, marks =>
    let next := step marks
    if next = marks then marks else repeated step n next

/-- Where a pattern leads from the places that are marked. A repetition that stays at a place can be
left out or added, so that no more repetitions than there are places make a difference. -/
def leads (text : List Char) : Pattern → Marks → Marks
  | empty, marks => marks
  | one set, marks => false :: marks.zipWith (fun mark c => mark && set.contains c) text
  | edge e, marks => marks.zipWith (fun mark place => mark && e.holds place) (places text)
  | sequence p q, marks => q.leads text (p.leads text marks)
  | either p q, marks => (p.leads text marks).or (q.leads text marks)
  | times p least most, marks =>
    let enough := text.length + 2
    let needed := repeated (p.leads text) (min least enough) marks
    let more := (most.map fun most => min (most - least) enough).getD enough
    repeated (fun marks => marks.or (p.leads text marks)) more needed

def fits (p : Pattern) (text : List Char) : Bool :=
  (p.leads text ((places text).map fun _ => true)).any id

/-- Nothing but conditions on places. -/
def hasNoChars : Pattern → Bool
  | empty => true
  | one _ => false
  | edge _ => true
  | sequence p q => p.hasNoChars && q.hasNoChars
  | either p q => p.hasNoChars && q.hasNoChars
  | times p _ _ => p.hasNoChars

/-- The states that an automaton for a set of characters has, in UTF-8. -/
def CharSet.states : CharSet → Nat
  | .nothing => 1
  | .range _ last => if last.val < 128 then 1 else 12
  | .kind .digit => 190
  | .kind .blank => 15
  | .kind .word => 1900
  | .union a b => max a.states b.states
  | .intersection a b => min a.states b.states
  | .difference a _ => a.states
  | .complement a => max a.states 10
  | .anyCase _ a => a.states

/-- The states that an automaton for the pattern has, in which repetitions are written out. -/
def states : Pattern → Nat
  | empty => 1
  | one set => set.states
  | edge _ => 1
  | sequence p q => p.states + q.states
  | either p q => p.states + q.states + 1
  | times p least most =>
    let more := (most.map fun most => (most - least) * (p.states + 1)).getD (p.states + 1)
    if p.hasNoChars then p.states + 1 else least * p.states + more

end Pattern
end FederatedRounds
