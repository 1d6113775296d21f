import FederatedRounds.Log
import FederatedRounds.Pattern.Reader
import FederatedRounds.Text.Pieces
/-! Which log lines are shown. A filter is a list of directives: a level, a target with the level
that its lines need, or a target alone. The directive with the longest target that a line's target
starts with decides. A pattern behind a slash has to fit every line. -/
namespace FederatedRounds.Log

structure Record where
  level : Level
  target : String
  text : String

/-- A directive for all targets or for those that start with a text. Without a level it shows
nothing. -/
structure Directive where
  target : Option String
  level : Option Level

structure Filter where
  directives : List Directive
  pattern : Option Pattern

namespace Filter
open Text (trim)

/-- A level in any case; `off` is none. -/
def level? (text : List Char) : Option (Option Level) :=
  let word := (String.ofList text).toUpper
  if word = "OFF" then some none
  else (Level.all.find? fun level => level.name = word).map some

/-- A directive that makes no sense is passed over. -/
def directive? (text : List Char) : Option Directive :=
  match Text.pieces '=' text with
  | [single] =>
    if single = [] then none
    else
      match level? single with
      | some level => some ⟨none, level⟩
      | none => some ⟨some (String.ofList single), some .trace⟩
  | [target, level] =>
    if trim level = [] then some ⟨some (String.ofList target), some .trace⟩
    else (level? (trim level)).map fun level => ⟨some (String.ofList target), level⟩
  | _ => none

/-- Adds a directive, in the place of one for the same target. -/
def add (directives : List Directive) (d : Directive) : List Directive :=
  if directives.any fun other => other.target = d.target then
    directives.map fun other => if other.target = d.target then d else other
  else directives ++ [d]

def readDirectives (names : List Char) : List Directive :=
  ((Text.pieces ',' names).filterMap fun name => directive? (trim name)).foldl add []

/-- Reads a filter. One without directives shows errors only, and a pattern that makes no sense is
passed over. -/
def parse (text : String) : Filter :=
  let (directives, pattern) : List Directive × Option Pattern :=
    match Text.pieces '/' text.toList with
    | [names] => (readDirectives names, none)
    | [names, pattern] => (readDirectives names, Pattern.parse? (String.ofList pattern))
    | _ => ([], none)
  ⟨if directives.isEmpty then [⟨none, some .error⟩] else directives, pattern⟩

def Directive.length (d : Directive) : Nat := (d.target.getD "").utf8ByteSize

def Directive.concerns (d : Directive) (target : String) : Bool :=
  match d.target with
  | some start => start.toList.isPrefixOf target.toList
  | none => true

/-- The directive that decides for a target: of those with the longest target, the last. -/
def decisive? (f : Filter) (target : String) : Option Directive :=
  (f.directives.filter fun d => Directive.concerns d target).foldl (fun best d =>
    match best with
    | none => some d
    | some other => if Directive.length d < Directive.length other then best else some d) none

def admits (f : Filter) (r : Record) : Bool :=
  let levelFits :=
    match f.decisive? r.target with
    | some ⟨_, some level⟩ => decide (r.level.rank ≤ level.rank)
    | _ => false
  let patternFits :=
    match f.pattern with
    | some pattern => pattern.fits r.text.toList
    | none => true
  levelFits && patternFits

end Filter
end FederatedRounds.Log
