import FederatedRounds.Text.Pieces
/-! Paths: names separated by slashes. Empty names and single dots stand for nothing, two dots for
the directory above. A path that starts with a slash starts at the root, any other at the working
directory. -/
namespace FederatedRounds.Storage

structure Path where
  text : String
deriving DecidableEq

namespace Path

/-- A name below a path. The name itself holds no slash. -/
def join (directory : Path) (name : String) : Path :=
  let characters := directory.text.toList
  if characters.isEmpty || characters.getLast? = some '/' then ⟨directory.text ++ name⟩
  else ⟨directory.text ++ "/" ++ name⟩

def names (p : Path) : List String :=
  ((Text.pieces '/' p.text.toList).map String.ofList).filter fun name => name ≠ "" ∧ name ≠ "."

/-- The last slash has no name behind it, so that only a directory can be meant. -/
def endsInSlash (p : Path) : Bool :=
  match (Text.pieces '/' p.text.toList).getLast? with
  | some last => last = [] ∨ last = ['.']
  | none => false

def isAbsolute (p : Path) : Bool := p.text.toList.head? = some '/'

def ofNames (absolute : Bool) (names : List String) : Path :=
  ⟨(if absolute then "/" else "") ++ "/".intercalate names⟩

/-- The directory that the last name of a path stands in. -/
def parent (p : Path) : Path := ofNames p.isAbsolute p.names.dropLast

end Path
end FederatedRounds.Storage
