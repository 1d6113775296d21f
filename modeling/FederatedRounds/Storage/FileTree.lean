import FederatedRounds.Storage.Path
import FederatedRounds.Table
/-! A tree of files and directories below one root, seen from a working directory, and the failures
of its operations. No fault happens that the tree itself does not account for. -/
namespace FederatedRounds.Storage

inductive FileError where
  | noEntry
  | entryExists
  | notDirectory
  | isDirectory
  | nameTooLong
  | nulInName
deriving DecidableEq

def FileError.message : FileError → String
  | noEntry => "No such file or directory (os error 2)"
  | entryExists => "File exists (os error 17)"
  | notDirectory => "Not a directory (os error 20)"
  | isDirectory => "Is a directory (os error 21)"
  | nameTooLong => "File name too long (os error 36)"
  | nulInName => "file name contained an unexpected NUL byte"

inductive Entry where
  | file (text : String)
  | directory
deriving DecidableEq

/-- What there is, by the names that lead to it from the root, and the names that lead to the working
directory. -/
structure FileTree where
  entries : Table (List String) Entry
  working : List String

namespace FileTree

def emptyAt (working : List String) : FileTree := ⟨[], working⟩

/-- The working directory and those above it are always there. -/
def find? (t : FileTree) (place : List String) : Option Entry :=
  if place.isPrefixOf t.working then some .directory else t.entries.get? place

def put (t : FileTree) (place : List String) (entry : Entry) : FileTree :=
  { t with entries := t.entries.set place entry }

/-- Bytes of a name, and of a whole path, that the tree can hold. -/
def nameLimit : Nat := 255

def pathLimit : Nat := 4095

def below (place : List String) (name : String) : List String :=
  if name = ".." then place.dropLast else place ++ [name]

/-- The place that names lead to. All that is passed on the way must be directories; the last name
may lead to nothing. -/
def walk (t : FileTree) (place : List String) : List String → Except FileError (List String)
  | [] => .ok place
  | name :: rest =>
    match t.find? place with
    | none => .error .noEntry
    | some (.file _) => .error .notDirectory
    | some .directory =>
      if nameLimit < name.utf8ByteSize then .error .nameTooLong else t.walk (below place name) rest

/-- Why a path cannot even be looked up, if it cannot. -/
def malformed? (p : Path) : Option FileError :=
  if p.text.toList.contains '\x00' then some .nulInName
  else if pathLimit < p.text.utf8ByteSize then some .nameTooLong
  else none

def start (t : FileTree) (p : Path) : List String := if p.isAbsolute then [] else t.working

def locate (t : FileTree) (p : Path) : Except FileError (List String) :=
  match malformed? p with
  | some error => .error error
  | none => if p.text = "" then .error .noEntry else t.walk (t.start p) p.names

def read (t : FileTree) (p : Path) : Except FileError String := do
  let place ← t.locate p
  match t.find? place with
  | none => .error .noEntry
  | some .directory => .error .isDirectory
  | some (.file text) => if p.endsInSlash then .error .notDirectory else .ok text

def write (t : FileTree) (p : Path) (text : String) : Except FileError FileTree := do
  let place ← t.locate p
  match t.find? place with
  | some .directory => .error .isDirectory
  | _ => .ok (t.put place (.file text))

def isDirectory (t : FileTree) (start names : List String) : Bool :=
  match t.walk start names with
  | .ok place => t.find? place = some .directory
  | .error _ => false

def makeDirectory (t : FileTree) (start names : List String) : Except FileError FileTree := do
  let place ← t.walk start names
  match t.find? place with
  | some _ => .error .entryExists
  | none => .ok (t.put place .directory)

/-- A directory that is there already is as good as a new one. -/
def acceptDirectory (t : FileTree) (start names : List String) (error : FileError) :
    Except FileError Unit × FileTree :=
  if t.isDirectory start names then (.ok (), t) else (.error error, t)

/-- Makes a directory some names below a place, and those above it that are missing. -/
def makeAll (t : FileTree) (start names : List String) : Except FileError Unit × FileTree :=
  if names = [] then (.ok (), t)
  else
    match t.makeDirectory start names with
    | .ok t => (.ok (), t)
    | .error .noEntry =>
      match t.makeAll start names.dropLast with
      | (.error error, t) => (.error error, t)
      | (.ok (), t) =>
        match t.makeDirectory start names with
        | .ok t => (.ok (), t)
        | .error error => t.acceptDirectory start names error
    | .error error => t.acceptDirectory start names error
termination_by names.length
decreasing_by
  simp only [List.length_dropLast]
  have := List.length_pos_iff.mpr ‹names ≠ []›
  omega

def makeDirectories (t : FileTree) (p : Path) : Except FileError Unit × FileTree :=
  match malformed? p with
  | some error => (.error error, t)
  | none => t.makeAll (t.start p) p.names

def writeBelow (t : FileTree) (p : Path) (text : String) : Except FileError Unit × FileTree :=
  match t.makeDirectories p.parent with
  | (.error error, t) => (.error error, t)
  | (.ok (), t) =>
    match t.write p text with
    | .ok t => (.ok (), t)
    | .error error => (.error error, t)

/-- All files below the working directory with their texts, in the order of their paths from there.
-/
def files (t : FileTree) : List (String × String) :=
  let found := t.entries.filterMap fun (place, entry) =>
    match entry with
    | .file text =>
      if t.working.isPrefixOf place then
        some ("/".intercalate (place.drop t.working.length), text)
      else none
    | .directory => none
  found.mergeSort fun a b => decide (a.1 ≤ b.1)

/-- The path of a file from the working directory, whichever way it was given. Names in common are
left out, and two dots lead out of each name that is left of the working directory. -/
def fromWorking (t : FileTree) (p : Path) : Path :=
  let rec apart : List String → List String → List String
    | a :: here, b :: there =>
      if a = b then apart here there else (a :: here).map (fun _ => "..") ++ b :: there
    | here, there => here.map (fun _ => "..") ++ there
  if p.isAbsolute then Path.ofNames false (apart t.working p.names)
  else Path.ofNames false p.names

end FileTree
end FederatedRounds.Storage
