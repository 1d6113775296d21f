import FederatedRounds.Settings.Decode
import FederatedRounds.Settings.Source
import FederatedRounds.Storage.FileTree
/-! Finding the file with the settings and reading them. A path names a file, or a file without its
extension. -/
namespace FederatedRounds.Settings
open FederatedRounds.Storage

def isFile (files : FileTree) (path : Path) : Bool := (files.read path).isOk

/-- What stands behind the last point of a name, unless that is its first character. -/
def extensionOf (name : String) : String :=
  let characters := name.toList
  let behind := (characters.reverse.takeWhile (· ≠ '.')).reverse
  if behind.length + 1 < characters.length then String.ofList behind else ""

/-- The path with an extension put after its last name. -/
def extended? (path : Path) (extension : String) : Option Path :=
  match path.names.getLast? with
  | some last =>
    if last = ".." then none
    else some (path.parent.join (last ++ "." ++ extension))
  | none => none

/-- The file that a path stands for, and its format. -/
def locate (files : FileTree) (directory : String) (path : Path) :
    Except SettingsError (Path × Format) :=
  if isFile files path then
    match Format.ofExtension? (extensionOf (path.names.getLast?.getD "")) with
    | some format => .ok (path, format)
    | none =>
      .error (.unknownFormat (if path.isAbsolute then path.text else directory ++ "/" ++ path.text))
  else
    let candidates := Format.all.filterMap fun format =>
      (extended? path format.extension).map fun path => (path, format)
    match candidates.find? fun (path, _) => isFile files path with
    | some found => .ok found
    | none => .error (.fileNotFound path.text)

/-- The settings in the file of a path, with those of the environment set over them. -/
def load (files : FileTree) (directory : String) (environment : List (String × String))
    (path : String) : Except SettingsError Settings := do
  let (file, format) ← locate files directory ⟨path⟩
  let text ← (files.read file).mapError fun _ => SettingsError.fileNotFound path
  match format.read? (some (files.fromWorking file).text) text with
  | none => .error .malformedFile
  | some members =>
    let root := Value.emptyTable.setAll members
    decode (root.setAll (environmentMembers environment))

end FederatedRounds.Settings
