import FederatedRounds.CommandLine
/-! The program: reads the files and variables that a run may need, and writes what the run says. -/
namespace FederatedRounds.Main

/-- The fields that variables of the environment may set. -/
def variableNames : List String :=
  ["LOG_LEVEL", "API__BIND_ADDRESS", "API__MAX_BODY_SIZE", "FEDERATED_LEARNING__ROUNDS",
    "FEDERATED_LEARNING__EPOCHS", "FEDERATED_LEARNING__MINIMUM_PARTICIPANTS_IN_ROUND",
    "FEDERATED_LEARNING__FRACTION_OF_PARTICIPANTS", "FEDERATED_LEARNING__AGGREGATION",
    "FEDERATED_LEARNING__SELECTION", "FEDERATED_LEARNING__INITIAL_WEIGHTS", "HEARTBEAT__TIME",
    "HEARTBEAT__TIMEOUT", "STORAGE__TYPE", "STORAGE__DIRECTORY", "METRIC_STORE__URL",
    "METRIC_STORE__DATABASE"].map ("COORDINATOR__" ++ ·)

/-- The variable that the log filter is read from; without it the settings have one. -/
def filterVariable : String := "RUST_LOG"

def readVariables : IO (List (String × String)) := do
  let found ← variableNames.mapM fun name => do
    pure ((← IO.getEnv name).map fun value => (name, value))
  pure (found.filterMap id)

def addFile (files : Storage.FileTree) (path : String) : IO Storage.FileTree := do
  match ← (IO.FS.readFile path).toBaseIO with
  | .ok text => pure (files.writeBelow ⟨path⟩ text).2
  | .error _ => pure files

/-- The files of a run: those that may hold its settings, and the weights that they name. -/
def readFiles (directory : String) (environment : List (String × String))
    (arguments : List String) : IO Storage.FileTree := do
  let nothing := Storage.FileTree.emptyAt (Storage.Path.names ⟨directory⟩)
  match CommandLine.Invocation.parse arguments with
  | .run path =>
    let files ← [path, path ++ ".toml", path ++ ".json"].foldlM addFile nothing
    match Settings.load files directory environment path with
    | .ok settings =>
      match settings.learning.initialWeights with
      | some weights => addFile files weights
      | none => pure files
    | .error _ => pure files
  | _ => pure nothing

def errorText : CommandLine.ErrorLine → String
  | .message text => text
  | .record r => s!"[{r.level.name} {r.target}] {r.text}"

end FederatedRounds.Main

open FederatedRounds in
def main (arguments : List String) : IO UInt32 := do
  let environment ← Main.readVariables
  let directory := (← IO.currentDir).toString
  let files ← Main.readFiles directory environment arguments
  let filter ← IO.getEnv Main.filterVariable
  let outcome := CommandLine.run files directory environment filter arguments
  IO.print outcome.output
  for line in outcome.errors do
    IO.eprintln (Main.errorText line)
  pure outcome.code.toUInt32
