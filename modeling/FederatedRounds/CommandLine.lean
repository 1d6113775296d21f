import FederatedRounds.Coordinator.Notice
import FederatedRounds.Log.Filter
import FederatedRounds.Service.StoreQueue
import FederatedRounds.Settings.Load
import FederatedRounds.Storage.FileStore
/-! The command line of the coordinator: its arguments, and a run up to the point where the server
would listen. -/
namespace FederatedRounds.CommandLine

inductive Invocation where
  | help
  | version
  | run (path : String)
  | refused
deriving DecidableEq

/-- The options read so far: how often the path option was given, the paths, and whether the next
argument is one. -/
structure Pending where
  count : Nat
  paths : List String
  expecting : Bool

namespace Invocation

/-- The path option must be given exactly once, and with a path. -/
def finish (p : Pending) : Invocation :=
  match p.paths with
  | [path] => if p.count = 1 then .run path else .refused
  | _ => .refused

def withPath (p : Pending) (path : List Char) : Pending :=
  ⟨p.count + 1, p.paths ++ [String.ofList (path.dropWhile (· = '='))], false⟩

/-- Options of one letter may stand together. What follows the path option is the path. -/
def letters (p : Pending) : List Char → Pending ⊕ Invocation
  | [] => .inl p
  | 'h' :: _ => .inr .help
  | 'V' :: _ => .inr .version
  | 'c' :: [] => .inl { p with count := p.count + 1, expecting := true }
  | 'c' :: path => .inl (withPath p path)
  | _ => .inr .refused

/-- An option by its name. A path may be joined to it. -/
def named (p : Pending) (text : List Char) : Pending ⊕ Invocation :=
  let name := String.ofList (text.takeWhile (· ≠ '='))
  match name, text.dropWhile (· ≠ '=') with
  | "help", _ => .inr .help
  | "version", _ => .inr .version
  | "config", [] => .inl { p with count := p.count + 1, expecting := true }
  | "config", _ :: path => .inl (withPath p path)
  | _, _ => .inr .refused

/-- Reads the arguments in order. The first that asks for help or for the version, or is wrong,
decides. -/
def ofArguments (p : Pending) : List String → Invocation
  | [] => finish p
  | argument :: rest =>
    match argument.toList with
    | ['-', '-'] => if rest = [] then finish p else .refused
    | '-' :: '-' :: name =>
      match named { p with expecting := false } (name.dropWhile (· = '-')) with
      | .inl p => ofArguments p rest
      | .inr decided => decided
    | '-' :: letter :: more =>
      match letters { p with expecting := false } (letter :: more) with
      | .inl p => ofArguments p rest
      | .inr decided => decided
    | _ =>
      if p.expecting then ofArguments ⟨p.count, p.paths ++ [argument], false⟩ rest
      else .refused

def parse (arguments : List String) : Invocation := ofArguments ⟨0, [], false⟩ arguments

end Invocation

/-- A line on the error output: a message, or a log record. -/
inductive ErrorLine where
  | message (text : String)
  | record (record : Log.Record)

structure Outcome where
  code : Nat
  output : String
  errors : List ErrorLine

def versionText : String := "coordinator 0.1.0\n"

def helpText : String :=
  "coordinator 0.1.0\n" ++
  "Federated learning coordinator\n\n" ++
  "USAGE:\n    coordinator --config <config>\n\n" ++
  "FLAGS:\n    -h, --help       Prints help information\n" ++
  "    -V, --version    Prints version information\n\n" ++
  "OPTIONS:\n    -c, --config <config>    Path to the config file\n"

def usageText : String :=
  "error: The arguments are not valid\n\nUSAGE:\n    coordinator --config <config>\n\n" ++
  "For more information try --help"

def initialWeights (files : Storage.FileTree) (settings : Settings) :
    Except Storage.StorageError Weights :=
  match settings.learning.initialWeights with
  | some path => files.loadWeights ⟨path⟩
  | none => .ok []

inductive Part where
  | program
  | coordinator
  | service
  | monitor

def Part.target : Part → String
  | program => "coordinator"
  | coordinator => "fl_coordinator::coordinator::protocol"
  | service => "fl_coordinator::coordinator::service"
  | monitor => "fl_coordinator::coordinator::heartbeat"

def Part.record (part : Part) (line : LogLine) : Log.Record :=
  ⟨line.level, part.target, line.text⟩

def fault (text : String) : Log.Record := Part.program.record ⟨.error, text⟩

/-- Why the server cannot listen at an address of another machine. -/
def listenFault : String :=
  "error creating server listener: Cannot assign requested address (os error 99)"

/-- The records of a run whose server cannot listen. All parts are started before, and stopped
after. -/
def unlistened (settings : Settings) : List Log.Record :=
  let config := settings.learning.config
  [Part.coordinator.record (Notice.created config.rounds config.quorum).line,
    Part.service.record ⟨.info, "coordinator service started"⟩,
    Part.monitor.record ⟨.info, "heartbeat monitor started"⟩,
    fault ("failed to start the HTTP server: " ++ listenFault),
    Part.monitor.record ⟨.info, "heartbeat monitor stopped"⟩,
    Part.service.record ⟨.info, "coordinator service stopped: all the handles have been dropped"⟩,
    Part.service.record Service.StoreNotice.stopped.line]

/-- The records of a run, and its exit code. -/
def records (files : Storage.FileTree) (settings : Settings) : List Log.Record × Nat :=
  match initialWeights files settings with
  | .error error =>
    let path := settings.learning.initialWeights.getD ""
    ([fault s!"failed to load the initial weights from {path}: {error.message}"], 1)
  | .ok _ =>
    match settings.learning.config.validate with
    | .error error => ([fault error.message], 1)
    | .ok () => (unlistened settings, 0)

/-- Runs the program on the files below a directory. A log filter that is given goes before the one
of the settings. -/
def run (files : Storage.FileTree) (directory : String) (environment : List (String × String))
    (filter : Option String) (arguments : List String) : Outcome :=
  match Invocation.parse arguments with
  | .help => ⟨0, helpText, []⟩
  | .version => ⟨0, versionText, []⟩
  | .refused => ⟨1, "", [.message usageText]⟩
  | .run path =>
    match Settings.load files directory environment path with
    | .error error =>
      ⟨1, "", [.message ("Problem parsing configuration file: " ++ error.message)]⟩
    | .ok settings =>
      let filter := Log.Filter.parse (filter.getD settings.logLevel)
      let (records, code) := records files settings
      ⟨code, "", (records.filter filter.admits).map .record⟩

end FederatedRounds.CommandLine
