import FederatedRounds.Log
import FederatedRounds.Registry
import FederatedRounds.Storage.Memory
/-! The store operations that the coordinator asks for, carried out one after the other in the order
of the events, apart from the requests. Failures are logged and otherwise ignored; an operation that
does not end is given up after a while. -/
namespace FederatedRounds.Service
open Storage

/-- How a store behaves: it keeps everything, it keeps nothing, it fails, or it never answers. -/
inductive Behaviour where
  | memory
  | null
  | failing
  | stalled
deriving DecidableEq

/-- The behaviour of the store of each kind. Those that keep everything share one memory. -/
structure Stores where
  global : Behaviour
  locals : Behaviour
  metrics : Behaviour

inductive StoreNotice where
  | saved (round : UInt32)
  | notSaved (round : UInt32) (error : StorageError)
  | read (layers : Nat) (id : ParticipantId) (round : UInt32)
  | notRead (id : ParticipantId) (round : UInt32) (error : StorageError)
  | notWritten (id : ParticipantId) (error : StorageError)
  | timedOut (event : Event)
  | stopped

namespace StoreNotice

def level : StoreNotice → Level
  | saved _ | read .. | stopped => .debug
  | notSaved .. | timedOut _ => .error
  | notRead .. | notWritten .. => .warn

def text : StoreNotice → String
  | saved round => s!"saved global weights of round {natText round.toNat}"
  | notSaved round error =>
    s!"failed to save global weights of round {natText round.toNat}: " ++ error.message
  | read layers id round =>
    s!"read {natText layers} layer(s) of local weights from participant {id.text} for round " ++
      natText round.toNat
  | notRead id round error =>
    s!"failed to read local weights of participant {id.text} for round " ++
      s!"{natText round.toNat}: {error.message}"
  | notWritten id error =>
    s!"failed to write metrics of participant {id.text}: " ++ error.message
  | timedOut event => "store operation timed out: " ++ event.text
  | stopped => "store task stopped"

def line (notice : StoreNotice) : LogLine := ⟨notice.level, notice.text⟩

end StoreNotice

/-- The operations still to be carried out, with the instants at which they were asked for, and the
instant at which the one under way ends. -/
structure StoreQueue where
  stores : Stores
  memory : MemoryStore
  waiting : List (Instant × Event)
  freeAt : Instant
  log : List StoreNotice

namespace StoreQueue

/-- How long an operation may take, in milliseconds. -/
def patience : Nat := 30000

/-- What an event does to the memory, and what is logged. -/
def carryOut (stores : Stores) (memory : MemoryStore) (event : Event) :
    MemoryStore × List StoreNotice :=
  match event with
  | .writeGlobalWeights round weights =>
    match stores.global with
    | .memory => (memory.writeGlobal round weights, [.saved round])
    | .null => (memory, [.saved round])
    | .failing => (memory, [.notSaved round .unavailable])
    | .stalled => (memory, [.timedOut event])
  | .readLocalWeights id round =>
    match stores.locals with
    | .memory =>
      match memory.readLocal id round with
      | .ok weights => (memory, [.read weights.length id round])
      | .error error => (memory, [.notRead id round error])
    | .null => (memory, [.read 0 id round])
    | .failing => (memory, [.notRead id round .unavailable])
    | .stalled => (memory, [.timedOut event])
  | .writeMetrics id metrics =>
    match stores.metrics with
    | .memory => (memory.writeMetrics id metrics, [])
    | .null => (memory, [])
    | .failing => (memory, [.notWritten id .unavailable])
    | .stalled => (memory, [.timedOut event])

def behaviour (stores : Stores) : Event → Behaviour
  | .writeGlobalWeights .. => stores.global
  | .readLocalWeights .. => stores.locals
  | .writeMetrics .. => stores.metrics

def duration (stores : Stores) (event : Event) : Nat :=
  if behaviour stores event = .stalled then patience else 0

/-- Carries out the operation for an event that was asked for at an instant. -/
def perform (q : StoreQueue) (asked : Instant) (event : Event) : StoreQueue :=
  let (memory, notices) := carryOut q.stores q.memory event
  { q with
    memory
    freeAt := max q.freeAt asked + duration q.stores event
    log := q.log ++ notices }

/-- Carries out operations in order until one of them cannot start by the given instant. -/
def settleList (now : Instant) : List (Instant × Event) → StoreQueue → StoreQueue
  | [], q => { q with waiting := [] }
  | (asked, event) :: rest, q =>
    if max q.freeAt asked ≤ now then settleList now rest (q.perform asked event)
    else { q with waiting := (asked, event) :: rest }

def settle (now : Instant) (q : StoreQueue) : StoreQueue := settleList now q.waiting q

/-- Asks for the operations of events and carries out what can be carried out at once. -/
def push (now : Instant) (events : List Event) (q : StoreQueue) : StoreQueue :=
  settle now { q with waiting := q.waiting ++ events.map fun event => (now, event) }

def finish (q : StoreQueue) : StoreQueue :=
  let done := q.waiting.foldl (fun q (asked, event) => q.perform asked event) q
  { done with waiting := [], log := done.log ++ [.stopped] }

end StoreQueue
end FederatedRounds.Service
