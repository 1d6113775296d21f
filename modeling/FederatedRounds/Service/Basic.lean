import FederatedRounds.Coordinator.Run
import FederatedRounds.Service.StoreQueue
/-! The coordinator as a service over time: requests are handled one at a time, the events that they
emit go to the stores, and a monitor wakes up to remove the participants that have expired. -/
namespace FederatedRounds

inductive RequestError where
  | shutDown
  | coordinator (error : CoordinatorError)
deriving DecidableEq

def RequestError.message : RequestError → String
  | shutDown => "the coordinator service shut down"
  | coordinator error => error.message

/-- A monitor sleeps until `wakeAt`; without it there is no monitor. -/
structure Service (σ α : Type) where
  now : Instant
  running : Bool
  coordinator : Coordinator σ α
  queue : Service.StoreQueue
  wakeAt : Option Instant

namespace Service
variable {σ α : Type}

def start (coordinator : Coordinator σ α) (stores : Stores) (running monitored : Bool) :
    Service σ α where
  now := 0
  running
  coordinator
  queue := ⟨stores, .empty, [], 0, []⟩
  wakeAt := if monitored then some (coordinator.registry.nextExpiration 0) else none

/-- Handles a request, unless the service is gone. The events that it emits are handed over to the
stores. -/
def request (rules : Rules σ α) (r : Request) (s : Service σ α) :
    Option Answer × Service σ α :=
  if s.running then
    let outcome := s.coordinator.handle rules s.now r
    (some outcome.reply,
      { s with
        coordinator := { outcome.next with events := [] }
        queue := s.queue.push s.now outcome.next.events })
  else (none, s)

def requests (rules : Rules σ α) : List Request → Service σ α → List (Option Answer) × Service σ α
  | [], s => ([], s)
  | r :: rest, s =>
    let (answer, s) := s.request rules r
    let (answers, s) := requests rules rest s
    (answer :: answers, s)

def changeRegistry (change : Registry.Change) (s : Service σ α) : Service σ α :=
  let registry := s.coordinator.registry.change s.now change
  { s with coordinator := { s.coordinator with registry } }

/-- Makes local weights available in the memory of the stores. -/
def putLocal (id : ParticipantId) (round : UInt32) (weights : Weights) (s : Service σ α) :
    Service σ α :=
  { s with queue := { s.queue with memory := s.queue.memory.writeLocal id round weights } }

/-- One turn of the monitor: the participants found expired are removed, and the monitor sleeps
until the next expiration. It stops when the service is gone. -/
def scan (rules : Rules σ α) (s : Service σ α) : Service σ α :=
  let expired := s.coordinator.registry.expired s.now
  let (answers, s) := s.requests rules (expired.map fun id => .removeExpired id s.now)
  if answers.any (·.isNone) then { s with wakeAt := none }
  else { s with wakeAt := some (s.coordinator.registry.nextExpiration s.now) }

def stopMonitor (s : Service σ α) : Service σ α := { s with wakeAt := none }

def passTo (target : Instant) (s : Service σ α) : Service σ α :=
  let now := max s.now target
  { s with now, queue := s.queue.settle now }

/-- Lets time pass up to an instant. The monitor wakes at most `turns` times on the way. -/
def sleepUntil (rules : Rules σ α) (target : Instant) : Nat → Service σ α → Service σ α
  | 0, s => s.passTo target
  | turns + 1, s =>
    match s.wakeAt with
    | some wake =>
      if wake ≤ target then sleepUntil rules target turns ((s.passTo wake).scan rules)
      else s.passTo target
    | none => s.passTo target

/-- Lets a span of time pass. No two turns of the monitor fall on one instant. -/
def sleep (rules : Rules σ α) (span : Nat) (s : Service σ α) : Service σ α :=
  s.sleepUntil rules (s.now + span) (span + 1)

structure Remains where
  stoppedAt : Instant
  memory : Storage.MemoryStore
  log : List StoreNotice

/-- Stops the service. The operations still to be carried out are completed first. -/
def stop (s : Service σ α) : Remains :=
  if s.running then
    let queue := s.queue.finish
    ⟨max s.now queue.freeAt, queue.memory, queue.log⟩
  else ⟨s.now, s.queue.memory, []⟩

end Service
end FederatedRounds
