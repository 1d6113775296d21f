import FederatedRounds.Storage.Error
/-! A store that keeps everything in memory. -/
namespace FederatedRounds.Storage

structure MemoryStore where
  global : Table UInt32 Weights
  locals : Table (ParticipantId × UInt32) Weights
  metrics : List (ParticipantId × Metrics)

namespace MemoryStore

def empty : MemoryStore := ⟨[], [], []⟩

def writeGlobal (s : MemoryStore) (round : UInt32) (weights : Weights) : MemoryStore :=
  { s with global := s.global.set round weights }

def readGlobal (s : MemoryStore) (round : UInt32) : Except StorageError Weights :=
  match s.global.get? round with
  | some weights => .ok weights
  | none => .error (.notFound (.globalWeights round))

def writeLocal (s : MemoryStore) (id : ParticipantId) (round : UInt32) (weights : Weights) :
    MemoryStore :=
  { s with locals := s.locals.set (id, round) weights }

def readLocal (s : MemoryStore) (id : ParticipantId) (round : UInt32) :
    Except StorageError Weights :=
  match s.locals.get? (id, round) with
  | some weights => .ok weights
  | none => .error (.notFound (.localWeights id round))

def writeMetrics (s : MemoryStore) (id : ParticipantId) (metrics : Metrics) : MemoryStore :=
  { s with metrics := s.metrics ++ [(id, metrics)] }

/-- The rounds of which there are global weights, in increasing order. -/
def rounds (s : MemoryStore) : List UInt32 :=
  (s.global.map (·.1)).mergeSort fun a b => decide (a ≤ b)

end MemoryStore
end FederatedRounds.Storage
