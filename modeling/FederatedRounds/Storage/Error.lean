import FederatedRounds.Coordinator.Message
import FederatedRounds.Storage.FileTree
import FederatedRounds.Text.Quoted
/-! Why a store fails. -/
namespace FederatedRounds.Storage

inductive Missing where
  | globalWeights (round : UInt32)
  | localWeights (id : ParticipantId) (round : UInt32)
  | file (path : Path)
deriving DecidableEq

def Missing.text : Missing → String
  | globalWeights round => s!"global weights of round {natText round.toNat}"
  | localWeights id round =>
    s!"local weights of participant {id.text} for round {natText round.toNat}"
  | file path => path.text

inductive StorageError where
  | notFound (what : Missing)
  | file (error : FileError)
  | malformedWeights
  | unusableId (id : ParticipantId)
  | unavailable
  | unreachable
deriving DecidableEq

namespace StorageError

def message : StorageError → String
  | notFound what => "not found: " ++ what.text
  | file error => "I/O error: " ++ error.message
  | malformedWeights => "failed to (de)serialize weights"
  | unusableId id =>
    s!"storage backend error: participant id {Text.quoted id.text} cannot be used as a " ++
      "directory name"
  | unavailable => "storage backend error: unavailable"
  | unreachable => "storage backend error"

/-- The error was caused by another one, below it. -/
def hasCause : StorageError → Bool
  | file _ => true
  | malformedWeights => true
  | _ => false

end StorageError
end FederatedRounds.Storage
