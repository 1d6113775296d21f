import FederatedRounds.Json.Printer
import FederatedRounds.Json.Reader
import FederatedRounds.Storage.Error
import FederatedRounds.Wire.Tensor
/-! A store of weights in files below one directory: those of a round in `7.json`, those of a
participant and a round in `p/7.json`. Ids that would lead elsewhere are refused. -/
namespace FederatedRounds.Storage

def FileTree.loadWeights (t : FileTree) (p : Path) : Except StorageError Weights :=
  match t.read p with
  | .error .noEntry => .error (.notFound (.file p))
  | .error error => .error (.file error)
  | .ok text =>
    match (Json.parse? text).bind Weights.ofJson? with
    | some weights => .ok weights
    | none => .error .malformedWeights

def FileTree.saveWeights (t : FileTree) (p : Path) (weights : Weights) :
    Except StorageError Unit × FileTree :=
  match t.writeBelow p (Weights.toJson weights).render with
  | (.ok (), t) => (.ok (), t)
  | (.error error, t) => (.error (.file error), t)

structure FileStore where
  directory : Path

namespace FileStore

def fileName (round : UInt32) : String := natText round.toNat ++ ".json"

def globalPath (s : FileStore) (round : UInt32) : Path := s.directory.join (fileName round)

/-- The id is one name, and neither that of a directory itself nor of the one above it. -/
def isUsable (id : ParticipantId) : Bool :=
  id.text ≠ "" && id.text ≠ "." && id.text ≠ ".." &&
    !id.text.toList.any fun c => c = '/' || c = '\\'

def localPath (s : FileStore) (id : ParticipantId) (round : UInt32) : Except StorageError Path :=
  if isUsable id then .ok ((s.directory.join id.text).join (fileName round))
  else .error (.unusableId id)

def writeGlobal (s : FileStore) (round : UInt32) (weights : Weights) (t : FileTree) :
    Except StorageError Unit × FileTree :=
  t.saveWeights (s.globalPath round) weights

def readGlobal (s : FileStore) (round : UInt32) (t : FileTree) : Except StorageError Weights :=
  t.loadWeights (s.globalPath round)

def writeLocal (s : FileStore) (id : ParticipantId) (round : UInt32) (weights : Weights)
    (t : FileTree) : Except StorageError Unit × FileTree :=
  match s.localPath id round with
  | .error error => (.error error, t)
  | .ok path => t.saveWeights path weights

def readLocal (s : FileStore) (id : ParticipantId) (round : UInt32) (t : FileTree) :
    Except StorageError Weights :=
  match s.localPath id round with
  | .error error => .error error
  | .ok path => t.loadWeights path

end FileStore
end FederatedRounds.Storage
