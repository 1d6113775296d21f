import FederatedRounds.Participant
import FederatedRounds.Tensor
/-! A training round: the participants selected for it and the first update of each submitter. -/
namespace FederatedRounds

structure Round where
  selected : List ParticipantId
  updates : List (ParticipantId × Update)

namespace Round

def start (selected : List ParticipantId) : Round := ⟨selected, []⟩

def empty : Round := start []

def isSelected (r : Round) (id : ParticipantId) : Bool := decide (id ∈ r.selected)

def hasUpdate (r : Round) (id : ParticipantId) : Bool := r.updates.any fun entry => entry.1 = id

/-- Records an update, unless the participant submitted one before. -/
def submit? (r : Round) (id : ParticipantId) (update : Update) : Option Round :=
  if r.hasUpdate id then none else some { r with updates := r.updates ++ [(id, update)] }

def isFinished (r : Round) : Bool := r.updates.length = r.selected.length

/-- Takes the updates of the given participants out of a list, in the order of the participants. -/
def collect : List ParticipantId → List (ParticipantId × Update) → List (ParticipantId × Update)
  | [], _ => []
  | id :: ids, updates =>
    match updates.find? fun entry => entry.1 = id with
    | some entry => entry :: collect ids (updates.filter fun entry => entry.1 ≠ id)
    | none => collect ids updates

def inSelectionOrder (r : Round) : List (ParticipantId × Update) := collect r.selected r.updates

end Round
end FederatedRounds
