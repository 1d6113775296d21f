import FederatedRounds.Number.Ieee
import FederatedRounds.Participant
/-! Choosing the participants of a round: a fraction of the connected ones, rounded up, and always
at least one. A selector may keep a state from one round to the next. -/
namespace FederatedRounds

structure Selector (σ : Type) where
  select : σ → Nat → List ParticipantId → List ParticipantId × σ

/-- How many of `total` participants make up a fraction of them. -/
def selectionSize (total : Nat) (fraction : Double) : Nat :=
  min total (max 1 ((Ieee.mul (.ofNat total) fraction).ceilToNat 64))

namespace Selector
variable {σ : Type}

/-- Selects a fraction of the participants, and no more should the selector offer more. -/
def selectFraction (selector : Selector σ) (state : σ) (ids : List ParticipantId)
    (fraction : Double) : List ParticipantId × σ :=
  let size := selectionSize ids.length fraction
  let (selected, state) := selector.select state size ids
  (selected.take size, state)

def order : Selector Unit where
  select _ size ids := ((ParticipantId.sorted ids).take size, ())

/-- Every candidate as given, however many are asked for. -/
def everyone : Selector Unit where
  select _ _ ids := (ids, ())

/-- The next state of the generator that random selection draws from. The generator is a free choice
of this library: nothing is promised of which participants are drawn, and any other would do. -/
def nextState (state : UInt64) : UInt64 := state * 6364136223846793005 + 1442695040888963407

/-- Draws participants one by one, without putting them back. This is one way to draw among many. -/
def draw : Nat → UInt64 → List ParticipantId → List ParticipantId × UInt64
  | 0, state, _ => ([], state)
  | _ + 1, state, [] => ([], state)
  | size + 1, state, id :: ids =>
    let state := nextState state
    let position := (state >>> 33).toNat % (ids.length + 1)
    let chosen := (id :: ids)[position]?.getD id
    let (others, state) := draw size state ((id :: ids).eraseIdx position)
    (chosen :: others, state)

/-- Participants drawn at random, by `draw`. The candidates are sorted first, so that the choice does
not depend on the order in which they are given. -/
def random : Selector UInt64 where
  select state size ids := draw size state (ParticipantId.sorted ids)

end Selector

/-- The ways to choose participants that a session can be set up with. -/
inductive Selection where
  | random
  | order
deriving DecidableEq

namespace Selection

def name : Selection → String
  | random => "random"
  | order => "order"

def all : List Selection := [random, order]

def ofName? (name : String) : Option Selection := all.find? fun selection => selection.name = name

end Selection
end FederatedRounds
