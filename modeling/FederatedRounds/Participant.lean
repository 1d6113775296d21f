import FederatedRounds.Number.Hexadecimal
/-! Participants are known by an opaque text, ordered by code points. A coordinator that hands out
ids makes them of random words. -/
namespace FederatedRounds

structure ParticipantId where
  text : String
deriving DecidableEq

namespace ParticipantId

def precedes (a b : ParticipantId) : Bool := decide (a.text ≤ b.text)

def insert (id : ParticipantId) : List ParticipantId → List ParticipantId
  | [] => [id]
  | other :: rest => if id.precedes other then id :: other :: rest else other :: insert id rest

/-- The ids in increasing order; repetitions stay. It is an insertion sort, as it reduces on closed
lists, where `List.mergeSort` does not. -/
def sorted (ids : List ParticipantId) : List ParticipantId := ids.foldr insert []

private def group (digits n : Nat) : String := String.ofList (Hexadecimal.padded digits n)

/-- The text of a random identifier of 128 bits: groups of 8, 4, 4, 4 and 12 hexadecimal digits, of
which the third starts with the version 4 and the fourth with the variant. -/
def ofWords (high low : UInt64) : ParticipantId :=
  let first := group 8 (high.toNat / Nat.pow 2 32)
  let second := group 4 (high.toNat / Nat.pow 2 16)
  let third := "4" ++ group 3 high.toNat
  let fourth := group 4 (Nat.pow 2 15 + low.toNat / Nat.pow 2 48 % Nat.pow 2 14)
  ⟨"-".intercalate [first, second, third, fourth, group 12 low.toNat]⟩

end ParticipantId
end FederatedRounds
