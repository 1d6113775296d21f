import FederatedRounds.Number.Decimal
/-! The parameters of a training session and what makes them valid. -/
namespace FederatedRounds

structure Config where
  rounds : UInt32
  epochs : UInt32
  minimum : UInt32
  fraction : Double

inductive ConfigError where
  | noRounds
  | noMinimum
  | fractionOutOfRange (fraction : Double)
  | epochOverflow (rounds epochs : UInt32)

def ConfigError.message (error : ConfigError) : String :=
  "invalid coordinator configuration: " ++
    match error with
    | noRounds => "`num_rounds` must be at least 1"
    | noMinimum => "`minimum_participants_in_round` must be at least 1"
    | fractionOutOfRange fraction =>
      "`fraction_of_participants` must be in (0, 1], got " ++ fraction.text
    | epochOverflow rounds epochs =>
      s!"{natText rounds.toNat} round(s) of {natText epochs.toNat} epoch(s) overflow the epoch " ++
        "counter"

namespace Config

/-- One round of one epoch, with every participant and at least one. -/
def default : Config := ⟨1, 1, 1, .one⟩

def validate (config : Config) : Except ConfigError Unit :=
  if config.rounds < 1 then .error .noRounds
  else if config.minimum < 1 then .error .noMinimum
  else if !(Ieee.lt .zero config.fraction && config.fraction.le .one) then
    .error (.fractionOutOfRange config.fraction)
  else if UInt32.size ≤ config.epochs.toNat * config.rounds.toNat then
    .error (.epochOverflow config.rounds config.epochs)
  else .ok ()

/-- How many participants must be connected for a round to start, so that the fraction of them that
is selected is no smaller than the minimum. -/
def quorum (config : Config) : Nat :=
  (Ieee.div (.ofNat config.minimum.toNat) config.fraction).floorToNat 64

end Config
end FederatedRounds
