import FederatedRounds.Coordinator.Message
import FederatedRounds.Log
/-! What the coordinator writes to the log. -/
namespace FederatedRounds

inductive Notice where
  | created (rounds : UInt32) (quorum : Nat)
  | received (message : Message) (id : ParticipantId)
  | rejected (id : ParticipantId) (connected : Nat)
  | registeredAlready (id : ParticipantId)
  | accepted (id : ParticipantId) (connected quorum : Nat)
  | startingRound (round : UInt32) (participants : Nat)
  | heartbeat (id : ParticipantId) (phase : Phase) (round : UInt32)
  | updateReceived (round : UInt32) (id : ParticipantId) (received expected : Nat)
  | aggregating (round : UInt32)
  | aggregationFailed (round : UInt32) (error : AggregationError)
  | sessionFinished (rounds : UInt32)
  | notRegistered (id : ParticipantId)
  | notExpired (id : ParticipantId)
  | removed (id : ParticipantId) (connected : Nat)
  | abandoned (round : UInt32)

namespace Notice

def level : Notice → Level
  | received .. | registeredAlready .. | notRegistered .. | notExpired .. => .debug
  | heartbeat .. => .trace
  | aggregationFailed .. => .error
  | abandoned .. => .warn
  | _ => .info

def text : Notice → String
  | created rounds quorum =>
    s!"new coordinator: {natText rounds.toNat} round(s), waiting for {natText quorum} " ++
      "participant(s)"
  | received message id => s!"received {message.kind} message from participant {id.text}"
  | rejected id connected =>
    s!"rejecting participant {id.text}: {natText connected} participant(s) connected already"
  | registeredAlready id => s!"participant {id.text} is already registered"
  | accepted id connected quorum =>
    s!"accepted participant {id.text} ({natText connected}/{natText quorum} connected)"
  | startingRound round participants =>
    s!"starting round {natText round.toNat} with {natText participants} participant(s)"
  | heartbeat id phase round =>
    s!"heartbeat from {id.text}: {phase.text} (round {natText round.toNat})"
  | updateReceived round id count expected =>
    s!"round {natText round.toNat}: received update from {id.text} ({natText count}/" ++
      s!"{natText expected})"
  | aggregating round => s!"running aggregation for round {natText round.toNat}"
  | aggregationFailed round error =>
    s!"aggregation failed for round {natText round.toNat}, aborting the training session: " ++
      error.message
  | sessionFinished rounds => s!"training session finished after {natText rounds.toNat} round(s)"
  | notRegistered id => s!"participant {id.text} is not registered"
  | notExpired id => s!"participant {id.text} is not registered or sent a heartbeat"
  | removed id connected => s!"removed participant {id.text} ({natText connected} connected)"
  | abandoned round =>
    s!"not enough participants connected to continue round {natText round.toNat}, going back " ++
      "to standby"

def line (notice : Notice) : LogLine := ⟨notice.level, notice.text⟩

end Notice
end FederatedRounds
