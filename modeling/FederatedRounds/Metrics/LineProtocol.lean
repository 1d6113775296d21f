import FederatedRounds.Number.Decimal
import FederatedRounds.Participant
import FederatedRounds.Tensor
/-! The data points that the metrics of a participant make, one for each metric and epoch, and their
lines in the line protocol of a time-series database. A backslash is put before the characters that
would end a measurement, a field key, a tag or a text; line breaks are left as they are. -/
namespace FederatedRounds

inductive FieldValue where
  | number (value : Double)
  | text (text : String)

/-- A value of one metric at an instant, in milliseconds. -/
structure Point where
  participant : ParticipantId
  metric : String
  value : FieldValue
  time : Nat

namespace Point

/-- Milliseconds between the points of consecutive epochs, so that none hides another. -/
def epochSpacing : Nat := 1000

/-- A tensor of one element is a number; any other is the list of its elements to eight places. -/
def fieldValue (t : Tensor Single) : FieldValue :=
  match t.elements with
  | [element] => .number element.convert
  | elements => .text ("[" ++ " ".intercalate (elements.map (Ieee.fixedText 8)) ++ "]")

def ofEpochs (participant : ParticipantId) (start : Nat) (metric : String)
    (epochs : List (Tensor Single)) : List Point :=
  epochs.zipIdx.map fun (t, epoch) =>
    ⟨participant, metric, fieldValue t, start + epoch * epochSpacing⟩

/-- The points of all metrics, of which the first epoch is at `start`. -/
def ofMetrics (participant : ParticipantId) (start : Nat) (metrics : Metrics) : List Point :=
  metrics.flatMap fun (metric, epochs) => ofEpochs participant start metric epochs

def escape (special : List Char) (text : String) : String :=
  String.ofList (text.toList.flatMap fun c => if c ∈ special then ['\\', c] else [c])

def FieldValue.line : FieldValue → String
  | .number value => value.text
  | .text text => "\"" ++ escape ['"', '\\'] text ++ "\""

def measurement (metric : String) : String := "participant.ai." ++ metric

def line (p : Point) : String :=
  escape [',', ' '] (measurement p.metric) ++ ",id=" ++
    escape ['\\', ',', ' ', '=', '"'] p.participant.text ++ " " ++
    escape [',', ' ', '='] p.metric ++ "=" ++ FieldValue.line p.value ++ " " ++ natText p.time

def lines (points : List Point) : String := "\n".intercalate (points.map line)

end Point
end FederatedRounds
