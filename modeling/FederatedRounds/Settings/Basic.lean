import FederatedRounds.Aggregation
import FederatedRounds.Config
import FederatedRounds.Selection
import FederatedRounds.Settings.SocketAddress
/-! The settings of a coordinator: where it listens, how it trains, when participants expire, and
where weights and metrics go. -/
namespace FederatedRounds

namespace Settings

/-- Request bodies of more than `bodyLimit` bytes are not accepted. -/
structure Api where
  address : SocketAddress
  bodyLimit : UInt64

/-- The first global weights are in the file at `initialWeights`; there are none without. -/
structure Learning where
  config : Config
  strategy : Strategy
  selection : Selection
  initialWeights : Option String

/-- In seconds. -/
structure Heartbeats where
  time : UInt64
  timeout : UInt64

inductive Storage where
  | memory
  | file (directory : String)

structure MetricStore where
  url : String
  database : String

end Settings

structure Settings where
  logLevel : String
  api : Settings.Api
  learning : Settings.Learning
  heartbeats : Settings.Heartbeats
  storage : Settings.Storage
  metricStore : Option Settings.MetricStore

namespace Settings

def Api.default : Api := ⟨.v4 [127, 0, 0, 1] 8081, 64 * 1024 * 1024⟩

def Heartbeats.default : Heartbeats := ⟨10, 5⟩

end Settings
end FederatedRounds
