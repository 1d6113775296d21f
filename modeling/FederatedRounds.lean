import FederatedRounds.Http.Response
import FederatedRounds.Main
import FederatedRounds.Metrics.LineProtocol
import FederatedRounds.Proofs.Coordinator.Abandonment
import FederatedRounds.Proofs.Coordinator.Agreement
import FederatedRounds.Proofs.Coordinator.Closing
import FederatedRounds.Proofs.Coordinator.Ending
import FederatedRounds.Proofs.Service.Monitor
import FederatedRounds.Proofs.Service.Pipeline
import FederatedRounds.Proofs.Service.Schedule
import FederatedRounds.Proofs.Coordinator.Publication
import FederatedRounds.Proofs.Service.Stored
import FederatedRounds.Proofs.Json.Literal
import FederatedRounds.Proofs.Table
import FederatedRounds.Proofs.Json.RoundTrip
import FederatedRounds.Proofs.Wire.RoundTrip
import FederatedRounds.Proofs.Aggregation.Shapes
import FederatedRounds.Proofs.Wire.Filled
import FederatedRounds.Proofs.Coordinator.Shapes
import FederatedRounds.Proofs.Aggregation.Failure
import FederatedRounds.Proofs.Coordinator.Inquiry
import FederatedRounds.Proofs.Http.Serving
import FederatedRounds.Proofs.Storage.Interchange
import FederatedRounds.Proofs.Aggregation.Positions
import FederatedRounds.Proofs.Selection.Contract
import FederatedRounds.Proofs.Number.Bounds
import FederatedRounds.Proofs.Number.Quotient
import FederatedRounds.Proofs.Coordinator.Minimum
import FederatedRounds.Proofs.Json.Spelling
import FederatedRounds.Proofs.Json.Layout
import FederatedRounds.Proofs.Wire.Fields
import FederatedRounds.Proofs.Aggregation.Weightless
import FederatedRounds.Proofs.Storage.Confinement
import FederatedRounds.Proofs.Storage.ReadBack
import FederatedRounds.Proofs.Metrics.Lines
import FederatedRounds.Proofs.Round.FirstUpdates
