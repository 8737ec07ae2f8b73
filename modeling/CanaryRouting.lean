import CanaryRouting.Cluster.Faults
import CanaryRouting.Cluster.Scripted
import CanaryRouting.Config.Schema
import CanaryRouting.Config.Target
import CanaryRouting.Data.KeyMap
import CanaryRouting.Decimal.Positional
import CanaryRouting.Gateway.Codec
import CanaryRouting.Json.Decoder
import CanaryRouting.Json.Indented
import CanaryRouting.Json.Printer
import CanaryRouting.Main
import CanaryRouting.Proofs.Registry.Text
import CanaryRouting.Proofs.Router.Changes
import CanaryRouting.Router.Traffic
import CanaryRouting.Service.Environment
import CanaryRouting.Service.Server
import CanaryRouting.Service.Shutdown
import CanaryRouting.Shaping.HeaderRule
import CanaryRouting.Shaping.Label
import CanaryRouting.Shaping.RegistryText
import CanaryRouting.Shaping.Weight
import CanaryRouting.Store.Rehearsal
import CanaryRouting.Text.Blank
import CanaryRouting.Text.Quoted
import CanaryRouting.Proofs.Store.Protocol
import CanaryRouting.Proofs.Agreement.Runs
import CanaryRouting.Proofs.Router.HeaderChange
import CanaryRouting.Proofs.Atomicity.Outcome
import CanaryRouting.Proofs.Atomicity.Carried
import CanaryRouting.Proofs.Atomicity.Split
import CanaryRouting.Proofs.Registry.Tight
import CanaryRouting.Proofs.Removal.Names
import CanaryRouting.Proofs.Router.Weighing
import CanaryRouting.Proofs.Removal.Reachable
import CanaryRouting.Proofs.Removal.Completion
import CanaryRouting.Proofs.Cluster.History
import CanaryRouting.Proofs.Cluster.Replay
import CanaryRouting.Proofs.Updates.Scripted
import CanaryRouting.Proofs.Router.Commuting
import CanaryRouting.Proofs.Router.Listing
import CanaryRouting.Proofs.Serial.Alone
import CanaryRouting.Proofs.Serial.Joint
import CanaryRouting.Proofs.Exclusion.Alike
import CanaryRouting.Proofs.Exclusion.Section
import CanaryRouting.Proofs.Exclusion.Serial
import CanaryRouting.Proofs.Layers.Catalogue
import CanaryRouting.Proofs.Layers.Course
import CanaryRouting.Proofs.Router.Discovery
import CanaryRouting.Proofs.Router.Verifying
import CanaryRouting.Proofs.Serial.Order
import CanaryRouting.Proofs.Shaping.References
import CanaryRouting.Proofs.Shaping.Shares
import CanaryRouting.Proofs.Shaping.Settled
import CanaryRouting.Proofs.Router.Rewriting
import CanaryRouting.Proofs.Router.Rejection
import CanaryRouting.Proofs.Shaping.Conserved
import CanaryRouting.Proofs.Shaping.InPlace
import CanaryRouting.Proofs.Shaping.Injection
import CanaryRouting.Proofs.Removal.AnyOrder
import CanaryRouting.Proofs.Store.Restoring
import CanaryRouting.Proofs.Removal.Idle
import CanaryRouting.Proofs.Router.Percentages
import CanaryRouting.Proofs.Config.Encoding
import CanaryRouting.Proofs.Config.Expression
import CanaryRouting.Proofs.Router.Canonical
