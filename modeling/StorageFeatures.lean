import StorageFeatures.Address
import StorageFeatures.Api.Answer
import StorageFeatures.Api.Call
import StorageFeatures.Api.Watch
import StorageFeatures.Cache
import StorageFeatures.Cli.Command
import StorageFeatures.Cli.Help
import StorageFeatures.Cli.Parameter
import StorageFeatures.Cli.Run
import StorageFeatures.Cli.Scan
import StorageFeatures.Controller.Basic
import StorageFeatures.Controller.Config
import StorageFeatures.Controller.Run
import StorageFeatures.Csi.Call
import StorageFeatures.Csi.Codec
import StorageFeatures.Csi.Features
import StorageFeatures.Csi.Message
import StorageFeatures.Decimal.Binary64
import StorageFeatures.Decimal.Shortest
import StorageFeatures.Decimal.Word
import StorageFeatures.Definition
import StorageFeatures.Derive
import StorageFeatures.Fault
import StorageFeatures.Feature.Basic
import StorageFeatures.Feature.Json
import StorageFeatures.Health
import StorageFeatures.Http.Form
import StorageFeatures.Http.SocketAddress
import StorageFeatures.Http.Status
import StorageFeatures.Http.Uri
import StorageFeatures.Inventory
import StorageFeatures.Json.Basic
import StorageFeatures.Json.Decode
import StorageFeatures.Json.Reader
import StorageFeatures.Json.Writer
import StorageFeatures.Main
import StorageFeatures.Metrics.Basic
import StorageFeatures.Metrics.Text
import StorageFeatures.NameMap
import StorageFeatures.Object.Capability
import StorageFeatures.Object.Kind
import StorageFeatures.Object.Metadata
import StorageFeatures.Object.SnapshotClass
import StorageFeatures.Object.StorageClass
import StorageFeatures.Probe
import StorageFeatures.Proofs.Address.Canonical
import StorageFeatures.Proofs.Api.Archive
import StorageFeatures.Proofs.Api.Server
import StorageFeatures.Proofs.Api.Targets
import StorageFeatures.Proofs.Cache.Keyed
import StorageFeatures.Proofs.Controller.Accounts
import StorageFeatures.Proofs.Controller.Conflicts
import StorageFeatures.Proofs.Controller.Convergence
import StorageFeatures.Proofs.Controller.Crew
import StorageFeatures.Proofs.Controller.Exclusion
import StorageFeatures.Proofs.Controller.Existence
import StorageFeatures.Proofs.Controller.Finish
import StorageFeatures.Proofs.Controller.Gate
import StorageFeatures.Proofs.Controller.Healing
import StorageFeatures.Proofs.Controller.Intake
import StorageFeatures.Proofs.Controller.Retries
import StorageFeatures.Proofs.Controller.Schedules
import StorageFeatures.Proofs.Controller.Shutdown
import StorageFeatures.Proofs.Controller.Step
import StorageFeatures.Proofs.Controller.System
import StorageFeatures.Proofs.Controller.Trace
import StorageFeatures.Proofs.Controller.Waiting
import StorageFeatures.Proofs.Controller.Work
import StorageFeatures.Proofs.Csi.Features
import StorageFeatures.Proofs.Csi.RoundTrip
import StorageFeatures.Proofs.Decimal.Numerals
import StorageFeatures.Proofs.Feature.Flags
import StorageFeatures.Proofs.Inventory.Correlation
import StorageFeatures.Proofs.Json.Rewording
import StorageFeatures.Proofs.Json.RoundTrip
import StorageFeatures.Proofs.Json.Scalars
import StorageFeatures.Proofs.Object.Derivation
import StorageFeatures.Proofs.Object.Documents
import StorageFeatures.Proofs.Object.Rewording
import StorageFeatures.Proofs.Object.RoundTrip
import StorageFeatures.Proofs.Publisher.Deadlines
import StorageFeatures.Proofs.Publisher.Loop
import StorageFeatures.Proofs.Publisher.Turns
import StorageFeatures.Proofs.Queue.Delays
import StorageFeatures.Proofs.Queue.Getters
import StorageFeatures.Proofs.Queue.Keys
import StorageFeatures.Proofs.Queue.Order
import StorageFeatures.Proofs.Queue.Traffic
import StorageFeatures.Proofs.Queue.Wakeups
import StorageFeatures.Proofs.Store.Adapters
import StorageFeatures.Proofs.Store.Calls
import StorageFeatures.Proofs.Store.Contents
import StorageFeatures.Proofs.Store.Frame
import StorageFeatures.Proofs.Store.Passes
import StorageFeatures.Proofs.Store.Revisions
import StorageFeatures.Proofs.Sync.Ask
import StorageFeatures.Proofs.Sync.Decisions
import StorageFeatures.Proofs.Sync.Faults
import StorageFeatures.Proofs.Sync.Independence
import StorageFeatures.Proofs.Sync.Repetition
import StorageFeatures.Proofs.Text.Trimming
import StorageFeatures.Proofs.Version.Reading
import StorageFeatures.Proofs.Watch.Replica
import StorageFeatures.Proofs.Watch.Routing
import StorageFeatures.Proofs.Wire.Fields
import StorageFeatures.Publisher.Basic
import StorageFeatures.Queue.Backoff
import StorageFeatures.Queue.Keys
import StorageFeatures.Queue.Wakeup
import StorageFeatures.Queue.WorkQueue
import StorageFeatures.Simulation.Clock
import StorageFeatures.Simulation.Cluster
import StorageFeatures.Simulation.Engine
import StorageFeatures.Simulation.Feed
import StorageFeatures.Simulation.Host
import StorageFeatures.Simulation.ReplyBook
import StorageFeatures.Simulation.ScriptedPlugin
import StorageFeatures.Simulation.ScriptedServer
import StorageFeatures.Simulation.Sidecar
import StorageFeatures.Simulation.SlowStore
import StorageFeatures.Store.Call
import StorageFeatures.Store.Memory
import StorageFeatures.Sync
import StorageFeatures.Text.Blank
import StorageFeatures.Text.Quoted
import StorageFeatures.Text.Unseen
import StorageFeatures.Version
import StorageFeatures.Watch.Event
import StorageFeatures.Watch.Follower
import StorageFeatures.Watch.Route
import StorageFeatures.Wire.Field
import StorageFeatures.Wire.Varint
import StorageFeatures.Yaml.Scalar
import StorageFeatures.Yaml.Writer
