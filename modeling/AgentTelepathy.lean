import AgentTelepathy.Foundation.Dict
import AgentTelepathy.Foundation.Transition
import AgentTelepathy.Foundation.Binary64
import AgentTelepathy.Foundation.FixedWidth
import AgentTelepathy.Foundation.FixedFormat
import AgentTelepathy.Foundation.Base64
import AgentTelepathy.Foundation.Json
import AgentTelepathy.Foundation.JsonText
import AgentTelepathy.Foundation.JsonRead
import AgentTelepathy.Foundation.Shortest
import AgentTelepathy.Foundation.JsonRoundTrip
import AgentTelepathy.Foundation.Comparison
import AgentTelepathy.Foundation.Ecma
import AgentTelepathy.Foundation.CodeUnits
import AgentTelepathy.Foundation.JsonTree
import AgentTelepathy.Foundation.JsonDocument
import AgentTelepathy.Foundation.Dialect
import AgentTelepathy.Foundation.Decimal
import AgentTelepathy.Foundation.SortedWriter
import AgentTelepathy.Foundation.GoJson
import AgentTelepathy.Foundation.GoValue
import AgentTelepathy.Foundation.NumberText
import AgentTelepathy.Foundation.Rows
import AgentTelepathy.Foundation.GoText
import AgentTelepathy.Foundation.Register
import AgentTelepathy.Foundation.Replica
import AgentTelepathy.Foundation.WriteThrough
import AgentTelepathy.Foundation.Outbox
import AgentTelepathy.Foundation.Deque
import AgentTelepathy.Foundation.Collector
import AgentTelepathy.Foundation.Attempts
import AgentTelepathy.Foundation.Quotient
import AgentTelepathy.Foundation.Handout
import AgentTelepathy.Foundation.ReplayCache
import AgentTelepathy.Foundation.Allowance
import AgentTelepathy.Foundation.Windows
import AgentTelepathy.Schemas.Values
import AgentTelepathy.Schemas.Envelope
import AgentTelepathy.Schemas.Validate
import AgentTelepathy.Schemas.Wire
import AgentTelepathy.Schemas.Records
import AgentTelepathy.Schemas.Acceptance
import AgentTelepathy.Security.Crypto
import AgentTelepathy.Security.Acl
import AgentTelepathy.Security.RustIdentity
import AgentTelepathy.Security.JavaIdentity
import AgentTelepathy.Security.GoIdentity
import AgentTelepathy.Memory.Crdt
import AgentTelepathy.Memory.Gossip
import AgentTelepathy.Memory.Journal
import AgentTelepathy.Memory.Durable
import AgentTelepathy.Memory.Ports
import AgentTelepathy.Memory.Parity
import AgentTelepathy.Memory.StateSync
import AgentTelepathy.Memory.Invention
import AgentTelepathy.Core.Queue
import AgentTelepathy.Core.QueueHistory
import AgentTelepathy.Core.Reassembly
import AgentTelepathy.Core.Transfers
import AgentTelepathy.Core.Delivery
import AgentTelepathy.Core.DeliveryOrder
import AgentTelepathy.Core.Orphans
import AgentTelepathy.Core.Node
import AgentTelepathy.Core.Inbound
import AgentTelepathy.Core.Session
import AgentTelepathy.Core.Pinning
import AgentTelepathy.Core.Replay
import AgentTelepathy.Core.Window
import AgentTelepathy.Core.Inertness
import AgentTelepathy.Core.Admission
import AgentTelepathy.Core.Agreement
import AgentTelepathy.Core.Acknowledgement
import AgentTelepathy.Core.Confirmation
import AgentTelepathy.Core.Reassembler
import AgentTelepathy.Core.Chunker
import AgentTelepathy.Core.RoundTrip
import AgentTelepathy.Core.RustNode
import AgentTelepathy.Core.GoNode
import AgentTelepathy.Schemas.GoPayload
import AgentTelepathy.Schemas.GoPortable
import AgentTelepathy.Core.GoPython
import AgentTelepathy.Foundation.Scalar
import AgentTelepathy.Foundation.Tickets
import AgentTelepathy.Foundation.Interference
import AgentTelepathy.Core.Adns
import AgentTelepathy.Core.RelayClient
import AgentTelepathy.Relay.Server
import AgentTelepathy.Relay.Handling
import AgentTelepathy.Relay.Run
import AgentTelepathy.Relay.Step
import AgentTelepathy.Relay.Possession
import AgentTelepathy.Relay.Takeover
import AgentTelepathy.Relay.Tasks
import AgentTelepathy.Relay.Routing
import AgentTelepathy.Relay.Liveness
import AgentTelepathy.Relay.Deregistration
import AgentTelepathy.Relay.Isolation
import AgentTelepathy.Relay.Alike
import AgentTelepathy.Relay.Exchange
import AgentTelepathy.Relay.Broadcast
import AgentTelepathy.Relay.Control
import AgentTelepathy.Relay.Bucket
import AgentTelepathy.Relay.ChallengeRate
import AgentTelepathy.Relay.Webhook
import AgentTelepathy.Relay.Hops
import AgentTelepathy.Foundation.Selection
import AgentTelepathy.Foundation.Cosine
import AgentTelepathy.Foundation.Pool
import AgentTelepathy.Foundation.Counter
import AgentTelepathy.Foundation.Joining
import AgentTelepathy.Foundation.PyObjects
import AgentTelepathy.Memory.Vector
import AgentTelepathy.Memory.Streams
import AgentTelepathy.Memory.TsMap
import AgentTelepathy.Memory.Atomicity
import AgentTelepathy.Memory.Connect
import AgentTelepathy.Memory.ConnectJoin
import AgentTelepathy.Memory.Syncing
import AgentTelepathy.Adapters.Sensors
import AgentTelepathy.Adapters.Modbus
import AgentTelepathy.Adapters.ModbusTasks
import AgentTelepathy.Foundation.Owners
import AgentTelepathy.Foundation.Loop
import AgentTelepathy.Core.GoConnections
import AgentTelepathy.Core.GoPanics
import AgentTelepathy.Core.RustConnections
import AgentTelepathy.Core.PendingAcks
import AgentTelepathy.Adapters.EventStream
import AgentTelepathy.Core.GoInbound
import AgentTelepathy.Core.JavaInbound
import AgentTelepathy.Core.OpenclawAgent
import AgentTelepathy.Core.PythonTs
import AgentTelepathy.Core.TsDelivery
import AgentTelepathy.Core.TsReconnect
import AgentTelepathy.Core.TsRelay
