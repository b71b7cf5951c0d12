import EvilResp.Cluster.Address
import EvilResp.Cluster.Agreement
import EvilResp.Cluster.Assignment
import EvilResp.Cluster.Chain
import EvilResp.Cluster.Discovery
import EvilResp.Cluster.Faults
import EvilResp.Cluster.Focused
import EvilResp.Cluster.Normalize
import EvilResp.Cluster.Redirection
import EvilResp.Cluster.Rewrite
import EvilResp.Cluster.Routing
import EvilResp.Cluster.Shards
import EvilResp.Cluster.Slots
import EvilResp.Cluster.WrongServer
import EvilResp.Config.Chaos
import EvilResp.Config.Evil
import EvilResp.Config.Exec
import EvilResp.Config.Filters
import EvilResp.Config.Fingerprint
import EvilResp.Config.Framing
import EvilResp.Config.Generator
import EvilResp.Config.Options
import EvilResp.Config.Order
import EvilResp.Config.Preset
import EvilResp.Config.Ranges
import EvilResp.Config.Target
import EvilResp.Config.Topology
import EvilResp.Config.Transport
import EvilResp.Delivery.Calls
import EvilResp.Delivery.Deliver
import EvilResp.Delivery.Fault
import EvilResp.Delivery.Plan
import EvilResp.Delivery.Stream
import EvilResp.Error
import EvilResp.Externals
import EvilResp.Library.Audience
import EvilResp.Library.Broadcast
import EvilResp.Library.Channel
import EvilResp.Library.Codes
import EvilResp.Library.Crc
import EvilResp.Library.Decimal
import EvilResp.Library.Dialogue
import EvilResp.Library.Dispenser
import EvilResp.Library.Draw
import EvilResp.Library.Fields
import EvilResp.Library.Fill
import EvilResp.Library.Firsts
import EvilResp.Library.Float64
import EvilResp.Library.Grouping
import EvilResp.Library.Json
import EvilResp.Library.Lines
import EvilResp.Library.Lossy
import EvilResp.Library.Machine
import EvilResp.Library.Numeric
import EvilResp.Library.Outcome
import EvilResp.Library.Reservoir
import EvilResp.Library.Result
import EvilResp.Library.Sort
import EvilResp.Library.Text
import EvilResp.Library.Tree
import EvilResp.Library.Weighted
import EvilResp.Mutation.Addresses
import EvilResp.Mutation.Bounds
import EvilResp.Mutation.Canonical
import EvilResp.Mutation.Exec
import EvilResp.Mutation.Framing
import EvilResp.Mutation.Fresh
import EvilResp.Mutation.Generator
import EvilResp.Mutation.Mutate
import EvilResp.Mutation.Preserve
import EvilResp.Mutation.Readable
import EvilResp.Mutation.Replay
import EvilResp.Mutation.Selection
import EvilResp.Mutation.Settled
import EvilResp.Mutation.Uniform
import EvilResp.Mutation.Wire
import EvilResp.Net
import EvilResp.Proxy.Aligned
import EvilResp.Proxy.Answers
import EvilResp.Proxy.Calm
import EvilResp.Proxy.Connection
import EvilResp.Proxy.Counters
import EvilResp.Proxy.Debug
import EvilResp.Proxy.Disarmed
import EvilResp.Proxy.Discipline
import EvilResp.Proxy.Isolation
import EvilResp.Proxy.Ledger
import EvilResp.Proxy.Matching
import EvilResp.Proxy.Monitor
import EvilResp.Proxy.Monitors
import EvilResp.Proxy.Receipts
import EvilResp.Proxy.Recording
import EvilResp.Proxy.Relay
import EvilResp.Proxy.Repro
import EvilResp.Proxy.Reset
import EvilResp.Proxy.Restart
import EvilResp.Proxy.Seeded
import EvilResp.Proxy.Service
import EvilResp.Proxy.Settings
import EvilResp.Proxy.Stats
import EvilResp.Proxy.Steps
import EvilResp.Proxy.Streams
import EvilResp.Proxy.System
import EvilResp.Proxy.Tamper
import EvilResp.Proxy.Tracking
import EvilResp.Proxy.Traffic
import EvilResp.Proxy.Transaction
import EvilResp.Proxy.Transport
import EvilResp.Proxy.Whole
import EvilResp.Resp.Boundary
import EvilResp.Resp.Frame
import EvilResp.Resp.Grammar
import EvilResp.Resp.Header
import EvilResp.Resp.Nodes
import EvilResp.Resp.Parser
import EvilResp.Resp.Path
import EvilResp.Resp.Reader
import EvilResp.Resp.Reparse
import EvilResp.Resp.RoundTrip
import EvilResp.Resp.Unique
import EvilResp.Rng
import EvilResp.Upstream.Connection
import EvilResp.Upstream.Queue
import EvilResp.Upstream.Session
