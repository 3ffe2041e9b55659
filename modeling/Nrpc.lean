import Nrpc.Common.Outcome
import Nrpc.Common.Scan
import Nrpc.Common.Text
import Nrpc.Common.Varint
import Nrpc.Common.Decimal
import Nrpc.Common.GoMap
import Nrpc.Common.Heap
import Nrpc.Common.Tally
import Nrpc.Common.Machine
import Nrpc.Common.LastWord
import Nrpc.Common.Lanes
import Nrpc.Common.FanOut
import Nrpc.Common.Window
import Nrpc.Common.Chain
import Nrpc.Common.Subject
import Nrpc.Common.Stretch
import Nrpc.Codec.Model.Packet
import Nrpc.Codec.Framing
import Nrpc.Codec.Chunks
import Nrpc.Messages.Model.Dictionary
import Nrpc.Messages.Model.Message
import Nrpc.Messages.Dictionary
import Nrpc.Messages.Roundtrip
import Nrpc.Messages.Bounds
import Nrpc.Messages.Fields
import Nrpc.Messages.Unambiguous
import Nrpc.Messages.Again
import Nrpc.Messages.Stable
import Nrpc.Context.Model.Context
import Nrpc.Context.Access
import Nrpc.Context.Model.Readers
import Nrpc.Client.Model.Call
import Nrpc.Client.Isolation
import Nrpc.Client.Model.Request
import Nrpc.Client.Agreement
import Nrpc.Client.Hop
import Nrpc.Client.Nested
import Nrpc.Tracing.Model.Span
import Nrpc.Tracing.Tree
import Nrpc.Server.Model.Request
import Nrpc.Server.Intake
import Nrpc.Server.Model.Dispatch
import Nrpc.Server.Answers
import Nrpc.Server.Semaphore
import Nrpc.Server.Steps
import Nrpc.Server.Traced
import Nrpc.Server.Model.Receive
import Nrpc.Server.Receive
import Nrpc.Service.Model.Component
import Nrpc.Service.Model.Remote
import Nrpc.Service.Transparent
import Nrpc.Service.Route
import Nrpc.Service.Registry
import Nrpc.Service.Model.Register
import Nrpc.Service.Matches
import Nrpc.Service.Model.Reflect
import Nrpc.Service.Dispatch
import Nrpc.Pipeline.Model.Channel
import Nrpc.Service.Model.Trace
import Nrpc.Service.Hooks
import Nrpc.Errors.Model.Errors
import Nrpc.Errors.Classify
import Nrpc.Pipeline.Model.RateLimiter
import Nrpc.Pipeline.RateLimiter
import Nrpc.WorkerPool.Model.Pool
import Nrpc.WorkerPool.Steps
import Nrpc.WorkerPool.Serial
import Nrpc.WorkerPool.Tasks
import Nrpc.WorkerPool.Order
import Nrpc.WorkerPool.Cleanup
import Nrpc.WorkerPool.Deadlock
import Nrpc.Discovery.Model.Servers
import Nrpc.Discovery.Model.Getter
import Nrpc.Discovery.Index
import Nrpc.Discovery.Model.Etcd
import Nrpc.Discovery.Keys
import Nrpc.Discovery.Sync
import Nrpc.Discovery.Replay
import Nrpc.Discovery.Snapshot
import Nrpc.Discovery.Model.Watch
import Nrpc.Discovery.Converge
import Nrpc.Discovery.Malformed
import Nrpc.Discovery.Listeners
import Nrpc.Discovery.Blacklist
import Nrpc.Discovery.Model.Lease
import Nrpc.Discovery.Lease
import Nrpc.Discovery.GiveUp
import Nrpc.Discovery.Model.Handshake
import Nrpc.Discovery.Pause
import Nrpc.Discovery.Progress
import Nrpc.Routing.Model.Router
import Nrpc.Routing.Target
import Nrpc.Routing.Live
import Nrpc.App.Model.Termination
import Nrpc.App.Termination
import Nrpc.App.Model.Modules
import Nrpc.App.Lifecycle
import Nrpc.App.Model.Start
import Nrpc.App.Announced
import Nrpc.App.Refine
import Nrpc.Cluster.Model.Network
import Nrpc.Cluster.Steps
import Nrpc.Cluster.Calls
import Nrpc.Cluster.Timely
import Nrpc.Service.Model.Call
import Nrpc.Server.Heard
import Nrpc.Cluster.ExactlyOnce
