import HyperNet.Lib.Circular
import HyperNet.Lib.Reentrant
import HyperNet.Lib.Ledger
import HyperNet.Lib.Index
import HyperNet.Buffer.RingBuffer
import HyperNet.Buffer.Fifo
import HyperNet.Protocol.Wire
import HyperNet.Protocol.Framer
import HyperNet.Net.EventLoop
import HyperNet.Net.SendPath
import HyperNet.Net.Worker
import HyperNet.Net.Effects
import HyperNet.Net.Paths
import HyperNet.Net.Lifecycle
import HyperNet.Net.Stream
import HyperNet.Net.Identity
import HyperNet.Connector.Requests
import HyperNet.Core.Shutdown
import HyperNet.Core.TimerWheel
import HyperNet.App.Registry
import HyperNet.App.Guards
import HyperNet.Core.Options
import HyperNet.Net.Limits
import HyperNet.Lib.Relay
import HyperNet.Lib.RelayOrder
import HyperNet.App.Delivery
import HyperNet.Gateway.Model
import HyperNet.Gateway.Upstream
import HyperNet.Gateway.Traffic
import HyperNet.Core.TimerClock
import HyperNet.Net.Moves
import HyperNet.Net.ReadLoop
import HyperNet.Connector.Dial
import HyperNet.Connector.DialTable
import HyperNet.Connector.DialLog
import HyperNet.Connector.DialAttempts
import HyperNet.Connector.Dispatch
import HyperNet.Core.StopRequest
import HyperNet.Core.Drain
import HyperNet.App.PrimaryTopic
import HyperNet.Lib.Parsing
import HyperNet.Protocol.Codec
import HyperNet.Net.Acceptor
import HyperNet.Net.Wakeup
import HyperNet.Net.Trail
import HyperNet.Net.Timeouts
import HyperNet.Net.Probes
import HyperNet.App.Composite
import HyperNet.Protocol.Packets
import HyperNet.Buffer.BufferPool
import HyperNet.Core.ConfigLoader
import HyperNet.Loadgen.Controller
import HyperNet.Loadgen.Latency
import HyperNet.Loadgen.Throughput
import HyperNet.App.JobSystem
import HyperNet.App.JobRuns
import HyperNet.Core.TaskQueue
import HyperNet.Core.Logger
import HyperNet.Lib.Text
import HyperNet.Monitoring.Metrics
import HyperNet.Monitoring.HttpStatus
import HyperNet.Monitoring.Scrape
import HyperNet.Gateway.Peers
import HyperNet.Lib.Pipes
import HyperNet.Gateway.Links
import HyperNet.Gateway.EndToEnd
import HyperNet.Gateway.Agreement
import HyperNet.Gateway.Benchmark
