import Mini2.RoutingHash
import Mini2.RoutingMonth
import Mini2.GeneratedRoutes
import Mini2.Lib.Runs
import Mini2.Lib.Pipe
import Mini2.Lib.RoundRobin
import Mini2.Producer
import Mini2.LaneOnce
import Mini2.LaneSound
import Mini2.AtMostOnce
import Mini2.PullRetry
import Mini2.Certificate
import Mini2.ExactlyOnce
import Mini2.Cancellation
import Mini2.SequentialLoad
import Mini2.PyPartition
import Mini2.Progress
import Mini2.Bounded
import Mini2.Coverage
import Mini2.Joins
import Mini2.Wakeups
import Mini2.PyEnding
import Mini2.Idempotence
import Mini2.Scheduler
import Mini2.ActiveIds
import Mini2.Scan
import Mini2.RangeTable
import Mini2.Fetch
import Mini2.Atomic
import Mini2.Relay
import Mini2.PyRounds
import Mini2.Loaders
import Mini2.ValidRows
import Mini2.GenDataset
import Mini2.Bookkeeping
import Mini2.RrOrder
import Mini2.NextHop
import Mini2.JsonText
import Mini2.RoutingChecked
import Mini2.Truncated
import Mini2.JsonCalls
import Mini2.ChunkSizer
import Mini2.OverlayRoundTrip
import Mini2.Environment
import Mini2.PyOverlay
import Mini2.Planned
import Mini2.Generators
import Mini2.Production
import Mini2.PyClient
import Mini2.Dates
import Mini2.Client
import Mini2.Session
import Mini2.Standing
import Mini2.Report
import Mini2.NextRow
import Mini2.LaneAhead
import Mini2.Completes
import Mini2.NoDeadEnd
