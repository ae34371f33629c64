import XboxProxy.Misc.Ballot
import XboxProxy.Misc.Channel
import XboxProxy.Misc.Chunks
import XboxProxy.Misc.Clauses
import XboxProxy.Misc.Components
import XboxProxy.Misc.Float64
import XboxProxy.Misc.Html
import XboxProxy.Misc.Labels
import XboxProxy.Misc.Lines
import XboxProxy.Misc.ListUpdate
import XboxProxy.Misc.Locks
import XboxProxy.Misc.Multimap
import XboxProxy.Misc.Numeral
import XboxProxy.Misc.Ranking
import XboxProxy.Misc.RetainedLog
import XboxProxy.Misc.Run
import XboxProxy.Misc.Sql
import XboxProxy.Misc.Str
import XboxProxy.Misc.U64
import XboxProxy.Net
import XboxProxy.Net.Proofs.Text
import XboxProxy.Selector
import XboxProxy.Selector.Calls
import XboxProxy.Selector.Routing
import XboxProxy.Selector.Concurrent
import XboxProxy.Selector.Locks
import XboxProxy.Selector.Proofs.BestBadge
import XboxProxy.Selector.Proofs.Choice
import XboxProxy.Selector.Proofs.History
import XboxProxy.Selector.Proofs.HostMatching
import XboxProxy.Selector.Proofs.LockOrder
import XboxProxy.Selector.Proofs.PinCoherence
import XboxProxy.Selector.Proofs.PinRuns
import XboxProxy.Endpoints
import XboxProxy.Endpoints.Proofs.Loading
import XboxProxy.Db
import XboxProxy.Db.Store
import XboxProxy.Db.Aggregates
import XboxProxy.Db.Proofs.Retention
import XboxProxy.Db.Proofs.Conservation
import XboxProxy.Db.Proofs.Windows
import XboxProxy.Metrics
import XboxProxy.Metrics.Traffic
import XboxProxy.Dashboard
import XboxProxy.Dashboard.Pins
import XboxProxy.Dashboard.Queries
import XboxProxy.Dashboard.Proofs.Pins
import XboxProxy.Speedtest.Control
import XboxProxy.Speedtest.Pass
import XboxProxy.Speedtest.Measure
import XboxProxy.Speedtest.Testing
import XboxProxy.Speedtest.Proofs.AfterPass
import XboxProxy.Speedtest.Proofs.CompletionOrder
import XboxProxy.Speedtest.Proofs.ForcedPasses
import XboxProxy.Speedtest.Proofs.KeptRequests
import XboxProxy.Speedtest.Proofs.ManualPass
import XboxProxy.Speedtest.Proofs.Measurement
import XboxProxy.Speedtest.Proofs.PassCoverage
import XboxProxy.Speedtest.Proofs.PassOrder
import XboxProxy.Speedtest.Proofs.Retest
import XboxProxy.Speedtest.Proofs.Tables
import XboxProxy.Speedtest.Proofs.TestHost
import XboxProxy.Speedtest.Proofs.TestUrls
import XboxProxy.Speedtest.Proofs.Wakeups
import XboxProxy.Proxy.Headers
import XboxProxy.Proxy.Record
import XboxProxy.Proxy.Attempts
import XboxProxy.Proxy.Handler
import XboxProxy.Proxy.Stream
import XboxProxy.Proxy.Proofs.AllowedAddresses
import XboxProxy.Proxy.Proofs.AttemptLoop
import XboxProxy.Proxy.Proofs.DistinctAttempts
import XboxProxy.Proxy.Proofs.Exits
import XboxProxy.Proxy.Proofs.HostHeader
import XboxProxy.Proxy.Proofs.HopByHop
import XboxProxy.Proxy.Proofs.NextAttempt
import XboxProxy.Proxy.Proofs.OneGroup
import XboxProxy.Proxy.Proofs.RecordOnce
import XboxProxy.Proxy.Proofs.RecordedError
import XboxProxy.Proxy.Proofs.Relay
import XboxProxy.Service
import XboxProxy.Service.Restart
import XboxProxy.Service.Proofs.Accounting
import XboxProxy.Service.Proofs.Handlers
import XboxProxy.Service.Proofs.Listing
import XboxProxy.Service.Proofs.Restarts
import XboxProxy.Service.Proofs.Summary
import XboxProxy.Dashboard.Page
import XboxProxy.Dashboard.Proofs.Page
