import AlphaPipeline.Library.Decimal
import AlphaPipeline.Library.Loops
import AlphaPipeline.Library.JsonArray
import AlphaPipeline.Library.Interaction
import AlphaPipeline.Library.Runs
import AlphaPipeline.Library.RingBuffer
import AlphaPipeline.Library.Gregorian
import AlphaPipeline.Library.Slots
import AlphaPipeline.Library.Drawdown
import AlphaPipeline.Library.Fallible
import AlphaPipeline.Library.Fips180
import AlphaPipeline.Library.PyJson
import AlphaPipeline.Library.Ranking
import AlphaPipeline.Library.WeightedMean
import AlphaPipeline.Library.Fifo
import AlphaPipeline.Library.Interleaving
import AlphaPipeline.Library.Traces
import AlphaPipeline.Library.SharedServer
import AlphaPipeline.Library.Permits
import AlphaPipeline.Library.OrderStatistics
import AlphaPipeline.CRuntime
import AlphaPipeline.Numeric.Round
import AlphaPipeline.Numeric.RoundRange
import AlphaPipeline.Numeric.Double
import AlphaPipeline.Calendar.Civil
import AlphaPipeline.Calendar.Dates
import AlphaPipeline.Calendar.DateText
import AlphaPipeline.Calendar.TwoCalendars
import AlphaPipeline.Calendar.MarketHours
import AlphaPipeline.Calendar.Sessions
import AlphaPipeline.Cache.RedisServer
import AlphaPipeline.Cache.HolidayCalendar
import AlphaPipeline.Cache.CalendarText
import AlphaPipeline.Cache.CalendarJson
import AlphaPipeline.Cache.Breaker
import AlphaPipeline.Cache.CanonicalEpoch
import AlphaPipeline.Cache.Lockout
import AlphaPipeline.Cache.NextSession
import AlphaPipeline.Cache.TwoYears
import AlphaPipeline.Cache.LockoutRuns
import AlphaPipeline.Cache.RedisAsync
import AlphaPipeline.Cache.AsyncContext
import AlphaPipeline.Cache.AsyncAccounting
import AlphaPipeline.Cache.LatestTick
import AlphaPipeline.Db.Postgres
import AlphaPipeline.Db.PipelineRuns
import AlphaPipeline.Db.Idle
import AlphaPipeline.Db.Drain
import AlphaPipeline.Db.FailStop
import AlphaPipeline.Db.Exposure
import AlphaPipeline.Http.HttpClient
import AlphaPipeline.Http.Lifecycle
import AlphaPipeline.Http.Ownership
import AlphaPipeline.Http.Completion
import AlphaPipeline.Http.Accounting
import AlphaPipeline.Http.Destroy
import AlphaPipeline.Http.Body
import AlphaPipeline.Event.LwsRuntime
import AlphaPipeline.Event.Descriptors
import AlphaPipeline.Backtest.CostModel
import AlphaPipeline.Backtest.Metrics
import AlphaPipeline.Backtest.Engine
import AlphaPipeline.Backtest.Ledger
import AlphaPipeline.Backtest.Reconciliation
import AlphaPipeline.Backtest.Causality
import AlphaPipeline.Backtest.Returns
import AlphaPipeline.Backtest.Solvency
import AlphaPipeline.Backtest.Conversions
import AlphaPipeline.Backtest.Divisions
import AlphaPipeline.Backtest.Undefined
import AlphaPipeline.Backtest.Allocation
import AlphaPipeline.Backtest.Holding
import AlphaPipeline.Bench.Statistics
import AlphaPipeline.Bench.Driver
import AlphaPipeline.Bench.Gate
import AlphaPipeline.Bench.Schedule
import AlphaPipeline.Bench.Documents
import AlphaPipeline.Bench.Completeness
import AlphaPipeline.Bench.Validation
import AlphaPipeline.Bench.Agreement
import AlphaPipeline.Bench.Bootstrap
import AlphaPipeline.Bench.Adapters
import AlphaPipeline.Bench.Workers
import AlphaPipeline.Bench.HotPath
import AlphaPipeline.Bench.BoundedQueue
import AlphaPipeline.Bench.ReadWrite
import AlphaPipeline.Indicators.Screener
import AlphaPipeline.Risk.Gates
import AlphaPipeline.Portfolio.Sizing
import AlphaPipeline.Portfolio.Blending
import AlphaPipeline.Portfolio.BlendLaws
import AlphaPipeline.MarketData.InstrumentId
import AlphaPipeline.Edge.Sha256
import AlphaPipeline.Tools.SchemaLock
import AlphaPipeline.Apps.DriverAdapter
import AlphaPipeline.Apps.AdapterMain
import AlphaPipeline.Apps.Fixture
import AlphaPipeline.Apps.BacktestRunner
import AlphaPipeline.Spike.EventLoop
import AlphaPipeline.Spike.Changes
import AlphaPipeline.Spike.Evidence
import AlphaPipeline.Spike.Polling
import AlphaPipeline.Spike.Safety
