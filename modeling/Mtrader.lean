import Mtrader.Coroutine.Program
import Mtrader.Coroutine.Exec
import Mtrader.Coroutine.Discipline
import Mtrader.Coroutine.Interleave
import Mtrader.Py.Value
import Mtrader.Execution.Order
import Mtrader.Risk.Rules
import Mtrader.Connectors.Broker
import Mtrader.Risk.Engine
import Mtrader.Execution.Engine
import Mtrader.Execution.Table
import Mtrader.Execution.Bookkeeping
import Mtrader.Execution.Repository
import Mtrader.Connectors.Mt5
import Mtrader.Connectors.ExecuteOrder
import Mtrader.Connectors.Idempotency
import Mtrader.Execution.StatusRace
import Mtrader.Execution.OrderCopies
import Mtrader.Risk.Decision
import Mtrader.Risk.Liquidation
import Mtrader.Storage.Postgres
import Mtrader.Service.KillSwitch
import Mtrader.Service.Mt5Service
import Mtrader.Service.OrderRouting
import Mtrader.Service.Resubmission
import Mtrader.Registry.Manager
import Mtrader.Registry.Production
import Mtrader.Registry.Rollback
import Mtrader.Loop.Prefix
import Mtrader.Backtest.Engine
import Mtrader.Backtest.NoLookahead
import Mtrader.Backtest.Bookkeeping
import Mtrader.Kv.Expiring
import Mtrader.Auth.Token
import Mtrader.Auth.Security
import Mtrader.Auth.Semantics
import Mtrader.Auth.Runs
import Mtrader.Auth.Plain
import Mtrader.Auth.Websocket
import Mtrader.Auth.Expiry
import Mtrader.Auth.Reuse
import Mtrader.Auth.Flow
import Mtrader.Ticket.Handover
import Mtrader.Auth.Rotation
import Mtrader.Auth.Revocation
import Mtrader.Codec.Fields
import Mtrader.Registry.Promotion
import Mtrader.Gateway.Topics
import Mtrader.Kv.Collection
import Mtrader.Window.Sliding
import Mtrader.Gateway.World
import Mtrader.Gateway.RateLimit
import Mtrader.Gateway.Manager
import Mtrader.Gateway.Cleanup
import Mtrader.Gateway.Subscriptions
import Mtrader.Gateway.Listener
import Mtrader.Gateway.Flow
import Mtrader.Gateway.Connections
import Mtrader.Gateway.Moves
import Mtrader.Gateway.Delivery
import Mtrader.Gateway.Audience
import Mtrader.Coroutine.Tasks
import Mtrader.Connectors.Connection
import Mtrader.Connectors.Stages
import Mtrader.Connectors.Heartbeat
import Mtrader.Connectors.Reconnection
import Mtrader.MarketData.Methods
import Mtrader.MarketData.TaskRecords
import Mtrader.MarketData.Provider
import Mtrader.MarketData.Streaming
import Mtrader.MarketData.Records
import Mtrader.MarketData.Delivery
import Mtrader.Py.Bytes
import Mtrader.Codec.Base64
import Mtrader.Vault.Crypto
import Mtrader.Orm.Session
import Mtrader.Orm.Table
import Mtrader.Orm.Audited
import Mtrader.Accounts.Models
import Mtrader.Accounts.AuthService
import Mtrader.Accounts.VaultService
import Mtrader.Accounts.Plans
import Mtrader.Accounts.KeyMap
import Mtrader.Accounts.Atomicity
import Mtrader.Accounts.Chains
import Mtrader.Accounts.CurrentUser
import Mtrader.Service.Fills
import Mtrader.Coroutine.Guarantee
import Mtrader.Sql.Sessions
import Mtrader.Storage.Repository
import Mtrader.Storage.Attempts
import Mtrader.Storage.SaveOrder
import Mtrader.Storage.OrderVersion
import Mtrader.Sql.Catalog
import Mtrader.Sql.Guarded
import Mtrader.Migrations.Versions
import Mtrader.Frontend.Interceptors
import Mtrader.Frontend.Api
import Mtrader.Frontend.Tokens
import Mtrader.Frontend.Refresh
import Mtrader.Py.Exact
import Mtrader.Risk.Approval
import Mtrader.Risk.Throttle
import Mtrader.Risk.Monitor
import Mtrader.Connectors.CloseAll
import Mtrader.Service.Retries
import Mtrader.Connectors.Safety
import Mtrader.Execution.Hydration
import Mtrader.Coroutine.Likeness
import Mtrader.Objects.Holders
import Mtrader.Execution.Timeless
import Mtrader.Execution.Callbacks
import Mtrader.Backtest.Costs
import Mtrader.Calendar.Gregorian
import Mtrader.Windows.Sorted
import Mtrader.Backtest.WalkForward
import Mtrader.Loop.While
import Mtrader.Backtest.Turns
import Mtrader.Backtest.Leakage
import Mtrader.Stretches.Longest
import Mtrader.Backtest.Report
import Mtrader.OrderStatistics.Quantile
import Mtrader.Backtest.MonteCarlo
import Mtrader.Merge.Best
import Mtrader.News.Calendar
import Mtrader.News.Live
import Mtrader.Divergence.Symmetric
import Mtrader.Registry.Drift
import Mtrader.MarketData.Lifecycle
import Mtrader.MarketData.Stages
import Mtrader.MarketData.Promises
import Mtrader.Frontend.Retries
import Mtrader.Frontend.ChartData
import Mtrader.Sql.Update
import Mtrader.Storage.UpdateStatement
import Mtrader.Storage.Positions
import Mtrader.Windows.Grouped
import Mtrader.Backtest.Summary
import Mtrader.Gateway.Endpoint
import Mtrader.Gateway.Sessions
import Mtrader.Gateway.Presence
import Mtrader.Coroutine.Tally
import Mtrader.Notifier.App
import Mtrader.Notifier.Protocol
import Mtrader.Notifier.Delivery
import Mtrader.Scheduler.App
import Mtrader.Scheduler.Phases
import Mtrader.Scheduler.Jobs
import Mtrader.Scheduler.Ledger
import Mtrader.Risk.Requests
import Mtrader.Risk.Incidents
import Mtrader.Risk.Concurrent
import Mtrader.Backtest.Mirror
import Mtrader.Registry.History
import Mtrader.Codec.Forgiving
import Mtrader.Frontend.TokenStore
import Mtrader.Frontend.Auth
import Mtrader.Frontend.Refreshes
import Mtrader.Frontend.SingleFlight
import Mtrader.Frontend.Outcomes
import Mtrader.Frontend.Pending
