import BotHive.Library.InsertionMap
import BotHive.Library.Machine
import BotHive.Library.Tasks
import BotHive.Library.TimedKey
import BotHive.Library.Text
import BotHive.Library.Numeric
import BotHive.Library.Value
import BotHive.Library.Json
import BotHive.Resilience.CircuitBreaker
import BotHive.Crypto.Symbols
import BotHive.Crypto.Ledger
import BotHive.Crypto.LedgerBasis
import BotHive.Crypto.LedgerAccounts
import BotHive.Crypto.LedgerForm
import BotHive.Crypto.LedgerSnapshot
import BotHive.Crypto.Reconcile
import BotHive.Crypto.RiskGuard
import BotHive.Crypto.DryRun
import BotHive.Crypto.Exchange
import BotHive.Crypto.Evaluate
import BotHive.Crypto.LiveTrading
import BotHive.Crypto.LedgerReconnect
import BotHive.Crypto.LiveOrders
import BotHive.Crypto.LiveTracking
import BotHive.Crypto.SpendClaims
import BotHive.Crypto.SpendInvariant
import BotHive.Crypto.SpendCounters
import BotHive.Crypto.DailySpend
import BotHive.Crypto.StreamSockets
import BotHive.Events.PlatformEvent
import BotHive.Events.Adapters
import BotHive.Events.Dedup
import BotHive.Events.Identity
import BotHive.Proxy.Pool
import BotHive.Proxy.Sticky
import BotHive.Workers.ScriptEngine
import BotHive.Workers.ScriptCooldown
import BotHive.Workers.ScriptRegistry
import BotHive.Workers.ScriptDispatch
import BotHive.Workers.ScriptConvergence
import BotHive.Workers.EngineIntegrity
import BotHive.Workers.Leadership
import BotHive.Workers.Connect
import BotHive.Workers.ConnectRequests
import BotHive.Workers.BotWorker
import BotHive.Workers.StopFinal
import BotHive.Workers.Failover
import BotHive.Library.Trace
import BotHive.Resilience.BreakerPeriods
import BotHive.Library.Window
import BotHive.RateLimit.RateLimiter
import BotHive.RateLimit.RateWindow
import BotHive.Workers.SelfHealing
import BotHive.Workers.SendPath
import BotHive.Workers.SelfHealingPause
import BotHive.Workers.PollingOnce
import BotHive.Backup.Export
import BotHive.Backup.ExportAccepted
import BotHive.Backup.ImportRoundTrip
import BotHive.Backup.RotateEncryption
import BotHive.Backup.RotationKeeps
import BotHive.Proxy.FailureCooldown
import BotHive.Queues.DeadLetter
import BotHive.Queues.DeadLetterReplay
import BotHive.Workers.BudgetKept
import BotHive.Workers.WarmingCaps
import BotHive.Auth.AdminRemains
import BotHive.Auth.SingleUse
import BotHive.Bots.Commands
import BotHive.Bots.TenantBoundary
import BotHive.Bots.TenantIsolation
import BotHive.Webhooks.Dispatch
import BotHive.Webhooks.DispatchIsolation
import BotHive.Webhooks.Delivery
import BotHive.Workers.Batcher
import BotHive.Memory.ApiView
import BotHive.Auth.EffectiveRevocation
import BotHive.Library.ClassPattern
import BotHive.Library.IpAddress
import BotHive.Library.RegexSyntax
import BotHive.Queues.ActionRuns
import BotHive.Queues.AtMostOnce
import BotHive.Scripts.AcceptedConfigs
import BotHive.Scripts.NestedQuantifiers
import BotHive.Scripts.RunSemantics
import BotHive.Webhooks.AddressTexts
import BotHive.Webhooks.FetchGuard
import BotHive.Crypto.DashboardState
import BotHive.Memory.LostUpdates
import BotHive.Tenancy.QuotaKept
import BotHive.Workers.IntervalPeriods
import BotHive.Crypto.AlertCrossings
import BotHive.Workers.AutoStart
import BotHive.Crypto.SubmittedPlans
import BotHive.Crypto.StrategyParams
import BotHive.Crypto.PriceFeed
import BotHive.Crypto.TrailingRuns
import BotHive.Crypto.TradingCounters
import BotHive.RateLimit.SlidingWindow
import BotHive.Behavior.Schedule
import BotHive.Behavior.WakeUp
import BotHive.Domain.StoredError
import BotHive.Proxy.ProxyUrl
import BotHive.Bots.ConfigUpdate
import BotHive.Bluesky.FacetRanges
import BotHive.Workers.UpdateOrder
import BotHive.Logs.LogDelivery
import BotHive.Scripts.RegexCache
import BotHive.Api.JsonDepth
import BotHive.Workers.ReconnectDelay
import BotHive.Workers.WaitTracker
import BotHive.Proxy.Fairness
import BotHive.Domain.BotLifecycle
import BotHive.Api.AuthThrottle
import BotHive.Library.Rpc
import BotHive.Scripts.Sandbox
import BotHive.Library.RegexMeaning
import BotHive.Scripts.Patterns
import BotHive.Scripts.PatternFilters
import BotHive.Scripts.PatternConfigs
import BotHive.Dashboard.ApiResource
import BotHive.Library.Cumulative
import BotHive.Metrics.Registry
import BotHive.Metrics.Exposition
import BotHive.Metrics.Baselines
import BotHive.Events.Replay
import BotHive.Library.Template
import BotHive.Scripts.Interpolation
import BotHive.Library.Drawing
import BotHive.Crypto.RandomConfig
