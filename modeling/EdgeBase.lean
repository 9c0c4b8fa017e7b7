import EdgeBase.Gate.InsertGate
import EdgeBase.Gate.InstanceGate
import EdgeBase.Gate.UserIsolation
import EdgeBase.Access.Count
import EdgeBase.Access.Projection
import EdgeBase.Validation
import EdgeBase.Writes
import EdgeBase.ObjectWrites
import EdgeBase.ObjectSpec
import EdgeBase.D1Writes
import EdgeBase.PgWrites
import EdgeBase.Access.OwnBlock
import EdgeBase.Access.Pagination
import EdgeBase.Access.EveryPath
import EdgeBase.Forwarding
import EdgeBase.Atomic.D1Batch
import EdgeBase.Atomic.D1Transact
import EdgeBase.Lib.Session
import EdgeBase.Atomic.PgSession
import EdgeBase.Access.RelatedAuthority
import EdgeBase.Schema.Uniqueness
import EdgeBase.Auth.RefreshTokens
import EdgeBase.Auth.ReuseDetection
import EdgeBase.Lib.Triple
import EdgeBase.Representation.FieldValues
import EdgeBase.Representation.BatchUpsert
import EdgeBase.Live.Changes
import EdgeBase.Live.RestData
import EdgeBase.Live.Snapshots
import EdgeBase.Live.ServerFilters
import EdgeBase.Lib.Runs
import EdgeBase.Lib.Table
import EdgeBase.Auth.Tables
import EdgeBase.Auth.Challenges
import EdgeBase.Auth.RecoveryCodes
import EdgeBase.Auth.Passkeys
import EdgeBase.Auth.Reservations
import EdgeBase.Auth.Identities
import EdgeBase.Auth.Finalization
import EdgeBase.Auth.TotpReplay
import EdgeBase.Auth.OneTimeCodes
import EdgeBase.Auth.LastMethod
import EdgeBase.Auth.SessionCap
import EdgeBase.Auth.StaleAnonymous
import EdgeBase.Lib.Channels
import EdgeBase.Sdk.TokenManager
import EdgeBase.Sdk.Tabs
import EdgeBase.Sdk.Sound
import EdgeBase.Sdk.SignOut
import EdgeBase.Sdk.OAuthReplay
import EdgeBase.Auth.OAuthStates
import EdgeBase.Lib.Programs
import EdgeBase.Schedule.Deliveries
import EdgeBase.Schedule.Attempts
import EdgeBase.Schedule.Claims
import EdgeBase.Storage.Grants
import EdgeBase.Storage.GrantReplay
import EdgeBase.Storage.GrantRequests
import EdgeBase.Storage.GrantBudget
import EdgeBase.Storage.GrantReplay
import EdgeBase.Storage.GrantRequests
import EdgeBase.Storage.GrantBudget
import EdgeBase.Storage.GrantBudget
import EdgeBase.Lib.Deltas
import EdgeBase.Rooms.State
import EdgeBase.Rooms.Copies
import EdgeBase.Rooms.Convergence
import EdgeBase.Rooms.Provenance
import EdgeBase.Rooms.Handlers
import EdgeBase.Rooms.Sections
import EdgeBase.Rooms.Creation
import EdgeBase.Rooms.Orderly
import EdgeBase.Rooms.JoinGate
import EdgeBase.Rooms.Capacity
import EdgeBase.Rooms.Blocks
import EdgeBase.Lib.Handlers
import EdgeBase.Lib.TimerLog
import EdgeBase.Rooms.Deadlines
import EdgeBase.Rooms.DeadlineFrames
import EdgeBase.Rooms.AlarmCoverage
import EdgeBase.Rooms.NamedTimers
import EdgeBase.Lib.Progress
import EdgeBase.Plugins.Migrations
import EdgeBase.Plugins.Runs
import EdgeBase.Plugins.Upgrades
import EdgeBase.Lib.Chunks
import EdgeBase.Access.ManyRows
import EdgeBase.Lib.CutPages
import EdgeBase.Lib.SelfLength
import EdgeBase.JsonText
import EdgeBase.BodyLength
import EdgeBase.Cursors.Store
import EdgeBase.Cursors.Expiry
import EdgeBase.Cursors.Calls
import EdgeBase.Access.BoundedPages
import EdgeBase.Access.BoundedWalk
import EdgeBase.Lib.Verdicts
import EdgeBase.Live.Conditions
import EdgeBase.Live.Hub
import EdgeBase.Live.Batches
import EdgeBase.Live.Deliveries
import EdgeBase.Access.FilterParams
import EdgeBase.Lib.ProbedPages
import EdgeBase.Access.RelatedPages
import EdgeBase.Lib.LikePattern
import EdgeBase.FilterSql
import EdgeBase.Access.FilterParity
import EdgeBase.Lib.Bits
import EdgeBase.Keys.Cidr
import EdgeBase.Auth.EmailTokens
import EdgeBase.Auth.LinearRefresh
import EdgeBase.Lib.Workers
import EdgeBase.Schedule.Leases
import EdgeBase.Schedule.Execution
import EdgeBase.Keys.ServiceKeys
import EdgeBase.Live.ChannelNames
import EdgeBase.Live.Sockets
import EdgeBase.Live.SocketRuns
import EdgeBase.Live.Dispatch
import EdgeBase.Live.Subscriptions
import EdgeBase.Live.Turns
import EdgeBase.Live.Registration
import EdgeBase.Lib.TokenBucket
import EdgeBase.Rooms.RateLimit
import EdgeBase.Lib.Calendar
import EdgeBase.Schedule.Cron
import EdgeBase.Schedule.CronSearch
import EdgeBase.Outbox.Adapters
import EdgeBase.Outbox.Holdings
import EdgeBase.Outbox.ReplayOrder
import EdgeBase.Outbox.Tabs
import EdgeBase.Rooms.OutboundQueue
import EdgeBase.Rooms.OutboundRuns
import EdgeBase.Rooms.OutboundDelivery
import EdgeBase.Rooms.Mutations
import EdgeBase.Functions.Routing
import EdgeBase.Functions.RouteChoice
import EdgeBase.Auth.Base32
import EdgeBase.Uuid
import EdgeBase.Schema.MultiStatement
import EdgeBase.Outbox.Agreement
import EdgeBase.Schema.FtsRepair
import EdgeBase.Storage.Listing
import EdgeBase.Gate.FixedWindow
import EdgeBase.Gate.ObjectNames
