import CodexQueueBot.Config.Target
import CodexQueueBot.Lib.LedgerPreservation
import CodexQueueBot.Lib.LedgerHospitality
import CodexQueueBot.Lib.LedgerFence
import CodexQueueBot.Jobs.Manager
import CodexQueueBot.Jobs.Locked
import CodexQueueBot.Jobs.Sections
import CodexQueueBot.Jobs.Calls
import CodexQueueBot.Jobs.System
import CodexQueueBot.Jobs.Outcomes
import CodexQueueBot.Jobs.CallOutcomes
import CodexQueueBot.Jobs.Tables
import CodexQueueBot.Jobs.View
import CodexQueueBot.Jobs.Refinement
import CodexQueueBot.Jobs.SystemRefinement
import CodexQueueBot.Jobs.Exclusion
import CodexQueueBot.Jobs.Activity
import CodexQueueBot.Jobs.Signals
import CodexQueueBot.Jobs.Edits
import CodexQueueBot.Jobs.Accounting
import CodexQueueBot.Jobs.Procs
import CodexQueueBot.Jobs.Waits
import CodexQueueBot.Jobs.Totality
import CodexQueueBot.Jobs.Progress
import CodexQueueBot.Jobs.History
import CodexQueueBot.Jobs.Fencing
import CodexQueueBot.Jobs.Starts
import CodexQueueBot.Jobs.Subscription
import CodexQueueBot.Jobs.Roster
import CodexQueueBot.Jobs.Notification
import CodexQueueBot.Jobs.Quiescence
import CodexQueueBot.Jobs.Index
import CodexQueueBot.Jobs.Broadcasts
import CodexQueueBot.Jobs.Observers
import CodexQueueBot.Jobs.WaitGroup
import CodexQueueBot.Jobs.Shutdown
import CodexQueueBot.Go.StringFacts
import CodexQueueBot.Proxyenv.Resolver
import CodexQueueBot.Lib.Transaction
import CodexQueueBot.Lib.Database
import CodexQueueBot.Go.Stdlib
import CodexQueueBot.Config.Settings
import CodexQueueBot.Config.Validity
import CodexQueueBot.Storage.Secrets
import CodexQueueBot.Storage.Tables
import CodexQueueBot.Storage.Operations
import CodexQueueBot.Storage.Rules
import CodexQueueBot.Storage.Contracts
import CodexQueueBot.Storage.Revisions
import CodexQueueBot.Storage.Loadable
import CodexQueueBot.Storage.Sequences
import CodexQueueBot.Jobs.Intervals
import CodexQueueBot.Jobs.Addressing
import CodexQueueBot.Commands.Handler
import CodexQueueBot.Jobs.Redaction
import CodexQueueBot.Proxyenv.Environment
import CodexQueueBot.Codex.Environment
import CodexQueueBot.Storage.ReadBack
import CodexQueueBot.Hub.Status
import CodexQueueBot.Messages.Runtime
import CodexQueueBot.Messages.Generations
import CodexQueueBot.Messages.Messengers
import CodexQueueBot.Hub.Listener
import CodexQueueBot.Hub.Client
import CodexQueueBot.Hub.Reconnecting
import CodexQueueBot.Telegram.Client
import CodexQueueBot.Messages.Rejection
import CodexQueueBot.Telegram.Batch
import CodexQueueBot.Telegram.Delivery
import CodexQueueBot.Web.Requests
import CodexQueueBot.Web.Server
import CodexQueueBot.Web.Moves
import CodexQueueBot.Web.Accounts
import CodexQueueBot.Web.Streams
import CodexQueueBot.Hub.Events
import CodexQueueBot.Telegram.Polling
import CodexQueueBot.Lib.Feed
import CodexQueueBot.Hub.Feed
import CodexQueueBot.Config.Normalization
import CodexQueueBot.Codex.Arguments
import CodexQueueBot.Commands.RoundTrip
import CodexQueueBot.Storage.Slots
import CodexQueueBot.Storage.Appending
import CodexQueueBot.Jobs.StopReport
import CodexQueueBot.Lib.Mutex
import CodexQueueBot.Jobs.Listing
import CodexQueueBot.Codex.TailBuffer
import CodexQueueBot.Web.Copies
import CodexQueueBot.Web.Agreement
import CodexQueueBot.Storage.Restarts
import CodexQueueBot.Codex.Endings
import CodexQueueBot.Web.Access
import CodexQueueBot.Jobs.Disclosure
import CodexQueueBot.Jobs.Counting
import CodexQueueBot.Jobs.Pacing
import CodexQueueBot.Jobs.Notifier
