import MajsoulManager.Theory.Machine
import MajsoulManager.Theory.Loop
import MajsoulManager.Theory.Replacing
import MajsoulManager.Theory.Fault
import MajsoulManager.Theory.Text
import MajsoulManager.Theory.Utf8
import MajsoulManager.Theory.Time
import MajsoulManager.Theory.Clock
import MajsoulManager.Theory.Keyset
import MajsoulManager.Theory.Handles
import MajsoulManager.Theory.Edits
import MajsoulManager.Theory.Redaction
import MajsoulManager.Theory.Grouping
import MajsoulManager.Theory.Escapes
import MajsoulManager.Theory.Arrivals
import MajsoulManager.Record.Json
import MajsoulManager.Record.Mjai
import MajsoulManager.Record.Replay
import MajsoulManager.Record.ReplayHazard
import MajsoulManager.Store.Pack
import MajsoulManager.Store.Message
import MajsoulManager.Store.Catalog
import MajsoulManager.Store.Reference
import MajsoulManager.Store.Scan
import MajsoulManager.Store.Topic
import MajsoulManager.Store.Columns
import MajsoulManager.Store.Rows
import MajsoulManager.Store.RowText
import MajsoulManager.Store.Gc
import MajsoulManager.Indexer.AppendBatch
import MajsoulManager.Indexer.Acknowledged
import MajsoulManager.Indexer.Frames
import MajsoulManager.Indexer.Worker
import MajsoulManager.Indexer.WorkerInvariant
import MajsoulManager.Ingest.Keys
import MajsoulManager.Ingest.Calls
import MajsoulManager.Ingest.CallInvariant
import MajsoulManager.Ingest.Answers
import MajsoulManager.Ingest.Produce
import MajsoulManager.Ingest.Archive
import MajsoulManager.Ingest.ArchiveRequests
import MajsoulManager.Index.Records
import MajsoulManager.Index.Backfill
import MajsoulManager.Index.Recovery
import MajsoulManager.Index.Pages
import MajsoulManager.Index.Passes
import MajsoulManager.Index.Bounds
import MajsoulManager.Index.Rewrites
import MajsoulManager.Index.Bindings
import MajsoulManager.Index.GameClaims
import MajsoulManager.Index.MonthBlocks
import MajsoulManager.Index.Series
import MajsoulManager.Index.SeriesCharts
import MajsoulManager.Majsoul.Wire
import MajsoulManager.Majsoul.Tiles
import MajsoulManager.Majsoul.Schema
import MajsoulManager.Majsoul.Encode
import MajsoulManager.Majsoul.Gateway
import MajsoulManager.Majsoul.Channel
import MajsoulManager.Majsoul.Slots
import MajsoulManager.Majsoul.Proto
import MajsoulManager.Majsoul.Events
import MajsoulManager.Majsoul.Convert
import MajsoulManager.Majsoul.Hazard
import MajsoulManager.Majsoul.Rounds
import MajsoulManager.Majsoul.EventSpelling
import MajsoulManager.Majsoul.RecordSpelling
import MajsoulManager.Majsoul.RoundTrip
import MajsoulManager.Majsoul.ReadBack
import MajsoulManager.Majsoul.Reach
import MajsoulManager.Refetch.Sweep
import MajsoulManager.Refetch.SweepInvariant
import MajsoulManager.Refetch.Broker
import MajsoulManager.Accounts.Pool
import MajsoulManager.Accounts.PoolInvariant
import MajsoulManager.Accounts.RoundTrip
import MajsoulManager.Accounts.Secrets
import MajsoulManager.Watch.Config
import MajsoulManager.Watch.Supervisor
import MajsoulManager.Watch.SupervisorInvariant
import MajsoulManager.Watch.Collector
import MajsoulManager.Watch.Plugin
import MajsoulManager.Watch.PluginAnswers
import MajsoulManager.Watch.Log
import MajsoulManager.Refetch.Accounts
import MajsoulManager.Refetch.Supervisor
import MajsoulManager.Refetch.NodeTally
import MajsoulManager.Paipuya.Sync
import MajsoulManager.Mihomo.Subscriptions
import MajsoulManager.Mihomo.Outbounds
import MajsoulManager.Auth.Store
import MajsoulManager.Auth.Calls
import MajsoulManager.Auth.Disabling
import MajsoulManager.Auth.Atomic
import MajsoulManager.Index.Reconvert
import MajsoulManager.Majsoul.Doras
import MajsoulManager.Majsoul.Gaps
import MajsoulManager.Majsoul.Payments
import MajsoulManager.Majsoul.Ron
import MajsoulManager.Record.ReplayCounters
import MajsoulManager.Record.ReplayPoints
import MajsoulManager.Refetch.WalkTally
import MajsoulManager.Accounts.Export
import MajsoulManager.Accounts.Import
import MajsoulManager.Mihomo.Slots
import MajsoulManager.Mihomo.Traffic
import MajsoulManager.Mihomo.RuntimeConfig
import MajsoulManager.Paipuya.Sweep
import MajsoulManager.Record.ReplayRons
import MajsoulManager.Refetch.Balance
import MajsoulManager.Refetch.Pacing
import MajsoulManager.Refetch.PendingPages
import MajsoulManager.Refetch.RateWindow
import MajsoulManager.Register.Batch
import MajsoulManager.Register.Control
import MajsoulManager.Store.Listing
import MajsoulManager.Theory.Search
import MajsoulManager.Watch.AccountPage
import MajsoulManager.Watch.InstanceKeys
import MajsoulManager.Watch.ModuleStore
import MajsoulManager.Watch.Registry
import MajsoulManager.Watch.VersionFloor
import MajsoulManager.Watch.VersionText
import MajsoulManager.Index.Downloads
import MajsoulManager.Paipuya.Pacer
import MajsoulManager.Store.Signing
import MajsoulManager.Index.RuleFilter
