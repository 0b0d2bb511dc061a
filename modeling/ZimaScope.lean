import ZimaScope.Ebpf.Maps
import ZimaScope.Query.Resolver
import ZimaScope.Policy.Compile
import ZimaScope.Policy.Diff
import ZimaScope.Collector.Apply
import ZimaScope.Policy.Reconcile
import ZimaScope.Ebpf.Policy
import ZimaScope.Policy.States
import ZimaScope.Collector.StateRuns
import ZimaScope.Policy.Executable
import ZimaScope.Collector.Recovery
import ZimaScope.Lib.Along
import ZimaScope.Ebpf.Selection
import ZimaScope.Collector.References
import ZimaScope.Policy.Image
import ZimaScope.Policy.Exposure
import ZimaScope.Policy.Meaning
import ZimaScope.Policy.Preservation
import ZimaScope.Lib.TokenBucket
import ZimaScope.Ebpf.Limit
import ZimaScope.Collector.RateChange
import ZimaScope.Common.Model
import ZimaScope.Collector.Tracker
import ZimaScope.Collector.Accounting
import ZimaScope.Collector.Polls
import ZimaScope.Collector.Lifecycle
import ZimaScope.Collector.UpdateStream
import ZimaScope.Collector.Retention
import ZimaScope.Api.Rules
import ZimaScope.Api.Drafts
import ZimaScope.Api.Policy
import ZimaScope.Api.Requests
import ZimaScope.Api.Sections
import ZimaScope.Api.Convergence
import ZimaScope.Api.Serial
import ZimaScope.Api.Status
import ZimaScope.Common.Observation
import ZimaScope.Db.Schema
import ZimaScope.Db.Mirrors
import ZimaScope.Db.Migration
import ZimaScope.Db.Ingest
import ZimaScope.Db.Recording
import ZimaScope.Db.Retention
import ZimaScope.Lib.Accumulate
import ZimaScope.Db.Buckets
import ZimaScope.Db.Amounts
import ZimaScope.Db.Interval
import ZimaScope.Db.Deltas
import ZimaScope.Db.Consistency
import ZimaScope.Db.Delivery
import ZimaScope.Db.Totals
import ZimaScope.Lib.Faults
import ZimaScope.Db.Atomicity
import ZimaScope.Db.Upgrade
import ZimaScope.Db.Interruption
import ZimaScope.Db.Resumption
import ZimaScope.Db.Invariants
import ZimaScope.Db.Sessions
import ZimaScope.Db.Associations
import ZimaScope.Db.Timeliness
import ZimaScope.Ebpf.Domain
import ZimaScope.Ebpf.Sample
import ZimaScope.Collector.Domain
import ZimaScope.Db.Evidence
import ZimaScope.Db.Live
import ZimaScope.Db.Records
import ZimaScope.Db.Switches
import ZimaScope.Lib.Infix
import ZimaScope.Common.Text
import ZimaScope.Api.FlowQuery
import ZimaScope.Api.StreamFilter
import ZimaScope.Api.Tick
import ZimaScope.Api.Patches
import ZimaScope.Lib.Broadcast
import ZimaScope.Api.Publish
import ZimaScope.Frontend.Store
import ZimaScope.Ebpf.Dns
import ZimaScope.Ebpf.ClientHello
import ZimaScope.Collector.Candidates
import ZimaScope.Collector.Health
import ZimaScope.Collector.Owners
import ZimaScope.Api.Preflight
import ZimaScope.Db.Histories
import ZimaScope.Lib.Delimited
import ZimaScope.Api.Lists
import ZimaScope.Api.Mentions
import ZimaScope.Api.Filters
import ZimaScope.Common.AddressText
import ZimaScope.Lib.Paging
import ZimaScope.Api.Connections
import ZimaScope.Api.Orders
import ZimaScope.Api.Pages
import ZimaScope.Api.RateOrder
import ZimaScope.Collector.Resets
import ZimaScope.Collector.Terminations
import ZimaScope.Collector.Pending
import ZimaScope.Query.Comm
import ZimaScope.Policy.Canonical
import ZimaScope.Collector.KernelTotals
import ZimaScope.Policy.Capacity
import ZimaScope.Collector.Gaps
import ZimaScope.Ebpf.Accesses
import ZimaScope.Ebpf.Bounds
import ZimaScope.Ebpf.Truncation
import ZimaScope.Ebpf.Wire
import ZimaScope.Ebpf.Parse
import ZimaScope.Ebpf.Capture
import ZimaScope.Ebpf.Frame
import ZimaScope.Ebpf.Record
import ZimaScope.Collector.Interfaces
import ZimaScope.Ebpf.HttpHost
import ZimaScope.Ebpf.Requests
import ZimaScope.Ebpf.HostRequest
import ZimaScope.Collector.SampledHello
import ZimaScope.Ebpf.Response
import ZimaScope.Lib.Suppression
import ZimaScope.Collector.Yields
import ZimaScope.Collector.Suppression
import ZimaScope.Collector.NormalDomain
import ZimaScope.Collector.Emissions
import ZimaScope.Lib.Ledger
import ZimaScope.Db.Reports
import ZimaScope.Api.Overview
import ZimaScope.Api.RangeTotals
import ZimaScope.Collector.Fingerprint
import ZimaScope.Api.RuleCounters
import ZimaScope.Api.ConnectionPairs
import ZimaScope.Api.ConnectionEnds
import ZimaScope.Api.Exports
import ZimaScope.Api.Clears
import ZimaScope.Api.ExportTasks
import ZimaScope.Api.ExportContents
import ZimaScope.Db.ApplicationReferences
import ZimaScope.Api.TickSummaries
import ZimaScope.Api.OverviewPages
import ZimaScope.Api.OverviewCache
import ZimaScope.Lib.Csv
import ZimaScope.Api.CsvExports
import ZimaScope.Lib.Lexicographic
import ZimaScope.Api.DomainOrder
import ZimaScope.Lib.Clusters
import ZimaScope.Api.Normalization
import ZimaScope.Proxy.Resolver
import ZimaScope.Api.SettingsUpdates
import ZimaScope.Query.Lower
import ZimaScope.Lib.Framing
import ZimaScope.Proxy.Http
import ZimaScope.Common.AddressParse
import ZimaScope.Proxy.Wire
import ZimaScope.Lib.Memo
import ZimaScope.Common.Cgroup
import ZimaScope.Api.Application
import ZimaScope.Frontend.LivePage
import ZimaScope.Lib.OrderFree
import ZimaScope.Collector.Merging
import ZimaScope.Lib.Pairs
import ZimaScope.Collector.HexPatterns
import ZimaScope.Ebpf.Cursor
import ZimaScope.Ebpf.Tc
import ZimaScope.Ebpf.Interleaving
import ZimaScope.Ebpf.PacketLedger
import ZimaScope.Lib.History
import ZimaScope.Ebpf.FlowEntries
import ZimaScope.Ebpf.FirstPayloads
import ZimaScope.Ebpf.Enforcement
import ZimaScope.Common.Numerals
import ZimaScope.Lib.Columns
import ZimaScope.Lib.Handles
import ZimaScope.Lib.Least
import ZimaScope.Collector.Routes
import ZimaScope.Collector.Boundary
import ZimaScope.Collector.Attachments
import ZimaScope.Collector.HookAccounts
import ZimaScope.Collector.HookReconciling
import ZimaScope.Collector.Worker
