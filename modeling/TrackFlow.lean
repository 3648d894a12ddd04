import TrackFlow.LTS.Machine
import TrackFlow.Sql.RowLock
import TrackFlow.Sql.Table
import TrackFlow.Sql.Rollup
import TrackFlow.Sql.Transaction
import TrackFlow.Inventory.Balances
import TrackFlow.Inventory.Session
import TrackFlow.Inventory.Movements
import TrackFlow.Inventory.Rebuild
import TrackFlow.Inventory.Operations
import TrackFlow.Inventory.Prune
import TrackFlow.Inventory.Retention
import TrackFlow.Queue.Models
import TrackFlow.Queue.Session
import TrackFlow.Queue.Fencing
import TrackFlow.Reporting.Models
import TrackFlow.Reporting.Rollups
import TrackFlow.Reporting.Activation
import TrackFlow.Reporting.Soundness
import TrackFlow.Reporting.Sources
import TrackFlow.Reporting.Hourly
import TrackFlow.Pipeline.Executor
import TrackFlow.Inventory.Seed
import TrackFlow.Pipeline.Platform
import TrackFlow.Pipeline.Coverage
import TrackFlow.Pipeline.History
import TrackFlow.Pipeline.Resets
import TrackFlow.Pipeline.Live
import TrackFlow.Reporting.DefaultRun
import TrackFlow.Pipeline.Legitimate
import TrackFlow.Pipeline.AfterReset
import TrackFlow.Documents.Marks
import TrackFlow.Identity.Models
import TrackFlow.Identity.Repository
import TrackFlow.Identity.Service
import TrackFlow.Identity.OAuth
import TrackFlow.Identity.Delegation
import TrackFlow.Identity.Server
import TrackFlow.Identity.Families
import TrackFlow.Identity.Redemption
import TrackFlow.Identity.Effects
import TrackFlow.Identity.Suspension
import TrackFlow.Identity.Browser
import TrackFlow.Rfp.Approval
import TrackFlow.Rfp.Exclusive
import TrackFlow.Rfp.Proposals
import TrackFlow.Reporting.Reference
import TrackFlow.Reporting.Extraction
import TrackFlow.Reporting.Refinement
import TrackFlow.Pipeline.Pruning
import TrackFlow.Identity.Administrators
import TrackFlow.Identity.PasswordResets
import TrackFlow.Agents.Memory
import TrackFlow.Agents.MemorySession
import TrackFlow.Agents.Facts
import TrackFlow.Agents.Proposals
import TrackFlow.Agents.Tracing
import TrackFlow.Realtime.RfpStream
import TrackFlow.Chat.Generation
import TrackFlow.LTS.Execution
import TrackFlow.Chat.Manager
import TrackFlow.Python.Regex
import TrackFlow.Agents.Guardrails
import TrackFlow.Json.Number
import TrackFlow.Json.Value
import TrackFlow.Realtime.Sse
import TrackFlow.Chat.Panel
import TrackFlow.Chat.Client
import TrackFlow.Chat.Transcript
import TrackFlow.Chat.Convergence
import TrackFlow.Agents.AnswerDecoder
import TrackFlow.Json.Grammar
import TrackFlow.Agents.AnswerStream
import TrackFlow.Queue.Evidence
import TrackFlow.Gauge.Threshold
import TrackFlow.Inventory.Stockouts
import TrackFlow.Inventory.Calls
import TrackFlow.Incidents.Retries
import TrackFlow.Chat.Socket
import TrackFlow.Agents.Pricing
import TrackFlow.Rfp.Generation
import TrackFlow.Rfp.IntakeGraph
import TrackFlow.Agents.Nodes
import TrackFlow.Agents.RunCost
import TrackFlow.Rfp.Tickets
import TrackFlow.Rfp.Intake
import TrackFlow.Mcp.Tools
import TrackFlow.Mcp.Incidents
import TrackFlow.Web.Percent
import TrackFlow.Web.Url
import TrackFlow.Identity.Redirects
import TrackFlow.Realtime.Bus
import TrackFlow.Agents.Decisions
import TrackFlow.Rfp.Sequence
import TrackFlow.Rfp.ApprovalTrace
import TrackFlow.Rfp.Completion
import TrackFlow.Rfp.Recovery
import TrackFlow.Reporting.Schedule
import TrackFlow.Inventory.Upkeep
import TrackFlow.Inventory.Backfill
import TrackFlow.Inventory.Reseed
import TrackFlow.Queue.Enqueue
import TrackFlow.Queue.ManualRequests
import TrackFlow.Sql.Page
import TrackFlow.Inventory.MovementPages
import TrackFlow.Decimal.Context
import TrackFlow.Rfp.CostBreakdown
import TrackFlow.Python.Collect
import TrackFlow.Reporting.WeeklyAssembly
import TrackFlow.Chat.Messages
import TrackFlow.Realtime.Wakeups
import TrackFlow.Python.Lines
import TrackFlow.Rag.Chunks
import TrackFlow.Rag.LeadIns
import TrackFlow.Rag.Indexing
import TrackFlow.Rfp.Emphasis
import TrackFlow.Rfp.Pdf
import TrackFlow.Rfp.PdfContent
import TrackFlow.Queue.Stages
import TrackFlow.Python.Csv
import TrackFlow.Incidents.Legacy
import TrackFlow.Python.Finditer
import TrackFlow.Rfp.ReturnHours
import TrackFlow.Web.SearchParams
import TrackFlow.Identity.LoginPath
import TrackFlow.Incidents.Lifecycle
import TrackFlow.PublicSupport.Admission
import TrackFlow.SalesForecasting.Features
import TrackFlow.SalesForecasting.Evaluation
import TrackFlow.Hooks.ResourcePolling
import TrackFlow.Chat.SocketClient
import TrackFlow.Hooks.AutoRefresh
import TrackFlow.Json.Ascii
import TrackFlow.LTS.Emits
import TrackFlow.Release.Coolify
import TrackFlow.Time.Isoformat
import TrackFlow.Identity.Timestamps
import TrackFlow.Identity.Callback
import TrackFlow.Chat.Retention
import TrackFlow.Queue.Dispatch
import TrackFlow.Operations.SizeGuard
import TrackFlow.Gateway.Routes
import TrackFlow.Agents.GraphSafety
