import Arbeiterfarm.Foundation.Exec
import Arbeiterfarm.Foundation.Linked
import Arbeiterfarm.Foundation.Entries
import Arbeiterfarm.Foundation.OrderedMap
import Arbeiterfarm.Foundation.Cursor
import Arbeiterfarm.Foundation.FileTree
import Arbeiterfarm.Core.Chat
import Arbeiterfarm.Jobs.Fencing
import Arbeiterfarm.Jobs.Attempts
import Arbeiterfarm.Jobs.Heartbeat
import Arbeiterfarm.Jobs.ConcurrentRuns
import Arbeiterfarm.Jobs.OwnedArtifacts
import Arbeiterfarm.Jobs.Invoker
import Arbeiterfarm.Jobs.OopProtocol
import Arbeiterfarm.Jobs.OopRoundTrip
import Arbeiterfarm.Jobs.ProducedFiles
import Arbeiterfarm.Llm.ToolPairing
import Arbeiterfarm.Llm.Chunking
import Arbeiterfarm.Llm.Decoding
import Arbeiterfarm.Llm.ThinkTags
import Arbeiterfarm.Agents.Quota
import Arbeiterfarm.Agents.CompactionMarks
import Arbeiterfarm.Agents.CompactionBoundary
import Arbeiterfarm.Agents.SlidingWindow
import Arbeiterfarm.Agents.PreflightCheck
import Arbeiterfarm.Agents.EvidenceParser
import Arbeiterfarm.Agents.CompactionReload
import Arbeiterfarm.Agents.Conversation
import Arbeiterfarm.Agents.QueuedMessages
import Arbeiterfarm.Agents.ToolCallBudget
import Arbeiterfarm.Agents.InvokeAgent
import Arbeiterfarm.Agents.ConsecutiveErrors
import Arbeiterfarm.Agents.BestArtifact
import Arbeiterfarm.Agents.ArtifactIndex
import Arbeiterfarm.Agents.CwcBridge
import Arbeiterfarm.Agents.MemoryBudget
import Arbeiterfarm.Orchestrator.FanoutOnce
import Arbeiterfarm.Orchestrator.FanoutTree
import Arbeiterfarm.Orchestrator.PriorityMoves
import Arbeiterfarm.Orchestrator.ConflictFree
import Arbeiterfarm.Orchestrator.PlanInvariants
import Arbeiterfarm.Orchestrator.RepivotTargets
import Arbeiterfarm.Orchestrator.Termination
import Arbeiterfarm.Email.SentOnce
import Arbeiterfarm.Web.ServedPages
import Arbeiterfarm.Web.Admission
import Arbeiterfarm.Queues.EmbedRefinement
import Arbeiterfarm.Queues.EmbedResume
import Arbeiterfarm.Hooks.OncePerPeriod
import Arbeiterfarm.Storage.CollectedBlobs
import Arbeiterfarm.Storage.OutputQuota
import Arbeiterfarm.Storage.UploadQuota
import Arbeiterfarm.Db.CompleteDeletes
import Arbeiterfarm.Db.CleanConnections
import Arbeiterfarm.Agents.ConservativeRepair
import Arbeiterfarm.Agents.InlinedSchemas
import Arbeiterfarm.Web.PrivateBlocks
import Arbeiterfarm.Foundation.Offsets
import Arbeiterfarm.Foundation.Words
import Arbeiterfarm.Foundation.TokenBucket
import Arbeiterfarm.Core.Bytes
import Arbeiterfarm.Tools.ChunkedText
import Arbeiterfarm.Tools.Renames
import Arbeiterfarm.Tools.WholeNames
import Arbeiterfarm.Tools.SimultaneousRenames
import Arbeiterfarm.Llm.AnthropicBody
import Arbeiterfarm.Email.Gmail
import Arbeiterfarm.Notify.Webdav
import Arbeiterfarm.Texts.TruncatedTexts
import Arbeiterfarm.Email.SendEmail
import Arbeiterfarm.Foundation.Ranges
import Arbeiterfarm.Tools.FileGrep
import Arbeiterfarm.Tools.GrepReference
import Arbeiterfarm.Web.SearchResults
import Arbeiterfarm.Db.SqlSpellings
import Arbeiterfarm.Web.RateLimiter
import Arbeiterfarm.Web.UserRate
import Arbeiterfarm.Web.GrantWindows
import Arbeiterfarm.Tools.TransformDecode
import Arbeiterfarm.Tools.HexGrammar
import Arbeiterfarm.Tools.GhidraRename
import Arbeiterfarm.Tools.LastWrites
import Arbeiterfarm.Foundation.Occurrences
import Arbeiterfarm.Foundation.Templates
import Arbeiterfarm.Foundation.TemplateOrder
import Arbeiterfarm.Hooks.PromptTemplates
import Arbeiterfarm.Tools.Unpack
import Arbeiterfarm.Tools.ContainedFiles
import Arbeiterfarm.Tools.SevenZip
import Arbeiterfarm.Tools.CollectedFiles
import Arbeiterfarm.Tools.KeyGroups
import Arbeiterfarm.Tools.JqIndices
import Arbeiterfarm.Tools.CsvStats
import Arbeiterfarm.Tools.CsvColumns
import Arbeiterfarm.Tools.IocExtractor
import Arbeiterfarm.Tools.IocSpans
import Arbeiterfarm.Foundation.Runs
import Arbeiterfarm.Tools.FileStrings
import Arbeiterfarm.Tools.YaraOutput
import Arbeiterfarm.Tools.YaraRoundTrip
import Arbeiterfarm.Tools.PageSelection
import Arbeiterfarm.Email.RawMessage
import Arbeiterfarm.Tools.VtRateLimiter
import Arbeiterfarm.Tools.QmpClient
import Arbeiterfarm.Cli.LocalTools
import Arbeiterfarm.Foundation.Substitution
import Arbeiterfarm.Llm.ToolNames
import Arbeiterfarm.Llm.VertexContents
import Arbeiterfarm.Jobs.InputDepth
import Arbeiterfarm.Foundation.EditDistance
import Arbeiterfarm.Core.EvidenceText
import Arbeiterfarm.Foundation.RowSecurity
import Arbeiterfarm.Access.Membership
import Arbeiterfarm.Access.RowPolicies
import Arbeiterfarm.Access.TenantIsolation
import Arbeiterfarm.Access.SharedKnowledge
import Arbeiterfarm.Access.NdaIsolation
import Arbeiterfarm.Access.Requests
import Arbeiterfarm.Access.Escalation
import Arbeiterfarm.Access.Ownership
import Arbeiterfarm.Api.RateWindows
import Arbeiterfarm.Api.StreamSlots
import Arbeiterfarm.Tools.VtGateway
import Arbeiterfarm.Tools.VtAnswers
import Arbeiterfarm.Tools.VtEviction
import Arbeiterfarm.Foundation.Base64
import Arbeiterfarm.Tools.SandboxGateway
import Arbeiterfarm.Tools.SandboxIsolation
import Arbeiterfarm.Queues.Ownership
