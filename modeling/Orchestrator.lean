import Orchestrator.Lib.Dict
import Orchestrator.Lib.System
import Orchestrator.Lib.Walk
import Orchestrator.Lib.Ledger
import Orchestrator.Lib.Loops
import Orchestrator.Lib.Replace
import Orchestrator.Lib.Attempts
import Orchestrator.Lib.Dfs
import Orchestrator.Lib.Lines
import Orchestrator.Lib.Json
import Orchestrator.Lib.JsonSchema
import Orchestrator.Lib.JsonText
import Orchestrator.Lib.JsonValue
import Orchestrator.Lib.Numeral
import Orchestrator.Lib.TokenBucket
import Orchestrator.Engine.GoLib
import Orchestrator.Engine.Template
import Orchestrator.Engine.Spec
import Orchestrator.Engine.Report
import Orchestrator.Engine.Scheduler
import Orchestrator.Engine.Bucket
import Orchestrator.Proofs.Validate
import Orchestrator.Proofs.SchedulerSteps
import Orchestrator.Proofs.Slots
import Orchestrator.Proofs.EventStream
import Orchestrator.Proofs.Flight
import Orchestrator.Proofs.RunInv
import Orchestrator.Proofs.DispatchSafety
import Orchestrator.Proofs.OverallStatus
import Orchestrator.Proofs.Cancellation
import Orchestrator.Proofs.Usage
import Orchestrator.Proofs.Progress
import Orchestrator.Proofs.Completion
import Orchestrator.Proofs.RateLimits
import Orchestrator.Engine.Stdio
import Orchestrator.Proofs.EmbeddedSteps
import Orchestrator.Proofs.Calls
import Orchestrator.Proofs.Correlation
import Orchestrator.Proofs.PumpSafety
import Orchestrator.Proofs.ClientLoss
import Orchestrator.Engine.Schema
import Orchestrator.Engine.Encode
import Orchestrator.Engine.Decode
import Orchestrator.Engine.Main
import Orchestrator.Engine.Framing
import Orchestrator.Engine.Grpc
import Orchestrator.Engine.GrpcSession
import Orchestrator.Sdk.Value
import Orchestrator.Sdk.Report
import Orchestrator.Sdk.Spec
import Orchestrator.Sdk.GoView
import Orchestrator.Sdk.GoClient
import Orchestrator.Sdk.Template
import Orchestrator.Sdk.RateLimit
import Orchestrator.Sdk.Runner
import Orchestrator.Sdk.SharedRuns
import Orchestrator.Proofs.ValidateExact
import Orchestrator.Proofs.Serialization
import Orchestrator.Proofs.ClientProtocol
import Orchestrator.Proofs.ReportDecoding
import Orchestrator.Proofs.RunnerSteps
import Orchestrator.Proofs.RunnerSlots
import Orchestrator.Proofs.Throttling
import Orchestrator.Proofs.Timeline
import Orchestrator.Proofs.RunnerBooks
import Orchestrator.Proofs.RunnerInv
import Orchestrator.Proofs.RunIsolation
import Orchestrator.Proofs.LoadedFields
import Orchestrator.Proofs.LoadedObjects
import Orchestrator.Proofs.LoadedWorkflow
import Orchestrator.Proofs.TypedWorkflow
import Orchestrator.Proofs.LoadersAgree
import Orchestrator.Proofs.Framing
import Orchestrator.Engine.Process
import Orchestrator.Proofs.ReportLast
import Orchestrator.Proofs.Scope
import Orchestrator.Proofs.TaskData
import Orchestrator.Proofs.TaskValues
import Orchestrator.Proofs.TemplatesAgree
import Orchestrator.Proofs.TemplateMeaning
import Orchestrator.Proofs.RunnerData
import Orchestrator.Proofs.References
import Orchestrator.Proofs.RunnerHistory
import Orchestrator.Proofs.SpansKept
import Orchestrator.Proofs.ErrorsComplete
import Orchestrator.Proofs.AttemptUsage
import Orchestrator.Proofs.Handlers
import Orchestrator.Proofs.RunnerBuckets
import Orchestrator.Proofs.RunnerProgress
import Orchestrator.Proofs.RunnerCompletion
import Orchestrator.Proofs.RunReports
import Orchestrator.Lib.LongestChain
import Orchestrator.Proofs.CriticalPath
import Orchestrator.Proofs.RunnerCriticalPath
import Orchestrator.Lib.SharedBucket
import Orchestrator.Proofs.BucketWindow
import Orchestrator.Proofs.AttemptLog
import Orchestrator.Proofs.RetryLoop
import Orchestrator.Proofs.RunnerAttempts
import Orchestrator.Proofs.SpanErrors
import Orchestrator.Proofs.CutCalls
import Orchestrator.Proofs.SchemaValues
import Orchestrator.Proofs.SdkSchemaValues
import Orchestrator.Proofs.TransportsAgree
import Orchestrator.Sdk.Mcp
import Orchestrator.Proofs.McpLifecycle
import Orchestrator.Proofs.NilPointers
import Orchestrator.Lib.Extended
import Orchestrator.Engine.Durations
import Orchestrator.Proofs.DurationBounds
import Orchestrator.Lib.BucketProgress
import Orchestrator.Proofs.SatisfiableLimits
import Orchestrator.Lib.Verdict
import Orchestrator.Proofs.Outcomes
import Orchestrator.Proofs.RunVerdict
import Orchestrator.Proofs.RunnerVerdict
import Orchestrator.Proofs.EnginesAgree
import Orchestrator.Lib.Dataflow
import Orchestrator.Proofs.Meaning
import Orchestrator.Proofs.RunMeaning
import Orchestrator.Proofs.RunnerMeaning
import Orchestrator.Proofs.MeaningsAgree
import Orchestrator.Proofs.Transport
import Orchestrator.Proofs.TransportLiveness
import Orchestrator.Proofs.EmbeddedLiveness
import Orchestrator.Proofs.LimiterLiveness
import Orchestrator.Proofs.SessionSteps
import Orchestrator.Proofs.SessionSafety
import Orchestrator.Proofs.SessionCorrelation
import Orchestrator.Proofs.SessionLiveness
