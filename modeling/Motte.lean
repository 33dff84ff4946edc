import Motte.Agent.Conduct
import Motte.Agent.Conversation
import Motte.Agent.History
import Motte.Agent.Quiet
import Motte.Agent.Runtime
import Motte.Agent.Session
import Motte.Agent.Tools
import Motte.Agent.Turn
import Motte.Assertions.Counting
import Motte.Assertions.Evidence
import Motte.Assertions.Extension
import Motte.Assertions.ForbiddenWrite
import Motte.Assertions.Matcher
import Motte.Assertions.Order
import Motte.Assertions.ResponsePolicy
import Motte.Assertions.SideEffects
import Motte.Assertions.Spelling
import Motte.Calibration.Calls
import Motte.Calibration.Earned
import Motte.Calibration.Registry
import Motte.Calibration.Report
import Motte.Calibration.Stability
import Motte.Comparison.Allowance
import Motte.Comparison.Attribution
import Motte.Comparison.Compare
import Motte.Comparison.Eligible
import Motte.Comparison.Identity
import Motte.Comparison.Regression
import Motte.Comparison.Soundness
import Motte.Comparison.Statistics
import Motte.Comparison.Symmetry
import Motte.Comparison.Unblocked
import Motte.DirectLlm.Canonical
import Motte.DirectLlm.Fraction
import Motte.DirectLlm.JsonText
import Motte.DirectLlm.Numeric
import Motte.DirectLlm.Outcome
import Motte.DirectLlm.Scoring
import Motte.DirectLlm.Tolerance
import Motte.Experiment.CellLifecycle
import Motte.Experiment.CellMoves
import Motte.Experiment.InitialRuns
import Motte.Experiment.Mirror
import Motte.Experiment.Retries
import Motte.Experiment.Service
import Motte.Experiment.Store
import Motte.Experiment.StoreLaws
import Motte.Foundation.Access
import Motte.Foundation.Binary64
import Motte.Foundation.Choice
import Motte.Foundation.Decimal
import Motte.Foundation.DecimalText
import Motte.Foundation.Delimited
import Motte.Foundation.Document
import Motte.Foundation.Double
import Motte.Foundation.FloatSum
import Motte.Foundation.Glob
import Motte.Foundation.Grouping
import Motte.Foundation.History
import Motte.Foundation.Json
import Motte.Foundation.Numbering
import Motte.Foundation.Numeral
import Motte.Foundation.Op
import Motte.Foundation.Pattern
import Motte.Foundation.PosixPath
import Motte.Foundation.Returning
import Motte.Foundation.Rounding
import Motte.Foundation.Run
import Motte.Foundation.Sampling
import Motte.Foundation.Script
import Motte.Foundation.Simulation
import Motte.Foundation.Table
import Motte.Foundation.Twin
import Motte.Foundation.Value
import Motte.Foundation.Words
import Motte.Gate.Aggregation
import Motte.Gate.Agreement
import Motte.Gate.Decision
import Motte.Gate.Diagnostic
import Motte.Gate.Evaluate
import Motte.Gate.Evidence
import Motte.Gate.FailClosed
import Motte.Gate.Judgement
import Motte.Gate.Lite
import Motte.Gate.Policy
import Motte.Harbor.Account
import Motte.Harbor.Backed
import Motte.Harbor.Returns
import Motte.Harbor.Rewards
import Motte.Harbor.TrialResult
import Motte.Harbor.Trials
import Motte.IFEval.Loose
import Motte.IFEval.Report
import Motte.IFEval.Rules
import Motte.Judge.Outcome
import Motte.Migration.Apply
import Motte.Migration.Call
import Motte.Migration.Course
import Motte.Migration.Effect
import Motte.Migration.Growth
import Motte.Migration.Plan
import Motte.Migration.Resume
import Motte.Migration.Scores
import Motte.Migration.Source
import Motte.Migration.Target
import Motte.Migration.UnitEffect
import Motte.Migration.Whole
import Motte.OpenCompass.Extraction
import Motte.OpenCompass.Samples
import Motte.Scenario.Budget
import Motte.Scenario.Condition
import Motte.Scenario.Course
import Motte.Scenario.Coverage
import Motte.Scenario.Effects
import Motte.Scenario.Engine
import Motte.Scenario.Finish
import Motte.Scenario.Leaf
import Motte.Scenario.Move
import Motte.Scenario.Projection
import Motte.Scenario.Truth
import Motte.Scenario.Verdict
import Motte.Scenario.Workflow
import Motte.Service.BenchmarkCases
import Motte.Service.BenchmarkStop
import Motte.Service.Calls
import Motte.Service.Disposition
import Motte.Service.Execute
import Motte.Service.ExternalJob
import Motte.Service.FrozenEvidence
import Motte.Service.JobCompletion
import Motte.Service.JobLedger
import Motte.Service.JobRecords
import Motte.Service.Lifecycle
import Motte.Service.Platform
import Motte.Service.Record
import Motte.Service.Rows
import Motte.Service.ScoringService
import Motte.Service.StatusTable
import Motte.Service.TrialPlacement
import Motte.Service.TrialPlan
import Motte.Service.TrialStore
import Motte.Skill.Admission
import Motte.Skill.Import
import Motte.Skill.Source
import Motte.Storage.ApprovalClaims
import Motte.Storage.Attempt
import Motte.Storage.AttemptMoves
import Motte.Storage.AttemptSafety
import Motte.Storage.AttemptSteps
import Motte.Storage.AuditMirror
import Motte.Storage.BaselineMirror
import Motte.Storage.BaselinePointer
import Motte.Storage.CallLedger
import Motte.Storage.ExternalJobs
import Motte.Storage.Interactive
import Motte.Storage.Invocation
import Motte.Storage.JobAllowance
import Motte.Storage.JobCancellation
import Motte.Storage.JobLifecycle
import Motte.Storage.JobMirror
import Motte.Storage.JobMoves
import Motte.Storage.JobStore
import Motte.Storage.JobSystem
import Motte.Storage.JobUpdates
import Motte.Storage.LedgerAgreement
import Motte.Storage.Memory
import Motte.Storage.Pass
import Motte.Storage.PassAppend
import Motte.Storage.Platform
import Motte.Storage.PlatformHistory
import Motte.Storage.PublicationRace
import Motte.Storage.Publish
import Motte.Storage.Record
import Motte.Storage.Request
import Motte.Storage.Run
import Motte.Storage.RunMoves
import Motte.Storage.RunRevisions
import Motte.Storage.ScoringJob
import Motte.Storage.Sqlite
import Motte.Storage.StoreMirror
import Motte.Storage.Terminal
import Motte.Trace.Archive
import Motte.Trace.ArtifactRefs
import Motte.Trace.Collection
import Motte.Trace.Commit
import Motte.Trace.Edges
import Motte.Trace.KeptArtifacts
import Motte.Trace.KeptProtection
import Motte.Trace.ReceiptEvidence
import Motte.Trace.References
import Motte.Trace.Rescan
import Motte.Trace.Retention
import Motte.Trace.Sequence
