import AiSdlc.Js.Date
import AiSdlc.Js.Text
import AiSdlc.Domain.ReleaseBatch
import AiSdlc.Domain.ReleaseBatchOperations
import AiSdlc.Domain.ReleaseBatchSteps
import AiSdlc.Domain.ReleaseBatchRuns
import AiSdlc.Domain.ItemSequencing
import AiSdlc.Domain.CandidateApproval
import AiSdlc.Domain.CandidateTree
import AiSdlc.Sqlite.Table
import AiSdlc.Sqlite.ReleaseBatchRepository
import AiSdlc.Sqlite.StoreRefinement
import AiSdlc.Sqlite.RunRepository
import AiSdlc.Async.Block
import AiSdlc.Application.Ports
import AiSdlc.Application.Statements
import AiSdlc.Application.ItemAdmission
import AiSdlc.Application.ItemProgress
import AiSdlc.Application.Promotion
import AiSdlc.Application.ReleaseBatchCoordinator
import AiSdlc.Application.World
import AiSdlc.Application.CoordinatorInvariants
import AiSdlc.Application.CoordinatorSystem
import AiSdlc.Application.PromotionEvidence
import AiSdlc.Application.CompletionSafety
import AiSdlc.Domain.Worker
import AiSdlc.Sqlite.WorkerLeaseRepository
import AiSdlc.Sqlite.JobQueueRepository
import AiSdlc.Sqlite.OperationalRecoveryRepository
import AiSdlc.Transition.Fencing
import AiSdlc.Sqlite.JobClaims
import AiSdlc.Sqlite.JobTransitions
import AiSdlc.Sqlite.LeaseCalls
import AiSdlc.Application.RepositoryRecoveryCoordinator
import AiSdlc.Async.Pool
import AiSdlc.Async.Sum
import AiSdlc.Application.RecoverySystem
import AiSdlc.Application.ResumeRun
import AiSdlc.Application.ResumeExchanges
import AiSdlc.Application.ResumeSystem
import AiSdlc.Application.ActiveRuns
import AiSdlc.Application.LiveJobs
import AiSdlc.Application.FairRepositoryScheduler
import AiSdlc.Application.SchedulerSteps
import AiSdlc.Application.SchedulerCapacity
import AiSdlc.Application.SchedulerFairness
import AiSdlc.Application.WorkerRuns
import AiSdlc.Application.FindingLedger
import AiSdlc.Application.RevalidationPlan
import AiSdlc.Application.RevalidationScope
import AiSdlc.Application.OrchestratorArtifacts
import AiSdlc.Application.TaskFileBoundaries
import AiSdlc.Application.TaskScope
import AiSdlc.Application.TaskSpelling
import AiSdlc.Application.TaskBoundaries
import AiSdlc.Sqlite.WorkerRegistryRepository
import AiSdlc.Sqlite.JobAccounts
import AiSdlc.Application.ClaimedJob
import AiSdlc.Application.ClaimExchanges
import AiSdlc.Application.ClaimSettlement
import AiSdlc.Application.ClaimReturns
import AiSdlc.Application.CompletedWork
import AiSdlc.Application.CompletedReturns
import AiSdlc.Js.Json
import AiSdlc.Js.JsonParse
import AiSdlc.Application.AdditiveConfig
import AiSdlc.Application.AdditiveInsertions
import AiSdlc.Application.SweepWaitingRuns
import AiSdlc.Application.AgentConfig
import AiSdlc.Application.AgentRuntimeRouter
import AiSdlc.Application.WaitingOverrides
import AiSdlc.Application.AdapterCalls
import AiSdlc.Application.Escalations
import AiSdlc.Async.Turns
import AiSdlc.Application.RetryExecutions
import AiSdlc.Application.FollowUpReview
import AiSdlc.Async.Reach
import AiSdlc.Application.FollowUpApproval
import AiSdlc.Application.GitStatus
import AiSdlc.Application.NarrowedValidation
import AiSdlc.Application.CriticalFiles
import AiSdlc.Application.FixReview
import AiSdlc.Application.FixReviewGuards
import AiSdlc.Domain.ItemIdentity
import AiSdlc.Domain.MergedItems
import AiSdlc.Domain.BlockedItems
import AiSdlc.Sqlite.QueuedJobs
import AiSdlc.Sqlite.RequeuePaths
import AiSdlc.Application.ExpiredClaims
import AiSdlc.Config.Loader
import AiSdlc.Config.ValidationPolicy
import AiSdlc.Application.CancelRun
import AiSdlc.Application.CancelledJobs
import AiSdlc.Application.OrphanRecovery
import AiSdlc.Application.EvidenceFreshness
import AiSdlc.Domain.RunTransitions
import AiSdlc.Application.UnifiedDiff
import AiSdlc.Domain.Loop
import AiSdlc.Domain.PrReviewComment
import AiSdlc.Js.Utf8
import AiSdlc.Application.CommentBatcher
import AiSdlc.Application.QuotedPaths
import AiSdlc.Application.DiffNames
import AiSdlc.Application.DiffLines
import AiSdlc.Application.DiffRoundTrip
import AiSdlc.Application.DiffReadBack
import AiSdlc.Application.FileDiffLineCount
import AiSdlc.Application.SectionNames
import AiSdlc.Application.ListedChanges
import AiSdlc.Application.LineCountAgreement
import AiSdlc.Application.PrReviewPoller
import AiSdlc.Application.PollerRuns
import AiSdlc.Sqlite.PhaseRepository
import AiSdlc.Application.ResumeTables
import AiSdlc.Application.ResumeAtomicity
import AiSdlc.Application.FindingHistory
import AiSdlc.Application.RevalidationCycles
import AiSdlc.Application.TaskManifest
import AiSdlc.Application.PathNormalizers
import AiSdlc.Application.ControlChars
import AiSdlc.Application.InnerQuotes
import AiSdlc.Js.FirstMention
import AiSdlc.Js.Words
import AiSdlc.Application.LiteralVitest
import AiSdlc.Application.LiteralVitestRuns
import AiSdlc.Application.LiteralVitestEdits
import AiSdlc.Application.LiteralVitestArgv
import AiSdlc.Application.LiteralVitestStrict
import AiSdlc.Application.LiteralVitestAgreement
import AiSdlc.Application.ReviewVerdicts
import AiSdlc.Application.ValidateFixLoop
import AiSdlc.Application.ValidateFixRuns
import AiSdlc.Application.ValidateFixOutcomes
import AiSdlc.Js.Lines
import AiSdlc.Infrastructure.ErrorPatterns
import AiSdlc.Infrastructure.EventTailer
import AiSdlc.Infrastructure.FileTailer
import AiSdlc.Config.Fingerprints
import AiSdlc.Infrastructure.ArtifactStore
import AiSdlc.Infrastructure.ArtifactHistory
import AiSdlc.Async.RunnerPool
import AiSdlc.Infrastructure.ValidationAdapter
import AiSdlc.Application.CreatePr
import AiSdlc.Application.ReviewApproval
import AiSdlc.Application.CandidateValidation
import AiSdlc.Sqlite.Migrations
