import AiSdlc.Async.Block
import AiSdlc.Domain.Job
import AiSdlc.Sqlite.RunRepository

/-! The calls that the release-batch services make to their ports, and what they answer.
The replies of the stores are given a meaning later; those of the other ports are free.
-/

namespace AiSdlc.Application

open AiSdlc.Js
open AiSdlc.Domain
open AiSdlc.Sqlite

structure Repository where
  fullName : String
  localBasePath : String
  deriving DecidableEq, Repr

/-- A repository as it is registered. -/
structure RegisteredRepository extends Repository where
  id : RepositoryId
  enabled : Bool
  deriving DecidableEq, Repr

structure RunIdentity where
  uuid : String
  displayId : String
  deriving DecidableEq, Repr

inductive PrState
  | open_
  | closed
  | merged
  deriving DecidableEq, Repr

inductive CiStatus
  | passed
  | failed
  | pending
  deriving DecidableEq, Repr

structure PrMergeReadiness where
  state : PrState
  isMerged : Bool
  ciStatus : CiStatus
  autoMergeEnabled : Option Bool := none
  baseRefName : Option String := none
  mergeCommitSha : Option String := none
  deriving DecidableEq, Repr

/-- `readiness.isMerged || readiness.state === 'merged'`. -/
def PrMergeReadiness.merged (readiness : PrMergeReadiness) : Bool :=
  readiness.isMerged || readiness.state = .merged

structure PromotionPrContent where
  title : String
  body : String
  deriving DecidableEq, Repr

structure CreatePullRequestInput where
  repoFullName : String
  baseBranch : String
  headBranch : String
  title : String
  body : String
  deriving DecidableEq, Repr

structure MaintenanceInput where
  repoLocalBasePath : String
  completedIssueNumber : Int
  completedRunUuid : Option String
  deriving DecidableEq, Repr

structure MaintenanceResult where
  success : Bool
  reason : Option String := none
  deriving DecidableEq, Repr

inductive EventLevel
  | info
  | warn
  | error
  deriving DecidableEq, Repr

/-- A batch event with the metadata that `publishEvent` reads. -/
structure BatchEvent where
  type : String
  level : EventLevel
  message : String
  timestamp : Date
  runUuid : Option String := none
  runDisplayId : Option String := none
  deriving DecidableEq, Repr

structure EventPayload where
  runId : String
  level : EventLevel
  type : String
  message : String
  timestamp : String
  deriving DecidableEq, Repr

/-- `RunTerminalNotification`. -/
structure RunTerminalNotification where
  status : RunStatus
  repoId : RepositoryId
  issueNumber : Int
  displayId : String
  failureReason : Option String := none
  deriving DecidableEq, Repr

inductive ReleaseBatchNotificationType
  | blocked
  | awaitingManualTest
  | approvalStale
  | promotionBlocked
  | completed
  deriving DecidableEq, Repr

structure ReleaseBatchNotification where
  type : ReleaseBatchNotificationType
  batchId : ReleaseBatchId
  repoId : RepositoryId
  releaseBranch : String
  candidateSha : Option String := none
  sourceBranch : Option String := none
  promotionPrNumber : Option Int := none
  reason : Option String := none
  deriving DecidableEq, Repr

/-- What a call throws: the error of a port, with its message, or of a batch operation. -/
inductive Thrown
  | port (message : String)
  | batch (error : ReleaseBatchError)
  deriving DecidableEq, Repr

/-- `err instanceof Error ? err.message : String(err)`. -/
def Thrown.message : Thrown → String
  | port message => message
  | batch error => error.message

/-- The calls to the stores, the clock, the id generators, git, GitHub and the other
services.
-/
inductive Request
  | now
  | findBatch (id : ReleaseBatchId)
  | updateBatch (batch : ReleaseBatch)
  | findRunByUuid (uuid : Option String)
  | findRunByIssueNumber (repoId : RepositoryId) (issueNumber : Int)
  | updateRun (uuid : String) (patch : RunRepositoryUpdatePatch)
  | insertRunIfNoActive (run : Run)
  | listJobsForRepo (repoId : RepositoryId)
  | enqueueJob (job : Job)
  | findRepository (id : RepositoryId)
  | newRunId (issueNumber : Int) (now : Date)
  | randomUUID
  | fetch (localBasePath remote branch : String)
  | resolveRef (localBasePath ref : String)
  | isAncestor (localBasePath : String) (ancestor : Option String) (descendant : String)
  | treeSha (localBasePath sha : String)
  | getPrMergeReadiness (repoFullName : String) (prNumber : Int)
  | createPullRequest (input : CreatePullRequestInput)
  | mirrorBranchProtection (repoFullName sourceBranch releaseBranch : String)
  | assemblePromotionPr (batch : ReleaseBatch) (repository : Repository)
      (candidateSha : String)
  | refreshPromotionPr (repoFullName : String) (prNumber : Int) (batch : ReleaseBatch)
      (candidateSha : String)
  | executeMaintenance (input : MaintenanceInput)
  | resolvePrMetadata (run : Run)
  | publish (runUuid : String) (payload : EventPayload)
  | recordEvent (runUuid : String) (payload : EventPayload)
  | notify (event : ReleaseBatchNotification)

/-- The type of a call's answer. -/
abbrev Request.Answer : Request → Type
  | now => Date
  | findBatch _ => Option ReleaseBatch
  | updateBatch _ => Unit
  | findRunByUuid _ => Option Run
  | findRunByIssueNumber _ _ => Option Run
  | updateRun _ _ => Unit
  | insertRunIfNoActive _ => Unit
  | listJobsForRepo _ => List Job
  | enqueueJob _ => Unit
  | findRepository _ => Option Repository
  | newRunId _ _ => RunIdentity
  | randomUUID => String
  | fetch _ _ _ => Unit
  | resolveRef _ _ => Option String
  | isAncestor _ _ _ => Bool
  | treeSha _ _ => Option String
  | getPrMergeReadiness _ _ => PrMergeReadiness
  | createPullRequest _ => Int
  | mirrorBranchProtection _ _ _ => Unit
  | assemblePromotionPr _ _ _ => PromotionPrContent
  | refreshPromotionPr _ _ _ _ => Unit
  | executeMaintenance _ => MaintenanceResult
  | resolvePrMetadata _ => Option Int
  | publish _ _ => Unit
  | recordEvent _ _ => Unit
  | notify _ => Unit

/-- Every call answers or throws. -/
abbrev Request.Reply (request : Request) : Type :=
  Except Thrown request.Answer

/-- Which optional ports are configured, and the settings of the runs that are created. -/
structure ReleaseBatchCoordinatorDeps where
  git : Bool := false
  github : Bool := false
  mirrorBranchProtection : Bool := false
  maintenanceService : Bool := false
  resolvePrMetadata : Bool := false
  eventRepository : Bool := false
  releaseBatchNotification : Bool := false
  executionPolicy : Option ExecutionPolicy := none
  pinnedRuntime : Option PinnedRuntime := none
  deriving DecidableEq, Repr

end AiSdlc.Application
