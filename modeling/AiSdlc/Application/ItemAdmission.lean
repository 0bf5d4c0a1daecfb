import AiSdlc.Application.Statements

/-! The admission of the current item: its run and job, the release base it starts from,
and the checks and retries before it.
-/

namespace AiSdlc.Application

open AiSdlc.Js
open AiSdlc.Domain
open AiSdlc.Async

variable (deps : ReleaseBatchCoordinatorDeps)

/-- `nonEmpty(name, value)` of the branded ids. -/
def nonEmpty (name value : String) : Statements Unit :=
  if isBlank value then
    Block.throw (.port s!"{name} must be a non-empty string")
  else
    pure ()

/-- The latest run for an issue, when it works on the release branch. -/
def findMatchingRun (repoId : RepositoryId) (issueNumber : Int) (releaseBranch : String)
    : Statements (Option Run) := do
  let activeRun ← call (.findRunByIssueNumber repoId issueNumber)
  pure (Option.filter (fun run : Run => run.baseBranch = some releaseBranch) activeRun)

/-- Enqueues a job for a run without an active one, and tells whether it did. -/
def ensureJobEnqueued (repoId : RepositoryId) (runUuid : String) (issueNumber : Int)
    (now : Date)
    : Statements Bool := do
  let repoJobs ← call (.listJobsForRepo repoId)
  if List.any repoJobs (fun job : Job => job.runId = runUuid && job.isActive) then
    pure false
  else do
    let jobId ← call .randomUUID
    nonEmpty "JobId" jobId
    nonEmpty "RunId" runUuid
    (if issueNumber ≤ 0 then
      Block.throw (.port s!"IssueNumber must be a positive integer, got {issueNumber}")
    else
      pure ())
    let _ ← call (.enqueueJob (createJob {
      id := jobId
      runId := runUuid
      repoId
      issueNumber
      priority := some 0
      createdAt := now
    }))
    pure true

/-- The configured runtime, or that of the first item with a run. -/
def pinnedRuntimeFor (batch : ReleaseBatch) : Statements (Option PinnedRuntime) :=
  match deps.pinnedRuntime, batch.items.find? (isSet ·.runUuid) with
  | some pinnedRuntime, _ => pure (some pinnedRuntime)
  | none, some priorItem => do
      let priorRun ← call (.findRunByUuid priorItem.runUuid)
      pure (Option.bind priorRun (fun run : Run => run.pinnedRuntime))
  | none, none => pure none

/-- A new run for the item; when the store refuses it, the conflicting run is adopted. -/
def insertRun (batch : ReleaseBatch) (item : ReleaseBatchItem) (now : Date)
    : Statements RunIdentity := do
  let ids ← call (.newRunId item.issueNumber now)
  let pinnedRuntime ← pinnedRuntimeFor deps batch
  let run := createRun {
    uuid := RunIdentity.uuid ids
    displayId := RunIdentity.displayId ids
    repoId := batch.repoId
    issueNumber := item.issueNumber
    startedAt := now
    executionPolicy := some (deps.executionPolicy.getD .standard)
    baseBranch := some batch.releaseBranch
    pinnedRuntime
  }
  Block.attempt
    (do
      let _ ← call (.insertRunIfNoActive run)
      pure ids)
    fun error => do
      let conflictRun ← findMatchingRun batch.repoId item.issueNumber batch.releaseBranch
      match conflictRun with
      | some run => do
          push [.runAdopted]
          pure { uuid := run.uuid, displayId := run.displayId }
      | none => Block.throw error

/-- The run of an item to admit: the matching one, or a new one. -/
def runForAdmission (batch : ReleaseBatch) (item : ReleaseBatchItem) (now : Date)
    : Statements RunIdentity := do
  let existingRun ← findMatchingRun batch.repoId item.issueNumber batch.releaseBranch
  match existingRun with
  | some run => do
      push [.runAdopted]
      pure { uuid := run.uuid, displayId := run.displayId }
  | none => insertRun deps batch item now

/-- The base of an admission, which a successor may not share with the whole batch. -/
def admissionBase (batch : ReleaseBatch) (item : ReleaseBatchItem)
    (explicitBaseSha : Option String)
    : Checked String :=
  let baseSha :=
    explicitBaseSha <|> item.baseSha <|> resolveBaseShaForPosition batch item.position
  match truthy baseSha with
  | none => .error ⟨.releaseBatchState,
      s!"cannot admit item at position {item.position}: baseSha could not be resolved"⟩
  | some baseSha => do
      throwIf (1 < item.position && baseSha = batch.sourceStartSha) .releaseBatchState
        (s!"cannot admit item at position {item.position}: "
          ++ "successor item cannot use batch sourceStartSha as base")
      pure baseSha

def admitSuccessor (item : ReleaseBatchItem) (now : Date) (explicitBaseSha : Option String)
    : Statements Unit := do
  let batch ← currentBatch
  let run ← runForAdmission deps batch item now
  let jobRecovered ← ensureJobEnqueued batch.repoId run.uuid item.issueNumber now
  Block.ifThen jobRecovered (push [.jobRecovered])
  let baseSha ← checked (admissionBase batch item explicitBaseSha)
  let _ ← call (.updateRun run.uuid { startCommitSha := some baseSha })
  applyOp (.admitItem item.position
    { runUuid := some run.uuid, baseSha := some baseSha, now := some now } now)
  updateBatch
  push [.successorAdmitted]
  let updatedBatch ← currentBatch
  publishEvent deps updatedBatch {
    type := "release_batch.item_admitted"
    level := .info
    message :=
      s!"release-batch {batch.id} admitted issue #{item.issueNumber} "
        ++ s!"at position {item.position} (run {run.uuid})"
    timestamp := now
    runUuid := some run.uuid
    runDisplayId := some run.displayId
  }

/-- The event that tells why the batch is blocked. -/
def publishBlocked (batch : ReleaseBatch) (reason : String) (now : Date) : Statements Unit :=
  publishEvent deps batch {
    type := "release_batch.blocked"
    level := .warn
    message := s!"release-batch {batch.id} blocked: {reason}"
    timestamp := now
  }

/-- The batch builds on: a blocked status and its reason are dropped by hand. -/
def resumeBuilding (event : ReleaseBatch → BatchEvent) : Statements Unit := do
  Block.assign fun locals => { locals with
    batch := { locals.batch with status := .building, blockedReason := none } }
  updateBatch
  push [.unblocked]
  let batch ← currentBatch
  publishEvent deps batch (event batch)

def maintenanceInput (repo : Repository) (completed : ReleaseBatchItem) : MaintenanceInput :=
  {
    repoLocalBasePath := repo.localBasePath
    completedIssueNumber := completed.issueNumber
    completedRunUuid := completed.runUuid
  }

/-- A batch blocked by its environment resumes once the maintenance succeeds. -/
def retryMaintenance (currentItem : ReleaseBatchItem) (now : Date) : Statements Unit := do
  let batch ← currentBatch
  let repo ← call (.findRepository batch.repoId)
  match repo, batch.items.find? (·.position = currentItem.position - 1) with
  | some repo, some priorItem => do
      let retryMaint ← call (.executeMaintenance (maintenanceInput repo priorItem))
      if MaintenanceResult.success retryMaint then
        resumeBuilding deps fun batch => {
          type := "release_batch.unblocked"
          level := .info
          message := s!"release-batch {batch.id} unblocked: maintenance health checks passed"
          timestamp := now
        }
      else
        leaveWith [.idle]
  | _, _ => leaveWith [.idle]

/-- The base that a batch blocked on an unresolvable one can resume from. -/
def retryBaseSha (currentItem : ReleaseBatchItem) : Statements (Option String) := do
  let batch ← currentBatch
  let repo ← call (.findRepository batch.repoId)
  let resolvedSha ← (match repo with
    | some repo =>
        if deps.git then
          (fetchHead repo batch.releaseBranch).attempt fun _ => pure none
        else
          pure (resolveBaseShaForPosition batch currentItem.position)
    | none => pure (resolveBaseShaForPosition batch currentItem.position))
  pure ((truthy resolvedSha).filter (fun sha => sha ≠ batch.sourceStartSha))

/-- A blocked batch resumes here when what blocked it is gone, and otherwise stays idle. -/
def retryBlockedBatch (currentItem : ReleaseBatchItem) (now : Date) : Statements Unit := do
  let batch ← currentBatch
  let reasonStartsWith (start : String) := batch.blockedReason.any (startsWith · start)
  let isEnvBlocker := reasonStartsWith "environment_unhealthy"
    || reasonStartsWith "Disk free space" || reasonStartsWith "Available memory"
  let isBaseShaBlocker := reasonStartsWith "base_sha_unresolvable"
  if isEnvBlocker && deps.maintenanceService && 1 < currentItem.position then
    retryMaintenance deps currentItem now
  else if isBaseShaBlocker && 1 < currentItem.position then do
    let resolvedSha ← retryBaseSha deps currentItem
    match resolvedSha with
    | some resolvedSha =>
        resumeBuilding deps fun batch => {
          type := "release_batch.unblocked"
          level := .info
          message :=
            s!"release-batch {batch.id} unblocked: base SHA successfully resolved ({resolvedSha})"
          timestamp := now
        }
    | none => leaveWith [.idle]
  else
    leaveWith [.idle]

/-- The inter-item maintenance before a successor is admitted. -/
def maintainBeforeAdmission (currentItem : ReleaseBatchItem) (now : Date)
    : Statements Unit := do
  let batch ← currentBatch
  let repo ← call (.findRepository batch.repoId)
  match repo, batch.items.find? (·.position = currentItem.position - 1) with
  | some repo, some priorItem => do
      let mResult ← call (.executeMaintenance (maintenanceInput repo priorItem))
      if MaintenanceResult.success mResult then
        push [.maintenanceRun]
      else do
        let reason := (MaintenanceResult.reason mResult).getD "environment_unhealthy"
        blockBatchAndNotify deps reason .blocked
        updateBatch
        push [.blocked]
        let batch ← currentBatch
        publishEvent deps batch {
          type := "release_batch.blocked"
          level := .warn
          message := s!"release-batch {batch.id} blocked: maintenance check failed: {reason}"
          timestamp := now
        }
        leave
  | _, _ => pure ()

/-- A release base and why it could not be certified against the remote, if it could not. -/
structure ReleaseBase where
  sha : Option String
  gitFetchError : Option String := none
  deriving DecidableEq, Repr

/-- The base that an item has or that its predecessor left. -/
def knownBaseSha (batch : ReleaseBatch) (item : ReleaseBatchItem) : Option String :=
  item.baseSha <|> resolveBaseShaForPosition batch item.position

/-- The remote head of the release branch as the base of the item. -/
def certifyReleaseBase (currentItem : ReleaseBatchItem) : Statements ReleaseBase := do
  let batch ← currentBatch
  let repo ← call (.findRepository batch.repoId)
  match deps.git, repo with
  | true, some repo =>
      Block.attempt
        (do
          let remoteSha ← fetchHead repo batch.releaseBranch
          match truthy remoteSha with
          | some sha => pure { sha := some sha }
          | none => pure {
              sha := knownBaseSha batch currentItem
              gitFetchError := some s!"could not resolve ref origin/{batch.releaseBranch}" })
        fun error => pure {
          sha := knownBaseSha batch currentItem
          gitFetchError := some error.message }
  | _, _ => pure { sha := knownBaseSha batch currentItem }

/-- Neither an absent base nor the start of the whole batch is a successor's base. -/
def isUnresolvable (batch : ReleaseBatch) (baseSha : Option String) : Bool :=
  !isSet baseSha || baseSha = some batch.sourceStartSha

/-- Why a successor cannot be admitted on a base, if it cannot. -/
def baseShaBlocker (batch : ReleaseBatch) (item : ReleaseBatchItem) (base : ReleaseBase)
    : Option String :=
  if 1 < item.position then
    match base.gitFetchError with
    | some gitFetchErrorMsg =>
        some (s!"base_sha_unresolvable: failed to fetch origin/{batch.releaseBranch}: "
          ++ gitFetchErrorMsg)
    | none =>
        if isUnresolvable batch base.sha then
          some s!"base_sha_unresolvable: prior item #{item.position - 1} has no mergedCommitSha"
        else
          none
  else
    none

/-- Case 1 of `reconcile`: the current item is pending and needs admission. -/
def admitPendingItem (currentItem : ReleaseBatchItem) (now : Date) : Statements Unit := do
  let batch ← currentBatch
  Block.ifThen (batch.items.any fun i => i.position < currentItem.position && !i.isMerged)
    (leaveWith [.idle])
  Block.ifThen (batch.status = .blocked) (retryBlockedBatch deps currentItem now)
  let batch ← currentBatch
  Block.ifThen (batch.items.any fun i => i.position ≠ currentItem.position && i.inFlight)
    (leaveWith [.idle])
  Block.ifThen (1 < currentItem.position && deps.maintenanceService)
    (maintainBeforeAdmission deps currentItem now)
  let base ← certifyReleaseBase deps currentItem
  match baseShaBlocker batch currentItem base with
  | some reason => do
      blockBatchAndNotify deps reason .blocked
      updateBatch
      push [.blocked]
      let batch ← currentBatch
      publishBlocked deps batch reason now
      leave
  | none => do
      admitSuccessor deps currentItem now base.sha
      leave

/-- A batch whose item has no base is blocked, without an event. -/
def blockOnBaseSha (reason : String) : Statements Unit := do
  blockBatchAndNotify deps reason .blocked
  updateBatch
  push [.blocked]
  leave

/-- The remote head of the release branch where it can be resolved, and else the known
base.
-/
def freshBaseSha (currentItem : ReleaseBatchItem) : Statements (Option String) := do
  let batch ← currentBatch
  let repo ← call (.findRepository batch.repoId)
  match deps.git, repo with
  | true, some repo => do
      let remoteSha ← (fetchHead repo batch.releaseBranch).attempt fun _ => pure none
      pure (truthy remoteSha <|> knownBaseSha batch currentItem)
  | _, _ => pure (knownBaseSha batch currentItem)

/-- Case 2 of `reconcile`: the current item was admitted, but its run is missing. -/
def recoverMissingRun (currentItem : ReleaseBatchItem) (now : Date) : Statements Unit := do
  let batch ← currentBatch
  let existingRun ← findMatchingRun batch.repoId currentItem.issueNumber batch.releaseBranch
  match existingRun with
  | some existingRun => do
      let resolvedBase := knownBaseSha batch currentItem
      Block.ifThen (1 < currentItem.position && isUnresolvable batch resolvedBase)
        (blockOnBaseSha deps
          (s!"base_sha_unresolvable: cannot adopt run for item #{currentItem.issueNumber}: "
            ++ "baseSha could not be resolved"))
      applyOp (.admitItem currentItem.position
        { runUuid := some existingRun.uuid, baseSha := truthy resolvedBase, now := some now }
        now)
      updateBatch
      push [.runAdopted]
  | none => do
      let baseSha ← freshBaseSha deps currentItem
      Block.ifThen (1 < currentItem.position && isUnresolvable batch baseSha)
        (blockOnBaseSha deps
          (s!"base_sha_unresolvable: failed to resolve base SHA for position "
            ++ toString currentItem.position))
      admitSuccessor deps currentItem now baseSha
      leave

end AiSdlc.Application
