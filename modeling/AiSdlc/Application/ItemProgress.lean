import AiSdlc.Application.ItemAdmission

/-! The progress of the admitted item: the table over its run's status, the table over its
pull request's readiness, and the certification of its merge.
-/

namespace AiSdlc.Application

open AiSdlc.Js
open AiSdlc.Domain
open AiSdlc.Async

variable (deps : ReleaseBatchCoordinatorDeps)

/-- The reasons of a block that the item's run accounts for. -/
def isRunBlocker (blockedReason : Option String) : Bool :=
  (blockedReason.getD "")
    ∈ ["run_failed", "run_blocked", "run_cancelled", "needs_human_review"]

/-- Attaches the pull request of the item's run, once it is known. -/
def tryAttachPrMetadata (item : ReleaseBatchItem) (run : Run) : Statements (Option Int) :=
  if isNonzero item.prNumber || !deps.resolvePrMetadata then
    pure none
  else
    Block.attempt
      (do
        let prNumber ← call (.resolvePrMetadata run)
        match nonzero prNumber with
        | some prNumber => do
            let batch ← currentBatch
            -- The batch is assigned only after its update, so a failed one leaves it alone.
            let updatedBatch ← checked ((BatchOp.attachItemPr item.position prNumber).apply batch)
            let _ ← call (.updateBatch updatedBatch)
            assignBatch updatedBatch
            pure (some prNumber)
        | none => pure none)
      fun _ => pure none

/-- Unblocks the current item. -/
def unblockCurrentItem (position : Int) : Statements Unit := do
  applyOp (.unblockItem position)
  updateBatch
  push [.unblocked]

/-- The event of an item whose run let it go on. -/
def publishRunUnblocked (currentItem : ReleaseBatchItem) (runUuid outcome : String)
    (now : Date)
    : Statements Unit := do
  let batch ← currentBatch
  publishEvent deps batch {
    type := "release_batch.unblocked"
    level := .info
    message :=
      s!"release-batch {batch.id} unblocked: run {runUuid} "
        ++ s!"for issue #{currentItem.issueNumber} {outcome}"
    timestamp := now
    runUuid := some runUuid
  }

/-- The item waits for the merge of its pull request, when it is active. -/
def markWaitingMerge (position prNumber : Int) (runUuid : Option String) (now : Date)
    : Statements Unit := do
  let batch ← currentBatch
  match batch.items.find? (·.position = position) with
  | some item =>
      Block.ifThen (item.status = .active) do
        applyOp (.markItemWaitingMerge position prNumber)
        updateBatch
        push [.prAttached]
        let batch ← currentBatch
        publishEvent deps batch {
          type := "release_batch.item_waiting_merge"
          level := .info
          message :=
            s!"release-batch {batch.id} item #{item.issueNumber} waiting merge on PR #{prNumber}"
          timestamp := now
          runUuid
        }
  | none => pure ()

/-- Blocks the item for a reason, unless it is blocked for that reason already. -/
def blockForReason (item : ReleaseBatchItem) (reason message : String)
    (runUuid : Option String) (now : Date)
    : Statements Unit :=
  Block.ifThen (item.status ≠ .blocked || item.blockedReason ≠ some reason) do
    blockItemAndNotify deps item.position reason
    updateBatch
    push [.blocked]
    let batch ← currentBatch
    publishEvent deps batch {
      type := "release_batch.blocked"
      level := .warn
      message := s!"release-batch {batch.id} blocked: {message}"
      timestamp := now
      runUuid
    }

/-- Blocks the item for its run's status. -/
def blockForRun (currentItem : ReleaseBatchItem) (runUuid reason outcome : String)
    (now : Date)
    : Statements Unit :=
  blockForReason deps currentItem reason
    s!"run {runUuid} {outcome} for issue #{currentItem.issueNumber}" (some runUuid) now

/-- Attaches the pull request and records that it did. -/
def attachPr (currentItem : ReleaseBatchItem) (run : Run) : Statements (Option Int) := do
  let prAttached ← tryAttachPrMetadata deps currentItem run
  Block.ifThen prAttached.isSome (push [.prAttached])
  pure prAttached

/-- The run-state reconciliation table. -/
def reconcileRunState (currentItem : ReleaseBatchItem) (run : Run) (runUuid : String)
    (now : Date)
    : Statements Unit := do
  let batch ← currentBatch
  let blockedByRun := isRunBlocker currentItem.blockedReason
  match run.status with
  | .queued | .running => do
      let jobRecovered ← ensureJobEnqueued batch.repoId runUuid currentItem.issueNumber now
      Block.ifThen jobRecovered (push [.jobRecovered])
      Block.ifThen blockedByRun do
        unblockCurrentItem currentItem.position
        publishRunUnblocked deps currentItem runUuid "became active" now
      let _ ← attachPr deps currentItem run
  | .waiting => do
      Block.ifThen blockedByRun (unblockCurrentItem currentItem.position)
      let prAttached ← attachPr deps currentItem run
      match nonzero (currentItem.prNumber <|> prAttached) with
      | some prNum => markWaitingMerge deps currentItem.position prNum (some runUuid) now
      | none => pure ()
  | .failed => blockForRun deps currentItem runUuid "run_failed" "failed" now
  | .blocked => blockForRun deps currentItem runUuid "run_blocked" "blocked" now
  | .needsHumanReview =>
      blockForRun deps currentItem runUuid "needs_human_review" "needs human review" now
  | .cancelled => blockForRun deps currentItem runUuid "run_cancelled" "cancelled" now
  | .passed => do
      Block.ifThen (blockedByRun || currentItem.blockedReason.any (startsWith · "run_")) do
        unblockCurrentItem currentItem.position
        publishRunUnblocked deps currentItem runUuid "passed" now
      let _ ← attachPr deps currentItem run

structure CertifyItemMergedInput where
  batchId : ReleaseBatchId
  position : Int
  mergedCommitSha : String
  now : Option Date := none
  deriving DecidableEq, Repr

/-- The run of a merged item has passed, whatever its record says. -/
def healRun (runUuid : Option String) (completedAt : Date) : Statements Unit :=
  match truthy runUuid with
  | some uuid => do
      let run ← call (.findRunByUuid (some uuid))
      Block.ifThen (Option.any (fun run : Run => run.status ≠ .passed) run)
        (call (.updateRun uuid
          { status := some .passed, currentPhase := some none,
            completedAt := some (some completedAt) }))
  | none => pure ()

/-- The error of a batch that is not in the store. -/
def batchNotFound (batchId : ReleaseBatchId) : Thrown :=
  .batch ⟨.releaseBatchState, s!"ReleaseBatch {batchId} not found"⟩

/-- `certifyItemMerged`: works on the batch as it is stored, and then reconciles again. -/
def certifyItemMerged (input : CertifyItemMergedInput) : Statements Unit := do
  let now ← (match input.now with
    | some now => pure now
    | none => call .now)
  let found ← call (.findBatch input.batchId)
  match found with
  | none => Block.throw (batchNotFound input.batchId)
  | some (batch : ReleaseBatch) => do
      -- From here on the caller's batch is no longer used: it only returns the result.
      assignBatch batch
      match batch.items.find? (·.position = input.position) with
      | none =>
          Block.throw (.batch ⟨.releaseBatchState,
            s!"Position {input.position} not found in release batch {batch.id}"⟩)
      | some item =>
          if item.isMerged && item.mergedCommitSha = some input.mergedCommitSha then do
            healRun item.runUuid (item.completedAt.getD now)
            Block.leave fun _ => .reconcileAgain
          else do
            applyOp (.markItemMerged input.position input.mergedCommitSha (some now) now)
            updateBatch
            healRun item.runUuid now
            let updatedBatch ← currentBatch
            publishEvent deps updatedBatch {
              type := "release_batch.item_merged"
              level := .info
              message :=
                s!"release-batch {batch.id} item #{item.issueNumber} at position {item.position} "
                  ++ s!"certified merged ({input.mergedCommitSha})"
              timestamp := now
              runUuid := item.runUuid
            }
            Block.leave fun _ => .reconcileAgain

/-- The first of the four checks that the pull request fails, as a blocking reason. -/
def prBlocker (batch : ReleaseBatch) (prNumber : Int) (readiness : PrMergeReadiness)
    : Option String :=
  let base := readiness.baseRefName.getD ""
  if isSet readiness.baseRefName && base ≠ batch.releaseBranch then
    some s!"pr_base_mismatch: PR #{prNumber} base is {base}, expected {batch.releaseBranch}"
  else if readiness.state = .closed && !readiness.isMerged then
    some s!"pr_closed_unmerged: PR #{prNumber} closed without merge"
  else if readiness.autoMergeEnabled = some false && !readiness.merged then
    some s!"auto_merge_unavailable: PR #{prNumber} does not have auto-merge enabled"
  else if readiness.ciStatus = .failed && !readiness.merged then
    some s!"ci_failed: PR #{prNumber} CI checks failed"
  else
    none

/-- The blocks that a ready pull request lifts. -/
def isPrBlocker (item : ReleaseBatchItem) : Bool :=
  item.status = .blocked
  && (item.blockedReason.any (startsWith · "ci_failed")
    || item.blockedReason.any (startsWith · "auto_merge_unavailable")
    || item.blockedReason.any (startsWith · "pr_base_mismatch"))

/-- The commit that a merged pull request is certified with: the head of the release branch
where it can be resolved, and else the merge commit.
-/
def certifiedSha (batch : ReleaseBatch) (readiness : PrMergeReadiness)
    : Statements String := do
  let repo ← call (.findRepository batch.repoId)
  let remoteSha ← (match deps.git, repo with
    | true, some repo => (fetchHead repo batch.releaseBranch).attempt fun _ => pure none
    | _, _ => pure none)
  pure ((truthy remoteSha <|> truthy readiness.mergeCommitSha).getD
    (readiness.mergeCommitSha.getD "unknown-merge-sha"))

def checkAndReconcilePrMerge (position prNumber : Int) (now : Date) : Statements Unit :=
  Block.ifThen deps.github do
    let batch ← currentBatch
    let repo ← call (.findRepository batch.repoId)
    let readiness ← (match repo with
      | some repo =>
          Block.attempt
            (do
              let readiness ← call (.getPrMergeReadiness repo.fullName prNumber)
              pure (some readiness))
            fun _ => pure none
      | none => pure none)
    match readiness, batch.items.find? (·.position = position) with
    | some (readiness : PrMergeReadiness), some currentItem =>
        match prBlocker batch prNumber readiness with
        | some reason =>
            blockForReason deps currentItem reason reason currentItem.runUuid now
        | none => do
            Block.ifThen (isPrBlocker currentItem) do
              unblockCurrentItem position
              let batch ← currentBatch
              publishEvent deps batch {
                type := "release_batch.unblocked"
                level := .info
                message := s!"release-batch {batch.id} unblocked: PR #{prNumber} blocker resolved"
                timestamp := now
                runUuid := currentItem.runUuid
              }
            if readiness.merged then do
              let mergedSha ← certifiedSha deps batch readiness
              certifyItemMerged deps {
                batchId := batch.id
                position
                mergedCommitSha := mergedSha
                now := some now
              }
            else
              Block.ifThen (readiness.state = .open_)
                (markWaitingMerge deps position prNumber currentItem.runUuid now)
    | _, _ => pure ()

/-- The pull request that the item at a position has by now. -/
def latestPrNumber (batch : ReleaseBatch) (position : Int) : Option Int :=
  nonzero ((batch.items.find? (·.position = position)).bind (·.prNumber))

/-- The rest of `reconcile` for an item whose run is recorded. -/
def reconcileCurrentItem (currentItem : ReleaseBatchItem) (now : Date) : Statements Unit := do
  let runUuid := shown currentItem.runUuid
  let found ← call (.findRunByUuid currentItem.runUuid)
  match found with
  | none => leaveWith [.idle]
  | some (run : Run) => do
      reconcileRunState deps currentItem run runUuid now
      let batch ← currentBatch
      (match latestPrNumber batch currentItem.position with
        | some prNum =>
            Block.ifThen (deps.github && run.status ≠ .failed && run.status ≠ .cancelled)
              (checkAndReconcilePrMerge deps currentItem.position prNum now)
        | none => pure ())
      let locals ← Block.locals
      Block.ifThen locals.actions.isEmpty (push [.idle])
      leave

end AiSdlc.Application
