import AiSdlc.Application.Statements

/-! The batch after its last merge: the capture of the candidate, the watch over branch
movement, the promotion pull request and the completion.
-/

namespace AiSdlc.Application

open AiSdlc.Js
open AiSdlc.Domain
open AiSdlc.Async

variable (deps : ReleaseBatchCoordinatorDeps)

/-- Opens the promotion pull request and records its number. -/
def openPromotionPr (repo : Repository) (candidateSha : String) (now : Date)
    : Statements Unit := do
  let batch ← currentBatch
  let content ← call (.assemblePromotionPr batch repo candidateSha)
  let prNumber ← call (.createPullRequest {
    repoFullName := repo.fullName
    baseBranch := batch.sourceBranch
    headBranch := batch.releaseBranch
    title := PromotionPrContent.title content
    body := PromotionPrContent.body content
  })
  Block.ifThen deps.mirrorBranchProtection (swallow
    (call (.mirrorBranchProtection repo.fullName batch.sourceBranch batch.releaseBranch)))
  applyOp (.recordPromotionPr prNumber)
  updateBatch
  push [.promotionPrCreated]
  let batch ← currentBatch
  publishEvent deps batch {
    type := "release_batch.promotion_pr_created"
    level := .info
    message :=
      s!"release-batch {batch.id} opened promotion PR #{Int.repr prNumber} "
        ++ s!"to {batch.sourceBranch}"
    timestamp := now
  }

def ensurePromotionPr (candidateSha : String) (now : Date) : Statements Unit := do
  let batch ← currentBatch
  Block.ifThen deps.github do
    let repo ← call (.findRepository batch.repoId)
    match repo, nonzero batch.promotionPrNumber with
    | some repo, some prNumber =>
        swallow (call (.refreshPromotionPr repo.fullName prNumber batch candidateSha))
    | some repo, none => swallow (openPromotionPr deps repo candidateSha now)
    | none, _ => pure ()

/-- The heads of the release and the source branch, after fetching both. -/
def fetchHeads (repo : Repository) (batch : ReleaseBatch)
    : Statements (Option String × Option String) := do
  let _ ← call (.fetch repo.localBasePath "origin" batch.releaseBranch)
  let _ ← call (.fetch repo.localBasePath "origin" batch.sourceBranch)
  let remoteReleaseSha ← call (.resolveRef repo.localBasePath s!"origin/{batch.releaseBranch}")
  let remoteSourceSha ← call (.resolveRef repo.localBasePath s!"origin/{batch.sourceBranch}")
  pure (remoteReleaseSha, remoteSourceSha)

/-- The maintenance after the last item, which blocks the batch when it fails. -/
def maintainAfterLastItem : Statements Unit := do
  let batch ← currentBatch
  Block.ifThen (deps.maintenanceService && !batch.items.isEmpty) do
    let repo ← call (.findRepository batch.repoId)
    match repo, batch.items.getLast? with
    | some repo, some finalItem => do
        let mResult ← call (.executeMaintenance {
          repoLocalBasePath := repo.localBasePath
          completedIssueNumber := finalItem.issueNumber
          completedRunUuid := finalItem.runUuid
        })
        if MaintenanceResult.success mResult then
          push [.maintenanceRun]
        else do
          let reason := (MaintenanceResult.reason mResult).getD "environment_unhealthy"
          blockBatchAndNotify deps reason .blocked
          updateBatch
          push [.blocked]
          leave
    | _, _ => pure ()

/-- Captures the head of the release branch as the candidate, when it contains the source
branch.
-/
def captureCandidate (repo : Repository) (now : Date) : Statements Unit := do
  let batch ← currentBatch
  let heads ← fetchHeads repo batch
  match truthy heads.1, truthy heads.2 with
  | some remoteReleaseSha, some remoteSourceSha => do
      let isSourceContained ←
        call (.isAncestor repo.localBasePath (some remoteSourceSha) remoteReleaseSha)
      if isSourceContained = true then do
        let candidateTreeSha ← call (.treeSha repo.localBasePath remoteReleaseSha)
        applyOp (.transitionToAwaitingManualTest remoteReleaseSha candidateTreeSha none)
        updateBatch
        push [.candidateCaptured]
        let batch ← currentBatch
        publishEvent deps batch {
          type := "release_batch.candidate_captured"
          level := .info
          message :=
            s!"release-batch {batch.id} captured release candidate {remoteReleaseSha}, "
              ++ "awaiting manual test"
          timestamp := now
        }
        ensurePromotionPr deps remoteReleaseSha now
        let batch ← currentBatch
        dispatchNotification deps .awaitingManualTest {
          candidateSha := some remoteReleaseSha
          promotionPrNumber := batch.promotionPrNumber
        }
        leave
      else do
        -- The source branch has advanced beyond what the release branch contains.
        blockBatchAndNotify deps "source_branch_advanced" .blocked
        updateBatch
        push [.blocked, .sourceDriftDetected]
        let batch ← currentBatch
        publishEvent deps batch {
          type := "release_batch.source_drift_detected"
          level := .warn
          message :=
            s!"release-batch {batch.id} source branch {batch.sourceBranch} "
              ++ "advanced beyond release candidate"
          timestamp := now
        }
        leave
  | _, _ => pure ()

/-- A building batch with all items merged: its build stage is complete, and its candidate
is captured.
-/
def completeBuildStage (now : Date) : Statements Unit := do
  let batch ← currentBatch
  push [.buildCompleted]
  publishEvent deps batch {
    type := "release_batch.build_stage_completed"
    level := .info
    message :=
      s!"release-batch {batch.id} completed build stage: all {batch.items.length} items merged"
    timestamp := now
  }
  maintainAfterLastItem deps
  let repo ← call (.findRepository batch.repoId)
  (match deps.git, repo with
    | true, some repo => swallow (captureCandidate deps repo now)
    | _, _ => pure ())
  leave

/-- Blocks the batch because a branch moved under its candidate. -/
def blockOnMovement (reason : String) (actions : List ReconciliationAction)
    : Statements Unit := do
  let batch ← currentBatch
  let isApproved := batch.status = .approved
  blockBatchAndNotify deps reason (if isApproved then .approvalStale else .blocked)
  updateBatch
  Block.ifThen isApproved (push [.approvalInvalidated])
  push actions
  leave

/-- The status of a batch whose promotion may have been merged. -/
def mayBePromoted (batch : ReleaseBatch) : Bool :=
  batch.status = .approved || batch.status = .promoting

/-- The commit of the merged promotion, recorded on the batch. The commit counts as verified
also where recording it throws.
-/
def verifyPromotionCommit (repo : Repository) (remoteSourceSha : Option String)
    : Statements (Option String) := do
  let batch ← currentBatch
  match batch.promotionPrNumber with
  | some promotionPrNumber =>
      if mayBePromoted batch && deps.github then do
        let resolvedSha ← Block.attempt
          (do
            let readiness ← call (.getPrMergeReadiness repo.fullName promotionPrNumber)
            pure (if PrMergeReadiness.merged readiness then
              truthy (PrMergeReadiness.mergeCommitSha readiness <|> remoteSourceSha)
            else
              none))
          fun _ => pure none
        (match resolvedSha with
          | some sha => Block.ifThen (batch.promotionCommitSha ≠ some sha) (swallow do
              applyOp (.recordPromotionCommit sha)
              updateBatch)
          | none => pure ())
        pure resolvedSha
      else
        pure none
  | none => pure none

/-- Neither branch may move under a candidate, except by the promotion itself. -/
def checkBranchMovement (repo : Repository) (candidateSha : String) : Statements Unit := do
  let batch ← currentBatch
  let heads ← fetchHeads repo batch
  Block.ifThen ((truthy heads.1).any (· ≠ candidateSha))
    (blockOnMovement deps "release_branch_drift" [.blocked])
  let verifiedMergedPromotionCommitSha ← verifyPromotionCommit deps repo heads.2
  match truthy heads.2 with
  | some remoteSourceSha => do
      let isContained ←
        call (.isAncestor repo.localBasePath (some remoteSourceSha) candidateSha)
      let batch ← currentBatch
      let isPromotionOwned := mayBePromoted batch && batch.promotionPrNumber.isSome
        && verifiedMergedPromotionCommitSha = some remoteSourceSha
      Block.ifThen (!isContained && !isPromotionOwned)
        (blockOnMovement deps "source_branch_advanced" [.blocked, .sourceDriftDetected])
  | none => pure ()

/-- What `isPromotionRecoveryEligible` checks before it looks the repository up. -/
def isPromotionBlocked (batch : ReleaseBatch) : Bool :=
  batch.status = .blocked
  && (batch.blockedReason.any (startsWith · "promotion_ci_failed")
    || batch.blockedReason.any (startsWith · "promotion_tree_mismatch"))
  && !batch.items.isEmpty && batch.allMerged && batch.promotionPrNumber.isSome && deps.github

/-- What `isPromotionRecoveryEligible` checks of the candidate. -/
def hasRecoverableCandidate (batch : ReleaseBatch) : Bool :=
  isSet batch.candidateSha && isSet batch.approvedCandidateSha
  && batch.approvedCandidateSha = batch.candidateSha
  && (!batch.blockedReason.any (startsWith · "promotion_tree_mismatch")
    || (deps.git && isSet batch.candidateTreeSha))

def isPromotionRecoveryEligible (batch : ReleaseBatch) : Statements Bool :=
  if isPromotionBlocked deps batch then do
    let repo ← call (.findRepository batch.repoId)
    pure (Option.isSome repo && hasRecoverableCandidate deps batch)
  else
    pure false

/-- The promoted source branch does not carry the candidate. -/
def blockOnTreeMismatch : Statements Unit := do
  blockBatchAndNotify deps "promotion_tree_mismatch" .promotionBlocked
  updateBatch
  push [.blocked]
  leave

/-- Checks that the source branch contains the approved candidate or has its tree, and
returns the commit of the promotion.
-/
def verifyPromotedSource (repo : Repository) (promoSha : Option String)
    : Statements (Option String) :=
  if deps.git then do
    let batch ← currentBatch
    let sourceSha ← fetchHead repo batch.sourceBranch
    match truthy sourceSha with
    | some sourceSha => do
        let isAncestor ←
          call (.isAncestor repo.localBasePath batch.approvedCandidateSha sourceSha)
        Block.ifThen (!isAncestor) (match truthy batch.candidateTreeSha with
          | some candidateTreeSha => do
              let sourceTreeSha ← call (.treeSha repo.localBasePath sourceSha)
              Block.ifThen (sourceTreeSha ≠ some candidateTreeSha) (blockOnTreeMismatch deps)
          | none => blockOnTreeMismatch deps)
        pure (if isSet promoSha then promoSha else some sourceSha)
    | none => leave
  else
    pure promoSha

/-- A blocked batch promotes on: the status and its reason are rewritten by hand. -/
def resumePromoting : Statements Unit :=
  Block.assign fun locals => { locals with
    batch := { locals.batch with status := .promoting, blockedReason := none } }

/-- The commit of the promotion is recorded where it is known. -/
def recordKnownCommit (promoSha : Option String) : Statements Unit :=
  match truthy promoSha with
  | some promoSha => applyOp (.recordPromotionCommit promoSha)
  | none => pure ()

def announceCompletion (promoSha : Option String) (now : Date) : Statements Unit := do
  let batch ← currentBatch
  dispatchNotification deps .completed {
    candidateSha := promoSha
    promotionPrNumber := batch.promotionPrNumber
  }
  push [.promotionCompleted]
  let commit := promoSha.getD "merged"
  publishEvent deps batch {
    type := "release_batch.completed"
    level := .info
    message := s!"release-batch {batch.id} promoted and completed successfully ({commit})"
    timestamp := now
  }
  leave

def completePromotion (promoSha : Option String) (now : Date) : Statements Unit := do
  recordKnownCommit promoSha
  let batch ← currentBatch
  Block.ifThen (batch.status = .blocked) resumePromoting
  applyOp (.completeBatch (some now) now)
  updateBatch
  announceCompletion deps promoSha now

/-- Blocks the batch because its promotion pull request cannot be merged. -/
def blockOnPromotionPr (reason : String) : Statements Unit := do
  blockBatchAndNotify deps reason .promotionBlocked
  updateBatch
  push [.blocked]
  leave

/-- The promotion table over the readiness of its pull request. -/
def checkPromotionPr (repo : Repository) (prNumber : Int) (now : Date) : Statements Unit := do
  let batch ← currentBatch
  let readiness ← call (.getPrMergeReadiness repo.fullName prNumber)
  let readiness : PrMergeReadiness := readiness
  if readiness.merged then do
    let promoSha ←
      verifyPromotedSource deps repo (batch.promotionCommitSha <|> readiness.mergeCommitSha)
    completePromotion deps promoSha now
  else if readiness.state = .closed && !readiness.isMerged then
    blockOnPromotionPr deps
      (if batch.status = .blocked && isSet batch.blockedReason then
        batch.blockedReason.getD ""
      else
        s!"pr_closed_unmerged: PR #{prNumber} closed without merge")
  else if readiness.ciStatus = .failed then
    blockOnPromotionPr deps s!"promotion_ci_failed: PR #{prNumber} CI checks failed"
  else
    Block.ifThen (batch.status = .blocked) do
      resumePromoting
      updateBatch

def reconcilePromotionReadiness (now : Date) : Statements Unit := do
  let batch ← currentBatch
  let repo ← call (.findRepository batch.repoId)
  (match repo, nonzero batch.promotionPrNumber with
    | some repo, some prNumber =>
        Block.ifThen deps.github (swallow (checkPromotionPr deps repo prNumber now))
    | _, _ => pure ())
  leave

end AiSdlc.Application
