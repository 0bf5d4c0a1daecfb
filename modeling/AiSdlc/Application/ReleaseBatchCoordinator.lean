import AiSdlc.Application.ItemProgress
import AiSdlc.Application.Promotion

/-! `ReleaseBatchCoordinator.reconcile`: one pass over the stored batch, and another one
after each certified merge.
-/

namespace AiSdlc.Application

open AiSdlc.Js
open AiSdlc.Domain
open AiSdlc.Async

variable (deps : ReleaseBatchCoordinatorDeps)

/-- The statuses in which the branches must not move. -/
def isWatched (status : ReleaseBatchStatus) : Bool :=
  status ∈ [.awaitingManualTest, .approved, .promoting]

/-- The checks on a batch that has a candidate or should have one. -/
def watchCandidate (now : Date) : Statements Unit := do
  let batch ← currentBatch
  let repo ← call (.findRepository batch.repoId)
  (match deps.git, repo, truthy batch.candidateSha with
    | true, some repo, some candidateSha => swallow (checkBranchMovement deps repo candidateSha)
    | _, _, _ => pure ())
  let batch ← currentBatch
  match truthy batch.candidateSha with
  | some candidateSha =>
      Block.ifThen
        (batch.status = .awaitingManualTest && !isNonzero batch.promotionPrNumber)
        (ensurePromotionPr deps candidateSha now)
  | none => pure ()

/-- The part of `reconcile` for a batch with all items merged. -/
def reconcileMergedBatch (now : Date) : Statements Unit := do
  let batch ← currentBatch
  Block.ifThen (batch.status = .building) (completeBuildStage deps now)
  Block.ifThen (isWatched batch.status) (watchCandidate deps now)
  let batch ← currentBatch
  let promotes ← (if batch.status = .promoting then
    pure true
  else
    isPromotionRecoveryEligible deps batch)
  Block.ifThen (promotes && isNonzero batch.promotionPrNumber && deps.github)
    (reconcilePromotionReadiness deps now)
  leave

/-- The part of `reconcile` for the first unmerged item. -/
def reconcileUnmergedItem (currentItem : ReleaseBatchItem) (now : Date)
    : Statements Unit := do
  Block.ifThen (currentItem.status = .pending) (admitPendingItem deps currentItem now)
  Block.ifThen (!isSet currentItem.runUuid) (recoverMissingRun deps currentItem now)
  reconcileCurrentItem deps currentItem now

/-- The runs of the merged items have passed: stale records are healed. -/
def healMergedRuns (now : Date) : Statements Unit := do
  let batch ← currentBatch
  Block.forEach batch.items fun item =>
    Block.ifThen item.isMerged (healRun item.runUuid (item.completedAt.getD now))

/-- One pass of `reconcile` over the batch that it found; the statuses that are none of a
release batch are left out by their type.
-/
def reconcileFound (now : Date) : Statements Unit := do
  let batch ← currentBatch
  Block.ifThen batch.status.isTerminal (leaveWith [.idle])
  let unmergedItems := batch.items.filter (!·.isMerged)
  Block.ifThen (unmergedItems.isEmpty && !isAllItemsMergedAllowedStatus batch.status) do
    let eligible ← isPromotionRecoveryEligible deps batch
    Block.ifThen (!eligible) (leaveWith [.unexpectedStatus])
  healMergedRuns now
  match unmergedItems with
  | [] => reconcileMergedBatch deps now
  | currentItem :: _ => reconcileUnmergedItem deps currentItem now

/-- How a call of `reconcile` ends. -/
inductive ReconcileOutcome
  | returned (result : ReconcileBatchResult)
  | threw (error : Thrown)
  | outOfFuel
  deriving DecidableEq, Repr

abbrev CoordinatorProgram (α : Type) : Type :=
  Program Request Request.Reply α

/-- One pass of `reconcile`: it looks the batch up and works on what it found. -/
def reconcilePass (batchId : ReleaseBatchId) : CoordinatorProgram (Except Thrown PassResult) :=
  .ask .now fun
    | .error error => .done (.error error)
    | .ok now => .ask (.findBatch batchId) fun
        | .error error => .done (.error error)
        | .ok none => .done (.error (batchNotFound batchId))
        | .ok (some batch) =>
            (reconcileFound deps now { batch, actions := [] }).bind fun
              | (.normal (), locals) => .done (.ok locals.result)
              | (.returned result, _) => .done (.ok result)
              | (.threw error, _) => .done (.error error)

/-- `reconcile`: passes while they certify merges. The fuel bounds the number of passes. -/
def reconcile (batchId : ReleaseBatchId) : Nat → CoordinatorProgram ReconcileOutcome
  | 0 => .done .outOfFuel
  | fuel + 1 => (reconcilePass deps batchId).bind fun
      | .error error => .done (.threw error)
      | .ok (.finished result) => .done (.returned result)
      | .ok .reconcileAgain => reconcile batchId fuel

end AiSdlc.Application
