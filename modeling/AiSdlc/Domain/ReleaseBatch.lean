import Mathlib.Data.List.Sort
import AiSdlc.Js.Checked
import AiSdlc.Js.Date
import AiSdlc.Js.Text

/-! Release batches, their items and the construction of a new batch.
A batch admits its issues one after the other, captures a release candidate once all of
them are merged, and is promoted after a manual test of exactly that candidate.
-/

namespace AiSdlc.Domain

open AiSdlc.Js

inductive ReleaseBatchStatus
  | queued
  | building
  | blocked
  | awaitingManualTest
  | testFailed
  | approved
  | promoting
  | completed
  | cancelled
  deriving DecidableEq, Repr

def ReleaseBatchStatus.text : ReleaseBatchStatus → String
  | queued => "queued"
  | building => "building"
  | blocked => "blocked"
  | awaitingManualTest => "awaiting_manual_test"
  | testFailed => "test_failed"
  | approved => "approved"
  | promoting => "promoting"
  | completed => "completed"
  | cancelled => "cancelled"

instance : ToString ReleaseBatchStatus := ⟨ReleaseBatchStatus.text⟩

/-- `ALL_ITEMS_MERGED_ALLOWED_STATUSES`: the statuses expected once every item is merged. -/
def isAllItemsMergedAllowedStatus (status : ReleaseBatchStatus) : Bool :=
  status ∈ [.building, .awaitingManualTest, .approved, .promoting, .completed]

/-- `TERMINAL_STATUSES`. -/
def ReleaseBatchStatus.isTerminal (status : ReleaseBatchStatus) : Bool :=
  status ∈ [.completed, .cancelled]

inductive ReleaseBatchItemStatus
  | pending
  | active
  | waitingMerge
  | merged
  | blocked
  deriving DecidableEq, Repr

def ReleaseBatchItemStatus.text : ReleaseBatchItemStatus → String
  | pending => "pending"
  | active => "active"
  | waitingMerge => "waiting_merge"
  | merged => "merged"
  | blocked => "blocked"

instance : ToString ReleaseBatchItemStatus := ⟨ReleaseBatchItemStatus.text⟩

abbrev ReleaseBatchId := String

abbrev RepositoryId := String

structure ReleaseBatchItem where
  releaseBatchId : ReleaseBatchId
  position : Int
  issueNumber : Int
  status : ReleaseBatchItemStatus
  runUuid : Option String := none
  prNumber : Option Int := none
  baseSha : Option String := none
  mergedCommitSha : Option String := none
  blockedReason : Option String := none
  startedAt : Option Date := none
  completedAt : Option Date := none
  deriving DecidableEq, Repr

structure ReleaseBatch where
  id : ReleaseBatchId
  repoId : RepositoryId
  sourceBranch : String
  sourceStartSha : String
  releaseBranch : String
  status : ReleaseBatchStatus
  currentPosition : Int
  candidateSha : Option String := none
  approvedCandidateSha : Option String := none
  candidateTreeSha : Option String := none
  promotionCommitSha : Option String := none
  promotionPrNumber : Option Int := none
  blockedReason : Option String := none
  createdAt : Date
  completedAt : Option Date := none
  items : List ReleaseBatchItem
  deriving DecidableEq, Repr

/-- The current item of a sequential batch is in one of these statuses while its pull
request is on its way.
-/
def ReleaseBatchItem.inFlight (item : ReleaseBatchItem) : Bool :=
  item.status = .active || item.status = .waitingMerge

def ReleaseBatchItem.isMerged (item : ReleaseBatchItem) : Bool :=
  item.status = .merged

/-- Every item of the batch is merged. -/
def ReleaseBatch.allMerged (batch : ReleaseBatch) : Bool :=
  batch.items.all (·.isMerged)

/-- The error classes of the release-batch operations. -/
inductive ReleaseBatchErrorClass
  | releaseBatchState
  | duplicatePosition
  | duplicateIssue
  | duplicateRunAssignment
  | reassignRun
  | immutableItemMerged
  | concurrentAdmission
  | prematureCandidateCapture
  | invalidCandidateSha
  | unapprovedPromotion
  | terminalBatch
  | remediationNotAllowed
  deriving DecidableEq, Repr

structure ReleaseBatchError where
  errorClass : ReleaseBatchErrorClass
  message : String
  deriving DecidableEq, Repr

/-- The result of an operation that throws a release-batch error. -/
abbrev Checked := Except ReleaseBatchError

/-- `if (failing) throw error`. -/
def throwIf (failing : Bool) (errorClass : ReleaseBatchErrorClass) (message : String)
    : Checked Unit :=
  if failing then .error ⟨errorClass, message⟩ else .ok ()

/-- `show` of an optional SHA in a message: JavaScript writes `undefined` for an absent one. -/
def shown (value : Option String) : String :=
  value.getD "undefined"

@[simp]
theorem throwIf_eq_ok {failing : Bool} {errorClass : ReleaseBatchErrorClass}
    {message : String} {result : Unit}
    : throwIf failing errorClass message = .ok result ↔ failing = false := by
  cases failing <;> simp [throwIf]

structure CreateReleaseBatchItemInput where
  position : Int
  issueNumber : Int
  status : Option ReleaseBatchItemStatus := none
  runUuid : Option String := none
  prNumber : Option Int := none
  baseSha : Option String := none
  mergedCommitSha : Option String := none
  blockedReason : Option String := none
  startedAt : Option Date := none
  completedAt : Option Date := none
  deriving DecidableEq, Repr

structure CreateReleaseBatchInput where
  id : ReleaseBatchId
  repoId : RepositoryId
  sourceBranch : String
  sourceStartSha : String
  releaseBranch : String
  status : Option ReleaseBatchStatus := none
  currentPosition : Option Int := none
  candidateSha : Option String := none
  approvedCandidateSha : Option String := none
  candidateTreeSha : Option String := none
  promotionCommitSha : Option String := none
  promotionPrNumber : Option Int := none
  blockedReason : Option String := none
  createdAt : Date
  completedAt : Option Date := none
  items : List CreateReleaseBatchItemInput
  deriving DecidableEq, Repr

/-- The run UUIDs seen after an item, when its own is a new non-blank one. -/
def checkNewRunUuid (batchId : ReleaseBatchId) (seenRunUuids : List String)
    : Option String → Checked (List String)
  | none => pure seenRunUuids
  | some runUuid => do
      throwIf (isBlank runUuid) .releaseBatchState
        "runUuid must be a non-empty string when defined"
      throwIf (runUuid ∈ seenRunUuids) .duplicateRunAssignment
        s!"run UUID {runUuid} attached to multiple items in release batch {batchId}"
      pure (runUuid :: seenRunUuids)

/-- The loop over the sorted items: `index` of them were checked, with the positions,
issues and run UUIDs seen on the way.
-/
def checkItems (batchId : ReleaseBatchId) (index : Nat) (seenPositions seenIssues : List Int)
    (seenRunUuids : List String)
    : List CreateReleaseBatchItemInput → Checked Unit
  | [] => pure ()
  | item :: rest => do
      throwIf (item.position ≤ 0) .releaseBatchState
        s!"item position must be a positive integer, got {item.position}"
      throwIf (item.position ∈ seenPositions) .duplicatePosition
        s!"duplicate position {item.position} in release batch {batchId}"
      let expected : Int := index + 1
      throwIf (item.position ≠ expected) .releaseBatchState
        (s!"item positions must be contiguous 1..N: expected position {expected}, "
          ++ s!"got {item.position}")
      throwIf (item.issueNumber ≤ 0) .releaseBatchState
        s!"issueNumber must be a positive integer, got {item.issueNumber}"
      throwIf (item.issueNumber ∈ seenIssues) .duplicateIssue
        (s!"duplicate issue number {item.issueNumber} at position {item.position} "
          ++ s!"in release batch {batchId}")
      let seenRunUuids ← checkNewRunUuid batchId seenRunUuids item.runUuid
      checkItems batchId (index + 1) (item.position :: seenPositions)
        (item.issueNumber :: seenIssues) seenRunUuids rest

def createItem (batchId : ReleaseBatchId) (item : CreateReleaseBatchItemInput)
    : ReleaseBatchItem :=
  {
    releaseBatchId := batchId
    position := item.position
    issueNumber := item.issueNumber
    status := item.status.getD .pending
    runUuid := item.runUuid
    prNumber := item.prNumber
    baseSha := item.baseSha
    mergedCommitSha := item.mergedCommitSha
    blockedReason := item.blockedReason
    startedAt := item.startedAt
    completedAt := item.completedAt
  }

/-- Throws `errorClass` with the first item that is not merged, when there is one. -/
def throwIfUnmerged (items : List ReleaseBatchItem) : Checked Unit :=
  match items.find? (!·.isMerged) with
  | some unmerged =>
      .error ⟨.prematureCandidateCapture,
        s!"cannot capture candidateSha: item at position {unmerged.position} is not merged "
          ++ s!"(status: {unmerged.status})"⟩
  | none => .ok ()

@[simp]
theorem throwIfUnmerged_eq_ok {items : List ReleaseBatchItem} {result : Unit}
    : throwIfUnmerged items = .ok result ↔ ∀ item ∈ items, item.isMerged = true := by
  unfold throwIfUnmerged
  cases found : items.find? (!·.isMerged) with
  | none => simpa using found
  | some unmerged =>
      have member := List.mem_of_find?_eq_some found
      have open_ := List.find?_some found
      simp only [Bool.not_eq_eq_eq_not, Bool.not_true] at open_
      simp only [reduceCtorEq, false_iff, not_forall]
      exact ⟨unmerged, member, by simp [open_]⟩

/-- `createReleaseBatch`: the items are sorted by position and must be exactly 1..N. -/
def createReleaseBatch (input : CreateReleaseBatchInput) : Checked ReleaseBatch := do
  throwIf (input.items.isEmpty) .releaseBatchState
    "ReleaseBatch must contain at least one item"
  let sortedItems := input.items.insertionSort (fun a b => a.position ≤ b.position)
  checkItems input.id 0 [] [] [] sortedItems
  let items := sortedItems.map (createItem input.id)
  if input.candidateSha.isSome then throwIfUnmerged items else pure ()
  throwIf (input.approvedCandidateSha.isSome
      && (input.candidateSha = none || input.approvedCandidateSha ≠ input.candidateSha))
    .invalidCandidateSha
    (s!"approved candidate SHA ({shown input.approvedCandidateSha}) does not match "
      ++ s!"candidate SHA ({shown input.candidateSha})")
  let status := input.status.getD .queued
  throwIf (status = .completed && input.completedAt = none) .releaseBatchState
    "completed status requires completedAt timestamp"
  throwIf (status = .completed && !isSet input.approvedCandidateSha) .unapprovedPromotion
    "completed status requires an approvedCandidateSha"
  pure {
    id := input.id
    repoId := input.repoId
    sourceBranch := input.sourceBranch
    sourceStartSha := input.sourceStartSha
    releaseBranch := input.releaseBranch
    status
    currentPosition := input.currentPosition.getD 1
    candidateSha := input.candidateSha
    approvedCandidateSha := input.approvedCandidateSha
    candidateTreeSha := input.candidateTreeSha
    promotionCommitSha := input.promotionCommitSha
    promotionPrNumber := input.promotionPrNumber
    blockedReason := input.blockedReason
    createdAt := input.createdAt
    completedAt := input.completedAt
    items
  }

end AiSdlc.Domain
