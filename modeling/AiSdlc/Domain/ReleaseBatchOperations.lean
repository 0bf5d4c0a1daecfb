import AiSdlc.Domain.ReleaseBatch

/-! The operations on a release batch. Each returns the next batch or throws; where the
source defaults a timestamp to `new Date()`, the operation takes the clock's reading.
-/

namespace AiSdlc.Domain

open AiSdlc.Js

def assertNotTerminal (batch : ReleaseBatch) (action : String) : Checked Unit :=
  throwIf batch.status.isTerminal .terminalBatch
    s!"cannot {action}: release batch {batch.id} is already {batch.status}"

/-- The index and the item at a position, or an error with the given message. -/
def locateItem (batch : ReleaseBatch) (position : Int) (missing : String)
    : Checked (Nat × ReleaseBatchItem) :=
  match batch.items.findIdx? (fun item => decide (item.position = position)) with
  | none => .error ⟨.releaseBatchState, missing⟩
  | some itemIndex =>
      match batch.items[itemIndex]? with
      | none => .error ⟨.releaseBatchState, missing⟩
      | some item => .ok (itemIndex, item)

/-- The message of the operations that name the position and the batch only. -/
def positionNotFound (batch : ReleaseBatch) (position : Int) : String :=
  s!"position {position} not found in release batch {batch.id}"

/-- Throws when another item already holds the run UUID. -/
def throwIfRunAttached (batch : ReleaseBatch) (position : Int) (runUuid : String)
    : Checked Unit :=
  match batch.items.find? (fun i => i.position ≠ position && i.runUuid = some runUuid) with
  | some duplicate =>
      .error ⟨.duplicateRunAssignment,
        s!"run UUID {runUuid} is already attached to item at position {duplicate.position}"⟩
  | none => .ok ()

structure AdmitItemInput where
  runUuid : Option String := none
  baseSha : Option String := none
  now : Option Date := none
  deriving DecidableEq, Repr

/-- Invariant 5 of the source: only one item may be admitted at a time. -/
def throwIfOtherInFlight (batch : ReleaseBatch) (position : Int) : Checked Unit :=
  match batch.items.find? (fun i => i.position ≠ position && i.inFlight) with
  | some activeItem =>
      .error ⟨.concurrentAdmission,
        s!"cannot admit item at position {position}: item at position {activeItem.position} "
          ++ s!"is already {activeItem.status}"⟩
  | none => .ok ()

/-- A successor cannot be admitted until all predecessor items are merged. -/
def throwIfUnmergedPrior (batch : ReleaseBatch) (position : Int) : Checked Unit :=
  match batch.items.find? (fun i => i.position < position && !i.isMerged) with
  | some unmergedPrior =>
      .error ⟨.releaseBatchState,
        s!"cannot admit item at position {position}: predecessor at position "
          ++ s!"{unmergedPrior.position} is not merged (status: {unmergedPrior.status})"⟩
  | none => .ok ()

/-- The run UUID rules, when an admission names a run. -/
def checkAdmittedRun (batch : ReleaseBatch) (position : Int) (item : ReleaseBatchItem)
    : Option String → Checked Unit
  | none => pure ()
  | some runUuid => do
      throwIf (item.runUuid.isSome && item.runUuid ≠ some runUuid) .reassignRun
        (s!"cannot reassign run UUID for item at position {position}: "
          ++ s!"already assigned to {shown item.runUuid}")
      throwIfRunAttached batch position runUuid

def admitItem (batch : ReleaseBatch) (position : Int) (input : AdmitItemInput) (clock : Date)
    : Checked ReleaseBatch := do
  assertNotTerminal batch "admit item"
  let (itemIndex, item) ← locateItem batch position
    s!"cannot admit item: position {position} not found in release batch {batch.id}"
  throwIf item.isMerged .immutableItemMerged
    s!"cannot admit item at position {position}: item is already merged"
  throwIfOtherInFlight batch position
  throwIfUnmergedPrior batch position
  checkAdmittedRun batch position item input.runUuid
  let now := input.now.getD clock
  let nextItem := { item with
    status := .active
    startedAt := some (item.startedAt.getD now)
    runUuid := input.runUuid <|> item.runUuid
    baseSha := input.baseSha <|> item.baseSha
    blockedReason := none }
  let nextBatchStatus :=
    if batch.status = .queued || batch.status = .blocked then .building else batch.status
  pure { batch with
    status := nextBatchStatus
    currentPosition := position
    blockedReason := none
    items := batch.items.set itemIndex nextItem }

def assignItemRun (batch : ReleaseBatch) (position : Int) (runUuid : String)
    : Checked ReleaseBatch := do
  assertNotTerminal batch "assign run UUID"
  throwIf (isBlank runUuid) .releaseBatchState "runUuid must be a non-empty string"
  let (itemIndex, item) ← locateItem batch position (positionNotFound batch position)
  if item.runUuid = some runUuid then
    pure batch
  else do
    throwIf item.runUuid.isSome .reassignRun
      (s!"cannot reassign run UUID for item at position {position}: "
        ++ s!"already assigned to {shown item.runUuid}")
    throwIfRunAttached batch position runUuid
    let nextItem := { item with runUuid := some runUuid }
    pure { batch with items := batch.items.set itemIndex nextItem }

/-- `prNumber` must be a positive integer. -/
def checkPrNumber (prNumber : Int) : Checked Unit :=
  throwIf (prNumber ≤ 0) .releaseBatchState
    s!"prNumber must be a positive integer, got {prNumber}"

def markItemWaitingMerge (batch : ReleaseBatch) (position prNumber : Int)
    : Checked ReleaseBatch := do
  assertNotTerminal batch "mark item waiting merge"
  checkPrNumber prNumber
  let (itemIndex, item) ← locateItem batch position (positionNotFound batch position)
  throwIf item.isMerged .immutableItemMerged
    s!"cannot mark item at position {position} waiting_merge: item is already merged"
  if item.status = .waitingMerge && item.prNumber = some prNumber then
    pure batch
  else do
    throwIf (item.status ≠ .active) .releaseBatchState
      (s!"cannot mark item at position {position} waiting_merge: status is {item.status}, "
        ++ "expected 'active'")
    let nextItem := { item with status := .waitingMerge, prNumber := some prNumber }
    pure { batch with items := batch.items.set itemIndex nextItem }

def attachItemPr (batch : ReleaseBatch) (position prNumber : Int) : Checked ReleaseBatch := do
  assertNotTerminal batch "attach item PR"
  checkPrNumber prNumber
  let (itemIndex, item) ← locateItem batch position (positionNotFound batch position)
  if item.prNumber = some prNumber then
    pure batch
  else
    let nextItem := { item with prNumber := some prNumber }
    pure { batch with items := batch.items.set itemIndex nextItem }

def markItemMerged (batch : ReleaseBatch) (position : Int) (mergedCommitSha : String)
    (now : Option Date) (clock : Date)
    : Checked ReleaseBatch := do
  assertNotTerminal batch "mark item merged"
  throwIf (isBlank mergedCommitSha) .releaseBatchState
    "mergedCommitSha must be a non-empty string"
  let (itemIndex, item) ← locateItem batch position (positionNotFound batch position)
  throwIf item.isMerged .immutableItemMerged
    s!"item at position {position} is already merged: merged is irreversible"
  throwIf (item.status ≠ .waitingMerge && item.status ≠ .active) .releaseBatchState
    (s!"cannot mark item at position {position} merged: status is {item.status}, "
      ++ "expected 'waiting_merge' or 'active'")
  let nextItem := { item with
    status := .merged
    mergedCommitSha := some mergedCommitSha
    completedAt := some (now.getD clock) }
  pure { batch with items := batch.items.set itemIndex nextItem }

def markItemBlocked (batch : ReleaseBatch) (position : Int) (reason : String)
    : Checked ReleaseBatch := do
  assertNotTerminal batch "mark item blocked"
  let (itemIndex, item) ← locateItem batch position (positionNotFound batch position)
  throwIf item.isMerged .immutableItemMerged
    s!"cannot mark item at position {position} blocked: item is already merged"
  let nextItem := { item with status := .blocked, blockedReason := some reason }
  pure { batch with
    status := .blocked
    blockedReason := some reason
    items := batch.items.set itemIndex nextItem }

def markBatchBlocked (batch : ReleaseBatch) (reason : String) : Checked ReleaseBatch := do
  assertNotTerminal batch "mark batch blocked"
  pure { batch with status := .blocked, blockedReason := some reason }

def unblockBatch (batch : ReleaseBatch) : Checked ReleaseBatch := do
  assertNotTerminal batch "unblock batch"
  if batch.status ≠ .blocked then
    pure batch
  else
    pure { batch with status := .building, blockedReason := none }

def unblockItem (batch : ReleaseBatch) (position : Int) : Checked ReleaseBatch := do
  assertNotTerminal batch "unblock item"
  let (itemIndex, item) ← locateItem batch position (positionNotFound batch position)
  if item.status ≠ .blocked then
    pure batch
  else
    let nextItem := { item with status := .active, blockedReason := none }
    let nextBatch := { batch with items := batch.items.set itemIndex nextItem }
    let hasOtherBlocked := nextBatch.items.any (fun i => i.status = .blocked)
    if !hasOtherBlocked && nextBatch.status = .blocked then
      unblockBatch nextBatch
    else
      pure nextBatch

def transitionToAwaitingManualTest (batch : ReleaseBatch) (candidateSha : String)
    (candidateTreeSha : Option String) (promotionPrNumber : Option Int)
    : Checked ReleaseBatch := do
  assertNotTerminal batch "transition to awaiting manual test"
  throwIf (batch.status ≠ .building && batch.status ≠ .testFailed) .releaseBatchState
    (s!"cannot transition to awaiting_manual_test: batch status is '{batch.status}', "
      ++ "expected 'building' or 'test_failed'")
  throwIf (isBlank candidateSha) .releaseBatchState "candidateSha must be a non-empty string"
  throwIfUnmerged batch.items
  throwIf (promotionPrNumber.any (· ≤ 0)) .releaseBatchState
    s!"promotionPrNumber must be a positive integer, got {promotionPrNumber.getD 0}"
  -- The candidate and its tree are spread from the batch, so an absent tree keeps the old one.
  pure { batch with
    status := .awaitingManualTest
    blockedReason := none
    approvedCandidateSha := none
    promotionCommitSha := none
    candidateSha := some candidateSha
    candidateTreeSha := candidateTreeSha <|> batch.candidateTreeSha
    promotionPrNumber := promotionPrNumber <|> batch.promotionPrNumber }

def recordPromotionPr (batch : ReleaseBatch) (prNumber : Int) : Checked ReleaseBatch := do
  assertNotTerminal batch "record promotion PR"
  checkPrNumber prNumber
  if batch.promotionPrNumber = some prNumber then
    pure batch
  else
    pure { batch with promotionPrNumber := some prNumber }

def approveBatchCandidate (batch : ReleaseBatch) (approvedCandidateSha : String)
    : Checked ReleaseBatch := do
  assertNotTerminal batch "approve candidate"
  throwIf (batch.status ≠ .awaitingManualTest) .releaseBatchState
    s!"cannot approve candidate: batch status is '{batch.status}', expected 'awaiting_manual_test'"
  throwIf (!isSet batch.candidateSha) .releaseBatchState
    "cannot approve candidate: batch has no candidateSha"
  throwIf (some approvedCandidateSha ≠ batch.candidateSha) .invalidCandidateSha
    (s!"approved candidate SHA ({approvedCandidateSha}) does not match "
      ++ s!"candidate SHA ({shown batch.candidateSha})")
  pure { batch with
    status := .approved
    approvedCandidateSha := some approvedCandidateSha }

/-- The overloads of `rejectBatchCandidate`: an options object, a text alone, or a text with
an explicit third argument, which may be undefined.
-/
inductive RejectArguments
  | options (candidateSha reason : Option String)
  | text (candidateShaOrReason : Option String)
  | textAndReason (candidateSha reason : Option String)
  deriving DecidableEq, Repr

/-- The candidate SHA and the reason that the arguments of a rejection name. -/
def RejectArguments.resolve (batch : ReleaseBatch)
    : RejectArguments → Option String × Option String
  | options candidateSha reason => (candidateSha, reason)
  | textAndReason candidateSha reason => (candidateSha, reason)
  | text none => (none, none)
  | text (some value) =>
      if isSet batch.candidateSha && some value = batch.candidateSha then
        (some value, none)
      else
        (none, some value)

def rejectBatchCandidate (batch : ReleaseBatch) (arguments : RejectArguments)
    : Checked ReleaseBatch := do
  assertNotTerminal batch "reject candidate"
  throwIf (batch.status ≠ .awaitingManualTest) .releaseBatchState
    s!"cannot reject candidate: batch status is '{batch.status}', expected 'awaiting_manual_test'"
  let (candidateSha, reason) := arguments.resolve batch
  throwIf (candidateSha.isSome && isSet batch.candidateSha && candidateSha ≠ batch.candidateSha)
    .invalidCandidateSha
    (s!"rejected candidate SHA ({shown candidateSha}) does not match "
      ++ s!"candidate SHA ({shown batch.candidateSha})")
  pure { batch with
    status := .testFailed
    blockedReason := reason <|> batch.blockedReason }

/-- The loop over the remediation issues, with the new issues seen on the way. -/
def checkRemediationIssues (batch : ReleaseBatch) (newIssues : List Int)
    : List Int → Checked Unit
  | [] => pure ()
  | num :: rest => do
      throwIf (num ≤ 0) .releaseBatchState
        s!"remediation issue number must be a positive integer, got {num}"
      throwIf (num ∈ batch.items.map (·.issueNumber)) .duplicateIssue
        s!"remediation issue number {num} is already present in release batch {batch.id}"
      throwIf (num ∈ newIssues) .duplicateIssue
        s!"duplicate remediation issue number {num} in append list for release batch {batch.id}"
      checkRemediationIssues batch (num :: newIssues) rest

/-- The appended items, at the positions after the batch's last one. -/
def remediationItems (batch : ReleaseBatch) (issueNumbers : List Int)
    : List ReleaseBatchItem :=
  issueNumbers.mapIdx (fun offset issueNum =>
    {
      releaseBatchId := batch.id
      position := batch.items.length + 1 + offset
      issueNumber := issueNum
      status := .pending
    })

def appendRemediationItems (batch : ReleaseBatch) (issueNumbers : List Int)
    : Checked ReleaseBatch := do
  assertNotTerminal batch "append remediation items"
  throwIf (batch.status ≠ .testFailed) .remediationNotAllowed
    s!"cannot append remediation items: batch status is '{batch.status}', expected 'test_failed'"
  throwIf issueNumbers.isEmpty .releaseBatchState
    "must provide at least one remediation issue number"
  checkRemediationIssues batch [] issueNumbers
  let allItems := batch.items ++ remediationItems batch issueNumbers
  let firstUnmerged := allItems.find? (!·.isMerged)
  pure { batch with
    status := .building
    candidateSha := none
    approvedCandidateSha := none
    candidateTreeSha := none
    promotionCommitSha := none
    blockedReason := none
    currentPosition := (firstUnmerged.map (·.position)).getD batch.currentPosition
    items := allItems }

def attachPromotionPr (batch : ReleaseBatch) (prNumber : Int) : Checked ReleaseBatch := do
  assertNotTerminal batch "attach promotion PR"
  throwIf (batch.status ≠ .approved && batch.status ≠ .promoting) .releaseBatchState
    (s!"cannot attach promotion PR: batch status is '{batch.status}', "
      ++ "expected 'approved' or 'promoting'")
  checkPrNumber prNumber
  pure { batch with status := .promoting, promotionPrNumber := some prNumber }

def recordPromotionCommit (batch : ReleaseBatch) (promotionCommitSha : String)
    : Checked ReleaseBatch := do
  assertNotTerminal batch "record promotion commit"
  throwIf (isBlank promotionCommitSha) .releaseBatchState
    "promotionCommitSha must be a non-empty string"
  pure { batch with promotionCommitSha := some promotionCommitSha }

/-- The approved candidate is present and is the captured candidate. -/
def ReleaseBatch.approvalMatches (batch : ReleaseBatch) : Bool :=
  isSet batch.approvedCandidateSha && batch.approvedCandidateSha = batch.candidateSha

def promoteBatch (batch : ReleaseBatch) : Checked ReleaseBatch := do
  assertNotTerminal batch "promote batch"
  throwIf (batch.status ≠ .approved) .releaseBatchState
    s!"cannot promote release batch: status is '{batch.status}', expected 'approved'"
  throwIf (!batch.approvalMatches) .unapprovedPromotion
    ("cannot promote release batch: approved candidate SHA is missing or does not match "
      ++ "candidate SHA")
  pure { batch with status := .promoting }

def completeBatch (batch : ReleaseBatch) (now : Option Date) (clock : Date)
    : Checked ReleaseBatch := do
  assertNotTerminal batch "complete batch"
  throwIf (batch.status ≠ .promoting && batch.status ≠ .approved) .releaseBatchState
    (s!"cannot complete release batch: status is '{batch.status}', "
      ++ "expected 'promoting' or 'approved'")
  throwIf (!batch.approvalMatches) .unapprovedPromotion
    ("cannot complete release batch: approved candidate SHA is missing or does not match "
      ++ "candidate SHA")
  pure { batch with status := .completed, completedAt := some (now.getD clock) }

def cancelBatch (batch : ReleaseBatch) (reason : Option String) (now : Option Date)
    (clock : Date)
    : Checked ReleaseBatch := do
  throwIf (batch.status = .completed) .terminalBatch "cannot cancel completed release batch"
  if batch.status = .cancelled then
    pure batch
  else
    pure { batch with
      status := .cancelled
      completedAt := some (now.getD clock)
      blockedReason := reason <|> batch.blockedReason }

end AiSdlc.Domain
