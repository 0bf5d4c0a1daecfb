import AiSdlc.Domain.ReleaseBatchOperations
import AiSdlc.Transition.System

/-! What a successful operation on a release batch did.
Each operation has one inversion lemma; the later modules never unfold an operation.
-/

namespace AiSdlc.Domain

open AiSdlc.Js
open AiSdlc.Transition

/-- The item that the operations find at a position: the first one that has it. -/
def ReleaseBatch.ItemAt (batch : ReleaseBatch) (position : Int) (index : Nat)
    (item : ReleaseBatchItem)
    : Prop :=
  batch.items.findIdx? (fun i => decide (i.position = position)) = some index
    ∧ batch.items[index]? = some item

theorem ReleaseBatch.ItemAt.mem {batch : ReleaseBatch} {position : Int} {index : Nat}
    {item : ReleaseBatchItem} (located : batch.ItemAt position index item)
    : item ∈ batch.items :=
  List.mem_of_getElem? located.2

theorem ReleaseBatch.ItemAt.position_eq {batch : ReleaseBatch} {position : Int}
    {index : Nat} {item : ReleaseBatchItem} (located : batch.ItemAt position index item)
    : item.position = position := by
  obtain ⟨found, get⟩ := located
  obtain ⟨bound, holds, _⟩ := List.findIdx?_eq_some_iff_getElem.mp found
  have same : batch.items[index] = item := by
    simpa [List.getElem?_eq_getElem bound] using get
  simpa [same] using holds

theorem isTerminal_eq_false_iff {status : ReleaseBatchStatus}
    : status.isTerminal = false ↔ status ≠ .completed ∧ status ≠ .cancelled := by
  simp [ReleaseBatchStatus.isTerminal]

@[simp]
theorem assertNotTerminal_eq_ok {batch : ReleaseBatch} {action : String} {result : Unit}
    : assertNotTerminal batch action = .ok result ↔ batch.status.isTerminal = false := by
  simp [assertNotTerminal]

@[simp]
theorem checkPrNumber_eq_ok {prNumber : Int} {result : Unit}
    : checkPrNumber prNumber = .ok result ↔ 0 < prNumber := by
  simp [checkPrNumber]

@[simp]
theorem locateItem_eq_ok {batch : ReleaseBatch} {position : Int} {missing : String}
    {located : Nat × ReleaseBatchItem}
    : locateItem batch position missing = .ok located
      ↔ batch.ItemAt position located.1 located.2 := by
  obtain ⟨index, item⟩ := located
  unfold locateItem ReleaseBatch.ItemAt
  cases found : batch.items.findIdx? (fun i => decide (i.position = position)) with
  | none => simp
  | some itemIndex =>
      cases get : batch.items[itemIndex]? with
      | none => simp only [get, reduceCtorEq, Option.some.injEq, false_iff]; grind
      | some other => simp only [get, Except.ok.injEq, Prod.mk.injEq, Option.some.injEq]; grind

/-- No other item holds the run UUID. -/
def ReleaseBatch.RunUnattached (batch : ReleaseBatch) (position : Int) (runUuid : String)
    : Prop :=
  ∀ item ∈ batch.items, item.position ≠ position → item.runUuid ≠ some runUuid

@[simp]
theorem throwIfRunAttached_eq_ok {batch : ReleaseBatch} {position : Int} {runUuid : String}
    {result : Unit}
    : throwIfRunAttached batch position runUuid = .ok result
      ↔ batch.RunUnattached position runUuid := by
  unfold throwIfRunAttached ReleaseBatch.RunUnattached
  cases found : batch.items.find?
      (fun i => decide (i.position ≠ position) && decide (i.runUuid = some runUuid)) with
  | none => simpa using found
  | some duplicate =>
      have member := List.mem_of_find?_eq_some found
      have holds := List.find?_some found
      simp only [ne_eq, decide_not, Bool.and_eq_true, Bool.not_eq_eq_eq_not, Bool.not_true,
        decide_eq_false_iff_not, decide_eq_true_eq] at holds
      simp only [reduceCtorEq, false_iff]
      exact fun none => none duplicate member holds.1 holds.2

@[simp]
theorem throwIfOtherInFlight_eq_ok {batch : ReleaseBatch} {position : Int} {result : Unit}
    : throwIfOtherInFlight batch position = .ok result
      ↔ ∀ item ∈ batch.items, item.position ≠ position → item.inFlight = false := by
  unfold throwIfOtherInFlight
  cases found : batch.items.find? (fun i => decide (i.position ≠ position) && i.inFlight) with
  | none => simpa using found
  | some activeItem =>
      have member := List.mem_of_find?_eq_some found
      have holds := List.find?_some found
      simp only [ne_eq, decide_not, Bool.and_eq_true, Bool.not_eq_eq_eq_not, Bool.not_true,
        decide_eq_false_iff_not] at holds
      simp only [reduceCtorEq, false_iff]
      exact fun idle => by simpa [holds.2] using idle activeItem member holds.1

/-- Every item before a position is merged. -/
def ReleaseBatch.PriorMerged (batch : ReleaseBatch) (position : Int) : Prop :=
  ∀ item ∈ batch.items, item.position < position → item.isMerged = true

@[simp]
theorem throwIfUnmergedPrior_eq_ok {batch : ReleaseBatch} {position : Int} {result : Unit}
    : throwIfUnmergedPrior batch position = .ok result ↔ batch.PriorMerged position := by
  unfold throwIfUnmergedPrior ReleaseBatch.PriorMerged
  cases found : batch.items.find?
      (fun i => decide (i.position < position) && !i.isMerged) with
  | none => simpa using found
  | some unmergedPrior =>
      have member := List.mem_of_find?_eq_some found
      have holds := List.find?_some found
      simp only [Bool.and_eq_true, decide_eq_true_eq, Bool.not_eq_eq_eq_not,
        Bool.not_true] at holds
      simp only [reduceCtorEq, false_iff]
      exact fun merged => by simpa [holds.2] using merged unmergedPrior member holds.1

/-- The run that an admission names is the item's own or is held by no other item. -/
def ReleaseBatch.RunAdmissible (batch : ReleaseBatch) (position : Int)
    (item : ReleaseBatchItem) (runUuid : Option String)
    : Prop :=
  ∀ uuid, runUuid = some uuid →
    (item.runUuid = none ∨ item.runUuid = some uuid) ∧ batch.RunUnattached position uuid

@[simp]
theorem checkAdmittedRun_eq_ok {batch : ReleaseBatch} {position : Int}
    {item : ReleaseBatchItem} {runUuid : Option String} {result : Unit}
    : checkAdmittedRun batch position item runUuid = .ok result
      ↔ batch.RunAdmissible position item runUuid := by
  unfold ReleaseBatch.RunAdmissible
  cases runUuid with
  | none => simp [checkAdmittedRun]
  | some uuid => cases own : item.runUuid <;> simp [checkAdmittedRun, own]

/-- `admitItem` succeeds on an unmerged item without another one in flight and with all
items before it merged.
-/
theorem admitItem_eq_ok {batch next : ReleaseBatch} {position : Int} {input : AdmitItemInput}
    {clock : Date}
    : admitItem batch position input clock = .ok next
      ↔ batch.status.isTerminal = false ∧ ∃ index item, batch.ItemAt position index item
        ∧ item.isMerged = false
        ∧ (∀ i ∈ batch.items, i.position ≠ position → i.inFlight = false)
        ∧ batch.PriorMerged position
        ∧ batch.RunAdmissible position item input.runUuid
        ∧ { batch with
            status := if batch.status = .queued ∨ batch.status = .blocked then .building
              else batch.status
            currentPosition := position
            blockedReason := none
            items := batch.items.set index { item with
              status := .active
              startedAt := some (item.startedAt.getD (input.now.getD clock))
              runUuid := input.runUuid <|> item.runUuid
              baseSha := input.baseSha <|> item.baseSha
              blockedReason := none } } = next := by
  simp [admitItem, -bind_pure_comp]

theorem assignItemRun_eq_ok {batch next : ReleaseBatch} {position : Int} {runUuid : String}
    : assignItemRun batch position runUuid = .ok next
      ↔ batch.status.isTerminal = false ∧ isBlank runUuid = false
        ∧ ∃ index item, batch.ItemAt position index item
          ∧ (item.runUuid = some runUuid ∧ batch = next
            ∨ item.runUuid = none ∧ batch.RunUnattached position runUuid
              ∧ { batch with
                  items := batch.items.set index { item with runUuid := some runUuid } }
                = next) := by
  simp only [assignItemRun, checked_bind_eq_ok, assertNotTerminal_eq_ok, throwIf_eq_ok,
    locateItem_eq_ok, checked_ite_eq_ok, checked_pure_eq_ok, throwIfRunAttached_eq_ok,
    exists_const, Prod.exists, Option.isSome_eq_false_iff, Option.isNone_iff_eq_none]
  grind

theorem markItemWaitingMerge_eq_ok {batch next : ReleaseBatch} {position prNumber : Int}
    : markItemWaitingMerge batch position prNumber = .ok next
      ↔ batch.status.isTerminal = false ∧ 0 < prNumber
        ∧ ∃ index item, batch.ItemAt position index item ∧ item.isMerged = false
          ∧ (item.status = .waitingMerge ∧ item.prNumber = some prNumber ∧ batch = next
            ∨ item.status = .active
              ∧ { batch with
                  items := batch.items.set index { item with
                    status := .waitingMerge
                    prNumber := some prNumber } }
                = next) := by
  simp [markItemWaitingMerge, -bind_pure_comp]
  grind

theorem attachItemPr_eq_ok {batch next : ReleaseBatch} {position prNumber : Int}
    : attachItemPr batch position prNumber = .ok next
      ↔ batch.status.isTerminal = false ∧ 0 < prNumber
        ∧ ∃ index item, batch.ItemAt position index item
          ∧ (item.prNumber = some prNumber ∧ batch = next
            ∨ item.prNumber ≠ some prNumber
              ∧ { batch with
                  items := batch.items.set index { item with prNumber := some prNumber } }
                = next) := by
  simp [attachItemPr, -bind_pure_comp]

theorem markItemMerged_eq_ok {batch next : ReleaseBatch} {position : Int}
    {mergedCommitSha : String} {now : Option Date} {clock : Date}
    : markItemMerged batch position mergedCommitSha now clock = .ok next
      ↔ batch.status.isTerminal = false ∧ isBlank mergedCommitSha = false
        ∧ ∃ index item, batch.ItemAt position index item ∧ item.inFlight = true
          ∧ { batch with
              items := batch.items.set index { item with
                status := .merged
                mergedCommitSha := some mergedCommitSha
                completedAt := some (now.getD clock) } }
            = next := by
  simp [markItemMerged, ReleaseBatchItem.isMerged, ReleaseBatchItem.inFlight, -bind_pure_comp]
  grind

theorem markItemBlocked_eq_ok {batch next : ReleaseBatch} {position : Int} {reason : String}
    : markItemBlocked batch position reason = .ok next
      ↔ batch.status.isTerminal = false
        ∧ ∃ index item, batch.ItemAt position index item ∧ item.isMerged = false
          ∧ { batch with
              status := .blocked
              blockedReason := some reason
              items := batch.items.set index { item with
                status := .blocked
                blockedReason := some reason } }
            = next := by
  simp [markItemBlocked, -bind_pure_comp]

theorem markBatchBlocked_eq_ok {batch next : ReleaseBatch} {reason : String}
    : markBatchBlocked batch reason = .ok next
      ↔ batch.status.isTerminal = false
        ∧ { batch with status := .blocked, blockedReason := some reason } = next := by
  simp [markBatchBlocked, -bind_pure_comp]

theorem unblockBatch_eq_ok {batch next : ReleaseBatch}
    : unblockBatch batch = .ok next
      ↔ batch.status.isTerminal = false
        ∧ (batch.status ≠ .blocked ∧ batch = next
          ∨ batch.status = .blocked
            ∧ { batch with status := .building, blockedReason := none } = next) := by
  simp [unblockBatch, -bind_pure_comp]
  grind

/-- Unblocking an item resumes its blocked batch when no other item is blocked. -/
def ReleaseBatch.resumesWith (batch : ReleaseBatch) (items : List ReleaseBatchItem) : Bool :=
  !items.any (·.status = .blocked) && batch.status = .blocked

/-- `unblockItem` makes a blocked item active, and the batch building again when it was the
last blocked item; it looks at no other item's progress.
-/
theorem unblockItem_eq_ok {batch next : ReleaseBatch} {position : Int}
    : unblockItem batch position = .ok next
      ↔ batch.status.isTerminal = false
        ∧ ∃ index item items, batch.ItemAt position index item
          ∧ items = batch.items.set index { item with status := .active, blockedReason := none }
          ∧ (item.status ≠ .blocked ∧ batch = next
            ∨ item.status = .blocked
              ∧ { batch with
                  status := if batch.resumesWith items then .building else batch.status
                  blockedReason :=
                    if batch.resumesWith items then none else batch.blockedReason
                  items }
                = next) := by
  simp only [unblockItem, checked_bind_eq_ok, assertNotTerminal_eq_ok, locateItem_eq_ok,
    checked_ite_eq_ok, checked_pure_eq_ok, unblockBatch_eq_ok, exists_const, Prod.exists,
    exists_and_left, exists_eq_left]
  refine and_congr_right fun live => exists₂_congr fun index item =>
    and_congr_right fun _ => or_congr (by simp) ?_
  generalize batch.items.set index { item with status := .active, blockedReason := none }
    = items
  cases resumed : batch.resumesWith items with
  | true =>
      have blocked : batch.status = .blocked := by
        simp [ReleaseBatch.resumesWith] at resumed
        exact resumed.2
      have any : (!items.any (·.status = .blocked) && decide (batch.status = .blocked)) = true :=
        resumed
      simp only [any]
      simp [blocked, ReleaseBatchStatus.isTerminal]
  | false =>
      have any : (!items.any (·.status = .blocked) && decide (batch.status = .blocked)) = false :=
        resumed
      simp [any]

/-- `transitionToAwaitingManualTest` captures a candidate once every item is merged. -/
theorem transitionToAwaitingManualTest_eq_ok {batch next : ReleaseBatch}
    {candidateSha : String} {candidateTreeSha : Option String} {promotionPrNumber : Option Int}
    : transitionToAwaitingManualTest batch candidateSha candidateTreeSha promotionPrNumber
        = .ok next
      ↔ (batch.status = .building ∨ batch.status = .testFailed)
        ∧ isBlank candidateSha = false ∧ batch.allMerged = true
        ∧ (∀ number, promotionPrNumber = some number → 0 < number)
        ∧ { batch with
            status := .awaitingManualTest
            blockedReason := none
            approvedCandidateSha := none
            promotionCommitSha := none
            candidateSha := some candidateSha
            candidateTreeSha := candidateTreeSha <|> batch.candidateTreeSha
            promotionPrNumber := promotionPrNumber <|> batch.promotionPrNumber }
          = next := by
  have positive : promotionPrNumber.any (· ≤ 0) = false
      ↔ ∀ number, promotionPrNumber = some number → 0 < number := by
    cases promotionPrNumber <;> simp
  simp only [transitionToAwaitingManualTest, ReleaseBatch.allMerged, checked_bind_eq_ok,
    assertNotTerminal_eq_ok, throwIf_eq_ok, throwIfUnmerged_eq_ok, checked_pure_eq_ok,
    isTerminal_eq_false_iff, positive, exists_const, List.all_eq_true]
  grind

theorem recordPromotionPr_eq_ok {batch next : ReleaseBatch} {prNumber : Int}
    : recordPromotionPr batch prNumber = .ok next
      ↔ batch.status.isTerminal = false ∧ 0 < prNumber
        ∧ { batch with promotionPrNumber := some prNumber } = next := by
  simp [recordPromotionPr, -bind_pure_comp]
  intro _ _
  by_cases same : batch.promotionPrNumber = some prNumber
  · have kept : { batch with promotionPrNumber := some prNumber } = batch := by rw [← same]
    simp [same, kept]
  · simp [same]

/-- `approveBatchCandidate` accepts exactly the candidate that awaits its test. -/
theorem approveBatchCandidate_eq_ok {batch next : ReleaseBatch} {approvedCandidateSha : String}
    : approveBatchCandidate batch approvedCandidateSha = .ok next
      ↔ batch.status = .awaitingManualTest ∧ isSet batch.candidateSha = true
        ∧ batch.candidateSha = some approvedCandidateSha
        ∧ { batch with
            status := .approved
            approvedCandidateSha := some approvedCandidateSha }
          = next := by
  simp [approveBatchCandidate, isTerminal_eq_false_iff, -bind_pure_comp]
  grind

theorem rejectBatchCandidate_eq_ok {batch next : ReleaseBatch} {arguments : RejectArguments}
    : rejectBatchCandidate batch arguments = .ok next
      ↔ batch.status = .awaitingManualTest
        ∧ (∀ sha, (arguments.resolve batch).1 = some sha → isSet batch.candidateSha = true →
            batch.candidateSha = some sha)
        ∧ { batch with
            status := .testFailed
            blockedReason := (arguments.resolve batch).2 <|> batch.blockedReason }
          = next := by
  simp only [rejectBatchCandidate, checked_bind_eq_ok, assertNotTerminal_eq_ok, throwIf_eq_ok,
    checked_pure_eq_ok, isTerminal_eq_false_iff, exists_const]
  cases (arguments.resolve batch).1 <;> grind

/-- The remediation loop accepts positive issues that are new to the batch and distinct, by
induction over the remaining issues.
-/
theorem checkRemediationIssues_eq_ok {batch : ReleaseBatch} {newIssues issueNumbers : List Int}
    {result : Unit}
    : checkRemediationIssues batch newIssues issueNumbers = .ok result
      ↔ (∀ num ∈ issueNumbers,
          0 < num ∧ num ∉ batch.items.map (·.issueNumber) ∧ num ∉ newIssues)
        ∧ issueNumbers.Nodup := by
  induction issueNumbers generalizing newIssues with
  | nil => simp [checkRemediationIssues]
  | cons num rest ih =>
      simp only [checkRemediationIssues, checked_bind_eq_ok, throwIf_eq_ok, exists_const, ih,
        decide_eq_false_iff_not, not_le, List.nodup_cons, List.mem_cons]
      grind

/-- `appendRemediationItems` reopens a rejected batch with new pending items at its end. -/
theorem appendRemediationItems_eq_ok {batch next : ReleaseBatch} {issueNumbers : List Int}
    : appendRemediationItems batch issueNumbers = .ok next
      ↔ batch.status = .testFailed ∧ issueNumbers ≠ []
        ∧ (∀ num ∈ issueNumbers, 0 < num ∧ num ∉ batch.items.map (·.issueNumber))
        ∧ issueNumbers.Nodup
        ∧ { batch with
            status := .building
            candidateSha := none
            approvedCandidateSha := none
            candidateTreeSha := none
            promotionCommitSha := none
            blockedReason := none
            currentPosition :=
              (((batch.items ++ remediationItems batch issueNumbers).find?
                (!·.isMerged)).map (·.position)).getD batch.currentPosition
            items := batch.items ++ remediationItems batch issueNumbers }
          = next := by
  simp only [appendRemediationItems, checked_bind_eq_ok, assertNotTerminal_eq_ok,
    throwIf_eq_ok, checked_pure_eq_ok, checkRemediationIssues_eq_ok, isTerminal_eq_false_iff,
    exists_const, List.isEmpty_eq_false_iff, List.not_mem_nil, not_false_eq_true, and_true]
  grind

theorem attachPromotionPr_eq_ok {batch next : ReleaseBatch} {prNumber : Int}
    : attachPromotionPr batch prNumber = .ok next
      ↔ (batch.status = .approved ∨ batch.status = .promoting) ∧ 0 < prNumber
        ∧ { batch with status := .promoting, promotionPrNumber := some prNumber } = next := by
  simp [attachPromotionPr, isTerminal_eq_false_iff, -bind_pure_comp]
  grind

theorem recordPromotionCommit_eq_ok {batch next : ReleaseBatch} {promotionCommitSha : String}
    : recordPromotionCommit batch promotionCommitSha = .ok next
      ↔ batch.status.isTerminal = false ∧ isBlank promotionCommitSha = false
        ∧ { batch with promotionCommitSha := some promotionCommitSha } = next := by
  simp [recordPromotionCommit, -bind_pure_comp]

theorem ReleaseBatch.approvalMatches_iff {batch : ReleaseBatch}
    : batch.approvalMatches = true
      ↔ ∃ sha, sha ≠ "" ∧ batch.approvedCandidateSha = some sha
        ∧ batch.candidateSha = some sha := by
  simp only [approvalMatches, Bool.and_eq_true, isSet_iff, decide_eq_true_eq]
  grind

theorem promoteBatch_eq_ok {batch next : ReleaseBatch}
    : promoteBatch batch = .ok next
      ↔ batch.status = .approved ∧ batch.approvalMatches = true
        ∧ { batch with status := .promoting } = next := by
  simp [promoteBatch, isTerminal_eq_false_iff, -bind_pure_comp]
  grind

/-- `completeBatch` needs a promotion under way and an approval of the captured candidate. -/
theorem completeBatch_eq_ok {batch next : ReleaseBatch} {now : Option Date} {clock : Date}
    : completeBatch batch now clock = .ok next
      ↔ (batch.status = .promoting ∨ batch.status = .approved)
        ∧ batch.approvalMatches = true
        ∧ { batch with status := .completed, completedAt := some (now.getD clock) } = next := by
  simp [completeBatch, isTerminal_eq_false_iff, -bind_pure_comp]
  grind

theorem cancelBatch_eq_ok {batch next : ReleaseBatch} {reason : Option String}
    {now : Option Date} {clock : Date}
    : cancelBatch batch reason now clock = .ok next
      ↔ batch.status ≠ .completed
        ∧ (batch.status = .cancelled ∧ batch = next
          ∨ batch.status ≠ .cancelled
            ∧ { batch with
                status := .cancelled
                completedAt := some (now.getD clock)
                blockedReason := reason <|> batch.blockedReason }
              = next) := by
  simp [cancelBatch, -bind_pure_comp]

end AiSdlc.Domain
