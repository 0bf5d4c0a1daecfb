import Mathlib.Data.List.Pairwise
import AiSdlc.Domain.ReleaseBatchSteps

/-! Runs of release-batch operations, and what every run keeps well formed.
A batch starts from `createReleaseBatch`, and each step is one successful operation.
-/

namespace AiSdlc.Domain

open AiSdlc.Js
open AiSdlc.Transition

/-- A release-batch operation with its arguments and, where it reads one, the clock. -/
inductive BatchOp
  | admitItem (position : Int) (input : AdmitItemInput) (clock : Date)
  | assignItemRun (position : Int) (runUuid : String)
  | markItemWaitingMerge (position prNumber : Int)
  | attachItemPr (position prNumber : Int)
  | markItemMerged (position : Int) (mergedCommitSha : String) (now : Option Date)
      (clock : Date)
  | markItemBlocked (position : Int) (reason : String)
  | markBatchBlocked (reason : String)
  | unblockBatch
  | unblockItem (position : Int)
  | transitionToAwaitingManualTest (candidateSha : String) (candidateTreeSha : Option String)
      (promotionPrNumber : Option Int)
  | recordPromotionPr (prNumber : Int)
  | approveBatchCandidate (approvedCandidateSha : String)
  | rejectBatchCandidate (arguments : RejectArguments)
  | appendRemediationItems (issueNumbers : List Int)
  | attachPromotionPr (prNumber : Int)
  | recordPromotionCommit (promotionCommitSha : String)
  | promoteBatch
  | completeBatch (now : Option Date) (clock : Date)
  | cancelBatch (reason : Option String) (now : Option Date) (clock : Date)
  deriving DecidableEq, Repr

def BatchOp.apply (batch : ReleaseBatch) : BatchOp → Checked ReleaseBatch
  | .admitItem position input clock => Domain.admitItem batch position input clock
  | .assignItemRun position runUuid => Domain.assignItemRun batch position runUuid
  | .markItemWaitingMerge position prNumber =>
      Domain.markItemWaitingMerge batch position prNumber
  | .attachItemPr position prNumber => Domain.attachItemPr batch position prNumber
  | .markItemMerged position mergedCommitSha now clock =>
      Domain.markItemMerged batch position mergedCommitSha now clock
  | .markItemBlocked position reason => Domain.markItemBlocked batch position reason
  | .markBatchBlocked reason => Domain.markBatchBlocked batch reason
  | .unblockBatch => Domain.unblockBatch batch
  | .unblockItem position => Domain.unblockItem batch position
  | .transitionToAwaitingManualTest candidateSha candidateTreeSha promotionPrNumber =>
      Domain.transitionToAwaitingManualTest batch candidateSha candidateTreeSha promotionPrNumber
  | .recordPromotionPr prNumber => Domain.recordPromotionPr batch prNumber
  | .approveBatchCandidate approvedCandidateSha =>
      Domain.approveBatchCandidate batch approvedCandidateSha
  | .rejectBatchCandidate arguments => Domain.rejectBatchCandidate batch arguments
  | .appendRemediationItems issueNumbers => Domain.appendRemediationItems batch issueNumbers
  | .attachPromotionPr prNumber => Domain.attachPromotionPr batch prNumber
  | .recordPromotionCommit promotionCommitSha =>
      Domain.recordPromotionCommit batch promotionCommitSha
  | .promoteBatch => Domain.promoteBatch batch
  | .completeBatch now clock => Domain.completeBatch batch now clock
  | .cancelBatch reason now clock => Domain.cancelBatch batch reason now clock

/-- The batches that `createReleaseBatch` makes of the admitted inputs, and the successful
operations on them.
-/
def batchSystem (admitted : CreateReleaseBatchInput → Prop) : System ReleaseBatch BatchOp :=
  {
    initial := fun batch => ∃ input, admitted input ∧ createReleaseBatch input = .ok batch
    step := fun batch op next => op.apply batch = .ok next
  }

/-- Applies the operations one after the other while each meets the condition and succeeds. -/
def applyWhile (condition : ReleaseBatch → BatchOp → Prop)
    [∀ batch op, Decidable (condition batch op)] (batch : ReleaseBatch)
    : List BatchOp → Option ReleaseBatch
  | [] => some batch
  | op :: rest =>
      if condition batch op then
        (op.apply batch).toOption.bind (applyWhile condition · rest)
      else
        none

/-- Applied operations extend a run, by induction over the operations. -/
theorem run_of_applyWhile {admitted : CreateReleaseBatchInput → Prop}
    {condition : ReleaseBatch → BatchOp → Prop} [∀ batch op, Decidable (condition batch op)]
    {earlier ops : List BatchOp} {batch final : ReleaseBatch}
    (run : ((batchSystem admitted).restrict condition).Run earlier batch)
    (applied : applyWhile condition batch ops = some final)
    : ((batchSystem admitted).restrict condition).Run (ops.reverse ++ earlier) final := by
  induction ops generalizing batch earlier with
  | nil => simpa [applyWhile, ← Option.some.inj applied] using run
  | cons op rest ih =>
      simp only [applyWhile] at applied
      split at applied
      · rename_i met
        cases result : op.apply batch with
        | error error => simp [result, Except.toOption] at applied
        | ok next =>
            simp only [result, Except.toOption, Option.bind_some] at applied
            simpa using ih (.next run ⟨met, result⟩) applied
      · contradiction

theorem run_of_created {input : CreateReleaseBatchInput} {batch final : ReleaseBatch}
    {ops : List BatchOp} (created : createReleaseBatch input = .ok batch)
    (applied : applyWhile (fun _ _ => True) batch ops = some final)
    : (batchSystem fun _ => True).Run ops.reverse final := by
  have start : ((batchSystem fun _ => True).restrict fun _ _ => True).Run [] batch :=
    .start ⟨input, trivial, created⟩
  simpa using (run_of_applyWhile start applied).of_restrict

/-- The items are given by their position and issue alone. -/
def CreateReleaseBatchInput.PositionsAndIssuesOnly (input : CreateReleaseBatchInput) : Prop :=
  ∀ item ∈ input.items, item = { position := item.position, issueNumber := item.issueNumber }

/-- All items are created with their default status, `pending`. -/
def CreateReleaseBatchInput.DefaultItemStatuses (input : CreateReleaseBatchInput) : Prop :=
  ∀ item ∈ input.items, item.status = none

/-- The batch and all its items are created with their default statuses. -/
def CreateReleaseBatchInput.DefaultStatuses (input : CreateReleaseBatchInput) : Prop :=
  input.status = none ∧ input.DefaultItemStatuses

/-- An item that was admitted and not blocked since: its predecessors should be merged. -/
def ReleaseBatchItem.underway (item : ReleaseBatchItem) : Bool :=
  item.inFlight || item.isMerged

/-- What an operation makes of the one item that it changes, and what it has checked of it. -/
inductive ItemChange (batch : ReleaseBatch)
    : BatchOp → ReleaseBatchItem → ReleaseBatchItem → Prop
  | admitted {item : ReleaseBatchItem} {input : AdmitItemInput} {clock : Date}
      (unmerged : item.isMerged = false) (prior : batch.PriorMerged item.position)
      (admissible : batch.RunAdmissible item.position item input.runUuid)
      : ItemChange batch (.admitItem item.position input clock) item
          { item with
            status := .active
            startedAt := some (item.startedAt.getD (input.now.getD clock))
            runUuid := input.runUuid <|> item.runUuid
            baseSha := input.baseSha <|> item.baseSha
            blockedReason := none }
  | runAssigned {item : ReleaseBatchItem} {runUuid : String} (fresh : item.runUuid = none)
      (free : batch.RunUnattached item.position runUuid)
      : ItemChange batch (.assignItemRun item.position runUuid) item
          { item with runUuid := some runUuid }
  | waitsForMerge {item : ReleaseBatchItem} {prNumber : Int} (active : item.status = .active)
      : ItemChange batch (.markItemWaitingMerge item.position prNumber) item
          { item with status := .waitingMerge, prNumber := some prNumber }
  | prAttached {item : ReleaseBatchItem} {prNumber : Int}
      (other : item.prNumber ≠ some prNumber)
      : ItemChange batch (.attachItemPr item.position prNumber) item
          { item with prNumber := some prNumber }
  | merged {item : ReleaseBatchItem} {mergedCommitSha : String} {now : Option Date}
      {clock : Date} (inFlight : item.inFlight = true)
      : ItemChange batch (.markItemMerged item.position mergedCommitSha now clock) item
          { item with
            status := .merged
            mergedCommitSha := some mergedCommitSha
            completedAt := some (now.getD clock) }
  | blocked {item : ReleaseBatchItem} {reason : String} (unmerged : item.isMerged = false)
      : ItemChange batch (.markItemBlocked item.position reason) item
          { item with status := .blocked, blockedReason := some reason }
  | unblocked {item : ReleaseBatchItem} (blocked : item.status = .blocked)
      : ItemChange batch (.unblockItem item.position) item
          { item with status := .active, blockedReason := none }

/-- What an operation does to the items: nothing, change one of them in place, or append the
remediation items.
-/
inductive ItemsChange (batch : ReleaseBatch) (op : BatchOp) : List ReleaseBatchItem → Prop
  | unchanged : ItemsChange batch op batch.items
  | one {index : Nat} {item next : ReleaseBatchItem}
      (found : batch.items[index]? = some item) (change : ItemChange batch op item next)
      : ItemsChange batch op (batch.items.set index next)
  | appended {issueNumbers : List Int} (remediation : op = .appendRemediationItems issueNumbers)
      (fresh : ∀ num ∈ issueNumbers, num ∉ batch.items.map (·.issueNumber))
      (distinct : issueNumbers.Nodup)
      : ItemsChange batch op (batch.items ++ remediationItems batch issueNumbers)

/-- Every successful operation changes the items so, by its inversion lemma. -/
theorem BatchOp.items_change {op : BatchOp} {batch next : ReleaseBatch}
    (applied : op.apply batch = .ok next)
    : ItemsChange batch op next.items := by
  cases op with
  | admitItem position input clock =>
      obtain ⟨_, index, item, located, unmerged, _, prior, admissible, rfl⟩ :=
        admitItem_eq_ok.mp applied
      obtain rfl := located.position_eq
      exact .one located.2 (.admitted unmerged prior admissible)
  | assignItemRun position runUuid =>
      obtain ⟨_, _, index, item, located, ⟨_, rfl⟩ | ⟨fresh, free, rfl⟩⟩ :=
        assignItemRun_eq_ok.mp applied
      · exact .unchanged
      · obtain rfl := located.position_eq
        exact .one located.2 (.runAssigned fresh free)
  | markItemWaitingMerge position prNumber =>
      obtain ⟨_, _, index, item, located, _, ⟨_, _, rfl⟩ | ⟨active, rfl⟩⟩ :=
        markItemWaitingMerge_eq_ok.mp applied
      · exact .unchanged
      · obtain rfl := located.position_eq
        exact .one located.2 (.waitsForMerge active)
  | attachItemPr position prNumber =>
      obtain ⟨_, _, index, item, located, ⟨_, rfl⟩ | ⟨other, rfl⟩⟩ :=
        attachItemPr_eq_ok.mp applied
      · exact .unchanged
      · obtain rfl := located.position_eq
        exact .one located.2 (.prAttached other)
  | markItemMerged position mergedCommitSha now clock =>
      obtain ⟨_, _, index, item, located, inFlight, rfl⟩ := markItemMerged_eq_ok.mp applied
      obtain rfl := located.position_eq
      exact .one located.2 (.merged inFlight)
  | markItemBlocked position reason =>
      obtain ⟨_, index, item, located, unmerged, rfl⟩ := markItemBlocked_eq_ok.mp applied
      obtain rfl := located.position_eq
      exact .one located.2 (.blocked unmerged)
  | unblockItem position =>
      obtain ⟨_, index, item, _, located, rfl, ⟨_, rfl⟩ | ⟨blocked, rfl⟩⟩ :=
        unblockItem_eq_ok.mp applied
      · exact .unchanged
      · obtain rfl := located.position_eq
        exact .one located.2 (.unblocked blocked)
  | appendRemediationItems issueNumbers =>
      obtain ⟨_, _, fresh, distinct, rfl⟩ := appendRemediationItems_eq_ok.mp applied
      exact .appended rfl (fun num member => (fresh num member).2) distinct
  | markBatchBlocked reason =>
      obtain ⟨_, rfl⟩ := markBatchBlocked_eq_ok.mp applied
      exact .unchanged
  | unblockBatch =>
      obtain ⟨_, ⟨_, rfl⟩ | ⟨_, rfl⟩⟩ := unblockBatch_eq_ok.mp applied <;> exact .unchanged
  | transitionToAwaitingManualTest candidateSha candidateTreeSha promotionPrNumber =>
      obtain ⟨_, _, _, _, rfl⟩ := transitionToAwaitingManualTest_eq_ok.mp applied
      exact .unchanged
  | recordPromotionPr prNumber =>
      obtain ⟨_, _, rfl⟩ := recordPromotionPr_eq_ok.mp applied
      exact .unchanged
  | approveBatchCandidate approvedCandidateSha =>
      obtain ⟨_, _, _, rfl⟩ := approveBatchCandidate_eq_ok.mp applied
      exact .unchanged
  | rejectBatchCandidate arguments =>
      obtain ⟨_, _, rfl⟩ := rejectBatchCandidate_eq_ok.mp applied
      exact .unchanged
  | attachPromotionPr prNumber =>
      obtain ⟨_, _, rfl⟩ := attachPromotionPr_eq_ok.mp applied
      exact .unchanged
  | recordPromotionCommit promotionCommitSha =>
      obtain ⟨_, _, rfl⟩ := recordPromotionCommit_eq_ok.mp applied
      exact .unchanged
  | promoteBatch =>
      obtain ⟨_, _, rfl⟩ := promoteBatch_eq_ok.mp applied
      exact .unchanged
  | completeBatch now clock =>
      obtain ⟨_, _, rfl⟩ := completeBatch_eq_ok.mp applied
      exact .unchanged
  | cancelBatch reason now clock =>
      obtain ⟨_, ⟨_, rfl⟩ | ⟨_, rfl⟩⟩ := cancelBatch_eq_ok.mp applied <;> exact .unchanged

/-- What a step may do to the items: nothing, update one of them in place, or append pending
ones. An update keeps the identity of its item, keeps it merged, and starts it only after
its predecessors, unless it unblocks it.
-/
inductive ItemsStep (batch : ReleaseBatch) (op : BatchOp) : List ReleaseBatchItem → Prop
  | unchanged : ItemsStep batch op batch.items
  | updated {index : Nat} {item next : ReleaseBatchItem}
      (found : batch.items[index]? = some item)
      (identity : next.releaseBatchId = item.releaseBatchId ∧ next.position = item.position
        ∧ next.issueNumber = item.issueNumber)
      (run : next.runUuid = item.runUuid
        ∨ item.runUuid = none
          ∧ ∃ uuid, next.runUuid = some uuid ∧ batch.RunUnattached item.position uuid)
      (merged : item.isMerged = true → next.isMerged = true)
      (started : next.underway = true → item.underway = true
        ∨ batch.PriorMerged item.position
        ∨ op = .unblockItem item.position ∧ item.status = .blocked)
      : ItemsStep batch op (batch.items.set index next)
  | appended {issueNumbers : List Int} (remediation : op = .appendRemediationItems issueNumbers)
      (fresh : ∀ num ∈ issueNumbers, num ∉ batch.items.map (·.issueNumber))
      (distinct : issueNumbers.Nodup)
      : ItemsStep batch op (batch.items ++ remediationItems batch issueNumbers)

/-- Every change of one item is such an update, by cases on the change. -/
theorem ItemChange.items_step {batch : ReleaseBatch} {op : BatchOp} {index : Nat}
    {item next : ReleaseBatchItem} (found : batch.items[index]? = some item)
    (change : ItemChange batch op item next)
    : ItemsStep batch op (batch.items.set index next) := by
  cases change with
  | @admitted _ input _ unmerged prior admissible =>
      refine .updated found ⟨rfl, rfl, rfl⟩ ?_ (by simp [unmerged]) fun _ => .inr (.inl prior)
      cases named : input.runUuid with
      | none => simp
      | some uuid =>
          obtain ⟨fresh | own, free⟩ := admissible uuid named
          · exact .inr ⟨fresh, uuid, by simp, free⟩
          · exact .inl (by simp [own])
  | @runAssigned _ runUuid fresh free =>
      exact .updated found ⟨rfl, rfl, rfl⟩ (.inr ⟨fresh, runUuid, rfl, free⟩) id .inl
  | waitsForMerge active =>
      exact .updated found ⟨rfl, rfl, rfl⟩ (.inl rfl)
        (by simp [ReleaseBatchItem.isMerged, active])
        fun _ => .inl (by simp [ReleaseBatchItem.underway, ReleaseBatchItem.inFlight, active])
  | prAttached => exact .updated found ⟨rfl, rfl, rfl⟩ (.inl rfl) id .inl
  | merged inFlight =>
      exact .updated found ⟨rfl, rfl, rfl⟩ (.inl rfl) (fun _ => rfl)
        fun _ => .inl (by simp [ReleaseBatchItem.underway, inFlight])
  | blocked unmerged =>
      exact .updated found ⟨rfl, rfl, rfl⟩ (.inl rfl) (by simp [unmerged])
        (by simp [ReleaseBatchItem.underway, ReleaseBatchItem.inFlight,
          ReleaseBatchItem.isMerged])
  | unblocked blocked =>
      exact .updated found ⟨rfl, rfl, rfl⟩ (.inl rfl)
        (by simp [ReleaseBatchItem.isMerged, blocked]) fun _ => .inr (.inr ⟨rfl, blocked⟩)

theorem BatchOp.items_step {op : BatchOp} {batch next : ReleaseBatch}
    (applied : op.apply batch = .ok next)
    : ItemsStep batch op next.items := by
  have changed := items_change applied
  generalize next.items = items at changed
  cases changed with
  | unchanged => exact .unchanged
  | one found change => exact change.items_step found
  | appended remediation fresh distinct => exact .appended remediation fresh distinct

/-- What identifies a batch: the fields that its creation fixes. -/
structure BatchIdentity where
  id : ReleaseBatchId
  repoId : RepositoryId
  sourceBranch : String
  sourceStartSha : String
  releaseBranch : String
  createdAt : Date
  deriving DecidableEq, Repr

def ReleaseBatch.identity (batch : ReleaseBatch) : BatchIdentity :=
  {
    id := batch.id
    repoId := batch.repoId
    sourceBranch := batch.sourceBranch
    sourceStartSha := batch.sourceStartSha
    releaseBranch := batch.releaseBranch
    createdAt := batch.createdAt
  }

theorem BatchOp.identity_eq {op : BatchOp} {batch next : ReleaseBatch}
    (applied : op.apply batch = .ok next)
    : next.identity = batch.identity := by
  cases op <;>
    simp only [BatchOp.apply, admitItem_eq_ok, assignItemRun_eq_ok, markItemWaitingMerge_eq_ok,
      attachItemPr_eq_ok, markItemMerged_eq_ok, markItemBlocked_eq_ok, markBatchBlocked_eq_ok,
      unblockBatch_eq_ok, unblockItem_eq_ok, transitionToAwaitingManualTest_eq_ok,
      recordPromotionPr_eq_ok, approveBatchCandidate_eq_ok, rejectBatchCandidate_eq_ok,
      appendRemediationItems_eq_ok, attachPromotionPr_eq_ok, recordPromotionCommit_eq_ok,
      promoteBatch_eq_ok, completeBatch_eq_ok, cancelBatch_eq_ok] at applied <;>
    grind [ReleaseBatch.identity]

/-- What `createReleaseBatch` checks of the items and every operation keeps: they are its
own, at the positions 1, 2, …, with distinct issues and distinct runs.
-/
structure ReleaseBatch.WellFormed (batch : ReleaseBatch) : Prop where
  nonempty : batch.items ≠ []
  owned : ∀ item ∈ batch.items, item.releaseBatchId = batch.id
  numbered : ∀ (index : Nat) item,
    batch.items[index]? = some item → item.position = (index : Int) + 1
  issues : ∀ first ∈ batch.items, ∀ second ∈ batch.items,
    first.issueNumber = second.issueNumber → first.position = second.position
  runs : ∀ first ∈ batch.items, ∀ second ∈ batch.items, ∀ uuid,
    first.runUuid = some uuid → second.runUuid = some uuid → first.position = second.position

theorem ReleaseBatch.WellFormed.item_unique {batch : ReleaseBatch} (wellFormed : batch.WellFormed)
    {first second : ReleaseBatchItem} (hf : first ∈ batch.items) (hs : second ∈ batch.items)
    (same : first.position = second.position)
    : first = second := by
  obtain ⟨i, hi⟩ := List.mem_iff_getElem?.mp hf
  obtain ⟨j, hj⟩ := List.mem_iff_getElem?.mp hs
  have first_ := wellFormed.numbered i first hi
  have second_ := wellFormed.numbered j second hj
  have indices : i = j := by omega
  subst indices
  exact Option.some.inj (hi.symm.trans hj)

theorem ReleaseBatch.WellFormed.ordered {batch : ReleaseBatch} (wellFormed : batch.WellFormed)
    : batch.items.Pairwise (fun first second => first.position < second.position) := by
  refine List.pairwise_iff_getElem.mpr fun i j bi bj before => ?_
  rw [wellFormed.numbered i _ (List.getElem?_eq_getElem bi),
    wellFormed.numbered j _ (List.getElem?_eq_getElem bj)]
  omega

theorem ReleaseBatch.WellFormed.position_le {batch : ReleaseBatch}
    (wellFormed : batch.WellFormed) {item : ReleaseBatchItem} (member : item ∈ batch.items)
    : item.position ≤ batch.items.length := by
  obtain ⟨index, found⟩ := List.mem_iff_getElem?.mp member
  have bound := (List.getElem?_eq_some_iff.mp found).1
  rw [wellFormed.numbered index item found]
  omega

theorem checkNewRunUuid_ok {batchId : ReleaseBatchId} {seenRunUuids seen : List String}
    {runUuid : Option String} (checked : checkNewRunUuid batchId seenRunUuids runUuid = .ok seen)
    : (∀ uuid, runUuid = some uuid → uuid ∉ seenRunUuids ∧ uuid ∈ seen)
      ∧ ∀ uuid ∈ seenRunUuids, uuid ∈ seen := by
  cases runUuid with
  | none =>
      simp only [checkNewRunUuid, checked_pure_eq_ok] at checked
      simp [checked]
  | some uuid =>
      simp only [checkNewRunUuid, checked_bind_eq_ok, throwIf_eq_ok, exists_const,
        checked_pure_eq_ok, decide_eq_false_iff_not] at checked
      obtain ⟨_, fresh, rfl⟩ := checked
      exact ⟨fun other same => by simp_all, fun other member => List.mem_cons_of_mem _ member⟩

/-- The item loop accepts items at the positions from `index + 1` on, with new and distinct
issues and runs, by induction over the items.
-/
theorem checkItems_ok {batchId : ReleaseBatchId} {index : Nat}
    {seenPositions seenIssues : List Int} {seenRunUuids : List String}
    {items : List CreateReleaseBatchItemInput}
    (checked : checkItems batchId index seenPositions seenIssues seenRunUuids items = .ok ())
    : (∀ (i : Nat) item, items[i]? = some item → item.position = (index : Int) + i + 1)
      ∧ (∀ item ∈ items, item.issueNumber ∉ seenIssues)
      ∧ items.Pairwise (fun a b => a.issueNumber ≠ b.issueNumber)
      ∧ (∀ item ∈ items, ∀ uuid, item.runUuid = some uuid → uuid ∉ seenRunUuids)
      ∧ items.Pairwise (fun a b => ∀ uuid, a.runUuid = some uuid → b.runUuid ≠ some uuid) := by
  induction items generalizing index seenPositions seenIssues seenRunUuids with
  | nil => simp
  | cons item rest ih =>
      simp only [checkItems, checked_bind_eq_ok, throwIf_eq_ok, exists_const,
        decide_eq_false_iff_not, ne_eq, not_not] at checked
      obtain ⟨_, _, position, _, newIssue, seen, newRun, checked⟩ := checked
      obtain ⟨fresh, kept⟩ := checkNewRunUuid_ok newRun
      obtain ⟨numbered, issuesNew, issues, runsNew, runs⟩ := ih checked
      refine ⟨?_, ?_, ?_, ?_, ?_⟩
      · intro i other found
        cases i with
        | zero =>
            simp only [List.getElem?_cons_zero, Option.some.injEq] at found
            simpa [← found] using position
        | succ i =>
            have shifted := numbered i other (by simpa using found)
            push_cast at shifted ⊢
            omega
      · intro other member
        rcases List.mem_cons.mp member with rfl | member
        · exact newIssue
        · exact fun old => issuesNew other member (List.mem_cons_of_mem _ old)
      · refine List.pairwise_cons.mpr ⟨fun other member same => ?_, issues⟩
        exact issuesNew other member (by simp [same])
      · intro other member uuid named
        rcases List.mem_cons.mp member with rfl | member
        · exact (fresh uuid named).1
        · exact fun old => runsNew other member uuid named (kept uuid old)
      · refine List.pairwise_cons.mpr ⟨fun other member uuid named again => ?_, runs⟩
        exact runsNew other member uuid again (fresh uuid named).2

/-- What a successful creation returns and what it checked. -/
theorem createReleaseBatch_ok {input : CreateReleaseBatchInput} {batch : ReleaseBatch}
    (created : createReleaseBatch input = .ok batch)
    : ∃ sorted, sorted.Perm input.items ∧ sorted ≠ []
        ∧ checkItems input.id 0 [] [] [] sorted = .ok ()
        ∧ (input.candidateSha.isSome = true → batch.allMerged = true)
        ∧ (∀ sha, input.approvedCandidateSha = some sha → input.candidateSha = some sha)
        ∧ batch = {
            id := input.id
            repoId := input.repoId
            sourceBranch := input.sourceBranch
            sourceStartSha := input.sourceStartSha
            releaseBranch := input.releaseBranch
            status := input.status.getD .queued
            currentPosition := input.currentPosition.getD 1
            candidateSha := input.candidateSha
            approvedCandidateSha := input.approvedCandidateSha
            candidateTreeSha := input.candidateTreeSha
            promotionCommitSha := input.promotionCommitSha
            promotionPrNumber := input.promotionPrNumber
            blockedReason := input.blockedReason
            createdAt := input.createdAt
            completedAt := input.completedAt
            items := sorted.map (createItem input.id) } := by
  simp only [createReleaseBatch, checked_bind_eq_ok, throwIf_eq_ok, exists_const,
    checked_ite_eq_ok, throwIfUnmerged_eq_ok, checked_pure_eq_ok] at created
  have sorted_nonempty (nonempty : input.items.isEmpty = false)
      : input.items.insertionSort (fun a b => a.position ≤ b.position) ≠ [] := by
    intro empty
    have count := List.length_insertionSort (fun a b => a.position ≤ b.position) input.items
    rw [empty, List.length_nil, eq_comm, List.length_eq_zero_iff] at count
    simp [count] at nonempty
  obtain ⟨nonempty, _, checked, ⟨_, merged, approval, _, _, rfl⟩
    | ⟨missing, approval, _, _, rfl⟩⟩ := created
  · refine ⟨_, List.perm_insertionSort _ _, sorted_nonempty nonempty, checked, ?_, ?_, rfl⟩
    · exact fun _ => List.all_eq_true.mpr merged
    · grind
  · refine ⟨_, List.perm_insertionSort _ _, sorted_nonempty nonempty, checked, ?_, ?_, rfl⟩
    · exact fun captured => (missing captured).elim
    · grind

theorem createReleaseBatch_wellFormed {input : CreateReleaseBatchInput} {batch : ReleaseBatch}
    (created : createReleaseBatch input = .ok batch)
    : batch.WellFormed := by
  obtain ⟨sorted, _, nonempty, checked, _, _, rfl⟩ := createReleaseBatch_ok created
  obtain ⟨numbered, _, issues, _, runs⟩ := checkItems_ok checked
  constructor
  · simpa using nonempty
  · simp [createItem]
  · intro index item found
    simp only [List.getElem?_map, Option.map_eq_some_iff] at found
    obtain ⟨source, found, rfl⟩ := found
    simpa [createItem] using numbered index source found
  · simp only [List.mem_map, createItem]
    rintro _ ⟨first, hf, rfl⟩ _ ⟨second, hs, rfl⟩ same
    by_contra apart
    have symmetric : Std.Symm (fun a b : CreateReleaseBatchItemInput =>
        a.issueNumber ≠ b.issueNumber) := ⟨fun _ _ differ => differ.symm⟩
    exact issues.forall hf hs (by grind) same
  · simp only [List.mem_map, createItem]
    rintro _ ⟨first, hf, rfl⟩ _ ⟨second, hs, rfl⟩ uuid one two
    by_contra apart
    have symmetric : Std.Symm (fun a b : CreateReleaseBatchItemInput =>
        ∀ uuid, a.runUuid = some uuid → b.runUuid ≠ some uuid) :=
      ⟨fun _ _ differ uuid named other => differ uuid other named⟩
    exact runs.forall hf hs (by grind) uuid one two

/-- The remediation items have the next positions and the given issues, and no run yet. -/
theorem remediationItems_getElem? {batch : ReleaseBatch} {issueNumbers : List Int} {offset : Nat}
    {item : ReleaseBatchItem} (found : (remediationItems batch issueNumbers)[offset]? = some item)
    : issueNumbers[offset]? = some item.issueNumber
      ∧ item = {
          releaseBatchId := batch.id
          position := batch.items.length + 1 + offset
          issueNumber := item.issueNumber
          status := .pending } := by
  simp only [remediationItems, List.getElem?_mapIdx, Option.map_eq_some_iff] at found
  obtain ⟨issueNum, source, rfl⟩ := found
  exact ⟨source, rfl⟩

theorem mem_remediationItems {batch : ReleaseBatch} {issueNumbers : List Int}
    {item : ReleaseBatchItem} (member : item ∈ remediationItems batch issueNumbers)
    : item.releaseBatchId = batch.id ∧ item.issueNumber ∈ issueNumbers
      ∧ item.status = .pending ∧ item.runUuid = none ∧ batch.items.length < item.position := by
  obtain ⟨offset, found⟩ := List.mem_iff_getElem?.mp member
  obtain ⟨source, shape⟩ := remediationItems_getElem? found
  rw [shape]
  exact ⟨rfl, List.mem_of_getElem? source, rfl, rfl, by simp; omega⟩

theorem remediationItems_position_eq {batch : ReleaseBatch} {issueNumbers : List Int}
    (distinct : issueNumbers.Nodup) {first second : ReleaseBatchItem}
    (hf : first ∈ remediationItems batch issueNumbers)
    (hs : second ∈ remediationItems batch issueNumbers)
    (same : first.issueNumber = second.issueNumber)
    : first.position = second.position := by
  obtain ⟨i, foundFirst⟩ := List.mem_iff_getElem?.mp hf
  obtain ⟨j, foundSecond⟩ := List.mem_iff_getElem?.mp hs
  obtain ⟨hi, first_⟩ := remediationItems_getElem? foundFirst
  obtain ⟨hj, second_⟩ := remediationItems_getElem? foundSecond
  have indices : i = j :=
    (List.getElem?_inj (List.getElem?_eq_some_iff.mp hi).1 distinct).mp (by rw [hi, hj, same])
  rw [first_, second_, indices]

/-- An item step keeps a batch well formed, by cases on the step. -/
theorem ItemsStep.wellFormed {batch next : ReleaseBatch} {op : BatchOp}
    (step : ItemsStep batch op next.items) (id_eq : next.id = batch.id)
    (wellFormed : batch.WellFormed)
    : next.WellFormed := by
  obtain ⟨nonempty, owned, numbered, issues, runs⟩ := wellFormed
  generalize made : next.items = items at step
  cases step with
  | unchanged => constructor <;> simp only [made, id_eq] <;> assumption
  | @updated index item updated found identity run _ _ =>
      have member := List.mem_of_getElem? found
      have before {other : ReleaseBatchItem} (hm : other ∈ batch.items.set index updated)
          : ∃ old ∈ batch.items, other.releaseBatchId = old.releaseBatchId
            ∧ other.position = old.position ∧ other.issueNumber = old.issueNumber
            ∧ (other = old ∨ other = updated ∧ old = item) := by
        rcases List.mem_or_eq_of_mem_set hm with hm | rfl
        · exact ⟨other, hm, rfl, rfl, rfl, .inl rfl⟩
        · exact ⟨item, member, identity.1, identity.2.1, identity.2.2, .inr ⟨rfl, rfl⟩⟩
      constructor
      · simpa [made] using nonempty
      · simp only [made, id_eq]
        intro other hm
        obtain ⟨old, hold, owner, _⟩ := before hm
        exact owner.trans (owned old hold)
      · simp only [made]
        intro i other hi
        by_cases here : index = i
        · subst here
          grind
        · rw [List.getElem?_set_ne here] at hi
          exact numbered i other hi
      · simp only [made]
        intro first hf second hs same
        obtain ⟨oldFirst, hof, _, positionFirst, issueFirst, _⟩ := before hf
        obtain ⟨oldSecond, hos, _, positionSecond, issueSecond, _⟩ := before hs
        rw [positionFirst, positionSecond]
        exact issues oldFirst hof oldSecond hos (by rw [← issueFirst, ← issueSecond, same])
      · simp only [made]
        intro first hf second hs uuid one two
        obtain ⟨oldFirst, hof, _, positionFirst, _, changeFirst⟩ := before hf
        obtain ⟨oldSecond, hos, _, positionSecond, _, changeSecond⟩ := before hs
        rw [positionFirst, positionSecond]
        -- A new run of the updated item is held by no item at another position.
        have clash (other : ReleaseBatchItem) (hother : other ∈ batch.items)
            (held : other.runUuid = some uuid) (named : updated.runUuid = some uuid)
            : other.position = item.position := by
          rcases run with kept | ⟨_, fresh, attached, free⟩
          · exact runs other hother item member uuid held (kept ▸ named)
          · by_contra apart
            obtain rfl := Option.some.inj (attached.symm.trans named)
            exact free other hother apart held
        rcases changeFirst with rfl | ⟨rfl, rfl⟩ <;> rcases changeSecond with rfl | ⟨rfl, rfl⟩
        · exact runs first hof second hos uuid one two
        · exact clash first hof one two
        · exact (clash second hos two one).symm
        · rfl
  | appended _ fresh distinct =>
      have new {item : ReleaseBatchItem} (old : item ∈ batch.items) {other : ReleaseBatchItem}
          (hm : other ∈ remediationItems batch _)
          : item.issueNumber ≠ other.issueNumber :=
        fun same => fresh other.issueNumber (mem_remediationItems hm).2.1
          (same ▸ List.mem_map_of_mem old)
      constructor
      · simp [made, nonempty]
      · simp only [made, id_eq]
        intro item hm
        rcases List.mem_append.mp hm with hm | hm
        · exact owned item hm
        · exact (mem_remediationItems hm).1
      · simp only [made]
        intro index item found
        rcases Nat.lt_or_ge index batch.items.length with old | added
        · rw [List.getElem?_append_left old] at found
          exact numbered index item found
        · rw [List.getElem?_append_right added] at found
          rw [(remediationItems_getElem? found).2]
          simp only
          omega
      · simp only [made]
        intro first hf second hs same
        rcases List.mem_append.mp hf with hf | hf <;> rcases List.mem_append.mp hs with hs | hs
        · exact issues first hf second hs same
        · exact (new hf hs same).elim
        · exact (new hs hf same.symm).elim
        · exact remediationItems_position_eq distinct hf hs same
      · simp only [made]
        intro first hf second hs uuid one two
        rcases List.mem_append.mp hf with hf | hf <;> rcases List.mem_append.mp hs with hs | hs
        · exact runs first hf second hs uuid one two
        · simp [(mem_remediationItems hs).2.2.2.1] at two
        · simp [(mem_remediationItems hf).2.2.2.1] at one
        · simp [(mem_remediationItems hf).2.2.2.1] at one

theorem BatchOp.wellFormed {op : BatchOp} {batch next : ReleaseBatch}
    (applied : op.apply batch = .ok next) (wellFormed : batch.WellFormed)
    : next.WellFormed :=
  (items_step applied).wellFormed (congrArg BatchIdentity.id (identity_eq applied)) wellFormed

/-- Every batch of a run is well formed, by the run invariant rule. -/
theorem wellFormed_of_run {admitted : CreateReleaseBatchInput → Prop} {ops : List BatchOp}
    {batch : ReleaseBatch} (run : (batchSystem admitted).Run ops batch)
    : batch.WellFormed := by
  refine run.invariant (fun _ batch => batch.WellFormed) ?_ ?_
  · rintro batch ⟨input, _, created⟩
    exact createReleaseBatch_wellFormed created
  · intro ops batch op next wellFormed applied
    exact BatchOp.wellFormed applied wellFormed

/-- A new batch with two pending items, at positions 1 and 2. -/
def twoIssues : CreateReleaseBatchInput :=
  {
    id := "batch-1"
    repoId := "repo-1"
    sourceBranch := "main"
    sourceStartSha := "c0ffee"
    releaseBranch := "release/batch-1"
    createdAt := .epoch
    items := [{ position := 1, issueNumber := 101 }, { position := 2, issueNumber := 102 }]
  }

end AiSdlc.Domain
