import AiSdlc.Domain.ReleaseBatchRuns

/-! A batch with a blocked item should be blocked until that item is resumed. `unblockItem`
looks for other blocked items, while `admitItem` and `unblockBatch` do not.
-/

namespace AiSdlc.Domain

open AiSdlc.Js
open AiSdlc.Transition

/-- Some item of the batch is blocked. -/
def ReleaseBatch.HasBlocked (batch : ReleaseBatch) : Prop :=
  ∃ item ∈ batch.items, item.status = .blocked

/-- Exactly the blocked items have a reason, and they block their batch until it ends. -/
structure ReleaseBatch.BlockedBookkeeping (batch : ReleaseBatch) : Prop where
  reasons : ∀ item ∈ batch.items, item.blockedReason.isSome = true ↔ item.status = .blocked
  status : batch.status.isTerminal = false → batch.HasBlocked → batch.status = .blocked

instance (batch : ReleaseBatch) : Decidable batch.HasBlocked :=
  inferInstanceAs (Decidable (∃ item ∈ batch.items, item.status = .blocked))

instance (batch : ReleaseBatch) : Decidable batch.BlockedBookkeeping :=
  decidable_of_iff ((∀ item ∈ batch.items,
      item.blockedReason.isSome = true ↔ item.status = .blocked)
      ∧ (batch.status.isTerminal = false → batch.HasBlocked → batch.status = .blocked))
    ⟨fun ⟨reasons, status⟩ => ⟨reasons, status⟩, fun ⟨reasons, status⟩ => ⟨reasons, status⟩⟩

/-- The given items and their batch are blocked consistently. -/
structure CreateReleaseBatchInput.BlockedBookkeeping (input : CreateReleaseBatchInput)
    : Prop where
  reasons : ∀ item ∈ input.items, item.blockedReason.isSome = true ↔ item.status = some .blocked
  status : (input.status.getD .queued).isTerminal = false →
    (∃ item ∈ input.items, item.status = some .blocked) → input.status = some .blocked

/-- The step admits no item beside a blocked one, and unblocks no batch with a blocked item. -/
def ResumesUnblocked (batch : ReleaseBatch) : BatchOp → Prop
  | .admitItem position _ _ =>
      ∀ item ∈ batch.items, item.position ≠ position → item.status ≠ .blocked
  | .unblockBatch => ¬batch.HasBlocked
  | _ => True

instance (batch : ReleaseBatch) (op : BatchOp) : Decidable (ResumesUnblocked batch op) :=
  match op with
  | .admitItem position _ _ =>
      inferInstanceAs (Decidable (∀ item ∈ batch.items, item.position ≠ position →
        item.status ≠ .blocked))
  | .unblockBatch => inferInstanceAs (Decidable (¬batch.HasBlocked))
  | .assignItemRun .. | .markItemWaitingMerge .. | .attachItemPr .. | .markItemMerged ..
  | .markItemBlocked .. | .markBatchBlocked .. | .unblockItem ..
  | .transitionToAwaitingManualTest .. | .recordPromotionPr .. | .approveBatchCandidate ..
  | .rejectBatchCandidate .. | .appendRemediationItems .. | .attachPromotionPr ..
  | .recordPromotionCommit .. | .promoteBatch | .completeBatch .. | .cancelBatch .. =>
      .isTrue trivial

/-- Creation takes over statuses and reasons as they are given, so a new batch is consistent
exactly when its input is.
-/
theorem createReleaseBatch_blockedBookkeeping {input : CreateReleaseBatchInput}
    {batch : ReleaseBatch} (created : createReleaseBatch input = .ok batch)
    : batch.BlockedBookkeeping ↔ input.BlockedBookkeeping := by
  obtain ⟨sorted, perm, _, _, _, _, rfl⟩ := createReleaseBatch_ok created
  have given (status : Option ReleaseBatchItemStatus)
      : status.getD .pending = .blocked ↔ status = some .blocked := by
    cases status <;> simp
  have whole (status : Option ReleaseBatchStatus)
      : status.getD .queued = .blocked ↔ status = some .blocked := by
    cases status <;> simp
  constructor
  · intro ⟨reasons, status⟩
    constructor
    · intro item member
      have source := perm.mem_iff.mpr member
      exact (reasons _ (List.mem_map_of_mem source)).trans (given item.status)
    · intro live ⟨item, member, blocked⟩
      have source := perm.mem_iff.mpr member
      exact (whole _).mp (status live
        ⟨_, List.mem_map_of_mem source, (given item.status).mpr blocked⟩)
  · intro ⟨reasons, status⟩
    constructor
    · intro item member
      obtain ⟨source, hs, rfl⟩ := List.mem_map.mp member
      exact (reasons source (perm.mem_iff.mp hs)).trans (given source.status).symm
    · intro live ⟨item, member, blocked⟩
      obtain ⟨source, hs, rfl⟩ := List.mem_map.mp member
      exact (whole _).mpr (status live
        ⟨source, perm.mem_iff.mp hs, (given source.status).mp blocked⟩)

/-- The changed item has a reason exactly when it is blocked, if it did before, by cases on
the change.
-/
theorem ItemChange.reason {batch : ReleaseBatch} {op : BatchOp} {item next : ReleaseBatchItem}
    (change : ItemChange batch op item next)
    (before : item.blockedReason.isSome = true ↔ item.status = .blocked)
    : next.blockedReason.isSome = true ↔ next.status = .blocked := by
  cases change with
  | admitted => simp
  | runAssigned => exact before
  | waitsForMerge active => simpa [active] using before
  | prAttached => exact before
  | merged inFlight =>
      have status : item.status = .active ∨ item.status = .waitingMerge := by
        simpa [ReleaseBatchItem.inFlight] using inFlight
      rcases status with status | status <;> simpa [status] using before
  | blocked => simp
  | unblocked => simp

/-- Only `markItemBlocked` leaves the item that it changes blocked where it was not. -/
theorem ItemChange.blocked_before {batch : ReleaseBatch} {op : BatchOp}
    {item next : ReleaseBatchItem} (change : ItemChange batch op item next)
    (other : ∀ position reason, op ≠ .markItemBlocked position reason)
    (blocked : next.status = .blocked)
    : item.status = .blocked := by
  cases change with
  | runAssigned => exact blocked
  | prAttached => exact blocked
  | blocked => exact (other _ _ rfl).elim
  | admitted | waitsForMerge | merged | unblocked => contradiction

/-- Every step keeps the reasons of the items, by cases on its change. -/
theorem BatchOp.reasons {op : BatchOp} {batch next : ReleaseBatch}
    (applied : op.apply batch = .ok next)
    (before : ∀ item ∈ batch.items, item.blockedReason.isSome = true ↔ item.status = .blocked)
    : ∀ item ∈ next.items, item.blockedReason.isSome = true ↔ item.status = .blocked := by
  intro item member
  have changed := items_change applied
  generalize next.items = items at changed member
  cases changed with
  | unchanged => exact before item member
  | one found change =>
      rcases List.mem_or_eq_of_mem_set member with old | rfl
      · exact before item old
      · exact change.reason (before _ (List.mem_of_getElem? found))
  | appended =>
      rcases List.mem_append.mp member with old | new
      · exact before item old
      · obtain ⟨offset, found⟩ := List.mem_iff_getElem?.mp new
        rw [(remediationItems_getElem? found).2]
        simp

theorem BatchOp.blocked_before {op : BatchOp} {batch next : ReleaseBatch}
    (applied : op.apply batch = .ok next)
    (other : ∀ position reason, op ≠ .markItemBlocked position reason)
    (blocked : next.HasBlocked)
    : batch.HasBlocked := by
  obtain ⟨item, member, blocked⟩ := blocked
  have changed := items_change applied
  generalize next.items = items at changed member
  cases changed with
  | unchanged => exact ⟨item, member, blocked⟩
  | one found change =>
      rcases List.mem_or_eq_of_mem_set member with old | rfl
      · exact ⟨item, old, blocked⟩
      · exact ⟨_, List.mem_of_getElem? found, change.blocked_before other blocked⟩
  | appended =>
      rcases List.mem_append.mp member with old | new
      · exact ⟨item, old, blocked⟩
      · exact nomatch blocked.symm.trans (mem_remediationItems new).2.2.1

theorem ReleaseBatch.WellFormed.mem_set {batch : ReleaseBatch} (wellFormed : batch.WellFormed)
    {index : Nat} {item next other : ReleaseBatchItem}
    (found : batch.items[index]? = some item) (member : other ∈ batch.items.set index next)
    : other = next ∨ other ∈ batch.items ∧ other.position ≠ item.position := by
  obtain ⟨place, at_⟩ := List.mem_iff_getElem?.mp member
  by_cases here : index = place
  · subst here
    have bound := (List.getElem?_eq_some_iff.mp found).1
    rw [List.getElem?_set_self bound] at at_
    exact .inl (Option.some.inj at_).symm
  · rw [List.getElem?_set_ne here] at at_
    refine .inr ⟨List.mem_of_getElem? at_, fun same => ?_⟩
    have first := wellFormed.numbered index item found
    have second := wellFormed.numbered place other at_
    omega

theorem ReleaseBatch.mem_set_of_apart {batch : ReleaseBatch} {index : Nat}
    {item next other : ReleaseBatchItem} (found : batch.items[index]? = some item)
    (member : other ∈ batch.items) (apart : other.position ≠ item.position)
    : other ∈ batch.items.set index next := by
  obtain ⟨place, at_⟩ := List.mem_iff_getElem?.mp member
  have elsewhere : index ≠ place := by
    intro here
    subst here
    exact apart (congrArg ReleaseBatchItem.position (Option.some.inj (at_.symm.trans found)))
  exact List.mem_of_getElem? ((List.getElem?_set_ne elsewhere).trans at_)

/-- A step that resumes only unblocked batches leaves a batch blocked while an item of it is,
by cases on the operation: most keep the status, or start from a status without blocked items.
-/
theorem BatchOp.staysBlocked {op : BatchOp} {batch next : ReleaseBatch}
    (applied : op.apply batch = .ok next) (wellFormed : batch.WellFormed)
    (resumes : ResumesUnblocked batch op)
    (before : batch.status.isTerminal = false → batch.HasBlocked → batch.status = .blocked)
    (live : next.status.isTerminal = false) (blocked : next.HasBlocked)
    : next.status = .blocked := by
  have still := blocked_before applied
  cases op with
  | admitItem position input clock =>
      obtain ⟨_, index, item, located, _, _, _, _, rfl⟩ := admitItem_eq_ok.mp applied
      obtain ⟨other, member, isBlocked⟩ := blocked
      rcases wellFormed.mem_set located.2 member with rfl | ⟨old, apart⟩
      · contradiction
      · exact absurd isBlocked (resumes other old (located.position_eq ▸ apart))
  | assignItemRun position runUuid =>
      obtain ⟨open_, _, _, _, _, ⟨_, rfl⟩ | ⟨_, _, rfl⟩⟩ := assignItemRun_eq_ok.mp applied <;>
        exact before open_ (still (by simp) blocked)
  | markItemWaitingMerge position prNumber =>
      obtain ⟨open_, _, _, _, _, _, ⟨_, _, rfl⟩ | ⟨_, rfl⟩⟩ :=
        markItemWaitingMerge_eq_ok.mp applied <;>
        exact before open_ (still (by simp) blocked)
  | attachItemPr position prNumber =>
      obtain ⟨open_, _, _, _, _, ⟨_, rfl⟩ | ⟨_, rfl⟩⟩ := attachItemPr_eq_ok.mp applied <;>
        exact before open_ (still (by simp) blocked)
  | markItemMerged position mergedCommitSha now clock =>
      obtain ⟨open_, _, _, _, _, _, rfl⟩ := markItemMerged_eq_ok.mp applied
      exact before open_ (still (by simp) blocked)
  | markItemBlocked position reason =>
      obtain ⟨_, _, _, _, _, rfl⟩ := markItemBlocked_eq_ok.mp applied
      rfl
  | markBatchBlocked reason =>
      obtain ⟨_, rfl⟩ := markBatchBlocked_eq_ok.mp applied
      rfl
  | unblockBatch =>
      exact absurd (still (by simp) blocked) resumes
  | unblockItem position =>
      obtain ⟨open_, _, _, items, _, _, ⟨_, rfl⟩ | ⟨_, rfl⟩⟩ := unblockItem_eq_ok.mp applied
      · exact before open_ blocked
      · obtain ⟨other, member, isBlocked⟩ := blocked
        have any : items.any (·.status = .blocked) = true :=
          List.any_eq_true.mpr ⟨other, member, by simpa using isBlocked⟩
        have stays : batch.resumesWith items = false := by simp [ReleaseBatch.resumesWith, any]
        simpa [stays] using before open_ (still (by simp) ⟨other, member, isBlocked⟩)
  | transitionToAwaitingManualTest candidateSha candidateTreeSha promotionPrNumber =>
      obtain ⟨_, _, merged, _, rfl⟩ := transitionToAwaitingManualTest_eq_ok.mp applied
      obtain ⟨other, member, isBlocked⟩ := blocked
      have isMerged := List.all_eq_true.mp merged other member
      simp [ReleaseBatchItem.isMerged, isBlocked] at isMerged
  | recordPromotionPr prNumber =>
      obtain ⟨open_, _, rfl⟩ := recordPromotionPr_eq_ok.mp applied
      exact before open_ blocked
  | approveBatchCandidate approvedCandidateSha =>
      obtain ⟨awaiting, _, _, rfl⟩ := approveBatchCandidate_eq_ok.mp applied
      cases awaiting.symm.trans (before (by rw [awaiting]; rfl) blocked)
  | rejectBatchCandidate arguments =>
      obtain ⟨awaiting, _, rfl⟩ := rejectBatchCandidate_eq_ok.mp applied
      cases awaiting.symm.trans (before (by rw [awaiting]; rfl) blocked)
  | appendRemediationItems issueNumbers =>
      obtain ⟨failed, _⟩ := appendRemediationItems_eq_ok.mp applied
      cases failed.symm.trans
        (before (by rw [failed]; rfl) (still (by simp) blocked))
  | attachPromotionPr prNumber =>
      obtain ⟨ready | ready, _, rfl⟩ := attachPromotionPr_eq_ok.mp applied <;>
        cases ready.symm.trans (before (by rw [ready]; rfl) blocked)
  | recordPromotionCommit promotionCommitSha =>
      obtain ⟨open_, _, rfl⟩ := recordPromotionCommit_eq_ok.mp applied
      exact before open_ blocked
  | promoteBatch =>
      obtain ⟨approved, _, rfl⟩ := promoteBatch_eq_ok.mp applied
      cases approved.symm.trans (before (by rw [approved]; rfl) blocked)
  | completeBatch now clock =>
      obtain ⟨_, _, rfl⟩ := completeBatch_eq_ok.mp applied
      contradiction
  | cancelBatch reason now clock =>
      obtain ⟨_, ⟨ended, rfl⟩ | ⟨_, rfl⟩⟩ := cancelBatch_eq_ok.mp applied
      · rw [ended] at live
        contradiction
      · contradiction

theorem BatchOp.blockedBookkeeping {op : BatchOp} {batch next : ReleaseBatch}
    (applied : op.apply batch = .ok next) (wellFormed : batch.WellFormed)
    (bookkeeping : batch.BlockedBookkeeping) (resumes : ResumesUnblocked batch op)
    : next.BlockedBookkeeping :=
  ⟨reasons applied bookkeeping.reasons,
    staysBlocked applied wellFormed resumes bookkeeping.status⟩

/-- A step that keeps the bookkeeping resumed an unblocked batch: the two operations that do
not look at the other items make a blocked batch a building one.
-/
theorem BatchOp.resumesUnblocked {op : BatchOp} {batch next : ReleaseBatch}
    (applied : op.apply batch = .ok next) (bookkeeping : batch.BlockedBookkeeping)
    (kept : next.BlockedBookkeeping)
    : ResumesUnblocked batch op := by
  cases op with
  | admitItem position input clock =>
      obtain ⟨open_, index, item, located, _, _, _, _, rfl⟩ := admitItem_eq_ok.mp applied
      intro other member apart blocked
      have status := bookkeeping.status open_ ⟨other, member, blocked⟩
      have stays (next : ReleaseBatchItem) : other ∈ batch.items.set index next :=
        batch.mem_set_of_apart located.2 member (located.position_eq.symm ▸ apart)
      have building := kept.status (by simp [status, ReleaseBatchStatus.isTerminal])
        ⟨other, stays _, blocked⟩
      simp [status] at building
  | unblockBatch =>
      obtain ⟨open_, ⟨unblocked, rfl⟩ | ⟨_, rfl⟩⟩ := unblockBatch_eq_ok.mp applied
      · exact fun blocked => unblocked (bookkeeping.status open_ blocked)
      · intro blocked
        cases kept.status rfl blocked
  | _ => trivial

/-- A batch that is created consistently, and whose steps resume it only without blocked
items, keeps the bookkeeping throughout, and one more step keeps it exactly when it resumes
the batch so.
-/
theorem blocked_bookkeeping_kept {ops : List BatchOp} {batch : ReleaseBatch}
    (run : ((batchSystem CreateReleaseBatchInput.BlockedBookkeeping).restrict
      ResumesUnblocked).Run ops batch)
    : batch.BlockedBookkeeping ∧ ∀ op next, op.apply batch = .ok next →
        (next.BlockedBookkeeping ↔ ResumesUnblocked batch op) := by
  have bookkeeping : batch.WellFormed ∧ batch.BlockedBookkeeping := by
    refine run.invariant (fun _ batch => batch.WellFormed ∧ batch.BlockedBookkeeping) ?_ ?_
    · intro batch ⟨input, consistent, created⟩
      exact ⟨createReleaseBatch_wellFormed created,
        (createReleaseBatch_blockedBookkeeping created).mpr consistent⟩
    · intro ops batch op next ⟨wellFormed, bookkeeping⟩ ⟨resumes, applied⟩
      exact ⟨BatchOp.wellFormed applied wellFormed,
        BatchOp.blockedBookkeeping applied wellFormed bookkeeping resumes⟩
  refine ⟨bookkeeping.2, fun op next applied => ⟨?_, ?_⟩⟩
  · exact BatchOp.resumesUnblocked applied bookkeeping.2
  · exact BatchOp.blockedBookkeeping applied bookkeeping.1 bookkeeping.2

/-- The only blocked item is unblocked before the first one is admitted. -/
theorem blocked_bookkeeping_kept_twoIssues
    : ∃ batch final, createReleaseBatch twoIssues = .ok batch
        ∧ applyWhile ResumesUnblocked batch
            [.admitItem 1 {} .epoch, .markItemBlocked 1 "run_blocked", .unblockItem 1]
          = some final
        ∧ final.BlockedBookkeeping ∧ ∀ op next, op.apply final = .ok next →
            (next.BlockedBookkeeping ↔ ResumesUnblocked final op) := by
  obtain ⟨batch, final, created, applied⟩ : ∃ batch final,
      createReleaseBatch twoIssues = .ok batch
      ∧ applyWhile ResumesUnblocked batch
          [.admitItem 1 {} .epoch, .markItemBlocked 1 "run_blocked", .unblockItem 1]
        = some final := ⟨_, _, rfl, rfl⟩
  have consistent : twoIssues.BlockedBookkeeping := by constructor <;> simp [twoIssues]
  exact ⟨batch, final, created, applied, blocked_bookkeeping_kept
    (run_of_applyWhile (.start ⟨twoIssues, consistent, created⟩) applied)⟩

/-- Admitting the first item resumes the batch although its second item is blocked. -/
theorem admitItem_resumes_blocked_batch
    : ¬∀ ops batch, (batchSystem fun _ => True).Run ops batch → batch.BlockedBookkeeping := by
  intro bookkeeping
  obtain ⟨batch, final, created, applied, broken⟩ : ∃ batch final,
      createReleaseBatch twoIssues = .ok batch
      ∧ applyWhile (fun _ _ => True) batch
          [.markItemBlocked 2 "run_blocked", .admitItem 1 {} .epoch]
        = some final
      ∧ ¬final.BlockedBookkeeping := ⟨_, _, rfl, rfl, by decide⟩
  exact broken (bookkeeping _ _ (run_of_created created applied))

end AiSdlc.Domain
