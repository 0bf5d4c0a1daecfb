import AiSdlc.Domain.ReleaseBatchRuns

/-! A merged item should never change again. The operations on its status check this, while
`attachItemPr` and `assignItemRun` do not look at the status of their item.
-/

namespace AiSdlc.Domain

open AiSdlc.Js
open AiSdlc.Transition

/-- Every merged item has its record unchanged in a later batch. -/
def ReleaseBatch.MergedKept (batch later : ReleaseBatch) : Prop :=
  ∀ (index : Nat) item, batch.items[index]? = some item → item.isMerged = true →
    later.items[index]? = some item

/-- The step attaches no other pull request, and no first run, to a merged item. -/
def SparesMerged (batch : ReleaseBatch) : BatchOp → Prop
  | .attachItemPr position prNumber =>
      ∀ item ∈ batch.items, item.position = position → item.isMerged = true →
        item.prNumber = some prNumber
  | .assignItemRun position _ =>
      ∀ item ∈ batch.items, item.position = position → item.isMerged = true →
        item.runUuid ≠ none
  | _ => True

instance (batch : ReleaseBatch) (op : BatchOp) : Decidable (SparesMerged batch op) :=
  match op with
  | .attachItemPr position prNumber =>
      inferInstanceAs (Decidable (∀ item ∈ batch.items, item.position = position →
        item.isMerged = true → item.prNumber = some prNumber))
  | .assignItemRun position _ =>
      inferInstanceAs (Decidable (∀ item ∈ batch.items, item.position = position →
        item.isMerged = true → item.runUuid ≠ none))
  | .admitItem .. | .markItemWaitingMerge .. | .markItemMerged .. | .markItemBlocked ..
  | .markBatchBlocked .. | .unblockBatch | .unblockItem .. | .transitionToAwaitingManualTest ..
  | .recordPromotionPr .. | .approveBatchCandidate .. | .rejectBatchCandidate ..
  | .appendRemediationItems .. | .attachPromotionPr .. | .recordPromotionCommit ..
  | .promoteBatch | .completeBatch .. | .cancelBatch .. => .isTrue trivial

theorem ItemChange.unmerged {batch : ReleaseBatch} {op : BatchOp}
    {item next : ReleaseBatchItem} (change : ItemChange batch op item next)
    (member : item ∈ batch.items) (spares : SparesMerged batch op)
    : item.isMerged = false := by
  cases change with
  | admitted unmerged => exact unmerged
  | runAssigned fresh =>
      by_contra merged
      exact spares item member rfl (by simpa using merged) fresh
  | waitsForMerge active => simp [ReleaseBatchItem.isMerged, active]
  | prAttached other =>
      by_contra merged
      exact other (spares item member rfl (by simpa using merged))
  | merged inFlight =>
      have status : item.status = .active ∨ item.status = .waitingMerge := by
        simpa [ReleaseBatchItem.inFlight] using inFlight
      rcases status with status | status <;> simp [ReleaseBatchItem.isMerged, status]
  | blocked unmerged => exact unmerged
  | unblocked blocked => simp [ReleaseBatchItem.isMerged, blocked]

/-- A step that spares the merged items keeps their records, by cases on its change. -/
theorem BatchOp.mergedKept {op : BatchOp} {batch next : ReleaseBatch}
    (applied : op.apply batch = .ok next) (spares : SparesMerged batch op)
    : batch.MergedKept next := by
  intro index item found merged
  have changed := items_change applied
  generalize next.items = items at changed ⊢
  cases changed with
  | unchanged => exact found
  | @one place old updated foundOld change =>
      have apart : place ≠ index := by
        intro here
        subst here
        obtain rfl := Option.some.inj (foundOld.symm.trans found)
        have unmerged := change.unmerged (List.mem_of_getElem? found) spares
        exact nomatch merged.symm.trans unmerged
      rw [List.getElem?_set_ne apart, found]
  | appended =>
      have bound := (List.getElem?_eq_some_iff.mp found).1
      rw [List.getElem?_append_left bound, found]

theorem not_mergedKept_of_rewritten {batch next : ReleaseBatch} {index : Nat}
    {item rewritten : ReleaseBatchItem} (found : batch.items[index]? = some item)
    (merged : item.isMerged = true) (set : next.items = batch.items.set index rewritten)
    (differs : rewritten ≠ item)
    : ¬batch.MergedKept next := by
  intro kept
  have bound := (List.getElem?_eq_some_iff.mp found).1
  have still := kept index item found merged
  rw [set, List.getElem?_set_self bound] at still
  exact differs (Option.some.inj still)

/-- In a well-formed batch a step that keeps the merged items spares them, by the inversion
lemmas of the two operations that do not check the status.
-/
theorem BatchOp.sparesMerged {op : BatchOp} {batch next : ReleaseBatch}
    (applied : op.apply batch = .ok next) (wellFormed : batch.WellFormed)
    (kept : batch.MergedKept next)
    : SparesMerged batch op := by
  cases op with
  | attachItemPr position prNumber =>
      intro item member at_ merged
      obtain ⟨_, _, index, located, found, ⟨same, _⟩ | ⟨other, rfl⟩⟩ :=
        attachItemPr_eq_ok.mp applied
      all_goals
        obtain rfl := wellFormed.item_unique member found.mem
          (at_.trans found.position_eq.symm)
      · exact same
      · refine (not_mergedKept_of_rewritten found.2 merged rfl ?_ kept).elim
        intro unchanged
        exact other (congrArg ReleaseBatchItem.prNumber unchanged).symm
  | assignItemRun position runUuid =>
      intro item member at_ merged
      obtain ⟨_, _, index, located, found, ⟨same, _⟩ | ⟨fresh, _, rfl⟩⟩ :=
        assignItemRun_eq_ok.mp applied
      all_goals
        obtain rfl := wellFormed.item_unique member found.mem
          (at_.trans found.position_eq.symm)
      · simp [same]
      · refine (not_mergedKept_of_rewritten found.2 merged rfl ?_ kept).elim
        intro unchanged
        exact nomatch (congrArg ReleaseBatchItem.runUuid unchanged).trans fresh
  | _ => trivial

/-- Merged items keep their records along every path of steps that spare them, and one step
from a reached batch keeps them exactly when it spares them.
-/
theorem merged_items_kept {ops : List BatchOp} {batch : ReleaseBatch}
    (run : (batchSystem fun _ => True).Run ops batch)
    : (∀ more later, ((batchSystem fun _ => True).restrict SparesMerged).Path batch more later →
          batch.MergedKept later)
        ∧ ∀ op next, op.apply batch = .ok next →
            (batch.MergedKept next ↔ SparesMerged batch op) := by
  refine ⟨fun more later path => ?_, fun op next applied => ⟨?_, ?_⟩⟩
  · refine path.invariant (fun reached => batch.MergedKept reached) ?_
      fun _ _ found _ => found
    intro reached op next kept ⟨spares, applied⟩ index item found merged
    exact BatchOp.mergedKept applied spares index item (kept index item found merged) merged
  · exact BatchOp.sparesMerged applied (wellFormed_of_run run)
  · exact BatchOp.mergedKept applied

/-- The first item is admitted and merged. -/
def firstMerged : List BatchOp :=
  [.admitItem 1 {} .epoch, .markItemMerged 1 "c0ffee" none .epoch]

theorem merged_items_kept_firstMerged
    : ∃ batch merged, createReleaseBatch twoIssues = .ok batch
        ∧ applyWhile (fun _ _ => True) batch firstMerged = some merged
        ∧ (∀ more later,
            ((batchSystem fun _ => True).restrict SparesMerged).Path merged more later →
              merged.MergedKept later)
        ∧ ∀ op next, op.apply merged = .ok next →
            (merged.MergedKept next ↔ SparesMerged merged op) := by
  obtain ⟨batch, merged, created, applied⟩ : ∃ batch merged,
      createReleaseBatch twoIssues = .ok batch
      ∧ applyWhile (fun _ _ => True) batch firstMerged = some merged := ⟨_, _, rfl, rfl⟩
  exact ⟨batch, merged, created, applied, merged_items_kept (run_of_created created applied)⟩

/-- A pull request and a run are attached to an item that is already merged. -/
theorem merged_item_rewritten
    : ¬∀ ops more batch later, (batchSystem fun _ => True).Run ops batch →
        (batchSystem fun _ => True).Path batch more later → batch.MergedKept later := by
  intro kept
  obtain ⟨batch, merged, attached, assigned, created, applied, first, second, rewritten⟩
      : ∃ batch merged attached assigned, createReleaseBatch twoIssues = .ok batch
        ∧ applyWhile (fun _ _ => True) batch firstMerged = some merged
        ∧ attachItemPr merged 1 7 = .ok attached
        ∧ assignItemRun attached 1 "run-1" = .ok assigned
        ∧ ∃ item later, merged.items[0]? = some item ∧ item.isMerged = true
          ∧ assigned.items[0]? = some later ∧ later ≠ item :=
    ⟨_, _, _, _, rfl, rfl, rfl, rfl, _, _, rfl, rfl, rfl, by decide⟩
  have path : (batchSystem fun _ => True).Path merged
      [.assignItemRun 1 "run-1", .attachItemPr 1 7] assigned :=
    .next (.next .stay first) second
  obtain ⟨item, later, found, isMerged, foundLater, differs⟩ := rewritten
  have same := kept _ _ _ _ (run_of_created created applied) path 0 item found isMerged
  exact differs (Option.some.inj (foundLater.symm.trans same))

end AiSdlc.Domain
