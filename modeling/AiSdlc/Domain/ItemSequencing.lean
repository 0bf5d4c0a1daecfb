import AiSdlc.Domain.ReleaseBatchRuns

/-! Items are built one after the other: one in flight, and only after its predecessors.
Admission checks this, and `unblockItem` starts an item without checking it.
-/

namespace AiSdlc.Domain

open AiSdlc.Js
open AiSdlc.Transition

/-- Every item before one that is in flight or merged is merged. -/
def ReleaseBatch.PriorsMerged (batch : ReleaseBatch) : Prop :=
  ∀ item ∈ batch.items, item.underway = true → batch.PriorMerged item.position

/-- The sequencing of a batch: at most one item is in flight, and the items before one that
is in flight or merged are merged.
-/
structure ReleaseBatch.Sequential (batch : ReleaseBatch) : Prop where
  oneInFlight : (batch.items.filter (·.inFlight)).length ≤ 1
  priorsMerged : batch.PriorsMerged

instance (batch : ReleaseBatch) (position : Int) : Decidable (batch.PriorMerged position) :=
  inferInstanceAs (Decidable (∀ item ∈ batch.items, item.position < position → _))

instance (batch : ReleaseBatch) : Decidable batch.PriorsMerged :=
  inferInstanceAs (Decidable (∀ item ∈ batch.items, item.underway = true → _))

instance (batch : ReleaseBatch) : Decidable batch.Sequential :=
  decidable_of_iff ((batch.items.filter (·.inFlight)).length ≤ 1 ∧ batch.PriorsMerged)
    ⟨fun ⟨one, priors⟩ => ⟨one, priors⟩, fun ⟨one, priors⟩ => ⟨one, priors⟩⟩

/-- The step does not unblock an item whose predecessors are not all merged. -/
def UnblocksInOrder (batch : ReleaseBatch) : BatchOp → Prop
  | .unblockItem position =>
      ∀ item ∈ batch.items, item.position = position → item.status = .blocked →
        batch.PriorMerged position
  | _ => True

instance (batch : ReleaseBatch) (op : BatchOp) : Decidable (UnblocksInOrder batch op) :=
  match op with
  | .unblockItem position =>
      inferInstanceAs (Decidable (∀ item ∈ batch.items, item.position = position →
        item.status = .blocked → batch.PriorMerged position))
  | .admitItem .. | .assignItemRun .. | .markItemWaitingMerge .. | .attachItemPr ..
  | .markItemMerged .. | .markItemBlocked .. | .markBatchBlocked .. | .unblockBatch
  | .transitionToAwaitingManualTest .. | .recordPromotionPr .. | .approveBatchCandidate ..
  | .rejectBatchCandidate .. | .appendRemediationItems .. | .attachPromotionPr ..
  | .recordPromotionCommit .. | .promoteBatch | .completeBatch .. | .cancelBatch .. =>
      .isTrue trivial

theorem ReleaseBatchItem.not_merged_of_inFlight {item : ReleaseBatchItem}
    (inFlight : item.inFlight = true)
    : item.isMerged = false := by
  have status : item.status = .active ∨ item.status = .waitingMerge := by
    simpa [ReleaseBatchItem.inFlight] using inFlight
  rcases status with status | status <;> simp [isMerged, status]

/-- The later one of two items in flight would have an unmerged predecessor, so merged
predecessors leave room for one item in flight.
-/
theorem ReleaseBatch.WellFormed.sequential {batch : ReleaseBatch}
    (wellFormed : batch.WellFormed) (priors : batch.PriorsMerged)
    : batch.Sequential := by
  refine ⟨?_, priors⟩
  have ordered := wellFormed.ordered.sublist (List.filter_sublist (p := (·.inFlight)))
  rcases flight : batch.items.filter (·.inFlight) with _ | ⟨first, _ | ⟨second, rest⟩⟩
  · exact flight ▸ Nat.zero_le 1
  · exact flight ▸ Nat.le_refl 1
  · have hf : first ∈ batch.items.filter (·.inFlight) := by simp [flight]
    have hs : second ∈ batch.items.filter (·.inFlight) := by simp [flight]
    obtain ⟨memberFirst, flightFirst⟩ := List.mem_filter.mp hf
    obtain ⟨memberSecond, flightSecond⟩ := List.mem_filter.mp hs
    have before : first.position < second.position := by
      rw [flight] at ordered
      exact (List.pairwise_cons.mp ordered).1 second (by simp)
    have merged := priors second memberSecond
      (by simp [ReleaseBatchItem.underway, flightSecond]) first memberFirst before
    rw [ReleaseBatchItem.not_merged_of_inFlight flightFirst] at merged
    contradiction

/-- A step that unblocks in order keeps the predecessors of started items merged, by cases
on its item step.
-/
theorem BatchOp.priorsMerged {op : BatchOp} {batch next : ReleaseBatch}
    (applied : op.apply batch = .ok next) (wellFormed : batch.WellFormed)
    (inOrder : UnblocksInOrder batch op) (priors : batch.PriorsMerged)
    : next.PriorsMerged := by
  have step := items_step applied
  unfold ReleaseBatch.PriorsMerged ReleaseBatch.PriorMerged
  generalize next.items = items at step
  cases step with
  | unchanged => exact priors
  | @updated index item updated found identity _ keepsMerged started =>
      have member := List.mem_of_getElem? found
      have prior_of_started (start : updated.underway = true)
          : batch.PriorMerged item.position := by
        rcases started start with before | prior | ⟨rfl, blocked⟩
        · exact priors item member before
        · exact prior
        · exact inOrder item member rfl blocked
      intro later hl start earlier he before
      rcases List.mem_or_eq_of_mem_set hl with oldLater | rfl
      · rcases List.mem_or_eq_of_mem_set he with oldEarlier | rfl
        · exact priors later oldLater start earlier oldEarlier before
        · exact keepsMerged (priors later oldLater start item member (identity.2.1 ▸ before))
      · rcases List.mem_or_eq_of_mem_set he with oldEarlier | rfl
        · exact prior_of_started start earlier oldEarlier (identity.2.1 ▸ before)
        · exact (lt_irrefl _ before).elim
  | appended =>
      intro later hl start earlier he before
      rcases List.mem_append.mp hl with oldLater | new
      · rcases List.mem_append.mp he with oldEarlier | new
        · exact priors later oldLater start earlier oldEarlier before
        · have beyond := (mem_remediationItems new).2.2.2.2
          have bound := wellFormed.position_le oldLater
          omega
      · simp [ReleaseBatchItem.underway, ReleaseBatchItem.inFlight, ReleaseBatchItem.isMerged,
          (mem_remediationItems new).2.2.1] at start

theorem not_sequential_of_unblockItem {batch next : ReleaseBatch} {position : Int}
    (wellFormed : batch.WellFormed)
    (applied : unblockItem batch position = .ok next) {item : ReleaseBatchItem}
    (member : item ∈ batch.items) (at_ : item.position = position)
    (blocked : item.status = .blocked) (early : ¬batch.PriorMerged position)
    : ¬next.Sequential := by
  obtain ⟨_, index, located, _, found, rfl, ⟨open_, _⟩ | ⟨_, rfl⟩⟩ :=
    unblockItem_eq_ok.mp applied
  · have same := wellFormed.item_unique member found.mem (at_.trans found.position_eq.symm)
    exact (open_ (same ▸ blocked)).elim
  · intro sequential
    apply early
    intro prior hp before
    have bound := (List.getElem?_eq_some_iff.mp found.2).1
    have started := sequential.priorsMerged
      { located with status := .active, blockedReason := none }
      (List.mem_set bound _) (by simp [ReleaseBatchItem.underway, ReleaseBatchItem.inFlight])
    refine started prior ?_ (by simpa [found.position_eq] using before)
    obtain ⟨j, at_j⟩ := List.mem_iff_getElem?.mp hp
    have elsewhere : index ≠ j := by
      rintro rfl
      have same := Option.some.inj (at_j.symm.trans found.2)
      exact absurd found.position_eq (ne_of_lt (same ▸ before))
    exact List.mem_of_getElem? ((List.getElem?_set_ne elsewhere).trans at_j)

theorem priorsMerged_of_created {input : CreateReleaseBatchInput} {batch : ReleaseBatch}
    (default : input.DefaultItemStatuses) (created : createReleaseBatch input = .ok batch)
    : batch.PriorsMerged := by
  obtain ⟨sorted, perm, _, _, _, _, rfl⟩ := createReleaseBatch_ok created
  intro item member start
  obtain ⟨source, hs, rfl⟩ := List.mem_map.mp member
  have pending := default source (perm.mem_iff.mp hs)
  simp [ReleaseBatchItem.underway, ReleaseBatchItem.inFlight, ReleaseBatchItem.isMerged,
    createItem, pending] at start

/-- A batch whose blocked items are unblocked in order is sequential throughout its run, and
it stays so after one more operation exactly when that operation unblocks in order.
-/
theorem sequential_iff_unblocksInOrder {ops : List BatchOp} {batch : ReleaseBatch}
    (run : ((batchSystem CreateReleaseBatchInput.DefaultItemStatuses).restrict
      UnblocksInOrder).Run ops batch)
    : batch.Sequential ∧ ∀ op next, op.apply batch = .ok next →
        (next.Sequential ↔ UnblocksInOrder batch op) := by
  have wellFormed := wellFormed_of_run run.of_restrict
  have priors : batch.WellFormed ∧ batch.PriorsMerged := by
    refine run.invariant (fun _ batch => batch.WellFormed ∧ batch.PriorsMerged) ?_ ?_
    · rintro batch ⟨input, default, created⟩
      exact ⟨createReleaseBatch_wellFormed created, priorsMerged_of_created default created⟩
    · rintro ops batch op next ⟨wellFormed, priors⟩ ⟨inOrder, applied⟩
      exact ⟨BatchOp.wellFormed applied wellFormed,
        BatchOp.priorsMerged applied wellFormed inOrder priors⟩
  refine ⟨wellFormed.sequential priors.2, fun op next applied => ⟨?_, ?_⟩⟩
  · intro sequential
    cases op with
    | unblockItem position =>
        intro item member at_ blocked
        by_contra early
        exact not_sequential_of_unblockItem wellFormed applied member at_ blocked early sequential
    | _ => trivial
  · intro inOrder
    exact (BatchOp.wellFormed applied wellFormed).sequential
      (BatchOp.priorsMerged applied wellFormed inOrder priors.2)

/-- The first item is admitted, blocked and unblocked, in order. -/
theorem sequential_iff_unblocksInOrder_twoIssues
    : ∃ batch final, createReleaseBatch twoIssues = .ok batch
        ∧ applyWhile UnblocksInOrder batch
            [.admitItem 1 {} .epoch, .markItemBlocked 1 "run_blocked", .unblockItem 1]
          = some final
        ∧ final.Sequential ∧ ∀ op next, op.apply final = .ok next →
            (next.Sequential ↔ UnblocksInOrder final op) := by
  obtain ⟨batch, final, created, applied⟩ : ∃ batch final,
      createReleaseBatch twoIssues = .ok batch
      ∧ applyWhile UnblocksInOrder batch
          [.admitItem 1 {} .epoch, .markItemBlocked 1 "run_blocked", .unblockItem 1]
        = some final := ⟨_, _, rfl, rfl⟩
  have default : twoIssues.DefaultItemStatuses := by
    simp [CreateReleaseBatchInput.DefaultItemStatuses, twoIssues]
  exact ⟨batch, final, created, applied, sequential_iff_unblocksInOrder
    (run_of_applyWhile (.start ⟨twoIssues, default, created⟩) applied)⟩

/-- Blocking and unblocking the second item makes it active while the first is pending. -/
theorem unblockItem_breaks_sequence
    : ¬∀ ops batch,
        (batchSystem CreateReleaseBatchInput.PositionsAndIssuesOnly).Run ops batch →
          batch.Sequential := by
  intro sequential
  obtain ⟨batch, final, created, applied, broken⟩ : ∃ batch final,
      createReleaseBatch twoIssues = .ok batch
      ∧ applyWhile (fun _ _ => True) batch [.markItemBlocked 2 "run_blocked", .unblockItem 2]
        = some final
      ∧ ¬final.Sequential := ⟨_, _, rfl, rfl, by decide⟩
  have only : twoIssues.PositionsAndIssuesOnly := by
    simp [CreateReleaseBatchInput.PositionsAndIssuesOnly, twoIssues]
  have run := run_of_applyWhile (.start ⟨twoIssues, only, created⟩) applied
  exact broken (sequential _ _ run.of_restrict)

end AiSdlc.Domain
