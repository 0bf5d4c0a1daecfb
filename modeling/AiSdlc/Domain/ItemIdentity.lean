import AiSdlc.Domain.ReleaseBatchRuns

/-! The identity of the items of a batch: their positions, issues and runs are distinct, and
no operation removes an item, moves it or gives it another issue or run.
-/

namespace AiSdlc.Domain

open AiSdlc.Js
open AiSdlc.Transition

/-- The later record is of the same item: with its position and issue, and with its run once
it has one.
-/
structure ReleaseBatchItem.IdentityKept (item later : ReleaseBatchItem) : Prop where
  position : later.position = item.position
  issueNumber : later.issueNumber = item.issueNumber
  runUuid : ∀ uuid, item.runUuid = some uuid → later.runUuid = some uuid

theorem ReleaseBatchItem.IdentityKept.refl (item : ReleaseBatchItem) : item.IdentityKept item :=
  ⟨rfl, rfl, fun _ held => held⟩

theorem ReleaseBatchItem.IdentityKept.trans {item middle later : ReleaseBatchItem}
    (first : item.IdentityKept middle) (second : middle.IdentityKept later)
    : item.IdentityKept later :=
  ⟨second.position.trans first.position, second.issueNumber.trans first.issueNumber,
    fun uuid held => second.runUuid uuid (first.runUuid uuid held)⟩

/-- Every item is still in its place, with its identity. -/
def ItemsKept (items later : List ReleaseBatchItem) : Prop :=
  ∀ (index : Nat) item, items[index]? = some item →
    ∃ kept, later[index]? = some kept ∧ item.IdentityKept kept

/-- Items stay in their places along consecutive changes. -/
theorem ItemsKept.trans {items middle later : List ReleaseBatchItem}
    (first : ItemsKept items middle) (second : ItemsKept middle later)
    : ItemsKept items later := by
  intro index item found
  obtain ⟨between, foundBetween, keptFirst⟩ := first index item found
  obtain ⟨kept, foundKept, keptSecond⟩ := second index between foundBetween
  exact ⟨kept, foundKept, keptFirst.trans keptSecond⟩

/-- Every item step keeps the items, by cases on the step: an update keeps its own item's
identity and sets a run only where there was none.
-/
theorem ItemsStep.itemsKept {batch : ReleaseBatch} {op : BatchOp}
    {items : List ReleaseBatchItem} (step : ItemsStep batch op items)
    : ItemsKept batch.items items := by
  intro index item found
  cases step with
  | unchanged => exact ⟨item, found, .refl item⟩
  | @updated changed old next foundOld identity run _ _ =>
      by_cases here : changed = index
      · subst here
        obtain rfl := Option.some.inj (foundOld.symm.trans found)
        have bound := (List.getElem?_eq_some_iff.mp found).1
        refine ⟨next, by simp [bound], identity.2.1, identity.2.2, fun uuid held => ?_⟩
        rcases run with kept | ⟨fresh, _⟩
        · exact kept.trans held
        · exact nomatch fresh.symm.trans held
      · exact ⟨item, by rw [List.getElem?_set_ne here, found], .refl item⟩
  | appended =>
      have bound := (List.getElem?_eq_some_iff.mp found).1
      exact ⟨item, by rw [List.getElem?_append_left bound, found], .refl item⟩

theorem ReleaseBatch.WellFormed.positions {batch : ReleaseBatch}
    (wellFormed : batch.WellFormed)
    : batch.items.map (·.position)
        = (List.range batch.items.length).map (fun (index : Nat) => (index : Int) + 1) := by
  refine List.ext_getElem? fun index => ?_
  rw [List.getElem?_map, List.getElem?_map]
  rcases Nat.lt_or_ge index batch.items.length with bound | beyond
  · have found := List.getElem?_eq_getElem bound
    rw [List.getElem?_range bound, found]
    exact congrArg some (wellFormed.numbered index _ found)
  · rw [List.getElem?_eq_none beyond, List.getElem?_eq_none (by simpa using beyond)]
    rfl

theorem ReleaseBatch.WellFormed.issues_nodup {batch : ReleaseBatch}
    (wellFormed : batch.WellFormed)
    : (batch.items.map (·.issueNumber)).Nodup := by
  refine List.pairwise_map.mpr (wellFormed.ordered.imp_of_mem ?_)
  intro first second hf hs before same
  exact ne_of_lt before (wellFormed.issues first hf second hs same)

theorem ReleaseBatch.WellFormed.runs_nodup {batch : ReleaseBatch}
    (wellFormed : batch.WellFormed)
    : (batch.items.filterMap (·.runUuid)).Nodup := by
  refine List.pairwise_filterMap.mpr (wellFormed.ordered.imp_of_mem ?_)
  intro first second hf hs before uuid one other two same
  obtain rfl := same
  exact ne_of_lt before (wellFormed.runs first hf second hs uuid one two)

/-- In every batch that operations lead to, the items are numbered in order, with distinct
issues and distinct runs; and wherever operations lead from there, each item stays in its
place with its issue, and with its run once it has one.
-/
theorem item_identities_kept {ops more : List BatchOp} {batch later : ReleaseBatch}
    (run : (batchSystem fun _ => True).Run ops batch)
    (path : (batchSystem fun _ => True).Path batch more later)
    : batch.items.map (·.position)
          = (List.range batch.items.length).map (fun (index : Nat) => (index : Int) + 1)
        ∧ (batch.items.map (·.issueNumber)).Nodup
        ∧ (batch.items.filterMap (·.runUuid)).Nodup
        ∧ ItemsKept batch.items later.items := by
  have wellFormed := wellFormed_of_run run
  refine ⟨wellFormed.positions, wellFormed.issues_nodup, wellFormed.runs_nodup, ?_⟩
  refine path.invariant (fun reached => ItemsKept batch.items reached.items) ?_
    fun _ item found => ⟨item, found, .refl item⟩
  intro reached op next kept applied
  exact kept.trans (BatchOp.items_step applied).itemsKept

/-- The first of two issues gets a run, and keeps it while it is admitted. -/
theorem item_identities_kept_twoIssues
    : ∃ batch assigned admitted, createReleaseBatch twoIssues = .ok batch
        ∧ assignItemRun batch 1 "run-1" = .ok assigned
        ∧ admitItem assigned 1 {} .epoch = .ok admitted
        ∧ assigned.items.map (·.position)
          = (List.range assigned.items.length).map (fun (index : Nat) => (index : Int) + 1)
        ∧ (assigned.items.map (·.issueNumber)).Nodup
        ∧ (assigned.items.filterMap (·.runUuid)).Nodup
        ∧ ItemsKept assigned.items admitted.items := by
  obtain ⟨batch, assigned, admitted, created, first, second⟩
      : ∃ batch assigned admitted, createReleaseBatch twoIssues = .ok batch
        ∧ assignItemRun batch 1 "run-1" = .ok assigned
        ∧ admitItem assigned 1 {} .epoch = .ok admitted := ⟨_, _, _, rfl, rfl, rfl⟩
  have run : (batchSystem fun _ => True).Run [.assignItemRun 1 "run-1"] assigned :=
    .next (.start ⟨twoIssues, trivial, created⟩) first
  have path : (batchSystem fun _ => True).Path assigned [.admitItem 1 {} .epoch] admitted :=
    .next .stay second
  exact ⟨batch, assigned, admitted, created, first, second, item_identities_kept run path⟩

end AiSdlc.Domain
