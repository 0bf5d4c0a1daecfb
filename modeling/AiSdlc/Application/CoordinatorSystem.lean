import AiSdlc.Application.World
import AiSdlc.Domain.CandidateApproval

/-! The release batch under its coordinator: calls of `reconcile` that may be cut short,
operations of the other services, and the progress of the workers.
-/

namespace AiSdlc.Application

open AiSdlc.Js
open AiSdlc.Domain
open AiSdlc.Async
open AiSdlc.Sqlite
open AiSdlc.Transition

/-- The updates of the stored batch have the property. -/
def updatesOnly (property : ReleaseBatch → Prop) (_ : World) : Request → Prop
  | .updateBatch batch => property batch
  | _ => True

/-- A property of batches that the operations of some kinds keep, and the edits by hand. -/
structure BatchInvariant (kinds : StepKind → Prop) (property : ReleaseBatch → Prop)
    : Prop where
  applied : ∀ op, kinds (stepKind op) → ∀ batch next,
    property batch → op.apply batch = .ok next → property next
  building : ∀ batch, property batch →
    property { batch with status := .building, blockedReason := none }
  promoting : ∀ batch, property batch →
    property { batch with status := .promoting, blockedReason := none }

variable {surroundings : Surroundings} {kinds : StepKind → Prop}
  {allowed : World → Request → Prop} {property : ReleaseBatch → Prop}
  {deps : ReleaseBatchCoordinatorDeps}

/-- The property of the local and of the stored batch. -/
def bothBatches (property : ReleaseBatch → Prop) (locals : Locals) (world : World) : Prop :=
  property locals.batch ∧ property world.batch

theorem Surroundings.Answers.batch_eq {world after : World} {request : Request}
    {reply : request.Reply} (answered : surroundings.Answers world request reply after)
    (other : ∀ batch, request ≠ .updateBatch batch)
    : after.batch = world.batch := by
  cases reply with
  | error error => rw [answered.of_error, World.record_batch]
  | ok answer =>
      cases request with
      | updateBatch batch => exact (other batch rfl).elim
      | findBatch id => rw [answered.of_findBatch.1, World.record_batch]
      | updateRun uuid patch =>
          obtain same | same := answered.of_updateRun
          · rw [same, World.record_batch]
          · rw [same, World.record_batch, World.updateRun]
      | insertRunIfNoActive run => rw [answered.of_insertRun.2, World.record_batch]
      | enqueueJob job => rw [answered.of_enqueueJob, World.record_batch]
      | _ => rw [answered.of_quiet rfl, World.record_batch]

/-- An update stores its batch or leaves the stored one alone. -/
theorem Surroundings.Answers.batch_of_update {world after : World} {batch : ReleaseBatch}
    {reply : (Request.updateBatch batch).Reply}
    (answered : surroundings.Answers world (.updateBatch batch) reply after)
    : after.batch = batch ∨ after.batch = world.batch := by
  cases reply with
  | ok _ => exact .inl (by rw [answered.of_updateBatch.2, World.record_batch])
  | error error => exact .inr (by rw [answered.of_error, World.record_batch])

theorem kept_of_updatesOnly {world after : World} {request : Request} {reply : request.Reply}
    (holds : property world.batch) (permitted : updatesOnly property world request)
    (answered : surroundings.Answers world request reply after)
    : property after.batch := by
  by_cases update : ∃ batch, request = .updateBatch batch
  · obtain ⟨batch, rfl⟩ := update
    obtain same | same := answered.batch_of_update
    · exact same ▸ permitted
    · exact same ▸ holds
  · rw [answered.batch_eq fun batch same => update ⟨batch, same⟩]
    exact holds

section Walk

variable (permits : ∀ world request, updatesOnly property world request → allowed world request)
include permits

theorem tolerates_other {request : Request} (other : ∀ batch, request ≠ .updateBatch batch)
    : Tolerates surroundings.Answers allowed (bothBatches property) request := by
  intro locals world holds
  refine ⟨permits world request ?_, fun reply after answered => ?_⟩
  · cases request with
    | updateBatch batch => exact (other batch rfl).elim
    | _ => trivial
  · unfold bothBatches
    rw [answered.batch_eq other]
    exact holds

/-- The coordinator's steps keep a property of batches that its operations keep. -/
theorem BatchInvariant.steps (invariant : BatchInvariant kinds property)
    : StepInvariant surroundings.Answers allowed kinds (bothBatches property) where
  quiet := by
    intro request quiet
    refine tolerates_other permits ?_
    rintro batch rfl
    simp [Request.isQuiet] at quiet
  pushed _ _ _ holds := holds
  applied op kind _ _ _ holds applied :=
    ⟨invariant.applied op kind _ _ holds.1 applied, holds.2⟩
  building _ _ _ holds := ⟨invariant.building _ holds.1, holds.2⟩
  promoting _ _ _ holds := ⟨invariant.promoting _ holds.1, holds.2⟩
  updated := by
    intro locals world batch holds next
    refine ⟨permits _ _ next.1, fun after answered => ?_, fun error after answered => ?_⟩
    · rw [answered.of_updateBatch.2]
      exact ⟨next.1, next.1⟩
    · rw [answered.of_error]
      exact ⟨holds, next⟩

theorem loads_bothBatches (id : ReleaseBatchId)
    : Loads surroundings.Answers allowed (bothBatches property) id := by
  intro locals world holds
  refine ⟨permits _ _ trivial, fun reply after answered => ?_, fun batch after answered => ?_⟩
  · rw [answered.of_findBatch.1]
    exact holds
  · rw [answered.of_findBatch.1, answered.of_findBatch.2 batch rfl]
    exact ⟨holds.2, holds.2⟩

/-- The work on a found batch keeps a property that all operations of the coordinator
keep.
-/
theorem BatchInvariant.found (invariant : BatchInvariant kinds property)
    (coordinated : ∀ kind, kind ≠ .other → kinds kind) {world : World} {now : Date}
    (holds : property world.batch)
    : (reconcileFound deps now).Ensures surroundings.Answers allowed
        (fun _ _ after => property after.batch) { batch := world.batch, actions := [] }
        world := by
  have steps : StepInvariant surroundings.Answers allowed kinds (bothBatches property) :=
    invariant.steps permits
  have kept : (reconcileFound deps now).Keeps surroundings.Answers allowed
      (bothBatches property) (bothBatches property) :=
    keeps_wholePass steps (fun _ _ holds => holds) coordinated
      (fun run => tolerates_other permits (by simp))
      (fun job => tolerates_other permits (by simp))
      (fun uuid patch => tolerates_other permits (by simp)) (loads_bothBatches permits)
  refine (kept _ _ ⟨holds, holds⟩).mono fun completion locals after ended => ?_
  cases completion with
  | normal _ | returned _ | threw _ => exact ended.2

/-- A property of batches that all operations of the coordinator keep is kept by its
passes.
-/
theorem BatchInvariant.passes (invariant : BatchInvariant kinds property)
    (coordinated : ∀ kind, kind ≠ .other → kinds kind) (batchId : ReleaseBatchId)
    : PassInvariant surroundings.Answers allowed deps batchId
        (fun world => property world.batch) where
  clock := by
    intro world holds
    refine ⟨permits _ _ trivial, fun reply after answered => ?_⟩
    rwa [answered.batch_eq (by simp)]
  lookup := by
    intro world holds
    refine ⟨permits _ _ trivial, fun reply after answered => ?_⟩
    rwa [answered.batch_eq (by simp)]
  found := by
    intro world batch after now holds answered
    have same : batch = after.batch := by
      rw [answered.of_findBatch.1, answered.of_findBatch.2 batch rfl, World.record_batch]
    have stored : property after.batch := by
      rwa [answered.of_findBatch.1, World.record_batch]
    exact same ▸ invariant.found permits coordinated stored

end Walk

/-- A step of the system around a stored batch. -/
inductive CoordinatorLabel
  | reconcile (batchId : ReleaseBatchId) (fuel : Nat)
  | operate (op : BatchOp)
  | work

/-- A created batch in the store: the coordinator reconciles it, in calls that may be cut
short; the other services apply their operations to it; and the workers change the runs and
the jobs.
-/
def coordinatorSystem (deps : ReleaseBatchCoordinatorDeps) (surroundings : Surroundings)
    (admitted : CreateReleaseBatchInput → Prop)
    : System World CoordinatorLabel :=
  {
    initial := fun world =>
      ∃ input, admitted input ∧ createReleaseBatch input = .ok world.batch
    step := fun world label next => match label with
      | .reconcile batchId fuel =>
          (AiSdlc.Application.reconcile deps batchId fuel).Cut surroundings.Answers world next
      | .operate op =>
          ∃ batch, op.apply world.batch = .ok batch ∧ world.updateBatch batch = .ok next
      | .work => next.batch = world.batch
  }

theorem World.updateBatch_eq_ok {world next : World} {batch : ReleaseBatch}
    : world.updateBatch batch = .ok next
      ↔ checkUpdate world.batch batch = .ok () ∧ { world with batch } = next := by
  unfold World.updateBatch
  cases checkUpdate world.batch batch with
  | ok _ => simp
  | error error => simp

/-- A property of created batches that all operations and edits keep holds of the stored
batch in every run of the system.
-/
theorem BatchInvariant.of_run {admitted : CreateReleaseBatchInput → Prop}
    (invariant : BatchInvariant (fun _ => True) property)
    (created : ∀ input batch, admitted input → createReleaseBatch input = .ok batch →
      property batch)
    {labels : List CoordinatorLabel} {world : World}
    (run : (coordinatorSystem deps surroundings admitted).Run labels world)
    : property world.batch := by
  refine run.invariant (fun _ world => property world.batch) ?_ ?_
  · intro world initial
    obtain ⟨input, admits, made⟩ := initial
    exact created input _ admits made
  · intro labels world label next holds taken
    cases label with
    | reconcile batchId fuel =>
        have passes : PassInvariant surroundings.Answers (updatesOnly property) deps batchId
            (fun world => property world.batch) :=
          invariant.passes (fun _ _ permitted => permitted) (fun _ _ => trivial) batchId
        exact (passes.reconcile fuel holds).invariant_of_cut
          (fun _ _ _ _ holds permitted answered => kept_of_updatesOnly holds permitted answered)
          holds taken
    | operate op =>
        obtain ⟨batch, applied, stored⟩ := taken
        obtain ⟨_, rfl⟩ := World.updateBatch_eq_ok.mp stored
        exact invariant.applied op trivial _ _ holds applied
    | work => exact (show next.batch = world.batch from taken) ▸ holds

end AiSdlc.Application
