import AiSdlc.Application.ReleaseBatchCoordinator

/-! What every pass of the coordinator keeps, provided that its kinds of steps keep it.
The statements are walked through once here; the later modules only look at the steps that
matter to them.
-/

namespace AiSdlc.Application

open AiSdlc.Js
open AiSdlc.Domain
open AiSdlc.Async

/-- The requests that neither load the batch nor write to a store. -/
def Request.isQuiet : Request → Bool
  | findBatch _ | updateBatch _ | updateRun _ _ | insertRunIfNoActive _ | enqueueJob _ => false
  | _ => true

/-- The kinds of operations by which the coordinator changes the batch it works on. -/
inductive StepKind
  | item
  | merge
  | batch
  | capture
  | completion
  | other
  deriving DecidableEq, Repr

def stepKind : BatchOp → StepKind
  | .markItemMerged _ _ _ _ => .merge
  | .admitItem _ _ _ | .markItemWaitingMerge _ _ | .attachItemPr _ _ | .markItemBlocked _ _
  | .unblockItem _ => .item
  | .markBatchBlocked _ | .recordPromotionPr _ | .recordPromotionCommit _ => .batch
  | .transitionToAwaitingManualTest _ _ _ => .capture
  | .completeBatch _ _ => .completion
  | _ => .other

variable {State : Type} {environment : Environment State Request Request.Reply}
  {allowed : State → Request → Prop} {invariant exit : Locals → State → Prop}
  {kinds : StepKind → Prop}

/-- A request is allowed wherever the invariant holds, and its replies keep the invariant. -/
def Tolerates (environment : Environment State Request Request.Reply)
    (allowed : State → Request → Prop) (invariant : Locals → State → Prop)
    (request : Request)
    : Prop :=
  ∀ locals state, invariant locals state →
    allowed state request
    ∧ ∀ reply after, environment state request reply after → invariant locals after

/-- The invariant allows loading the batch, and holds of the batch that is loaded. -/
def Loads (environment : Environment State Request Request.Reply)
    (allowed : State → Request → Prop) (invariant : Locals → State → Prop)
    (id : ReleaseBatchId)
    : Prop :=
  ∀ locals state, invariant locals state →
    allowed state (.findBatch id)
    ∧ (∀ reply after, environment state (.findBatch id) reply after → invariant locals after)
    ∧ ∀ batch after, environment state (.findBatch id) (.ok (some batch)) after →
        invariant { locals with batch } after

/-- An invariant of the coordinator's steps of the given kinds: the actions and the quiet
requests keep it, and so do the operations of these kinds, the edits by hand that go with
them, and the updates of the stored batch.
-/
structure StepInvariant (environment : Environment State Request Request.Reply)
    (allowed : State → Request → Prop) (kinds : StepKind → Prop)
    (invariant : Locals → State → Prop)
    : Prop where
  quiet : ∀ request, request.isQuiet = true → Tolerates environment allowed invariant request
  pushed : ∀ locals state actions,
    invariant locals state → invariant { locals with actions } state
  applied : ∀ op, kinds (stepKind op) → ∀ locals state next,
    invariant locals state → op.apply locals.batch = .ok next →
    invariant { locals with batch := next } state
  building : kinds .item → ∀ locals state, invariant locals state →
    invariant { locals with
      batch := { locals.batch with status := .building, blockedReason := none } } state
  promoting : kinds .completion → ∀ locals state, invariant locals state →
    invariant { locals with
      batch := { locals.batch with status := .promoting, blockedReason := none } } state
  updated : ∀ locals state batch,
    invariant locals state → invariant { locals with batch } state →
    allowed state (.updateBatch batch)
    ∧ (∀ after, environment state (.updateBatch batch) (.ok ()) after →
        invariant { locals with batch } after)
    ∧ (∀ error after, environment state (.updateBatch batch) (.error error) after →
        invariant locals after ∧ invariant { locals with batch } after)

theorem keeps_call {request : Request}
    (tolerated : Tolerates environment allowed invariant request)
    (ends : ∀ locals state, invariant locals state → exit locals state)
    : (call request).Keeps environment allowed invariant exit := by
  intro locals state holds
  obtain ⟨permitted, kept⟩ := tolerated locals state holds
  exact ensures_call.mpr ⟨permitted, fun answer after answered => kept _ after answered,
    fun error after answered => ends _ _ (kept _ after answered)⟩

theorem keeps_currentBatch : currentBatch.Keeps environment allowed invariant exit :=
  fun _ _ holds => holds

theorem keeps_checked {α : Type} {outcome : Checked α}
    (ends : ∀ locals state, invariant locals state → exit locals state)
    : (checked outcome).Keeps environment allowed invariant exit := by
  cases outcome with
  | ok value => exact Block.keeps_pure
  | error error => exact Block.keeps_throw ends

/-- A swallowed error leaves the invariant alone. -/
theorem keeps_swallow {block : Statements Unit}
    (tried : block.Keeps environment allowed invariant invariant)
    (ends : ∀ locals state, invariant locals state → exit locals state)
    : (swallow block).Keeps environment allowed invariant exit :=
  Block.keeps_attempt tried (fun _ => Block.keeps_pure) ends

theorem keeps_nonEmpty {name value : String}
    (ends : ∀ locals state, invariant locals state → exit locals state)
    : (nonEmpty name value).Keeps environment allowed invariant exit :=
  Block.keeps_ite (fun _ => Block.keeps_throw ends) fun _ => Block.keeps_pure

section Walk

variable (steps : StepInvariant environment allowed kinds invariant)
  (ends : ∀ locals state, invariant locals state → exit locals state)
include steps ends

theorem keeps_quiet {request : Request} (quiet : request.isQuiet = true)
    : (call request).Keeps environment allowed invariant exit :=
  keeps_call (steps.quiet request quiet) ends

omit ends in
theorem keeps_push {actions : List ReconciliationAction}
    : (push actions).Keeps environment allowed invariant exit :=
  fun locals state holds => steps.pushed locals state _ holds

theorem keeps_applyOp {op : BatchOp} (kind : kinds (stepKind op))
    : (applyOp op).Keeps environment allowed invariant exit := by
  intro locals state holds
  exact ensures_applyOp.mpr
    ⟨fun next applied => steps.applied op kind locals state next holds applied,
      fun _ _ => ends locals state holds⟩

theorem keeps_updateBatch : updateBatch.Keeps environment allowed invariant exit := by
  intro locals state holds
  obtain ⟨permitted, stored, failed⟩ := steps.updated locals state locals.batch holds holds
  exact ensures_updateBatch.mpr ⟨permitted, fun after answered => stored after answered,
    fun error after answered => ends _ _ (failed error after answered).1⟩

/-- Events are quiet: neither of their calls can fail the statements. -/
theorem keeps_publishEvent {deps : ReleaseBatchCoordinatorDeps} {batch : ReleaseBatch}
    {event : BatchEvent}
    : (publishEvent deps batch event).Keeps environment allowed invariant exit :=
  Block.keeps_bind (keeps_swallow (keeps_quiet steps (fun _ _ h => h) rfl) ends) fun _ =>
    Block.keeps_ifThen fun _ =>
      keeps_swallow (keeps_quiet steps (fun _ _ h => h) rfl) ends

theorem keeps_dispatchNotification {deps : ReleaseBatchCoordinatorDeps}
    {type : ReleaseBatchNotificationType} {extra : NotificationExtra}
    : (dispatchNotification deps type extra).Keeps environment allowed invariant exit :=
  Block.keeps_bind keeps_currentBatch fun _ => Block.keeps_ifThen fun _ =>
    keeps_swallow (keeps_quiet steps (fun _ _ h => h) rfl) ends

theorem keeps_blockBatchAndNotify {deps : ReleaseBatchCoordinatorDeps} {reason : String}
    {type : ReleaseBatchNotificationType} (kind : kinds .batch)
    : (blockBatchAndNotify deps reason type).Keeps environment allowed invariant exit :=
  Block.keeps_bind keeps_currentBatch fun _ =>
    Block.keeps_bind (keeps_applyOp steps ends kind) fun _ =>
      Block.keeps_ifThen fun _ => keeps_dispatchNotification steps ends

theorem keeps_blockItemAndNotify {deps : ReleaseBatchCoordinatorDeps} {position : Int}
    {reason : String} (kind : kinds .item)
    : (blockItemAndNotify deps position reason).Keeps environment allowed invariant exit :=
  Block.keeps_bind keeps_currentBatch fun _ =>
    Block.keeps_bind (keeps_applyOp steps ends kind) fun _ =>
      Block.keeps_ifThen fun _ => keeps_dispatchNotification steps ends

theorem keeps_fetchHead {repo : Repository} {branch : String}
    : (fetchHead repo branch).Keeps environment allowed invariant exit :=
  Block.keeps_bind (keeps_quiet steps ends rfl) fun _ => keeps_quiet steps ends rfl

theorem keeps_findMatchingRun {repoId : RepositoryId} {issueNumber : Int}
    {releaseBranch : String}
    : (findMatchingRun repoId issueNumber releaseBranch).Keeps environment allowed invariant
        exit :=
  Block.keeps_bind (keeps_quiet steps ends rfl) fun _ => Block.keeps_pure

theorem keeps_ensureJobEnqueued {repoId : RepositoryId} {runUuid : String}
    {issueNumber : Int} {now : Date}
    (enqueue : ∀ job, job.runId = runUuid → job.issueNumber = issueNumber →
      Tolerates environment allowed invariant (.enqueueJob job))
    : (ensureJobEnqueued repoId runUuid issueNumber now).Keeps environment allowed invariant
        exit := by
  refine Block.keeps_bind (keeps_quiet steps ends rfl) fun repoJobs => ?_
  refine Block.keeps_ite (fun _ => Block.keeps_pure) fun _ => ?_
  refine Block.keeps_bind (keeps_quiet steps ends rfl) fun jobId => ?_
  refine Block.keeps_bind (keeps_nonEmpty ends) fun _ => ?_
  refine Block.keeps_bind (keeps_nonEmpty ends) fun _ => ?_
  refine Block.keeps_bind
    (Block.keeps_ite (fun _ => Block.keeps_throw ends) fun _ => Block.keeps_pure) fun _ => ?_
  exact Block.keeps_bind (keeps_call (enqueue _ rfl rfl) ends) fun _ => Block.keeps_pure

theorem keeps_pinnedRuntimeFor {deps : ReleaseBatchCoordinatorDeps} {batch : ReleaseBatch}
    : (pinnedRuntimeFor deps batch).Keeps environment allowed invariant exit := by
  unfold pinnedRuntimeFor
  split
  · exact Block.keeps_pure
  · exact Block.keeps_bind (keeps_quiet steps ends rfl) fun _ => Block.keeps_pure
  · exact Block.keeps_pure

theorem keeps_insertRun {deps : ReleaseBatchCoordinatorDeps} {batch : ReleaseBatch}
    {item : ReleaseBatchItem} {now : Date}
    (inserts : ∀ run, Tolerates environment allowed invariant (.insertRunIfNoActive run))
    : (insertRun deps batch item now).Keeps environment allowed invariant exit := by
  refine Block.keeps_bind (keeps_quiet steps ends rfl) fun ids => ?_
  refine Block.keeps_bind (keeps_pinnedRuntimeFor steps ends) fun pinnedRuntime => ?_
  refine Block.keeps_attempt ?_ (fun error => ?_) ends
  · exact Block.keeps_bind (keeps_call (inserts _) fun _ _ h => h) fun _ => Block.keeps_pure
  · refine Block.keeps_bind (keeps_findMatchingRun steps ends) fun conflictRun => ?_
    split
    · exact Block.keeps_bind (keeps_push steps) fun _ => Block.keeps_pure
    · exact Block.keeps_throw ends

theorem keeps_runForAdmission {deps : ReleaseBatchCoordinatorDeps} {batch : ReleaseBatch}
    {item : ReleaseBatchItem} {now : Date}
    (inserts : ∀ run, Tolerates environment allowed invariant (.insertRunIfNoActive run))
    : (runForAdmission deps batch item now).Keeps environment allowed invariant exit := by
  refine Block.keeps_bind (keeps_findMatchingRun steps ends) fun existingRun => ?_
  split
  · exact Block.keeps_bind (keeps_push steps) fun _ => Block.keeps_pure
  · exact keeps_insertRun steps ends inserts

theorem keeps_admitSuccessor {deps : ReleaseBatchCoordinatorDeps} {item : ReleaseBatchItem}
    {now : Date} {explicitBaseSha : Option String} (kind : kinds .item)
    (inserts : ∀ run, Tolerates environment allowed invariant (.insertRunIfNoActive run))
    (enqueues : ∀ job, Tolerates environment allowed invariant (.enqueueJob job))
    (updates : ∀ uuid patch, Tolerates environment allowed invariant (.updateRun uuid patch))
    : (admitSuccessor deps item now explicitBaseSha).Keeps environment allowed invariant
        exit := by
  refine Block.keeps_bind keeps_currentBatch fun _ => ?_
  refine Block.keeps_bind (keeps_runForAdmission steps ends inserts) fun run => ?_
  refine Block.keeps_bind
    (keeps_ensureJobEnqueued steps ends fun job _ _ => enqueues job) fun jobRecovered => ?_
  refine Block.keeps_bind (Block.keeps_ifThen fun _ => keeps_push steps) fun _ => ?_
  refine Block.keeps_bind (keeps_checked ends) fun baseSha => ?_
  refine Block.keeps_bind (keeps_call (updates _ _) ends) fun _ => ?_
  refine Block.keeps_bind (keeps_applyOp steps ends kind) fun _ => ?_
  refine Block.keeps_bind (keeps_updateBatch steps ends) fun _ => ?_
  refine Block.keeps_bind (keeps_push steps) fun _ => ?_
  exact Block.keeps_bind keeps_currentBatch fun _ => keeps_publishEvent steps ends

theorem keeps_resumeBuilding {deps : ReleaseBatchCoordinatorDeps}
    {event : ReleaseBatch → BatchEvent} (kind : kinds .item)
    : (resumeBuilding deps event).Keeps environment allowed invariant exit := by
  refine Block.keeps_bind (Block.keeps_assign (steps.building kind)) fun _ => ?_
  refine Block.keeps_bind (keeps_updateBatch steps ends) fun _ => ?_
  refine Block.keeps_bind (keeps_push steps) fun _ => ?_
  exact Block.keeps_bind keeps_currentBatch fun _ => keeps_publishEvent steps ends

theorem keeps_retryMaintenance {deps : ReleaseBatchCoordinatorDeps}
    {currentItem : ReleaseBatchItem} {now : Date} (kind : kinds .item)
    : (retryMaintenance deps currentItem now).Keeps environment allowed invariant exit := by
  refine Block.keeps_bind keeps_currentBatch fun batch => ?_
  refine Block.keeps_bind (keeps_quiet steps ends rfl) fun repo => ?_
  split
  · refine Block.keeps_bind (keeps_quiet steps ends rfl) fun retryMaint => ?_
    exact Block.keeps_ite (fun _ => keeps_resumeBuilding steps ends kind)
      fun _ => Block.keeps_leave ends
  · exact Block.keeps_leave ends

theorem keeps_retryBaseSha {deps : ReleaseBatchCoordinatorDeps}
    {currentItem : ReleaseBatchItem}
    : (retryBaseSha deps currentItem).Keeps environment allowed invariant exit := by
  refine Block.keeps_bind keeps_currentBatch fun batch => ?_
  refine Block.keeps_bind (keeps_quiet steps ends rfl) fun repo => ?_
  refine Block.keeps_bind ?_ fun _ => Block.keeps_pure
  split
  · exact Block.keeps_ite
      (fun _ => Block.keeps_attempt (keeps_fetchHead steps fun _ _ h => h)
        (fun _ => Block.keeps_pure) ends)
      fun _ => Block.keeps_pure
  · exact Block.keeps_pure

theorem keeps_retryBlockedBatch {deps : ReleaseBatchCoordinatorDeps}
    {currentItem : ReleaseBatchItem} {now : Date} (kind : kinds .item)
    : (retryBlockedBatch deps currentItem now).Keeps environment allowed invariant exit := by
  refine Block.keeps_bind keeps_currentBatch fun batch => ?_
  refine Block.keeps_ite (fun _ => keeps_retryMaintenance steps ends kind) fun _ => ?_
  refine Block.keeps_ite (fun _ => ?_) fun _ => Block.keeps_leave ends
  refine Block.keeps_bind (keeps_retryBaseSha steps ends) fun resolvedSha => ?_
  split
  · exact keeps_resumeBuilding steps ends kind
  · exact Block.keeps_leave ends

theorem keeps_blocked {α : Type} {deps : ReleaseBatchCoordinatorDeps} {reason : String}
    {type : ReleaseBatchNotificationType} {actions : List ReconciliationAction}
    {rest : Statements α} (kind : kinds .batch)
    (followed : rest.Keeps environment allowed invariant exit)
    : (do
        blockBatchAndNotify deps reason type
        updateBatch
        push actions
        rest : Statements α).Keeps environment allowed invariant exit := by
  refine Block.keeps_bind (keeps_blockBatchAndNotify steps ends kind) fun _ => ?_
  refine Block.keeps_bind (keeps_updateBatch steps ends) fun _ => ?_
  exact Block.keeps_bind (keeps_push steps) fun _ => followed

theorem leaves_blocked {α : Type} {deps : ReleaseBatchCoordinatorDeps} {reason : String}
    {type : ReleaseBatchNotificationType} {actions : List ReconciliationAction}
    (kind : kinds .batch)
    : (do
        blockBatchAndNotify deps reason type
        updateBatch
        push actions
        leave : Statements α).Leaves environment allowed invariant exit := by
  refine Block.triple_bind (keeps_blockBatchAndNotify steps ends kind) fun _ => ?_
  refine Block.triple_bind (keeps_updateBatch steps ends) fun _ => ?_
  exact Block.triple_bind (keeps_push steps) fun _ => Block.leaves_leave ends

theorem keeps_publishAndLeave {α : Type} {deps : ReleaseBatchCoordinatorDeps}
    {event : ReleaseBatch → BatchEvent}
    : (do
        let batch ← currentBatch
        publishEvent deps batch (event batch)
        leave : Statements α).Keeps environment allowed invariant exit :=
  Block.keeps_bind keeps_currentBatch fun _ =>
    Block.keeps_bind (keeps_publishEvent steps ends) fun _ => Block.keeps_leave ends

theorem keeps_maintainBeforeAdmission {deps : ReleaseBatchCoordinatorDeps}
    {currentItem : ReleaseBatchItem} {now : Date} (kind : kinds .batch)
    : (maintainBeforeAdmission deps currentItem now).Keeps environment allowed invariant
        exit := by
  refine Block.keeps_bind keeps_currentBatch fun batch => ?_
  refine Block.keeps_bind (keeps_quiet steps ends rfl) fun repo => ?_
  split
  · refine Block.keeps_bind (keeps_quiet steps ends rfl) fun mResult => ?_
    exact Block.keeps_ite (fun _ => keeps_push steps)
      fun _ => keeps_blocked steps ends kind (keeps_publishAndLeave steps ends)
  · exact Block.keeps_pure

theorem keeps_certifyReleaseBase {deps : ReleaseBatchCoordinatorDeps}
    {currentItem : ReleaseBatchItem}
    : (certifyReleaseBase deps currentItem).Keeps environment allowed invariant exit := by
  refine Block.keeps_bind keeps_currentBatch fun batch => ?_
  refine Block.keeps_bind (keeps_quiet steps ends rfl) fun repo => ?_
  split
  · refine Block.keeps_attempt ?_ (fun _ => Block.keeps_pure) ends
    refine Block.keeps_bind (keeps_fetchHead steps fun _ _ h => h) fun remoteSha => ?_
    split
    · exact Block.keeps_pure
    · exact Block.keeps_pure
  · exact Block.keeps_pure

theorem keeps_freshBaseSha {deps : ReleaseBatchCoordinatorDeps}
    {currentItem : ReleaseBatchItem}
    : (freshBaseSha deps currentItem).Keeps environment allowed invariant exit := by
  refine Block.keeps_bind keeps_currentBatch fun batch => ?_
  refine Block.keeps_bind (keeps_quiet steps ends rfl) fun repo => ?_
  split
  · exact Block.keeps_bind
      (Block.keeps_attempt (keeps_fetchHead steps fun _ _ h => h) (fun _ => Block.keeps_pure)
        ends)
      fun _ => Block.keeps_pure
  · exact Block.keeps_pure

/-- Case 1 keeps the invariant when the admission itself does. -/
theorem keeps_admitPendingItem {deps : ReleaseBatchCoordinatorDeps}
    {currentItem : ReleaseBatchItem} {now : Date} (item : kinds .item) (batch : kinds .batch)
    (admits : ∀ baseSha,
      (admitSuccessor deps currentItem now baseSha).Keeps environment allowed invariant exit)
    : (admitPendingItem deps currentItem now).Keeps environment allowed invariant exit := by
  refine Block.keeps_bind keeps_currentBatch fun _ => ?_
  refine Block.keeps_bind (Block.keeps_ifThen fun _ => Block.keeps_leave ends) fun _ => ?_
  refine Block.keeps_bind
    (Block.keeps_ifThen fun _ => keeps_retryBlockedBatch steps ends item) fun _ => ?_
  refine Block.keeps_bind keeps_currentBatch fun _ => ?_
  refine Block.keeps_bind (Block.keeps_ifThen fun _ => Block.keeps_leave ends) fun _ => ?_
  refine Block.keeps_bind
    (Block.keeps_ifThen fun _ => keeps_maintainBeforeAdmission steps ends batch) fun _ => ?_
  refine Block.keeps_bind (keeps_certifyReleaseBase steps ends) fun base => ?_
  split
  · exact keeps_blocked steps ends batch (keeps_publishAndLeave steps ends)
  · exact Block.keeps_bind (admits _) fun _ => Block.keeps_leave ends

theorem keeps_blockOnBaseSha {deps : ReleaseBatchCoordinatorDeps} {reason : String}
    (kind : kinds .batch)
    : (blockOnBaseSha deps reason).Keeps environment allowed invariant exit :=
  keeps_blocked steps ends kind (Block.keeps_leave ends)

/-- Case 2 keeps the invariant when the admission itself does. -/
theorem keeps_recoverMissingRun {deps : ReleaseBatchCoordinatorDeps}
    {currentItem : ReleaseBatchItem} {now : Date} (item : kinds .item) (batch : kinds .batch)
    (admits : ∀ baseSha,
      (admitSuccessor deps currentItem now baseSha).Keeps environment allowed invariant exit)
    : (recoverMissingRun deps currentItem now).Keeps environment allowed invariant exit := by
  refine Block.keeps_bind keeps_currentBatch fun _ => ?_
  refine Block.keeps_bind (keeps_findMatchingRun steps ends) fun existingRun => ?_
  split
  · refine Block.keeps_bind
      (Block.keeps_ifThen fun _ => keeps_blockOnBaseSha steps ends batch) fun _ => ?_
    refine Block.keeps_bind (keeps_applyOp steps ends item) fun _ => ?_
    exact Block.keeps_bind (keeps_updateBatch steps ends) fun _ => keeps_push steps
  · refine Block.keeps_bind (keeps_freshBaseSha steps ends) fun baseSha => ?_
    refine Block.keeps_bind
      (Block.keeps_ifThen fun _ => keeps_blockOnBaseSha steps ends batch) fun _ => ?_
    exact Block.keeps_bind (admits baseSha) fun _ => Block.keeps_leave ends

/-- The pull request is assigned only where its update succeeded. -/
theorem keeps_tryAttachPrMetadata {deps : ReleaseBatchCoordinatorDeps}
    {item : ReleaseBatchItem} {run : Run} (kind : kinds .item)
    : (tryAttachPrMetadata deps item run).Keeps environment allowed invariant exit := by
  refine Block.keeps_ite (fun _ => Block.keeps_pure) fun _ => ?_
  refine Block.keeps_attempt ?_ (fun _ => Block.keeps_pure) ends
  refine Block.keeps_bind (keeps_quiet steps (fun _ _ h => h) rfl) fun prNumber => ?_
  split
  · rename_i number found
    intro locals state holds
    simp only [Block.ensures_bind, ensures_currentBatch, Completion.andThen_normal,
      ensures_checked, Completion.andThen_threw]
    refine ⟨fun next applied => ?_, fun _ _ => holds⟩
    have assigned :=
      steps.applied (.attachItemPr item.position number) kind locals state next holds applied
    obtain ⟨permitted, stored, failed⟩ := steps.updated locals state next holds assigned
    exact ensures_call.mpr ⟨permitted, fun _ after answered => stored after answered,
      fun error after answered => (failed error after answered).1⟩
  · exact Block.keeps_pure

theorem keeps_unblockCurrentItem {position : Int} (kind : kinds .item)
    : (unblockCurrentItem position).Keeps environment allowed invariant exit := by
  refine Block.keeps_bind (keeps_applyOp steps ends kind) fun _ => ?_
  exact Block.keeps_bind (keeps_updateBatch steps ends) fun _ => keeps_push steps

theorem keeps_publishRunUnblocked {deps : ReleaseBatchCoordinatorDeps}
    {currentItem : ReleaseBatchItem} {runUuid outcome : String} {now : Date}
    : (publishRunUnblocked deps currentItem runUuid outcome now).Keeps environment allowed
        invariant exit :=
  Block.keeps_bind keeps_currentBatch fun _ => keeps_publishEvent steps ends

theorem keeps_markWaitingMerge {deps : ReleaseBatchCoordinatorDeps} {position prNumber : Int}
    {runUuid : Option String} {now : Date} (kind : kinds .item)
    : (markWaitingMerge deps position prNumber runUuid now).Keeps environment allowed
        invariant exit := by
  refine Block.keeps_bind keeps_currentBatch fun _ => ?_
  split
  · refine Block.keeps_ifThen fun _ => ?_
    refine Block.keeps_bind (keeps_applyOp steps ends kind) fun _ => ?_
    refine Block.keeps_bind (keeps_updateBatch steps ends) fun _ => ?_
    refine Block.keeps_bind (keeps_push steps) fun _ => ?_
    exact Block.keeps_bind keeps_currentBatch fun _ => keeps_publishEvent steps ends
  · exact Block.keeps_pure

theorem keeps_blockForReason {deps : ReleaseBatchCoordinatorDeps} {item : ReleaseBatchItem}
    {reason message : String} {runUuid : Option String} {now : Date} (kind : kinds .item)
    : (blockForReason deps item reason message runUuid now).Keeps environment allowed
        invariant exit := by
  refine Block.keeps_ifThen fun _ => ?_
  refine Block.keeps_bind (keeps_blockItemAndNotify steps ends kind) fun _ => ?_
  refine Block.keeps_bind (keeps_updateBatch steps ends) fun _ => ?_
  refine Block.keeps_bind (keeps_push steps) fun _ => ?_
  exact Block.keeps_bind keeps_currentBatch fun _ => keeps_publishEvent steps ends

theorem keeps_attachPr {deps : ReleaseBatchCoordinatorDeps} {currentItem : ReleaseBatchItem}
    {run : Run} (kind : kinds .item)
    : (attachPr deps currentItem run).Keeps environment allowed invariant exit := by
  refine Block.keeps_bind (keeps_tryAttachPrMetadata steps ends kind) fun prAttached => ?_
  exact Block.keeps_bind (Block.keeps_ifThen fun _ => keeps_push steps)
    fun _ => Block.keeps_pure

/-- The run-state table keeps the invariant when a job may be enqueued for a live run. -/
theorem keeps_reconcileRunState {deps : ReleaseBatchCoordinatorDeps}
    {currentItem : ReleaseBatchItem} {run : Run} {runUuid : String} {now : Date}
    (kind : kinds .item)
    (enqueue : run.status = .queued ∨ run.status = .running → ∀ job, job.runId = runUuid →
      job.issueNumber = currentItem.issueNumber →
      Tolerates environment allowed invariant (.enqueueJob job))
    : (reconcileRunState deps currentItem run runUuid now).Keeps environment allowed
        invariant exit := by
  have live (live : run.status = .queued ∨ run.status = .running) (batch : ReleaseBatch)
      (blockedByRun : Bool)
      : (do
          let jobRecovered ← ensureJobEnqueued batch.repoId runUuid currentItem.issueNumber now
          Block.ifThen jobRecovered (push [.jobRecovered])
          Block.ifThen blockedByRun do
            unblockCurrentItem currentItem.position
            publishRunUnblocked deps currentItem runUuid "became active" now
          let _ ← attachPr deps currentItem run).Keeps environment allowed invariant exit := by
    refine Block.keeps_bind (keeps_ensureJobEnqueued steps ends (enqueue live))
      fun jobRecovered => ?_
    refine Block.keeps_bind (Block.keeps_ifThen fun _ => keeps_push steps) fun _ => ?_
    refine Block.keeps_bind (Block.keeps_ifThen fun _ => ?_) fun _ =>
      Block.keeps_bind (keeps_attachPr steps ends kind) fun _ => Block.keeps_pure
    exact Block.keeps_bind (keeps_unblockCurrentItem steps ends kind)
      fun _ => keeps_publishRunUnblocked steps ends
  refine Block.keeps_bind keeps_currentBatch fun batch => ?_
  cases status : run.status with
  | queued => exact live (.inl status) batch _
  | running => exact live (.inr status) batch _
  | waiting =>
      refine Block.keeps_bind
        (Block.keeps_ifThen fun _ => keeps_unblockCurrentItem steps ends kind) fun _ => ?_
      refine Block.keeps_bind (keeps_attachPr steps ends kind) fun prAttached => ?_
      split
      · exact keeps_markWaitingMerge steps ends kind
      · exact Block.keeps_pure
  | passed =>
      refine Block.keeps_bind (Block.keeps_ifThen fun _ => ?_) fun _ =>
        Block.keeps_bind (keeps_attachPr steps ends kind) fun _ => Block.keeps_pure
      exact Block.keeps_bind (keeps_unblockCurrentItem steps ends kind)
        fun _ => keeps_publishRunUnblocked steps ends
  | failed | cancelled | blocked | needsHumanReview =>
      exact keeps_blockForReason steps ends kind

theorem keeps_certifiedSha {deps : ReleaseBatchCoordinatorDeps} {batch : ReleaseBatch}
    {readiness : PrMergeReadiness}
    : (certifiedSha deps batch readiness).Keeps environment allowed invariant exit := by
  refine Block.keeps_bind (keeps_quiet steps ends rfl) fun repo => ?_
  refine Block.keeps_bind ?_ fun _ => Block.keeps_pure
  split
  · exact Block.keeps_attempt (keeps_fetchHead steps fun _ _ h => h)
      (fun _ => Block.keeps_pure) ends
  · exact Block.keeps_pure

/-- The pull-request table keeps the invariant when the certification of a merge does. -/
theorem keeps_checkAndReconcilePrMerge {deps : ReleaseBatchCoordinatorDeps}
    {position prNumber : Int} {now : Date} (kind : kinds .item)
    (certifies : ∀ input, (certifyItemMerged deps input).Keeps environment allowed invariant
      exit)
    : (checkAndReconcilePrMerge deps position prNumber now).Keeps environment allowed
        invariant exit := by
  refine Block.keeps_ifThen fun _ => ?_
  refine Block.keeps_bind keeps_currentBatch fun batch => ?_
  refine Block.keeps_bind (keeps_quiet steps ends rfl) fun repo => ?_
  refine Block.keeps_bind ?_ fun readiness => ?_
  · split
    · refine Block.keeps_attempt ?_ (fun _ => Block.keeps_pure) ends
      exact Block.keeps_bind (keeps_quiet steps (fun _ _ h => h) rfl) fun _ => Block.keeps_pure
    · exact Block.keeps_pure
  split
  · split
    · exact keeps_blockForReason steps ends kind
    · refine Block.keeps_bind (Block.keeps_ifThen fun _ => ?_) fun _ => ?_
      · refine Block.keeps_bind (keeps_unblockCurrentItem steps ends kind) fun _ => ?_
        exact Block.keeps_bind keeps_currentBatch fun _ => keeps_publishEvent steps ends
      · refine Block.keeps_ite (fun _ => ?_) fun _ =>
          Block.keeps_ifThen fun _ => keeps_markWaitingMerge steps ends kind
        exact Block.keeps_bind (keeps_certifiedSha steps ends) fun _ => certifies _
  · exact Block.keeps_pure

theorem keeps_healRun {runUuid : Option String} {completedAt : Date}
    (heals : ∀ uuid patch, Tolerates environment allowed invariant (.updateRun uuid patch))
    : (healRun runUuid completedAt).Keeps environment allowed invariant exit := by
  unfold healRun
  split
  · refine Block.keeps_bind (keeps_quiet steps ends rfl) fun run => ?_
    exact Block.keeps_ifThen fun _ => keeps_call (heals _ _) ends
  · exact Block.keeps_pure

/-- A certification keeps the invariant when loading the batch does. -/
theorem keeps_certifyItemMerged {deps : ReleaseBatchCoordinatorDeps}
    {input : CertifyItemMergedInput} (kind : kinds .merge)
    (loads : Loads environment allowed invariant input.batchId)
    (heals : ∀ uuid patch, Tolerates environment allowed invariant (.updateRun uuid patch))
    : (certifyItemMerged deps input).Keeps environment allowed invariant exit := by
  refine Block.keeps_bind ?_ fun now => ?_
  · split
    · exact Block.keeps_pure
    · exact keeps_quiet steps ends rfl
  intro locals state holds
  obtain ⟨permitted, kept, loaded⟩ := loads locals state holds
  refine Block.ensures_bind.mpr (ensures_call.mpr ⟨permitted, fun found after answered => ?_,
    fun error after answered => ends _ _ (kept _ after answered)⟩)
  cases found with
  | none => exact ends _ _ (kept _ after answered)
  | some batch =>
      simp only [Completion.andThen_normal, Block.ensures_bind, ensures_assignBatch]
      suffices certified : Block.Keeps environment allowed invariant exit _ from
        certified _ _ (loaded batch after answered)
      split
      · exact Block.keeps_throw ends
      refine Block.keeps_ite (fun _ => ?_) fun _ => ?_
      · exact Block.keeps_bind (keeps_healRun steps ends heals) fun _ => Block.keeps_leave ends
      · refine Block.keeps_bind (keeps_applyOp steps ends kind) fun _ => ?_
        refine Block.keeps_bind (keeps_updateBatch steps ends) fun _ => ?_
        refine Block.keeps_bind (keeps_healRun steps ends heals) fun _ => ?_
        refine Block.keeps_bind keeps_currentBatch fun _ => ?_
        exact Block.keeps_bind (keeps_publishEvent steps ends) fun _ => Block.keeps_leave ends

theorem keeps_openPromotionPr {deps : ReleaseBatchCoordinatorDeps} {repo : Repository}
    {candidateSha : String} {now : Date} (kind : kinds .batch)
    : (openPromotionPr deps repo candidateSha now).Keeps environment allowed invariant
        exit := by
  refine Block.keeps_bind keeps_currentBatch fun _ => ?_
  refine Block.keeps_bind (keeps_quiet steps ends rfl) fun content => ?_
  refine Block.keeps_bind (keeps_quiet steps ends rfl) fun prNumber => ?_
  refine Block.keeps_bind (Block.keeps_ifThen fun _ =>
    keeps_swallow (keeps_quiet steps (fun _ _ h => h) rfl) ends) fun _ => ?_
  refine Block.keeps_bind (keeps_applyOp steps ends kind) fun _ => ?_
  refine Block.keeps_bind (keeps_updateBatch steps ends) fun _ => ?_
  refine Block.keeps_bind (keeps_push steps) fun _ => ?_
  exact Block.keeps_bind keeps_currentBatch fun _ => keeps_publishEvent steps ends

theorem keeps_ensurePromotionPr {deps : ReleaseBatchCoordinatorDeps} {candidateSha : String}
    {now : Date} (kind : kinds .batch)
    : (ensurePromotionPr deps candidateSha now).Keeps environment allowed invariant exit := by
  refine Block.keeps_bind keeps_currentBatch fun _ => Block.keeps_ifThen fun _ => ?_
  refine Block.keeps_bind (keeps_quiet steps ends rfl) fun repo => ?_
  split
  · exact keeps_swallow (keeps_quiet steps (fun _ _ h => h) rfl) ends
  · exact keeps_swallow (keeps_openPromotionPr steps (fun _ _ h => h) kind) ends
  · exact Block.keeps_pure

theorem keeps_fetchHeads {repo : Repository} {batch : ReleaseBatch}
    : (fetchHeads repo batch).Keeps environment allowed invariant exit := by
  refine Block.keeps_bind (keeps_quiet steps ends rfl) fun _ => ?_
  refine Block.keeps_bind (keeps_quiet steps ends rfl) fun _ => ?_
  refine Block.keeps_bind (keeps_quiet steps ends rfl) fun _ => ?_
  exact Block.keeps_bind (keeps_quiet steps ends rfl) fun _ => Block.keeps_pure

theorem keeps_maintainAfterLastItem {deps : ReleaseBatchCoordinatorDeps}
    (kind : kinds .batch)
    : (maintainAfterLastItem deps).Keeps environment allowed invariant exit := by
  refine Block.keeps_bind keeps_currentBatch fun _ => Block.keeps_ifThen fun _ => ?_
  refine Block.keeps_bind (keeps_quiet steps ends rfl) fun repo => ?_
  split
  · refine Block.keeps_bind (keeps_quiet steps ends rfl) fun mResult => ?_
    exact Block.keeps_ite (fun _ => keeps_push steps)
      fun _ => keeps_blocked steps ends kind (Block.keeps_leave ends)
  · exact Block.keeps_pure

theorem keeps_captureCandidate {deps : ReleaseBatchCoordinatorDeps} {repo : Repository}
    {now : Date} (batch : kinds .batch) (capture : kinds .capture)
    : (captureCandidate deps repo now).Keeps environment allowed invariant exit := by
  refine Block.keeps_bind keeps_currentBatch fun _ => ?_
  refine Block.keeps_bind (keeps_fetchHeads steps ends) fun heads => ?_
  split
  · refine Block.keeps_bind (keeps_quiet steps ends rfl) fun isSourceContained => ?_
    refine Block.keeps_ite (fun _ => ?_) fun _ =>
      keeps_blocked steps ends batch (keeps_publishAndLeave steps ends)
    refine Block.keeps_bind (keeps_quiet steps ends rfl) fun candidateTreeSha => ?_
    refine Block.keeps_bind (keeps_applyOp steps ends capture) fun _ => ?_
    refine Block.keeps_bind (keeps_updateBatch steps ends) fun _ => ?_
    refine Block.keeps_bind (keeps_push steps) fun _ => ?_
    refine Block.keeps_bind keeps_currentBatch fun _ => ?_
    refine Block.keeps_bind (keeps_publishEvent steps ends) fun _ => ?_
    refine Block.keeps_bind (keeps_ensurePromotionPr steps ends batch) fun _ => ?_
    refine Block.keeps_bind keeps_currentBatch fun _ => ?_
    exact Block.keeps_bind (keeps_dispatchNotification steps ends)
      fun _ => Block.keeps_leave ends
  · exact Block.keeps_pure

theorem keeps_completeBuildStage {deps : ReleaseBatchCoordinatorDeps} {now : Date}
    (batch : kinds .batch) (capture : kinds .capture)
    : (completeBuildStage deps now).Keeps environment allowed invariant exit := by
  refine Block.keeps_bind keeps_currentBatch fun _ => ?_
  refine Block.keeps_bind (keeps_push steps) fun _ => ?_
  refine Block.keeps_bind (keeps_publishEvent steps ends) fun _ => ?_
  refine Block.keeps_bind (keeps_maintainAfterLastItem steps ends batch) fun _ => ?_
  refine Block.keeps_bind (keeps_quiet steps ends rfl) fun repo => ?_
  refine Block.keeps_bind ?_ fun _ => Block.keeps_leave ends
  split
  · exact keeps_swallow (keeps_captureCandidate steps (fun _ _ h => h) batch capture) ends
  · exact Block.keeps_pure

theorem keeps_blockOnMovement {deps : ReleaseBatchCoordinatorDeps} {reason : String}
    {actions : List ReconciliationAction} (kind : kinds .batch)
    : (blockOnMovement deps reason actions).Keeps environment allowed invariant exit := by
  refine Block.keeps_bind keeps_currentBatch fun _ => ?_
  refine Block.keeps_bind (keeps_blockBatchAndNotify steps ends kind) fun _ => ?_
  refine Block.keeps_bind (keeps_updateBatch steps ends) fun _ => ?_
  refine Block.keeps_bind (Block.keeps_ifThen fun _ => keeps_push steps) fun _ => ?_
  exact Block.keeps_bind (keeps_push steps) fun _ => Block.keeps_leave ends

theorem keeps_verifyPromotionCommit {deps : ReleaseBatchCoordinatorDeps} {repo : Repository}
    {remoteSourceSha : Option String} (kind : kinds .batch)
    : (verifyPromotionCommit deps repo remoteSourceSha).Keeps environment allowed invariant
        exit := by
  refine Block.keeps_bind keeps_currentBatch fun _ => ?_
  split
  · refine Block.keeps_ite (fun _ => ?_) fun _ => Block.keeps_pure
    refine Block.keeps_bind (Block.keeps_attempt
      (Block.keeps_bind (keeps_quiet steps (fun _ _ h => h) rfl) fun _ => Block.keeps_pure)
      (fun _ => Block.keeps_pure) ends) fun resolvedSha => ?_
    refine Block.keeps_bind ?_ fun _ => Block.keeps_pure
    split
    · refine Block.keeps_ifThen fun _ => keeps_swallow ?_ ends
      exact Block.keeps_bind (keeps_applyOp steps (fun _ _ h => h) kind)
        fun _ => keeps_updateBatch steps fun _ _ h => h
    · exact Block.keeps_pure
  · exact Block.keeps_pure

theorem keeps_checkBranchMovement {deps : ReleaseBatchCoordinatorDeps} {repo : Repository}
    {candidateSha : String} (kind : kinds .batch)
    : (checkBranchMovement deps repo candidateSha).Keeps environment allowed invariant
        exit := by
  refine Block.keeps_bind keeps_currentBatch fun _ => ?_
  refine Block.keeps_bind (keeps_fetchHeads steps ends) fun heads => ?_
  refine Block.keeps_bind
    (Block.keeps_ifThen fun _ => keeps_blockOnMovement steps ends kind) fun _ => ?_
  refine Block.keeps_bind (keeps_verifyPromotionCommit steps ends kind) fun _ => ?_
  split
  · refine Block.keeps_bind (keeps_quiet steps ends rfl) fun isContained => ?_
    refine Block.keeps_bind keeps_currentBatch fun _ => ?_
    exact Block.keeps_ifThen fun _ => keeps_blockOnMovement steps ends kind
  · exact Block.keeps_pure

theorem keeps_watchCandidate {deps : ReleaseBatchCoordinatorDeps} {now : Date}
    (kind : kinds .batch)
    : (watchCandidate deps now).Keeps environment allowed invariant exit := by
  refine Block.keeps_bind keeps_currentBatch fun _ => ?_
  refine Block.keeps_bind (keeps_quiet steps ends rfl) fun repo => ?_
  refine Block.keeps_bind ?_ fun _ => ?_
  · split
    · exact keeps_swallow (keeps_checkBranchMovement steps (fun _ _ h => h) kind) ends
    · exact Block.keeps_pure
  refine Block.keeps_bind keeps_currentBatch fun _ => ?_
  split
  · exact Block.keeps_ifThen fun _ => keeps_ensurePromotionPr steps ends kind
  · exact Block.keeps_pure

theorem keeps_isPromotionRecoveryEligible {deps : ReleaseBatchCoordinatorDeps}
    {batch : ReleaseBatch}
    : (isPromotionRecoveryEligible deps batch).Keeps environment allowed invariant exit :=
  Block.keeps_ite
    (fun _ => Block.keeps_bind (keeps_quiet steps ends rfl) fun _ => Block.keeps_pure)
    fun _ => Block.keeps_pure

theorem keeps_blockOnTreeMismatch {deps : ReleaseBatchCoordinatorDeps} (kind : kinds .batch)
    : (blockOnTreeMismatch deps).Keeps environment allowed invariant exit :=
  keeps_blocked steps ends kind (Block.keeps_leave ends)

theorem keeps_verifyPromotedSource {deps : ReleaseBatchCoordinatorDeps} {repo : Repository}
    {promoSha : Option String} (kind : kinds .batch)
    : (verifyPromotedSource deps repo promoSha).Keeps environment allowed invariant exit := by
  refine Block.keeps_ite (fun _ => ?_) fun _ => Block.keeps_pure
  refine Block.keeps_bind keeps_currentBatch fun batch => ?_
  refine Block.keeps_bind (keeps_fetchHead steps ends) fun sourceSha => ?_
  split
  · refine Block.keeps_bind (keeps_quiet steps ends rfl) fun isAncestor => ?_
    refine Block.keeps_bind (Block.keeps_ifThen fun _ => ?_) fun _ => Block.keeps_pure
    split
    · refine Block.keeps_bind (keeps_quiet steps ends rfl) fun sourceTreeSha => ?_
      exact Block.keeps_ifThen fun _ => keeps_blockOnTreeMismatch steps ends kind
    · exact keeps_blockOnTreeMismatch steps ends kind
  · exact Block.keeps_leave ends

theorem keeps_announceCompletion {deps : ReleaseBatchCoordinatorDeps}
    {promoSha : Option String} {now : Date}
    : (announceCompletion deps promoSha now).Keeps environment allowed invariant exit := by
  refine Block.keeps_bind keeps_currentBatch fun _ => ?_
  refine Block.keeps_bind (keeps_dispatchNotification steps ends) fun _ => ?_
  refine Block.keeps_bind (keeps_push steps) fun _ => ?_
  exact Block.keeps_bind (keeps_publishEvent steps ends) fun _ => Block.keeps_leave ends

theorem keeps_completePromotion {deps : ReleaseBatchCoordinatorDeps}
    {promoSha : Option String} {now : Date} (batch : kinds .batch)
    (completion : kinds .completion)
    : (completePromotion deps promoSha now).Keeps environment allowed invariant exit := by
  refine Block.keeps_bind ?_ fun _ => ?_
  · unfold recordKnownCommit
    split
    · exact keeps_applyOp steps ends batch
    · exact Block.keeps_pure
  refine Block.keeps_bind keeps_currentBatch fun _ => ?_
  refine Block.keeps_bind (Block.keeps_ifThen fun _ =>
    Block.keeps_assign (steps.promoting completion)) fun _ => ?_
  refine Block.keeps_bind (keeps_applyOp steps ends completion) fun _ => ?_
  exact Block.keeps_bind (keeps_updateBatch steps ends)
    fun _ => keeps_announceCompletion steps ends

theorem keeps_blockOnPromotionPr {deps : ReleaseBatchCoordinatorDeps} {reason : String}
    (kind : kinds .batch)
    : (blockOnPromotionPr deps reason).Keeps environment allowed invariant exit :=
  keeps_blocked steps ends kind (Block.keeps_leave ends)

theorem keeps_checkPromotionPr {deps : ReleaseBatchCoordinatorDeps} {repo : Repository}
    {prNumber : Int} {now : Date} (batch : kinds .batch) (completion : kinds .completion)
    : (checkPromotionPr deps repo prNumber now).Keeps environment allowed invariant exit := by
  refine Block.keeps_bind keeps_currentBatch fun _ => ?_
  refine Block.keeps_bind (keeps_quiet steps ends rfl) fun readiness => ?_
  refine Block.keeps_ite (fun _ => ?_) fun _ => ?_
  · exact Block.keeps_bind (keeps_verifyPromotedSource steps ends batch)
      fun _ => keeps_completePromotion steps ends batch completion
  refine Block.keeps_ite (fun _ => keeps_blockOnPromotionPr steps ends batch) fun _ => ?_
  refine Block.keeps_ite (fun _ => keeps_blockOnPromotionPr steps ends batch) fun _ => ?_
  exact Block.keeps_ifThen fun _ =>
    Block.keeps_bind (Block.keeps_assign (steps.promoting completion))
      fun _ => keeps_updateBatch steps ends

theorem keeps_reconcilePromotionReadiness {deps : ReleaseBatchCoordinatorDeps} {now : Date}
    (batch : kinds .batch) (completion : kinds .completion)
    : (reconcilePromotionReadiness deps now).Keeps environment allowed invariant exit := by
  refine Block.keeps_bind keeps_currentBatch fun _ => ?_
  refine Block.keeps_bind (keeps_quiet steps ends rfl) fun repo => ?_
  refine Block.keeps_bind ?_ fun _ => Block.keeps_leave ends
  split
  · exact Block.keeps_ifThen fun _ =>
      keeps_swallow (keeps_checkPromotionPr steps (fun _ _ h => h) batch completion) ends
  · exact Block.keeps_pure

/-- The part for a batch with all items merged keeps the invariant when the promotion
does.
-/
theorem keeps_reconcileMergedBatch {deps : ReleaseBatchCoordinatorDeps} {now : Date}
    (batch : kinds .batch) (capture : kinds .capture)
    (promotes : (reconcilePromotionReadiness deps now).Keeps environment allowed invariant
      exit)
    : (reconcileMergedBatch deps now).Keeps environment allowed invariant exit := by
  refine Block.keeps_bind keeps_currentBatch fun _ => ?_
  refine Block.keeps_bind
    (Block.keeps_ifThen fun _ => keeps_completeBuildStage steps ends batch capture) fun _ => ?_
  refine Block.keeps_bind
    (Block.keeps_ifThen fun _ => keeps_watchCandidate steps ends batch) fun _ => ?_
  refine Block.keeps_bind keeps_currentBatch fun _ => ?_
  refine Block.keeps_bind (Block.keeps_ite (fun _ => Block.keeps_pure)
    fun _ => keeps_isPromotionRecoveryEligible steps ends) fun _ => ?_
  exact Block.keeps_bind (Block.keeps_ifThen fun _ => promotes) fun _ => Block.keeps_leave ends

theorem keeps_healMergedRuns {now : Date}
    (heals : ∀ uuid patch, Tolerates environment allowed invariant (.updateRun uuid patch))
    : (healMergedRuns now).Keeps environment allowed invariant exit :=
  Block.keeps_bind keeps_currentBatch fun _ => Block.keeps_forEach fun _ _ =>
    Block.keeps_ifThen fun _ => keeps_healRun steps ends heals

/-- The part for an item whose run is recorded keeps the invariant when the table over its
run and the certification of a merge do.
-/
theorem keeps_reconcileCurrentItem {deps : ReleaseBatchCoordinatorDeps}
    {currentItem : ReleaseBatchItem} {now : Date} (kind : kinds .item)
    (enqueue : ∀ job, job.issueNumber = currentItem.issueNumber →
      Tolerates environment allowed invariant (.enqueueJob job))
    (certifies : ∀ input, (certifyItemMerged deps input).Keeps environment allowed invariant
      exit)
    : (reconcileCurrentItem deps currentItem now).Keeps environment allowed invariant
        exit := by
  refine Block.keeps_bind (keeps_quiet steps ends rfl) fun found => ?_
  split
  · exact Block.keeps_leave ends
  · refine Block.keeps_bind
      (keeps_reconcileRunState steps ends kind fun _ job _ issue => enqueue job issue)
      fun _ => ?_
    refine Block.keeps_bind keeps_currentBatch fun _ => ?_
    refine Block.keeps_bind ?_ fun _ => ?_
    · split
      · exact Block.keeps_ifThen fun _ =>
          keeps_checkAndReconcilePrMerge steps ends kind certifies
      · exact Block.keeps_pure
    · exact Block.keeps_bind Block.keeps_locals fun _ =>
        Block.keeps_bind (Block.keeps_ifThen fun _ => keeps_push steps)
          fun _ => Block.keeps_leave ends

omit steps ends in
/-- The part for the first unmerged item keeps the invariant when its parts do. -/
theorem keeps_reconcileUnmergedItem {deps : ReleaseBatchCoordinatorDeps}
    {currentItem : ReleaseBatchItem} {now : Date}
    (pending : currentItem.status = .pending →
      (admitPendingItem deps currentItem now).Keeps environment allowed invariant exit)
    (missing : isSet currentItem.runUuid = false →
      (recoverMissingRun deps currentItem now).Keeps environment allowed invariant exit)
    (recorded : (reconcileCurrentItem deps currentItem now).Keeps environment allowed
      invariant exit)
    : (reconcileUnmergedItem deps currentItem now).Keeps environment allowed invariant
        exit := by
  refine Block.keeps_bind
    (Block.keeps_ifThen fun isPending => pending (by simpa using isPending)) fun _ => ?_
  exact Block.keeps_bind (Block.keeps_ifThen fun unset => missing (by simpa using unset))
    fun _ => recorded

/-- The work on a found batch keeps the invariant when the part that it comes to does. -/
theorem ensures_reconcileFound {deps : ReleaseBatchCoordinatorDeps} {now : Date}
    {locals : Locals} {state : State} (holds : invariant locals state)
    (heals : ∀ uuid patch, Tolerates environment allowed invariant (.updateRun uuid patch))
    (merged : locals.batch.allMerged = true →
      (reconcileMergedBatch deps now).Keeps environment allowed invariant exit)
    (unmerged : ∀ currentItem,
      locals.batch.items.find? (!·.isMerged) = some currentItem →
      (reconcileUnmergedItem deps currentItem now).Keeps environment allowed invariant exit)
    : (reconcileFound deps now).Ensures environment allowed
        (Completion.ending invariant exit) locals state := by
  rw [reconcileFound, Block.ensures_bind, ensures_currentBatch, Completion.andThen_normal]
  refine Block.keeps_bind (Block.keeps_ifThen fun _ => Block.keeps_leave ends) (fun _ => ?_)
    locals state holds
  refine Block.keeps_bind (Block.keeps_ifThen fun _ => ?_) fun _ => ?_
  · refine Block.keeps_bind (keeps_isPromotionRecoveryEligible steps ends) fun _ => ?_
    exact Block.keeps_ifThen fun _ => Block.keeps_leave ends
  refine Block.keeps_bind (keeps_healMergedRuns steps ends heals) fun _ => ?_
  cases found : locals.batch.items.filter (!·.isMerged) with
  | nil =>
      refine merged (List.all_eq_true.mpr fun item member => ?_)
      simpa using List.filter_eq_nil_iff.mp found item member
  | cons currentItem rest =>
      refine unmerged currentItem ?_
      rw [← List.head?_filter, found, List.head?_cons]

/-- A whole pass keeps the invariant when all kinds of its steps and all requests do. -/
theorem keeps_wholePass {deps : ReleaseBatchCoordinatorDeps} {now : Date}
    (coordinated : ∀ kind, kind ≠ .other → kinds kind)
    (inserts : ∀ run, Tolerates environment allowed invariant (.insertRunIfNoActive run))
    (enqueues : ∀ job, Tolerates environment allowed invariant (.enqueueJob job))
    (updates : ∀ uuid patch, Tolerates environment allowed invariant (.updateRun uuid patch))
    (loads : ∀ id, Loads environment allowed invariant id)
    : (reconcileFound deps now).Keeps environment allowed invariant exit := by
  intro locals state holds
  have item := coordinated .item (by decide)
  have batch := coordinated .batch (by decide)
  have completion := coordinated .completion (by decide)
  have capture := coordinated .capture (by decide)
  have merge := coordinated .merge (by decide)
  have admits (currentItem : ReleaseBatchItem) (baseSha : Option String)
      : (admitSuccessor deps currentItem now baseSha).Keeps environment allowed invariant
          exit :=
    keeps_admitSuccessor steps ends item inserts enqueues updates
  refine ensures_reconcileFound steps ends holds updates (fun _ => ?_) fun currentItem _ => ?_
  · exact keeps_reconcileMergedBatch steps ends batch capture
      (keeps_reconcilePromotionReadiness steps ends batch completion)
  · refine keeps_reconcileUnmergedItem (fun _ => ?_) (fun _ => ?_) ?_
    · exact keeps_admitPendingItem steps ends item batch (admits currentItem)
    · exact keeps_recoverMissingRun steps ends item batch (admits currentItem)
    · exact keeps_reconcileCurrentItem steps ends item (fun job _ => enqueues job)
        fun input => keeps_certifyItemMerged steps ends merge (loads input.batchId) updates

end Walk

/-- What a pass needs of the world before it: the clock and the lookup keep it, and the work
on a found batch leaves with it.
-/
structure PassInvariant (environment : Environment State Request Request.Reply)
    (allowed : State → Request → Prop) (deps : ReleaseBatchCoordinatorDeps)
    (batchId : ReleaseBatchId) (holds : State → Prop)
    : Prop where
  clock : ∀ state, holds state → allowed state .now
    ∧ ∀ reply after, environment state .now reply after → holds after
  lookup : ∀ state, holds state → allowed state (.findBatch batchId)
    ∧ ∀ reply after, environment state (.findBatch batchId) reply after → holds after
  found : ∀ state batch after now, holds state →
    environment state (.findBatch batchId) (.ok (some batch)) after →
    (reconcileFound deps now).Ensures environment allowed (fun _ _ after => holds after)
      { batch, actions := [] } after

/-- A pass ends with what its work on the found batch leaves with. -/
theorem PassInvariant.reconcilePass {deps : ReleaseBatchCoordinatorDeps}
    {batchId : ReleaseBatchId} {holds : State → Prop}
    (passes : PassInvariant environment allowed deps batchId holds) {state : State}
    (before : holds state)
    : (reconcilePass deps batchId).Ensures environment allowed (fun _ after => holds after)
        state := by
  obtain ⟨permitted, kept⟩ := passes.clock state before
  refine ⟨permitted, fun reply after answered => ?_⟩
  have clocked := kept reply after answered
  cases reply with
  | error error => exact clocked
  | ok now =>
      obtain ⟨permitted, kept⟩ := passes.lookup after clocked
      refine ⟨permitted, fun reply later answered => ?_⟩
      have looked := kept reply later answered
      match reply, answered with
      | .error error, _ => exact looked
      | .ok none, _ => exact looked
      | .ok (some batch), answered =>
          refine Program.ensures_bind.mpr (Program.Ensures.mono
            (passes.found after batch later now clocked answered)
            (fun _ _ permitted => permitted) ?_)
          intro ended state holds
          obtain ⟨completion, locals⟩ := ended
          cases completion with
          | normal _ | returned _ | threw _ => exact holds

/-- A call of `reconcile` ends with what each of its passes keeps, by induction over the
fuel.
-/
theorem PassInvariant.reconcile {deps : ReleaseBatchCoordinatorDeps}
    {batchId : ReleaseBatchId} {holds : State → Prop}
    (passes : PassInvariant environment allowed deps batchId holds) (fuel : Nat)
    {state : State} (before : holds state)
    : (reconcile deps batchId fuel).Ensures environment allowed (fun _ after => holds after)
        state := by
  induction fuel generalizing state with
  | zero => exact before
  | succ fuel ih =>
      refine Program.ensures_bind.mpr
        ((passes.reconcilePass before).mono (fun _ _ permitted => permitted) ?_)
      intro ended after holds
      match ended with
      | .error _ => exact holds
      | .ok (.finished _) => exact holds
      | .ok .reconcileAgain => exact ih holds

end AiSdlc.Application
