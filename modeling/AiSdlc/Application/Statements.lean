import AiSdlc.Application.Ports
import AiSdlc.Domain.ReleaseBatchRuns

/-! The statements of the release-batch coordinator: its local variables, the events and
notifications it sends, and the helpers that block a batch or an item.
-/

namespace AiSdlc.Application

open AiSdlc.Js
open AiSdlc.Domain
open AiSdlc.Async

inductive ReconciliationAction
  | idle
  | unblocked
  | blocked
  | approvalInvalidated
  | successorAdmitted
  | prAttached
  | buildCompleted
  | jobRecovered
  | runAdopted
  | itemMerged
  | maintenanceRun
  | candidateCaptured
  | promotionPrCreated
  | sourceDriftDetected
  | sourceDriftIntegrated
  | promotionCompleted
  | unrecognizedStatus
  | unexpectedStatus
  deriving DecidableEq, Repr

structure ReconcileBatchResult where
  batchId : ReleaseBatchId
  batchStatus : ReleaseBatchStatus
  currentPosition : Int
  actions : List ReconciliationAction
  batch : ReleaseBatch
  deriving DecidableEq, Repr

/-- How one pass of `reconcile` returns: with a result, or by calling `reconcile` again. -/
inductive PassResult
  | finished (result : ReconcileBatchResult)
  | reconcileAgain
  deriving DecidableEq, Repr

/-- The local variables of `reconcile`; the functions it awaits work on the same batch and
actions, which it takes over from their results.
-/
structure Locals where
  batch : ReleaseBatch
  actions : List ReconciliationAction
  deriving DecidableEq, Repr

/-- The result that `reconcile` builds from its local variables. -/
def Locals.result (locals : Locals) : PassResult :=
  .finished {
    batchId := locals.batch.id
    batchStatus := locals.batch.status
    currentPosition := locals.batch.currentPosition
    actions := locals.actions
    batch := locals.batch
  }

abbrev Statements (α : Type) : Type :=
  Block Request.Answer Locals Thrown PassResult α

def call (request : Request) : Statements request.Answer :=
  Block.call request

def currentBatch : Statements ReleaseBatch :=
  fun locals => .done (.normal locals.batch, locals)

def assignBatch (batch : ReleaseBatch) : Statements Unit :=
  Block.assign fun locals => { locals with batch }

/-- `actions.push(…)`. -/
def push (actions : List ReconciliationAction) : Statements Unit :=
  Block.assign fun locals => { locals with actions := locals.actions ++ actions }

/-- A release-batch operation that may throw. -/
def checked {α : Type} : Checked α → Statements α
  | .ok value => pure value
  | .error error => Block.throw (.batch error)

/-- `batch = operation(batch, …)`. -/
def applyOp (op : BatchOp) : Statements Unit := do
  let batch ← currentBatch
  let next ← checked (op.apply batch)
  assignBatch next

/-- `this.deps.releaseBatchRepository.update(batch)`. -/
def updateBatch : Statements Unit := do
  let batch ← currentBatch
  call (.updateBatch batch)

/-- `return { …, actions, batch }`. -/
def leave {α : Type} : Statements α :=
  Block.leave Locals.result

/-- `return { …, actions: […], batch }`, without the actions pushed so far. -/
def leaveWith {α : Type} (actions : List ReconciliationAction) : Statements α :=
  Block.leave fun locals => Locals.result { locals with actions }

/-- A call whose error is only logged. -/
def swallow (block : Statements Unit) : Statements Unit :=
  block.attempt fun _ => pure ()

section Ensures

variable {State : Type} {environment : Environment State Request Request.Reply}
  {allowed : State → Request → Prop} {locals : Locals} {state : State}

@[simp]
theorem ensures_call {request : Request}
    {post : Completion Thrown PassResult request.Answer → Locals → State → Prop}
    : @Block.Ensures _ _ _ _ _ _ (no_index request.Answer) environment allowed (call request)
        post locals state
      ↔ allowed state request
        ∧ (∀ answer after, environment state request (.ok answer) after →
            post (.normal answer) locals after)
        ∧ (∀ error after, environment state request (.error error) after →
            post (.threw error) locals after) :=
  Block.ensures_call

@[simp]
theorem ensures_currentBatch
    {post : Completion Thrown PassResult ReleaseBatch → Locals → State → Prop}
    : currentBatch.Ensures environment allowed post locals state
      ↔ post (.normal locals.batch) locals state :=
  Iff.rfl

@[simp]
theorem ensures_assignBatch {batch : ReleaseBatch}
    {post : Completion Thrown PassResult Unit → Locals → State → Prop}
    : (assignBatch batch).Ensures environment allowed post locals state
      ↔ post (.normal ()) { locals with batch } state :=
  Iff.rfl

@[simp]
theorem ensures_checked {α : Type} {outcome : Checked α}
    {post : Completion Thrown PassResult α → Locals → State → Prop}
    : (checked outcome).Ensures environment allowed post locals state
      ↔ (∀ value, outcome = .ok value → post (.normal value) locals state)
        ∧ (∀ error, outcome = .error error → post (.threw (.batch error)) locals state) := by
  cases outcome with
  | ok value => simp [checked]
  | error error => simp [checked]

/-- An operation replaces the current batch, or throws and leaves it alone. -/
@[simp]
theorem ensures_applyOp {op : BatchOp}
    {post : Completion Thrown PassResult Unit → Locals → State → Prop}
    : (applyOp op).Ensures environment allowed post locals state
      ↔ (∀ next, op.apply locals.batch = .ok next →
          post (.normal ()) { locals with batch := next } state)
        ∧ (∀ error, op.apply locals.batch = .error error →
            post (.threw (.batch error)) locals state) := by
  simp [applyOp]

@[simp]
theorem ensures_updateBatch
    {post : Completion Thrown PassResult Unit → Locals → State → Prop}
    : updateBatch.Ensures environment allowed post locals state
      ↔ allowed state (.updateBatch locals.batch)
        ∧ (∀ after, environment state (.updateBatch locals.batch) (.ok ()) after →
            post (.normal ()) locals after)
        ∧ (∀ error after, environment state (.updateBatch locals.batch) (.error error) after →
            post (.threw error) locals after) := by
  refine ensures_call.trans (and_congr_right fun _ => and_congr_left fun _ => ?_)
  exact ⟨fun answered => answered (), fun answered _ => answered⟩

@[simp]
theorem ensures_leaveWith {α : Type} {actions : List ReconciliationAction}
    {post : Completion Thrown PassResult α → Locals → State → Prop}
    : (leaveWith actions : Statements α).Ensures environment allowed post locals state
      ↔ post (.returned { locals with actions }.result) locals state :=
  Iff.rfl

@[simp]
theorem ensures_swallow {block : Statements Unit}
    {post : Completion Thrown PassResult Unit → Locals → State → Prop}
    : (swallow block).Ensures environment allowed post locals state
      ↔ block.Ensures environment allowed
          (Completion.orElse post fun _ => post (.normal ())) locals state :=
  Block.ensures_attempt

end Ensures

/-- The run of the last item that has one. -/
def fallbackRunUuid (batch : ReleaseBatch) : Option String :=
  batch.items.reverse.findSome? (·.runUuid)

/-- `publishEvent`: an event is recorded under a run, and published under the batch when
there is none.
-/
def publishEvent (deps : ReleaseBatchCoordinatorDeps) (batch : ReleaseBatch)
    (event : BatchEvent)
    : Statements Unit := do
  let effectiveRunUuid := event.runUuid <|> fallbackRunUuid batch
  let payload : EventPayload := {
    runId := event.runDisplayId.getD s!"batch-{batch.id}"
    level := event.level
    type := event.type
    message := event.message
    timestamp := event.timestamp.toISOString
  }
  swallow (call (.publish (effectiveRunUuid.getD batch.id) payload))
  Block.ifThen (deps.eventRepository && isSet effectiveRunUuid)
    (swallow (call (.recordEvent (effectiveRunUuid.getD "") payload)))

/-- The fields that a notification names instead of the batch's own. -/
structure NotificationExtra where
  candidateSha : Option String := none
  promotionPrNumber : Option Int := none
  reason : Option String := none
  deriving DecidableEq, Repr

def dispatchNotification (deps : ReleaseBatchCoordinatorDeps)
    (type : ReleaseBatchNotificationType) (extra : NotificationExtra)
    : Statements Unit := do
  let batch ← currentBatch
  Block.ifThen deps.releaseBatchNotification (swallow (call (.notify {
    type
    batchId := batch.id
    repoId := batch.repoId
    releaseBranch := batch.releaseBranch
    candidateSha := extra.candidateSha <|> batch.candidateSha
    sourceBranch := some batch.sourceBranch
    promotionPrNumber := extra.promotionPrNumber <|> batch.promotionPrNumber
    reason := extra.reason <|> batch.blockedReason
  })))

def blockBatchAndNotify (deps : ReleaseBatchCoordinatorDeps) (reason : String)
    (notificationType : ReleaseBatchNotificationType)
    : Statements Unit := do
  let batch ← currentBatch
  let prevBlocked := batch.status = .blocked && batch.blockedReason = some reason
  applyOp (.markBatchBlocked reason)
  Block.ifThen (!prevBlocked)
    (dispatchNotification deps notificationType { reason := some reason })

def blockItemAndNotify (deps : ReleaseBatchCoordinatorDeps) (position : Int)
    (reason : String)
    : Statements Unit := do
  let batch ← currentBatch
  let item := batch.items.find? (·.position = position)
  let prevBlocked :=
    (batch.status = .blocked || item.any (·.status = .blocked))
    && (batch.blockedReason = some reason || item.any (·.blockedReason = some reason))
  applyOp (.markItemBlocked position reason)
  Block.ifThen (!prevBlocked)
    (dispatchNotification deps .blocked { reason := some reason })

/-- The base of an item: the batch's start for the first one, and for the others the merge
commit of the item before.
-/
def resolveBaseShaForPosition (batch : ReleaseBatch) (position : Int) : Option String :=
  if position = 1 then
    some batch.sourceStartSha
  else
    (batch.items.find? (·.position = position - 1)).bind fun prev =>
      truthy prev.mergedCommitSha

/-- The head of a branch on the remote, after fetching it. -/
def fetchHead (repo : Repository) (branch : String) : Statements (Option String) := do
  let _ ← call (.fetch repo.localBasePath "origin" branch)
  call (.resolveRef repo.localBasePath s!"origin/{branch}")

end AiSdlc.Application
