import AiSdlc.Application.Ports
import AiSdlc.Sqlite.JobQueueRepository
import AiSdlc.Sqlite.WorkerLeaseRepository

/-! The cancellation of a run: it writes the status, reconciles the jobs that it lists once,
aborts the agent, resets the worktree and releases the lease. Everything after the status is
best effort.
-/

namespace AiSdlc.Application

open AiSdlc.Js
open AiSdlc.Domain
open AiSdlc.Async
open AiSdlc.Sqlite

/-- What the cancellation catches or throws. -/
inductive CancelError
  | job (error : JobError)
  | lease (error : LeaseError)
  | other (message : String)
  deriving DecidableEq, Repr

structure CancelRunInput where
  runId : RunId
  reason : Option String := none
  deriving DecidableEq, Repr

inductive AbortStatus
  | exited
  | timedOut
  | notFound
  deriving DecidableEq, Repr

structure CancelRunResult where
  runId : RunId
  status : RunStatus
  abortStatus : AbortStatus
  worktreeReset : Bool
  branchSha : Option String
  deriving DecidableEq, Repr

/-- The event of a job that was reconciled, with its metadata. -/
structure JobReconciledEvent where
  runId : String
  level : EventLevel
  type : String
  message : String
  timestamp : String
  runUuid : String
  jobId : JobId
  previousStatus : JobStatus
  targetStatus : JobStatus
  reason : String
  priorClaimedBy : Option WorkerId
  deriving DecidableEq, Repr

/-- The ports that may be left out. -/
structure CancelRunDeps where
  queue : Bool
  eventBus : Bool
  deriving DecidableEq, Repr

/-- The calls of the cancellation. The agent's abort is answered by the status of its result,
where it has one.
-/
inductive CancelRequest
  | now
  | findByUuid (runId : RunId)
  | atomicUpdateByUuid (runId : RunId) (patch : RunRepositoryUpdatePatch)
      (expectedStatus : RunStatus)
  | listForRun (runId : RunId)
  | reconcileTerminalJob (input : ReconcileTerminalJobInput)
  | publish (runId : String) (event : JobReconciledEvent)
  | abort (runId : RunId)
  | unregister (runId : RunId)
  | findCwd (runId : RunId)
  | headCommitShaOf (cwd : String)
  | headCommitSha (cwd : String)
  | resetHard (cwd commitSha : String)
  | cleanUntracked (cwd : String)
  | currentLease (repoId : RepositoryId)
  | releaseLease (input : ReleaseLeaseInput)

abbrev CancelRequest.Answer : CancelRequest → Type
  | now => Date
  | findByUuid _ => Option Run
  | atomicUpdateByUuid _ _ _ => Bool
  | listForRun _ => List Job
  | reconcileTerminalJob _ => ReconcileTerminalJobResult
  | publish _ _ => Unit
  | abort _ => Option AbortStatus
  | unregister _ => Unit
  | findCwd _ => String
  | headCommitShaOf _ => Option String
  | headCommitSha _ => String
  | resetHard _ _ => Unit
  | cleanUntracked _ => Unit
  | currentLease _ => Option WorkerLease
  | releaseLease _ => Unit

abbrev CancelRequest.Reply (request : CancelRequest) : Type :=
  Except CancelError request.Answer

/-- The variables that the best-effort steps leave. -/
structure CancelLocals where
  abortStatus : AbortStatus := .notFound
  worktreeReset : Bool := false
  branchSha : Option String := none
  deriving DecidableEq, Repr

abbrev CancelStatements (α : Type) : Type :=
  Block CancelRequest.Answer CancelLocals CancelError Empty α

namespace CancelRun

variable (deps : CancelRunDeps) (input : CancelRunInput)

def call (request : CancelRequest) : CancelStatements request.Answer :=
  Block.call request

/-- `try { … } catch`, where the error is only logged. -/
def bestEffort (statements : CancelStatements Unit) : CancelStatements Unit :=
  Block.attempt statements fun _ => pure ()

/-- A domain operation, which throws a `RunStateError`. -/
def check {α : Type} (checked : Except String α) : CancelStatements α :=
  match checked with
  | .ok value => pure value
  | .error message => Block.throw (.other message)

/-- The columns that the cancellation sets. -/
def cancelPatch (cancelled : Run) : RunRepositoryUpdatePatch :=
  {
    status := some cancelled.status
    completedAt := some cancelled.completedAt
    currentPhase := some none
    failureReason := (truthy cancelled.failureReason).map some
  }

/-- The owner that a job has at the time it is listed. -/
def ownerOf (job : Job) : Option JobOwnership :=
  match truthy job.claimedBy, truthy job.claimToken with
  | some workerId, some claimToken => some { jobId := job.id, workerId, claimToken }
  | _, _ => none

/-- `input.reason ?? 'run_cancelled'`. -/
def reasonText : String :=
  input.reason.getD "run_cancelled"

def reconciledEvent (run : Run) (job : Job) (publishedAt : Date) : JobReconciledEvent :=
  {
    runId := run.displayId
    level := .info
    type := "job.reconciled"
    message := s!"Job {job.id} reconciled to cancelled (reason: {reasonText input})"
    timestamp := Date.toISOString publishedAt
    runUuid := run.uuid
    jobId := job.id
    previousStatus := job.status
    targetStatus := .cancelled
    reason := reasonText input
    priorClaimedBy := job.claimedBy
  }

def reconcileInput (job : Job) (reconciledAt : Date) : ReconcileTerminalJobInput :=
  {
    jobId := job.id
    targetStatus := ⟨.cancelled, rfl⟩
    now := reconciledAt
    owner := ownerOf job
  }

/-- The body of the loop over the jobs. -/
def reconcileJob (run : Run) (job : Job) : CancelStatements Unit :=
  bestEffort do
    let reconciledAt ← call .now
    let res ← call (.reconcileTerminalJob (reconcileInput job reconciledAt))
    Block.ifThen (res.reconciled && deps.eventBus) do
      let publishedAt ← call .now
      call (.publish input.runId (reconciledEvent input run job publishedAt))

/-- Step 2.5: the jobs that are not terminal when they are listed. -/
def reconcileJobs (run : Run) : CancelStatements Unit :=
  Block.ifThen deps.queue
    (bestEffort do
      let jobs ← call (.listForRun input.runId)
      Block.forEach (List.filter Job.isActive jobs) (reconcileJob deps input run))

/-- Step 3. -/
def abortAgent : CancelStatements Unit := do
  bestEffort do
    let abortRes ← call (.abort input.runId)
    Block.assign fun locals => { locals with abortStatus := Option.getD abortRes .exited }
  bestEffort (call (.unregister input.runId))

/-- Step 4. -/
def resetWorktree : CancelStatements Unit := do
  let locals ← Block.locals
  Block.ifThen (locals.abortStatus ≠ .timedOut)
    (bestEffort do
      let cwd ← call (.findCwd input.runId)
      let own ← call (.headCommitShaOf cwd)
      let branchSha ← (match own with
        | some branchSha => pure branchSha
        | none => call (.headCommitSha cwd) : CancelStatements String)
      Block.assign fun locals => { locals with branchSha := some branchSha }
      Block.ifThen (branchSha ≠ "") (call (.resetHard cwd branchSha))
      call (.cleanUntracked cwd)
      Block.assign fun locals => { locals with worktreeReset := true })

/-- Step 5. -/
def releaseLease (run : Run) : CancelStatements Unit :=
  bestEffort do
    let current ← call (.currentLease run.repoId)
    match current with
    | none => pure ()
    | some lease =>
        Block.ifThen (lease.runId = input.runId)
          (call (.releaseLease {
            repoId := run.repoId
            workerId := lease.workerId
            runId := lease.runId
            leaseToken := lease.leaseToken
          }))

/-- Steps 1 and 2: the run, and what was written of it. -/
def persistCancelled : CancelStatements (Run × Run) := do
  let found ← call (.findByUuid input.runId)
  match found with
  | none => Block.throw (.other s!"No run found for {input.runId}")
  | some run => do
      let cancelledAt ← call .now
      let cancelled ← check (cancelRun run input.reason cancelledAt)
      let updated ←
        call (.atomicUpdateByUuid input.runId (cancelPatch cancelled) (Run.status run))
      if updated then pure (run, cancelled)
      else
        Block.throw (.other
          s!"Run {input.runId} status could not be updated (concurrent modification)")

/-- `CancelRun.execute`. -/
def execute : CancelStatements CancelRunResult := do
  let (run, cancelled) ← persistCancelled input
  reconcileJobs deps input run
  abortAgent input
  resetWorktree input
  releaseLease input run
  let locals ← Block.locals
  pure {
    runId := input.runId
    status := cancelled.status
    abortStatus := locals.abortStatus
    worktreeReset := locals.worktreeReset
    branchSha := locals.branchSha
  }

end CancelRun

end AiSdlc.Application
