import AiSdlc.Application.Ports
import AiSdlc.Sqlite.JobQueueRepository
import AiSdlc.Sqlite.WorkerLeaseRepository

/-! `runClaimedJob`: a worker runs one claimed job to its end. The run's lease is acquired, the
worktree prepared and the run executed; then the job is settled, the lease given back, and the
worker marked. Every exit but the first ones goes through the handler of errors or settles the
job, and all of them through the cleanup.
-/

namespace AiSdlc.Application

open AiSdlc.Js
open AiSdlc.Domain
open AiSdlc.Async
open AiSdlc.Sqlite

inductive AbortReason
  | shutdown
  | userCancelled
  | leaseLost
  | repositoryUnavailable
  deriving DecidableEq, Repr

/-- What the worker's calls throw: an error with a message, the errors that it tells apart, or
anything else, with its text and, unless reading that throws, the text of its message.
-/
inductive WorkerError
  | error (message : String)
  | jobOwnershipLost (message : String)
  | leaseConflict (message : String)
  | leaseOwnershipLost (message : String)
  | repositoryUnavailable (message cause : String)
  | value (text : String) (message : Option String)
  deriving DecidableEq, Repr

/-- `(err as Error).message`, as a text. -/
def WorkerError.message? : WorkerError → Option String
  | error message | jobOwnershipLost message | leaseConflict message
  | leaseOwnershipLost message | repositoryUnavailable message _ => some message
  | value _ message => message

/-- `err instanceof Error ? err : new Error(String(err))`. -/
def WorkerError.asError : WorkerError → WorkerError
  | value text _ => error text
  | other => other

/-- `err instanceof Error && err.message === 'grace expired during shutdown'`. -/
def WorkerError.isGraceExpired : WorkerError → Bool
  | value _ _ => false
  | other => other.message? = some "grace expired during shutdown"

/-- `executeRun` resolves to an outcome; an older kind of result only says whether it went well. -/
inductive ExecuteRunResult
  | outcome (outcome : ExecutionOutcome)
  | ok (ok : Bool)
  deriving DecidableEq, Repr

def ExecuteRunResult.toOutcome : ExecuteRunResult → ExecutionOutcome
  | outcome ending => ending
  | ok true => .completed
  | ok false => .failed

/-- The preparation of the worktree settles, or the abort signal is raised before. -/
inductive PreparationRace
  | settled (result : Except WorkerError String)
  | aborted

def PreparationRace.result : PreparationRace → Except WorkerError String
  | settled result => result
  | aborted => .error (.error "aborted during worktree preparation")

/-- The execution settles, or the abort signal is raised before, with a reason that is usually a
text; then the execution may still settle within the grace period.
-/
inductive ExecutionRace
  | settled (result : Except WorkerError ExecuteRunResult)
  | aborted (reason : Option String) (execution : Option (Except WorkerError ExecuteRunResult))

/-- How the promise for the execution settles, if it does: a handler that cannot read the
message of what was thrown throws itself, with the grace timer already cleared.
-/
def ExecutionRace.result? : ExecutionRace → Option (Except WorkerError ExecuteRunResult)
  | settled result => some result
  | aborted reason execution =>
      if reason = some "shutdown" then
        match execution with
        | none => some (.error (.error "grace expired during shutdown"))
        | some (.ok _) => some (.error (.error "cooperative shutdown: execution settled"))
        | some (.error error) =>
            error.message?.map fun message =>
              .error (.error s!"cooperative shutdown: execution failed - {message}")
      else
        match execution with
        | none => some (.error (.error "grace expired"))
        | some (.ok _) => some (.error (.error "heartbeat failed during job execution"))
        | some (.error error) =>
            error.message?.map fun message =>
              .error (.error s!"heartbeat failed during job execution: {message}")

structure PrepareWorktreeInput where
  repoId : RepositoryId
  runId : RunId
  resumeDisposition : Option ResumeDisposition
  deriving DecidableEq, Repr

structure ExecuteRunInput where
  run : Run
  workerId : WorkerId
  cwd : String
  resumeDisposition : Option ResumeDisposition
  deriving DecidableEq, Repr

/-- The calls of `runClaimedJob`, on its ports and on the two abort signals. -/
inductive WorkerRequest
  | now
  | getAbortReason
  | outerAborted
  | abort (reason : AbortReason)
  | signalAborted
  | markBusy (workerId : WorkerId) (repoId : RepositoryId)
  | acquireLease (input : AcquireLeaseInput)
  | releaseLease (input : ReleaseLeaseInput)
  | prepareWorktree (input : PrepareWorktreeInput)
  | handlePreparationFailure (runId : RunId) (error : WorkerError)
  | findRun (runId : RunId)
  | executeRun (input : ExecuteRunInput)
  | updateRun (runId : RunId) (patch : RunRepositoryUpdatePatch)
  | markUnreachable (repoId : RepositoryId) (reason : String)
  | notify (event : RunTerminalNotification)
  | markJobRunning (owner : JobOwnership) (now : Date)
  | markJobSucceeded (owner : JobOwnership) (now : Date)
  | markJobCancelled (owner : JobOwnership) (now : Date)
  | markJobFailed (owner : JobOwnership) (now : Date)
  | resetJobToQueued (owner : JobOwnership)
  | releaseClaim (owner : JobOwnership)
  | findWorker (workerId : WorkerId) (repoId : RepositoryId)
  | stopping
  | markStopping (workerId : WorkerId) (repoId : RepositoryId)
  | markIdle (workerId : WorkerId) (repoId : RepositoryId)

abbrev WorkerRequest.Answer : WorkerRequest → Type
  | now => Date
  | getAbortReason => Option AbortReason
  | outerAborted => Bool
  | signalAborted => Bool
  | acquireLease _ => WorkerLease
  | prepareWorktree _ => String
  | findRun _ => Option Run
  | executeRun _ => ExecuteRunResult
  | findWorker _ _ => Option Worker
  | abort _ | markBusy _ _ | releaseLease _ | handlePreparationFailure _ _ | updateRun _ _
  | markUnreachable _ _ | notify _ | markJobRunning _ _ | markJobSucceeded _ _
  | markJobCancelled _ _ | markJobFailed _ _ | resetJobToQueued _ | releaseClaim _ | stopping
  | markStopping _ _ | markIdle _ _ => Unit

abbrev WorkerRequest.Reply (request : WorkerRequest) : Type :=
  Except WorkerError request.Answer

/-- The repository that the worker serves, its lease time, and which optional ports there are. -/
structure WorkerLoopDeps where
  repoId : RepositoryId
  ttlMs : Int
  outerSignal : Bool := false
  getAbortReason : Bool := false
  handlePreparationFailure : Bool := false
  repoAvailability : Bool := false
  runNotification : Bool := false
  markStopping : Bool := false
  deriving DecidableEq, Repr

structure WorkerLocals where
  started : Bool := false
  acquiredLease : Option WorkerLease := none
  graceExpiredDuringShutdown : Bool := false
  deriving DecidableEq, Repr

/-- A lost lease conflict releases the claim, so that the caller skips the job from then on. -/
inductive RunClaimedJobResult
  | settled
  | leaseConflict
  deriving DecidableEq, Repr

/-- The statements of `runClaimedJob`. -/
abbrev WorkerStatements (α : Type) : Type :=
  Block WorkerRequest.Answer WorkerLocals WorkerError RunClaimedJobResult α

namespace WorkerLoop

def call (request : WorkerRequest) : WorkerStatements request.Answer :=
  Block.call request

section Statements

variable (deps : WorkerLoopDeps)

/-- `deps.outerSignal?.aborted`. -/
def outerSignalAborted : WorkerStatements Bool :=
  if deps.outerSignal then call .outerAborted else pure false

/-- `deps.getAbortReason?.()`. -/
def givenAbortReason : WorkerStatements (Option AbortReason) :=
  if deps.getAbortReason then call .getAbortReason else pure none

/-- `deps.getAbortReason?.() ?? (deps.outerSignal?.aborted ? 'user_cancelled' : undefined)`. -/
def abortReason : WorkerStatements (Option AbortReason) := do
  let given ← givenAbortReason deps
  match given with
  | some reason => pure (some reason)
  | none => do
      let aborted ← outerSignalAborted deps
      pure (if aborted then some .userCancelled else none)

def onOuterAbort : WorkerStatements Unit := do
  let given ← givenAbortReason deps
  call (.abort (given.getD .userCancelled))

/-- Statements that are left when the job belongs to someone else by now. -/
def unlessOwnershipLost (statements : WorkerStatements Unit) : WorkerStatements Unit :=
  statements.attempt fun error =>
    match error with
    | .jobOwnershipLost _ => pure ()
    | other => Block.throw other

/-- `try { … } catch { /* already terminal */ }`. -/
def unlessTerminal (statements : WorkerStatements Unit) : WorkerStatements Unit :=
  statements.attempt fun _ => pure ()

def failJob (owner : JobOwnership) : WorkerStatements Unit := do
  let now ← call .now
  call (.markJobFailed owner now)

def cancelJob (owner : JobOwnership) : WorkerStatements Unit := do
  let now ← call .now
  call (.markJobCancelled owner now)

/-- The worktree, or what went wrong with it, which a port records unless the job was aborted. -/
def preparedWorktree (job : Job) : WorkerStatements String :=
  (call (.prepareWorktree {
    repoId := job.repoId, runId := job.runId, resumeDisposition := job.resumeDisposition
  })).attempt fun error => do
    Block.ifThen deps.handlePreparationFailure do
      let aborted ← call .signalAborted
      Block.ifThen (!aborted) (call (.handlePreparationFailure job.runId error.asError))
    Block.throw error

/-- The job ends as the execution did. -/
def settleJob (owner : JobOwnership) (outcome : ExecutionOutcome) : WorkerStatements Unit :=
  match executionOutcomeToJobStatus outcome with
  | .succeeded => do
      let now ← call .now
      call (.markJobSucceeded owner now)
  | .cancelled => cancelJob owner
  | .queued | .claimed | .running | .failed => failJob owner

/-- The statements that `runClaimedJob` tries. -/
def claimedRun (workerId : WorkerId) (job : Job) (owner : JobOwnership)
    : WorkerStatements RunClaimedJobResult := do
  call (.markBusy workerId deps.repoId)
  let now ← call .now
  let lease ← call (.acquireLease {
    repoId := job.repoId, runId := job.runId, workerId, now, ttlMs := deps.ttlMs
  })
  Block.assign fun locals => { locals with acquiredLease := some lease }
  let aborted ← outerSignalAborted deps
  Block.ifThen aborted (onOuterAbort deps)
  let now ← call .now
  call (.markJobRunning owner now)
  Block.assign fun locals => { locals with started := true }
  let cwd ← preparedWorktree deps job
  let found ← call (.findRun job.runId)
  match found with
  | none => Block.throw (.error s!"run {job.runId} not found for job {job.id}")
  | some run => do
      let result ← call (.executeRun {
        run, workerId, cwd, resumeDisposition := job.resumeDisposition
      })
      settleJob owner result.toOutcome
      pure .settled

/-- What a run is changed to when its repository was unavailable. -/
def failedUpdate (cause : String) : RunRepositoryUpdatePatch :=
  { status := some .failed, failureReason := some (some cause) }

/-- What a run is changed to when its user aborted it. -/
def cancelledUpdate : RunRepositoryUpdatePatch :=
  { status := some .cancelled }

/-- `safeDispatchRunNotification`, of a failed run that need not be found. -/
def notifyFailure (job : Job) (run : Option Run) (cause : String) : WorkerStatements Unit :=
  (call (.notify {
    status := .failed
    repoId := (run.map Run.repoId).getD deps.repoId
    issueNumber := (run.map Run.issueNumber).getD 0
    displayId := (run.map Run.displayId).getD job.runId
    failureReason := some cause
  })).attempt fun _ => pure ()

/-- The repository turned out to be unavailable: its run fails with the cause. -/
def failUnavailable (job : Job) (owner : JobOwnership) (cause : String)
    : WorkerStatements RunClaimedJobResult := do
  Block.ifThen deps.repoAvailability (call (.markUnreachable deps.repoId cause))
  call (.updateRun job.runId (failedUpdate cause))
  let run ← call (.findRun job.runId)
  Block.ifThen deps.runNotification (notifyFailure deps job run cause)
  let locals ← Block.locals
  unlessOwnershipLost
    (if locals.started then failJob owner else call (.releaseClaim owner))
  pure .settled

/-- Any other error of a job that is running, by the reason of an abort. -/
def failStarted (job : Job) (owner : JobOwnership) (reason : Option AbortReason)
    : WorkerStatements Unit :=
  match reason with
  | some .shutdown => unlessTerminal (call (.resetJobToQueued owner))
  | some .userCancelled => do
      call (.updateRun job.runId cancelledUpdate)
      unlessTerminal (cancelJob owner)
  | some .leaseLost | some .repositoryUnavailable | none => unlessOwnershipLost (failJob owner)

/-- Any other error, where the job may not be running yet. -/
def failClaimed (job : Job) (owner : JobOwnership) (reason : Option AbortReason)
    (error : WorkerError)
    : WorkerStatements RunClaimedJobResult := do
  let expired := error.isGraceExpired
  Block.assign fun locals => { locals with graceExpiredDuringShutdown := expired }
  let locals ← Block.locals
  (if locals.started then
    if expired then unlessTerminal (failJob owner) else failStarted job owner reason
  else
    unlessOwnershipLost (call (.releaseClaim owner))
    : WorkerStatements Unit)
  pure .settled

/-- The handler of the errors of a claimed job. -/
def recoverClaimed (job : Job) (owner : JobOwnership) (error : WorkerError)
    : WorkerStatements RunClaimedJobResult := do
  let reason ← abortReason deps
  match error with
  | .jobOwnershipLost _ => pure .settled
  | .leaseConflict _ => do
      unlessOwnershipLost (call (.releaseClaim owner))
      pure .leaseConflict
  | .repositoryUnavailable _ cause => failUnavailable deps job owner cause
  | .error _ | .leaseOwnershipLost _ | .value _ _ => failClaimed job owner reason error

/-- `leases.release`, of a lease that may be lost. -/
def releaseAcquired (workerId : WorkerId) (job : Job) (lease : WorkerLease)
    : WorkerStatements Unit :=
  (call (.releaseLease {
    repoId := job.repoId, runId := job.runId, workerId, leaseToken := lease.leaseToken
  })).attempt fun error =>
    match error with
    | .leaseOwnershipLost _ => pure ()
    | other => Block.throw other

def isRunnable (status : WorkerStatus) : Bool :=
  status = .idle || status = .busy

/-- What follows every ending: the lease is given back, unless startup recovery needs it, and
the worker that can still run is marked.
-/
def cleanUp (workerId : WorkerId) (job : Job) : WorkerStatements Unit := do
  let reason ← abortReason deps
  let locals ← Block.locals
  (match locals.acquiredLease with
  | some lease =>
      Block.ifThen (reason ≠ some .leaseLost && !locals.graceExpiredDuringShutdown)
        (releaseAcquired workerId job lease)
  | none => pure ()
    : WorkerStatements Unit)
  let found ← call (.findWorker workerId deps.repoId)
  Block.ifThen ((found.any fun worker => isRunnable worker.status)
      && !locals.graceExpiredDuringShutdown) do
    (if reason = some .shutdown then do
      Block.ifThen deps.markStopping (call .stopping)
      call (.markStopping workerId deps.repoId)
    else
      call (.markIdle workerId deps.repoId)
      : WorkerStatements Unit)

def runClaimedJob (workerId : WorkerId) (job : Job)
    : WorkerStatements RunClaimedJobResult :=
  match truthy job.claimToken with
  | none =>
      Block.throw (.error s!"job {job.id} has no claimToken - cannot run without ownership")
  | some _ =>
      match generateJobOwnership job workerId with
      | .error message => Block.throw (.error message)
      | .ok owner =>
          ((claimedRun deps workerId job owner).attempt
            (recoverClaimed deps job owner)).always
            (cleanUp deps workerId job)

end Statements

end WorkerLoop

end AiSdlc.Application
