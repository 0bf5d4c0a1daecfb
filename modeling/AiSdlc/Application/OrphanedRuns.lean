import AiSdlc.Application.Ports
import AiSdlc.Sqlite.JobQueueRepository
import AiSdlc.Sqlite.WorkerLeaseRepository

/-! The recovery of orphaned runs. One use case finds the running runs whose process is gone and
writes what their phases tell; the other one goes through these runs, resumes the failed ones
under a lease and enqueues a job for them, or gives them back to the next sweep.
-/

namespace AiSdlc.Application

open AiSdlc.Js
open AiSdlc.Domain
open AiSdlc.Async
open AiSdlc.Sqlite

/-- What the sweeps catch: a `WorkerLeaseConflictError`, a `LeaseOwnershipLostError` or another
value, with its message or text.
-/
inductive OrphanError
  | leaseConflict (message : String)
  | leaseOwnershipLost (message : String)
  | other (message : String)
  deriving DecidableEq, Repr

def OrphanError.message : OrphanError → String
  | leaseConflict message | leaseOwnershipLost message | other message => message

/-- A run as the repository answers it, with the process that works on it. -/
structure RunRecord extends Run where
  pid : Option Int := none
  deriving DecidableEq, Repr

structure SweepOrphanedRunEntry where
  uuid : String
  run : RunRecord
  previousPid : Int
  previousStatus : RunStatus
  deriving DecidableEq, Repr

/-- The event of a run that was recovered, with its metadata. -/
structure OrphanRecoveredEvent where
  runId : String
  level : EventLevel
  type : String
  message : String
  timestamp : String
  previousPid : Int
  inferredStatus : Option RunStatus := none
  deriving DecidableEq, Repr

/-- The calls of both use cases. -/
inductive OrphanRequest
  | now
  | findActiveRuns
  | isProcessAlive (pid : Int)
  | listPhases (runUuid : String)
  | atomicUpdateByUuid (uuid : String) (patch : RunRepositoryUpdatePatch)
      (expectedStatus : RunStatus)
  | notify (event : RunTerminalNotification)
  | listActive
  | checkActiveLease (repoId : RepositoryId) (now : Date)
  | acquireLease (input : AcquireLeaseInput)
  | releaseLease (input : ReleaseLeaseInput)
  | publish (runUuid : String) (event : OrphanRecoveredEvent)
  | enqueue (job : Job)

abbrev OrphanRequest.Answer : OrphanRequest → Type
  | now => Date
  | findActiveRuns => List RunRecord
  | isProcessAlive _ => Bool
  | listPhases _ => List Phase
  | atomicUpdateByUuid _ _ _ => Bool
  | notify _ => Unit
  | listActive => List Job
  | checkActiveLease _ _ => Bool
  | acquireLease _ => WorkerLease
  | releaseLease _ => Unit
  | publish _ _ => Unit
  | enqueue _ => Unit

abbrev OrphanRequest.Reply (request : OrphanRequest) : Type :=
  Except OrphanError request.Answer

-----------------------------------------------------------------------------------------
-- Sweep of the orphaned runs
-----------------------------------------------------------------------------------------

/-- The ports that may be left out. -/
structure SweepOrphanedRunsDeps where
  phaseRepository : Bool
  runNotification : Bool
  deriving DecidableEq, Repr

structure SweepOrphanedRunsResult where
  scanned : Nat
  swept : Nat
  orphanedRuns : List SweepOrphanedRunEntry
  deriving DecidableEq, Repr

/-- The statements of the sweep, which share the entries so far. -/
abbrev OrphanStatements (α : Type) : Type :=
  Block OrphanRequest.Answer (List SweepOrphanedRunEntry) OrphanError Empty α

namespace SweepOrphanedRuns

variable (deps : SweepOrphanedRunsDeps)

def call (request : OrphanRequest) : OrphanStatements request.Answer :=
  Block.call request

/-- `getTime()` of a time that may be missing. -/
def timeOf (time : Option Date) : Int :=
  (time.map Date.ms).getD 0

/-- The order of the phases: the latest start first, then the latest completion. -/
def startsLater (first second : Phase) : Prop :=
  timeOf second.startedAt < timeOf first.startedAt
    ∨ timeOf second.startedAt = timeOf first.startedAt
      ∧ timeOf second.completedAt ≤ timeOf first.completedAt

instance (first second : Phase) : Decidable (startsLater first second) :=
  inferInstanceAs (Decidable (_ ∨ _))

def latestPhase (phases : List Phase) : Option Phase :=
  ((phases.filter fun phase => phase.startedAt.isSome).insertionSort startsLater).head?

/-- `inferredStatus`. -/
def inferStatus (latest : Option Phase) : RunStatus :=
  match latest with
  | some phase =>
      if phase.completedAt.isSome then
        match phase.status with
        | .needsHumanReview => .needsHumanReview
        | .blocked => .blocked
        | _ => .failed
      else .failed
  | none => .failed

/-- `failureReasonToUse`. -/
def reasonToUse (run : RunRecord) (inferredStatus : RunStatus) (failureReason : String) : String :=
  if inferredStatus = .blocked ∨ inferredStatus = .needsHumanReview then
    run.failureReason.getD failureReason
  else failureReason

/-- `safeDispatchRunNotification`, which does not throw. -/
def safeDispatchRunNotification (run : RunRecord) (status : RunStatus) (failureReason : String)
    : OrphanStatements Unit :=
  Block.attempt
    (call (.notify {
      status
      repoId := run.repoId
      issueNumber := run.issueNumber
      displayId := run.displayId
      failureReason := truthy (some failureReason)
    }))
    fun _ => pure ()

/-- The entry of a run that was swept. -/
def sweptEntry (run : RunRecord) (previousPid : Int) (completedAt : Date)
    (inferredStatus : RunStatus) (failureReason : String)
    : SweepOrphanedRunEntry :=
  {
    uuid := run.uuid
    run := {
      run with
      currentPhase := none
      status := inferredStatus
      completedAt := some completedAt
      failureReason := some failureReason
    }
    previousPid
    previousStatus := run.status
  }

/-- The rest of `reconcile`, for a running run whose process is gone. -/
def reconcileDead (run : RunRecord) (previousPid : Int)
    : OrphanStatements (Option SweepOrphanedRunEntry) := do
  let completedAt ← call .now
  let phases ← (if deps.phaseRepository then call (.listPhases run.uuid) else pure []
    : OrphanStatements (List Phase))
  let inferredStatus := inferStatus (latestPhase phases)
  let failureReason :=
    reasonToUse run inferredStatus s!"orphaned: process {previousPid} no longer running"
  let updated ← call (.atomicUpdateByUuid run.uuid {
    status := some inferredStatus
    completedAt := some (some completedAt)
    failureReason := some (some failureReason)
    currentPhase := some none
  } run.status)
  if updated then do
    Block.ifThen deps.runNotification
      (safeDispatchRunNotification run inferredStatus failureReason)
    pure (some (sweptEntry run previousPid completedAt inferredStatus failureReason))
  else pure none

def reconcile (run : RunRecord) : OrphanStatements (Option SweepOrphanedRunEntry) :=
  if run.status ≠ .running then pure none
  else
    match run.pid with
    | none => pure none
    | some pid => do
        let alive ← call (.isProcessAlive pid)
        if alive then pure none else reconcileDead deps run pid

/-- The body of the loop over the active runs. -/
def sweepRun (run : RunRecord) : OrphanStatements Unit := do
  let entry ← reconcile deps run
  match entry with
  | some entry => Block.assign fun orphanedRuns => orphanedRuns ++ [entry]
  | none => pure ()

/-- `SweepOrphanedRuns.execute`. -/
def execute : OrphanStatements SweepOrphanedRunsResult := do
  let activeRuns ← call .findActiveRuns
  Block.forEach activeRuns (sweepRun deps)
  let orphanedRuns ← Block.locals
  pure {
    scanned := List.length activeRuns
    swept := List.length orphanedRuns
    orphanedRuns
  }

end SweepOrphanedRuns

-----------------------------------------------------------------------------------------
-- Recovery of the runs that were swept
-----------------------------------------------------------------------------------------

structure EnqueueFailure where
  runId : String
  error : String
  deriving DecidableEq, Repr

structure OrphanedRunsSweeperResult where
  scanned : Nat
  enqueued : Nat := 0
  skippedLeaseConflict : Nat := 0
  skippedAlreadyQueued : Nat := 0
  enqueueErrors : List EnqueueFailure := []
  deriving DecidableEq, Repr

/-- The statements of the recovery, which share its result. -/
abbrev SweeperStatements (α : Type) : Type :=
  Block OrphanRequest.Answer OrphanedRunsSweeperResult OrphanError Empty α

namespace OrphanedRunsSweeper

def orphanRecoveryJobPriority : Int :=
  10

def leaseTtlMs : Int :=
  30000

/-- `'orphan-sweeper'`. -/
def sweeperId : WorkerId :=
  "orphan-sweeper"

def call (request : OrphanRequest) : SweeperStatements request.Answer :=
  Block.call request

/-- A domain operation, which throws a `RunStateError`. -/
def check {α : Type} (checked : Except String α) : SweeperStatements α :=
  match checked with
  | .ok value => pure value
  | .error message => Block.throw (.other message)

variable (entry : SweepOrphanedRunEntry)

/-- `result.enqueueErrors.push(…)`. -/
def pushError (error : OrphanError) : SweeperStatements Unit :=
  Block.assign fun result =>
    {
      result with
      enqueueErrors :=
        result.enqueueErrors ++ [{ runId := entry.run.uuid, error := error.message }]
    }

/-- The columns of a run that starts anew. -/
def restartPatch (status : RunStatus) : RunRepositoryUpdatePatch :=
  {
    status := some status
    completedAt := some none
    failureReason := some none
    currentPhase := some none
  }

/-- `restoreRunToPreSweep`, which does not throw. -/
def restoreRunToPreSweep : SweeperStatements Unit :=
  Block.attempt
    (do
      let _ ← call (.atomicUpdateByUuid entry.uuid (restartPatch entry.previousStatus)
        entry.run.status)
      pure ())
    fun _ => pure ()

/-- `restoreRunToPreSweepAtomic`; a rollback that misses its run is only logged. -/
def restoreRunToPreSweepAtomic : SweeperStatements Unit := do
  let _ ← call (.atomicUpdateByUuid entry.uuid (restartPatch entry.previousStatus) .running)
  pure ()

/-- The lease for the run, where it is acquired. -/
def acquireLease : SweeperStatements (Option WorkerLease) :=
  Block.attempt
    (do
      let acquiredAt ← call .now
      let lease ← call (.acquireLease {
        repoId := entry.run.repoId
        workerId := sweeperId
        runId := entry.run.uuid
        now := acquiredAt
        ttlMs := leaseTtlMs
      })
      pure (some lease))
    fun error => do
      (match error with
        | .leaseConflict _ =>
            Block.assign fun result =>
              { result with skippedLeaseConflict := result.skippedLeaseConflict + 1 }
        | error => pushError entry error : SweeperStatements Unit)
      restoreRunToPreSweep entry
      pure none

/-- The release of the lease, which does not throw. -/
def releaseLease (lease : WorkerLease) : SweeperStatements Unit :=
  Block.attempt
    (call (.releaseLease {
      repoId := entry.run.repoId
      workerId := sweeperId
      runId := entry.run.uuid
      leaseToken := lease.leaseToken
    }))
    fun _ => pure ()

/-- The event of the recovery. -/
def publishRecovered (message : String) (inferredStatus : Option RunStatus)
    : SweeperStatements Unit := do
  let publishedAt ← call .now
  call (.publish entry.run.uuid {
    runId := entry.run.uuid
    level := .info
    type := "orchestrator.run.recovered_from_orphan"
    message
    timestamp := Date.toISOString publishedAt
    previousPid := entry.previousPid
    inferredStatus
  })

/-- The `try` block that enqueues a job for a run that was resumed. -/
def enqueueRecovery : SweeperStatements Unit := do
  let namedAt ← call .now
  let createdAt ← call .now
  let job := createJob {
    id := s!"orphan-{entry.run.uuid}-{Date.ms namedAt}"
    runId := entry.run.uuid
    repoId := entry.run.repoId
    issueNumber := entry.run.issueNumber
    priority := some orphanRecoveryJobPriority
    createdAt
  }
  publishRecovered entry s!"Run recovered from orphaned pid {entry.previousPid}" none
  call (.enqueue job)
  Block.assign fun result => { result with enqueued := result.enqueued + 1 }

/-- The job of a run that was resumed; where it cannot be enqueued, the run is rolled back. -/
def enqueueJob : SweeperStatements Unit :=
  Block.attempt (enqueueRecovery entry) fun error => do
    restoreRunToPreSweepAtomic entry
    Block.throw error

/-- The `try` block under the lease. -/
def recoverRun : SweeperStatements Unit :=
  if entry.run.status = .blocked ∨ entry.run.status = .needsHumanReview then
    publishRecovered entry
      s!"Run recovered from orphaned pid {entry.previousPid} but requires human review"
      (some entry.run.status)
  else do
    let next ← check (resumeRun entry.run.toRun none none)
    let updated ←
      call (.atomicUpdateByUuid entry.run.uuid (restartPatch (Run.status next)) entry.run.status)
    Block.ifThen updated (enqueueJob entry)

/-- The body of the loop over the entries. -/
def sweepEntry (activeRuns : List RunId) : SweeperStatements Unit := do
  let checkedAt ← call .now
  let leased ← call (.checkActiveLease entry.run.repoId checkedAt)
  if leased then do
    Block.assign fun result =>
      { result with skippedLeaseConflict := result.skippedLeaseConflict + 1 }
    restoreRunToPreSweep entry
  else if entry.run.uuid ∈ activeRuns then do
    Block.assign fun result =>
      { result with skippedAlreadyQueued := result.skippedAlreadyQueued + 1 }
    restoreRunToPreSweep entry
  else do
    let acquired ← acquireLease entry
    match acquired with
    | none => pure ()
    | some lease =>
        Block.always (Block.attempt (recoverRun entry) (pushError entry))
          (releaseLease entry lease)

/-- `OrphanedRunsSweeper.execute`. -/
def execute (entries : List SweepOrphanedRunEntry)
    : SweeperStatements OrphanedRunsSweeperResult := do
  Block.assign fun _ => { scanned := entries.length }
  let active ← call .listActive
  Block.forEach entries fun entry => sweepEntry entry (List.map Job.runId active)
  Block.locals

end OrphanedRunsSweeper

end AiSdlc.Application
