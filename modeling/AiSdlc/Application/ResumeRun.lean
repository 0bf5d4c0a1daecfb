import AiSdlc.Application.Ports
import AiSdlc.Sqlite.JobQueueRepository
import AiSdlc.Sqlite.WorkerLeaseRepository

/-! Resuming a run that has stopped: the run is made running again by a compare-and-set on its
status, the steps of the phase to start from are reset, and a job is enqueued. A failure after
the compare-and-set is rolled back by a second one.
-/

namespace AiSdlc.Application

open AiSdlc.Js
open AiSdlc.Domain
open AiSdlc.Async
open AiSdlc.Sqlite

/-- What resuming throws: an error with a message, `ResumeDispositionRequiredError`, and the
errors of the leases and of the job queue.
-/
inductive ResumeError
  | message (text : String)
  | dispositionRequired
  | lease (error : LeaseError)
  | job (error : JobError)
  deriving DecidableEq, Repr

/-- The calls of `ResumeRun`. -/
inductive ResumeRequest
  | now
  | findRun (runId : RunId)
  | findRepository (id : RepositoryId)
  | inspectWorktree (cwd : String)
  | acquireLease (input : AcquireLeaseInput)
  | releaseLease (input : ReleaseLeaseInput)
  | listSteps (runId : RunId)
  | listPhases (runId : RunId)
  | atomicUpdateRun (uuid : String) (patch : RunRepositoryUpdatePatch)
      (expectedStatus : RunStatus)
  | upsertStep (step : Step)
  | insertPhase (phase : Phase)
  | updatePhase (phase : Phase)
  | enqueueJob (job : Job)

/-- The type of a call's answer; the inspection of a worktree answers the paths that a reset
would discard.
-/
abbrev ResumeRequest.Answer : ResumeRequest → Type
  | now => Date
  | findRun _ => Option Run
  | findRepository _ => Option RegisteredRepository
  | inspectWorktree _ => List String
  | acquireLease _ => WorkerLease
  | releaseLease _ => Unit
  | listSteps _ => List Step
  | listPhases _ => List Phase
  | atomicUpdateRun _ _ _ => Bool
  | upsertStep _ => Unit
  | insertPhase _ => Unit
  | updatePhase _ => Unit
  | enqueueJob _ => Unit

/-- Every call answers or throws. -/
abbrev ResumeRequest.Reply (request : ResumeRequest) : Type :=
  Except ResumeError request.Answer

/-- Whether the optional port is configured. -/
structure ResumeRunDeps where
  worktreeLifecycle : Bool := false
  deriving DecidableEq, Repr

structure ResumeRunInput where
  runId : RunId
  fromPhase : Option String := none
  workerId : WorkerId
  attempt : Option Int := none
  resumeDisposition : Option ResumeDisposition := none
  pinnedRuntime : Option PinnedRuntime := none
  deriving DecidableEq, Repr

structure ResumeRunResult where
  jobId : JobId
  jobStatus : JobStatus
  deriving DecidableEq, Repr

structure ResumeTransitionState where
  savedStatus : RunStatus
  savedCompletedAt : Option Date
  savedFailureReason : Option String
  savedCurrentPhase : Option String
  savedPinnedRuntime : Option PinnedRuntime
  savedCompletedPhases : List String
  savedSkippedPhases : List String
  savedSteps : List Step
  savedPhase : Option Phase
  effectiveDisposition : ResumeDisposition
  deriving DecidableEq, Repr

/-- The statements of `ResumeRun`, whose local variables are bound where they are assigned. -/
abbrev ResumeStatements (α : Type) : Type :=
  Block ResumeRequest.Answer Unit ResumeError ResumeRunResult α

/-- `LEASE_TTL_MS`. -/
def resumeLeaseTtlMs : Int := 30000

/-- `RESUME_JOB_PRIORITY`. -/
def resumeJobPriority : Int := 10

def resolveResumeDisposition (status : RunStatus) (meaningfulDirtyPaths : List String)
    (requestedDisposition : Option ResumeDisposition)
    : Except ResumeError ResumeDisposition :=
  match requestedDisposition with
  | some disposition => .ok disposition
  | none =>
      if status = .needsHumanReview then
        if 0 < meaningfulDirtyPaths.length then .error .dispositionRequired
        else .ok .resetToBaseline
      else
        .ok .resetToBaseline

namespace ResumeRun

variable (deps : ResumeRunDeps)

def ask (request : ResumeRequest) : ResumeStatements request.Answer :=
  Block.call request

/-- A step that may throw without a call. -/
def check {α : Type} (checked : Except ResumeError α) : ResumeStatements α :=
  match checked with
  | .ok value => pure value
  | .error error => Block.throw error

/-- The messages of git and of the file system for a worktree that is not there. -/
def isMissingWorktree (message : String) : Bool :=
  let lowerMsg := toLowerCase message
  ["enoent", "no such file or directory", "does not exist", "not a git repository",
    "git not found on path", "cannot change to", "fatal: path"].any (includes lowerMsg)

def getMeaningfulDirtyPaths (repoBasePath : String) (issueNumber : Int)
    : ResumeStatements (List String) :=
  if deps.worktreeLifecycle then
    Block.attempt
      (ask (.inspectWorktree s!"{repoBasePath}/.ai-worktrees/issue-{issueNumber}"))
      fun
        | .message text =>
            if isMissingWorktree text then
              pure []
            else
              Block.throw (.message
                s!"failed to inspect worktree cleanliness for resume: {text}")
        -- the worktree port throws errors with a message only
        | error => Block.throw error
  else
    pure []

def resolveEffectiveDisposition (repoBasePath : String) (run : Run)
    (requestedDisposition : Option ResumeDisposition)
    : ResumeStatements ResumeDisposition :=
  match requestedDisposition with
  | some disposition => pure disposition
  | none => do
      let meaningfulDirtyPaths ← getMeaningfulDirtyPaths deps repoBasePath run.issueNumber
      check (resolveResumeDisposition run.status meaningfulDirtyPaths none)

/-- The run with its repository, when both let it be resumed. -/
def readResumable (runId : RunId) : ResumeStatements (Run × RegisteredRepository) := do
  let found ← ask (.findRun runId)
  match found with
  | none => Block.throw (.message s!"No run found for {runId}")
  | some run =>
      if run.canResume then do
        let repository ← ask (.findRepository run.repoId)
        match repository with
        | none => Block.throw (.message s!"No repo found for run {runId}")
        | some repo =>
            if repo.id ≠ run.repoId then
              Block.throw (.message
                s!"Repo ID mismatch for run {runId}: expected '{run.repoId}', got '{repo.id}'")
            else if repo.enabled then
              pure (run, repo)
            else
              Block.throw (.message
                s!"Cannot resume run {runId}: repo '{repo.fullName}' is disabled")
      else
        Block.throw (.message s!"Cannot resume run {runId}: status is '{run.status}'")

/-- The steps and the phase that the run is to start again from. -/
def readPhase (input : ResumeRunInput) : ResumeStatements (List Step × Option Phase) :=
  match truthy input.fromPhase with
  | none => pure ([], none)
  | some fromPhase => do
      let steps ← ask (.listSteps input.runId)
      let phases ← ask (.listPhases input.runId)
      pure (List.filter (fun step : Step => step.phaseId = fromPhase) steps,
        List.find? (fun phase : Phase => phase.name = fromPhase) phases)

/-- What the compare-and-set changes when it makes the run running again. -/
def reactivation (input : ResumeRunInput) (reactivated : Run) : RunRepositoryUpdatePatch :=
  {
    status := some reactivated.status
    currentPhase := some none
    completedAt := some none
    failureReason := some none
    completedPhases := some reactivated.completedPhases
    skippedPhases := some reactivated.skippedPhases
    pinnedRuntime := input.pinnedRuntime.map fun _ => reactivated.pinnedRuntime
  }

/-- What a rollback writes back. -/
def restoration (saved : ResumeTransitionState) (pinnedRuntime : Option (Option PinnedRuntime))
    : RunRepositoryUpdatePatch :=
  {
    status := some saved.savedStatus
    completedAt := some saved.savedCompletedAt
    failureReason := some saved.savedFailureReason
    currentPhase := some saved.savedCurrentPhase
    completedPhases := some saved.savedCompletedPhases
    skippedPhases := some saved.savedSkippedPhases
    pinnedRuntime
  }

/-- Resets the steps that have not succeeded, and inserts the phase anew. -/
def resetPhase (input : ResumeRunInput) (savedSteps : List Step) : ResumeStatements Unit :=
  match truthy input.fromPhase with
  | none => pure ()
  | some fromPhase => do
      Block.forEach savedSteps fun step =>
        Block.ifThen (step.status ≠ .success)
          (ask (.upsertStep
            { step with startedAt := none, completedAt := none, status := .pending }))
      ask (.insertPhase {
        id := s!"{input.runId}-{fromPhase}"
        runUuid := input.runId
        name := fromPhase
        status := .pending
        attempt := input.attempt.getD 1
      })

/-- A rollback that finds the run changed is only logged; the rows are written back in any
case.
-/
def rollback (runId : RunId) (saved : ResumeTransitionState)
    (pinnedRuntime : Option (Option PinnedRuntime))
    : ResumeStatements Unit := do
  let _ ← ask (.atomicUpdateRun runId (restoration saved pinnedRuntime) .running)
  Block.forEach saved.savedSteps fun step => ask (.upsertStep step)
  match saved.savedPhase with
  | some phase => ask (.updatePhase phase)
  | none => pure ()

/-- `transition`, which reads the run anew. -/
def transition (input : ResumeRunInput) : ResumeStatements ResumeTransitionState := do
  let (run, repo) ← readResumable input.runId
  let effectiveDisposition ←
    resolveEffectiveDisposition deps repo.localBasePath run input.resumeDisposition
  let reactivated ←
    check ((resumeRun run input.fromPhase input.pinnedRuntime).mapError .message)
  let (savedSteps, savedPhase) ← readPhase input
  let saved : ResumeTransitionState := {
    savedStatus := run.status
    savedCompletedAt := run.completedAt
    savedFailureReason := run.failureReason
    savedCurrentPhase := truthy run.currentPhase
    savedPinnedRuntime := run.pinnedRuntime
    savedCompletedPhases := run.completedPhases
    savedSkippedPhases := run.skippedPhases
    savedSteps
    savedPhase
    effectiveDisposition
  }
  let updated ← ask (.atomicUpdateRun input.runId (reactivation input reactivated) run.status)
  if updated then do
    Block.attempt (resetPhase input savedSteps) fun error => do
      -- the runtime is only restored where the compare-and-set has changed it
      rollback input.runId saved (input.pinnedRuntime.map fun _ => saved.savedPinnedRuntime)
      Block.throw error
    pure saved
  else
    Block.throw (.message
      s!"Run {input.runId} status could not be updated (concurrent modification)")

/-- Takes the lease of the repository; another worker's lease is no error. -/
def acquireLease (input : ResumeRunInput) (repoId : RepositoryId)
    : ResumeStatements (Option WorkerLease) :=
  Block.attempt
    (do
      let now ← ask .now
      let lease ← ask (.acquireLease {
        repoId
        workerId := input.workerId
        runId := input.runId
        now
        ttlMs := resumeLeaseTtlMs
      })
      pure (some lease))
    fun
      | .lease (.conflict _ _) => pure none
      | error => Block.throw error

/-- Gives the lease back, unless it was taken over. -/
def releaseLease (input : ResumeRunInput) (repoId : RepositoryId)
    (acquiredLease : Option WorkerLease)
    : ResumeStatements Unit :=
  match acquiredLease with
  | none => pure ()
  | some lease =>
      Block.attempt
        (ask (.releaseLease {
          repoId
          workerId := input.workerId
          runId := input.runId
          leaseToken := lease.leaseToken
        }))
        fun
          | .lease (.ownershipLost _ _) => pure ()
          | error => Block.throw error

/-- The job of a resumed run; its issue number is only checked here. -/
def createResumeJob (input : ResumeRunInput) (run : Run) (repoId : RepositoryId)
    (resumeDisposition : ResumeDisposition)
    : ResumeStatements Job := do
  let named ← ask .now
  (if run.issueNumber ≤ 0 then
    Block.throw (.message s!"IssueNumber must be a positive integer, got {run.issueNumber}")
  else
    pure () : ResumeStatements Unit)
  let createdAt ← ask .now
  pure (createJob {
    id := s!"resume-{input.runId}-{Date.ms named}"
    runId := input.runId
    repoId
    issueNumber := run.issueNumber
    priority := some resumeJobPriority
    createdAt
    resumeDisposition := some resumeDisposition
  })

/-- The part of `execute` that a failure may leave before the lease is given back. -/
def resume (input : ResumeRunInput) (run : Run) (repoId : RepositoryId)
    (effectiveDisposition : ResumeDisposition)
    : ResumeStatements ResumeRunResult := do
  let saved ←
    transition deps { input with resumeDisposition := some effectiveDisposition }
  let job ← createResumeJob input run repoId saved.effectiveDisposition
  Block.attempt (ask (.enqueueJob job)) fun error => do
    rollback input.runId saved (some saved.savedPinnedRuntime)
    Block.throw error
  pure { jobId := Job.id job, jobStatus := .queued }

/-- `ResumeRun.execute`. -/
def execute (input : ResumeRunInput) : ResumeStatements ResumeRunResult := do
  let (run, repo) ← readResumable input.runId
  let effectiveDisposition ←
    resolveEffectiveDisposition deps repo.localBasePath run input.resumeDisposition
  let acquiredLease ← acquireLease input repo.id
  Block.attempt
    (do
      let result ← resume deps input run repo.id effectiveDisposition
      releaseLease input repo.id acquiredLease
      pure result)
    fun error => do
      releaseLease input repo.id acquiredLease
      Block.throw error

end ResumeRun

end AiSdlc.Application
