import AiSdlc.Application.Ports
import AiSdlc.Sqlite.OperationalRecoveryRepository

/-! The recovery of a repository whose worker is gone: the coordinator inspects the lease, the
jobs and the worker, decides on an action, and takes back the lease after it has prepared the
worktree.
-/

namespace AiSdlc.Application

open AiSdlc.Js
open AiSdlc.Domain
open AiSdlc.Async
open AiSdlc.Sqlite

inductive RepositoryRecoveryAction
  | leave
  | reclaim
  | requeue
  | orphanEnqueue
  | waitingReactivate
  deriving DecidableEq, Repr

structure PrepareWorktreeRecoveryInput where
  repoId : RepositoryId
  runId : RunId
  worktreePath : String
  baseRef : String
  quarantineRoot : String
  deriving DecidableEq, Repr

structure OrphanInfo where
  repoId : RepositoryId
  runId : RunId
  previousWorkerId : WorkerId
  reason : String
  deriving DecidableEq, Repr

/-- The calls of the recovery coordinator. -/
inductive RecoveryRequest
  | now
  | findRepository (id : RepositoryId)
  | currentLease (repoId : RepositoryId)
  | checkActiveLease (repoId : RepositoryId) (now : Date)
  | acquireLease (input : AcquireLeaseInput)
  | listJobsForRepo (repoId : RepositoryId)
  | findRun (runId : RunId)
  | listRunsForRepo (repoId : RepositoryId)
  | findWorker (id : WorkerId) (repoId : RepositoryId)
  | isWorkerAlive (id : WorkerId)
  | registryWorkerHostname (id : WorkerId) (repoId : RepositoryId)
  | checkPid (pid : Int)
  | getWorktreePath (repoId : RepositoryId)
  | getQuarantineRoot (repoId : RepositoryId)
  | prepareWorktree (input : PrepareWorktreeRecoveryInput)
  | resetWorktree (repoId : RepositoryId)
  | commitLeaseReclamation (input : CommitLeaseReclamationInput)
  | onOrphan (info : OrphanInfo)
  | onWaitingReactivation (repoId : RepositoryId) (runId : RunId)

/-- The type of a call's answer; the preparation of a worktree answers whether it is safe. -/
abbrev RecoveryRequest.Answer : RecoveryRequest → Type
  | now => Date
  | findRepository _ => Option RegisteredRepository
  | currentLease _ => Option WorkerLease
  | checkActiveLease _ _ => Bool
  | acquireLease _ => WorkerLease
  | listJobsForRepo _ => List Job
  | findRun _ => Option Run
  | listRunsForRepo _ => List Run
  | findWorker _ _ => Option Worker
  | isWorkerAlive _ => Bool
  | registryWorkerHostname _ _ => Option String
  | checkPid _ => Bool
  | getWorktreePath _ => String
  | getQuarantineRoot _ => String
  | prepareWorktree _ => Bool
  | resetWorktree _ => Unit
  | commitLeaseReclamation _ => LeaseReclamationResult
  | onOrphan _ => Unit
  | onWaitingReactivation _ _ => Unit

/-- Every call answers, or throws an error with a message. -/
abbrev RecoveryRequest.Reply (request : RecoveryRequest) : Type :=
  Except String request.Answer

/-- Which optional ports are configured. -/
structure RepositoryRecoveryCoordinatorDeps where
  registryWorkerHostname : Bool := false
  checkPid : Bool := false
  worktreeRecovery : Bool := false
  operationalRecovery : Bool := false
  getWorktreePath : Bool := false
  getQuarantineRoot : Bool := false
  listRunsForRepo : Bool := false
  deriving DecidableEq, Repr

/-- What the coordinator found out before it decides. -/
structure RepoState where
  lease : Option WorkerLease
  activeNonExpiredJobs : List Job
  activeExpiredClaimJobs : List Job
  run : Option Run
  repoEnabled : Bool
  isLeaseExpired : Bool
  isWorkerStale : Bool
  hasActiveLease : Bool
  deriving DecidableEq, Repr

/-- The statements of the coordinator, which has no local variables to assign. -/
abbrev RecoveryStatements (α : Type) : Type :=
  Block RecoveryRequest.Answer Unit String RepositoryRecoveryAction α

namespace RepositoryRecoveryCoordinator

variable (deps : RepositoryRecoveryCoordinatorDeps)

def ask (request : RecoveryRequest) : RecoveryStatements request.Answer :=
  Block.call request

/-- `condition ? request : otherwise`. -/
def askWhen (condition : Bool) (request : RecoveryRequest) (otherwise : request.Answer)
    : RecoveryStatements request.Answer :=
  if condition then ask request else pure otherwise

/-- A claimed job whose claim has expired. -/
def isExpiredClaim (now : Date) (job : Job) : Bool :=
  job.status = .claimed && job.claimExpiresAt.any (·.ms < now.ms)

def isActiveNonExpired (now : Date) (job : Job) : Bool :=
  job.isActive && !isExpiredClaim now job

def isRecoverable (run : Run) : Bool :=
  run.status = .running || run.status = .waiting

/-- Whether the worker of the lease is gone. -/
def readWorkerStale (repoId : RepositoryId) (lease : WorkerLease) : RecoveryStatements Bool := do
  let worker ← ask (.findWorker lease.workerId repoId)
  let workerAlive ← ask (.isWorkerAlive lease.workerId)
  let workerHostname := Option.map Worker.hostname worker
  let registered ← askWhen (workerHostname.isSome && deps.registryWorkerHostname)
    (.registryWorkerHostname lease.workerId repoId) none
  let isSameHost := workerHostname.isSome && deps.registryWorkerHostname
    && workerHostname = registered
  let isPidAlive ← askWhen (isSameHost && deps.checkPid)
    (.checkPid (Option.elim worker 0 Worker.processId)) true
  pure (!workerAlive || Option.any (fun worker : Worker => worker.status = .stopping
    || worker.status = .unhealthy) worker || !isPidAlive)

/-- The run that the repository works on, by its lease or its first active job. -/
def readRun (lease : Option WorkerLease) (activeJob : Option Job)
    : RecoveryStatements (Option Run) :=
  match lease, activeJob with
  | some lease, _ => ask (.findRun lease.runId)
  | none, some job => ask (.findRun job.runId)
  | none, none => pure none

def resolveCandidateRun (repoId : RepositoryId) (state : RepoState)
    : RecoveryStatements (Option Run) := do
  let jobRun ←
    (match state.activeNonExpiredJobs with
    | job :: _ => ask (.findRun job.runId)
    | [] => pure none : RecoveryStatements (Option Run))
  match jobRun with
  | some run => pure (some run)
  | none =>
      if Option.any isRecoverable state.run then
        pure state.run
      else do
        let runs ← askWhen deps.listRunsForRepo (.listRunsForRepo repoId) []
        pure ((List.find? (fun run : Run => run.status = .running) runs).or state.run)

/-- Takes the lease over for the candidate run. -/
def rebindLease (repoId : RepositoryId) (state : RepoState) (candidateRun : Run)
    : RecoveryStatements Unit := do
  let ttlMs :=
    state.lease.elim 30000 fun lease => max 30000 (lease.expiresAt.ms - lease.acquiredAt.ms)
  let workerId := ((state.activeNonExpiredJobs.head?.bind Job.claimedBy).or
    (state.lease.map WorkerLease.workerId)).getD "recovery-coordinator"
  let now ← ask .now
  let _ ← ask (.acquireLease { repoId, workerId, runId := candidateRun.uuid, now, ttlMs })
  pure ()

/-- Makes the worktree safe, and tells whether it is. -/
def prepareWorktree (repoId : RepositoryId) (runForWorktree : Run)
    : RecoveryStatements Bool := do
  let worktreePath ← askWhen deps.getWorktreePath (.getWorktreePath repoId) ""
  let quarantineRoot ← askWhen deps.getQuarantineRoot (.getQuarantineRoot repoId) ""
  if deps.worktreeRecovery && (worktreePath : String) ≠ "" then
    ask (.prepareWorktree {
      repoId
      runId := runForWorktree.uuid
      worktreePath
      baseRef := runForWorktree.baseBranch.getD "HEAD"
      quarantineRoot
    })
  else do
    let _ ← ask (.resetWorktree repoId)
    pure true

/-- The commit names the lease that was inspected, and no job. -/
def commitReclamation (repoId : RepositoryId) (lease : WorkerLease)
    : RecoveryStatements Unit := do
  let now ← ask .now
  let _ ← ask (.commitLeaseReclamation {
    repoId
    leaseToken := lease.leaseToken
    runId := lease.runId
    now
    expectedLeaseGeneration := { workerId := lease.workerId, runId := lease.runId }
  })
  pure ()

def executeReclaim (repoId : RepositoryId) (state : RepoState) (candidateRun : Run)
    : RecoveryStatements Unit := do
  let safe ← prepareWorktree deps repoId candidateRun
  (if safe then
    match state.lease with
    | some lease => do
        Block.ifThen deps.operationalRecovery (commitReclamation repoId lease)
        Block.ifThen (state.repoEnabled && candidateRun.uuid ≠ lease.runId)
          (rebindLease repoId state candidateRun)
    | none => pure ()
  else
    pure () : RecoveryStatements Unit)

/-- What is done about a lease that is not active any more. -/
def determineLeaseAction (repoId : RepositoryId) (state : RepoState) (lease : WorkerLease)
    : RecoveryStatements RepositoryRecoveryAction :=
  if state.isLeaseExpired && state.isWorkerStale then do
    let candidateRun ← resolveCandidateRun deps repoId state
    match Option.filter isRecoverable candidateRun with
    | none => pure .leave
    | some candidateRun =>
        if !state.activeNonExpiredJobs.isEmpty || !state.repoEnabled then do
          executeReclaim deps repoId state candidateRun
          pure .reclaim
        else do
          Block.ifThen (candidateRun.uuid ≠ lease.runId) (rebindLease repoId state candidateRun)
          let _ ← ask (.onOrphan {
            repoId
            runId := candidateRun.uuid
            previousWorkerId := lease.workerId
            reason := "stale lease with no active jobs"
          })
          pure .orphanEnqueue
  else
    pure .leave

def reactivate (repoId : RepositoryId) (repoEnabled : Bool) (run : Run)
    : RecoveryStatements RepositoryRecoveryAction :=
  if repoEnabled then do
    let _ ← ask (.onWaitingReactivation repoId run.uuid)
    pure .waitingReactivate
  else
    pure .leave

def determineNoLeaseWithRunAction (repoId : RepositoryId) (state : RepoState) (run : Run)
    : RecoveryStatements RepositoryRecoveryAction :=
  if run.status = .waiting then
    reactivate repoId state.repoEnabled run
  else if run.status = .running then do
    let _ ← ask (.onOrphan {
      repoId
      runId := run.uuid
      previousWorkerId := (state.lease.map WorkerLease.workerId).getD "unknown"
      reason := "no active lease"
    })
    pure .orphanEnqueue
  else
    pure .leave

def determineAction (repoId : RepositoryId) (state : RepoState)
    : RecoveryStatements RepositoryRecoveryAction :=
  if state.hasActiveLease then
    pure .leave
  else if state.activeNonExpiredJobs.any (·.status = .queued) then
    pure .leave
  else if !state.activeExpiredClaimJobs.isEmpty then
    pure .requeue
  else
    match state.lease, state.run with
    | some lease, _ => determineLeaseAction deps repoId state lease
    | none, some run => determineNoLeaseWithRunAction repoId state run
    | none, none =>
        if !state.activeNonExpiredJobs.isEmpty then
          pure .leave
        else do
          let runs ← askWhen deps.listRunsForRepo (.listRunsForRepo repoId) []
          match List.find? (fun run : Run => run.status = .waiting) runs with
          | some waitingRun => reactivate repoId state.repoEnabled waitingRun
          | none => pure .leave

/-- `execute` from where it has read the lease. -/
def executeAfterInspection (repoId : RepositoryId) (now : Date)
    (repo : Option RegisteredRepository) (lease : Option WorkerLease)
    : RecoveryStatements RepositoryRecoveryAction := do
  let jobs ← ask (.listJobsForRepo repoId)
  let activeNonExpiredJobs := List.filter (isActiveNonExpired now) jobs
  let activeExpiredClaimJobs := List.filter (isExpiredClaim now) jobs
  let run ← readRun lease (activeNonExpiredJobs.head?.or activeExpiredClaimJobs.head?)
  let isWorkerStale ←
    (match lease with
    | some lease => readWorkerStale deps repoId lease
    | none => pure false : RecoveryStatements Bool)
  let hasActiveLease ← ask (.checkActiveLease repoId now)
  determineAction deps repoId {
    lease
    activeNonExpiredJobs
    activeExpiredClaimJobs
    run
    repoEnabled := repo.any (·.enabled)
    isLeaseExpired := lease.any (·.expiresAt.ms ≤ now.ms)
    isWorkerStale
    hasActiveLease
  }

/-- `RepositoryRecoveryCoordinator.execute`. -/
def execute (repoId : RepositoryId) : RecoveryStatements RepositoryRecoveryAction := do
  let now ← ask .now
  let repo ← ask (.findRepository repoId)
  let lease ← ask (.currentLease repoId)
  executeAfterInspection deps repoId now repo lease

end RepositoryRecoveryCoordinator

end AiSdlc.Application
