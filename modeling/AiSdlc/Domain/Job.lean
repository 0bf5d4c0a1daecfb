import AiSdlc.Domain.ReleaseBatch

/-! Jobs, which queue a run for a worker, and the transitions of a worker's claim on them. -/

namespace AiSdlc.Domain

open AiSdlc.Js

abbrev RunId := String

abbrev JobId := String

abbrev WorkerId := String

abbrev ClaimToken := String

inductive JobStatus
  | queued
  | claimed
  | running
  | succeeded
  | failed
  | cancelled
  deriving DecidableEq, Repr

def JobStatus.text : JobStatus → String
  | queued => "queued"
  | claimed => "claimed"
  | running => "running"
  | succeeded => "succeeded"
  | failed => "failed"
  | cancelled => "cancelled"

instance : ToString JobStatus := ⟨JobStatus.text⟩

/-- A status that no transition leaves. -/
def JobStatus.isTerminal (status : JobStatus) : Bool :=
  status ∈ [.succeeded, .failed, .cancelled]

inductive ResumeDisposition
  | preserveWorkingTree
  | resetToBaseline
  deriving DecidableEq, Repr

/-- The claim that a worker acts under. -/
structure JobOwnership where
  jobId : JobId
  workerId : WorkerId
  claimToken : ClaimToken
  deriving DecidableEq, Repr

structure Job where
  id : JobId
  runId : RunId
  repoId : RepositoryId
  issueNumber : Int
  status : JobStatus
  priority : Int
  attempts : Int
  claimedBy : Option WorkerId := none
  claimToken : Option ClaimToken := none
  createdAt : Date
  claimedAt : Option Date := none
  startedAt : Option Date := none
  completedAt : Option Date := none
  claimExpiresAt : Option Date := none
  resumeDisposition : Option ResumeDisposition := none
  deriving DecidableEq, Repr

structure CreateJobInput where
  id : JobId
  runId : RunId
  repoId : RepositoryId
  issueNumber : Int
  priority : Option Int := none
  createdAt : Date
  resumeDisposition : Option ResumeDisposition := none
  deriving DecidableEq, Repr

def createJob (input : CreateJobInput) : Job :=
  {
    id := input.id
    runId := input.runId
    repoId := input.repoId
    issueNumber := input.issueNumber
    status := .queued
    priority := input.priority.getD 0
    attempts := 0
    createdAt := input.createdAt
    resumeDisposition := input.resumeDisposition
  }

/-- A job that a worker still has to finish: `['queued', 'claimed', 'running']`. -/
def Job.isActive (job : Job) : Bool :=
  job.status ∈ [.queued, .claimed, .running]

/-- What the job queue throws: `JobStateError`, `JobOwnershipLostError`,
`DuplicateJobIdError`, `RepositoryNotApprovedError`, the errors of an empty id and of a time
out of range, and the error of a failed event insert.
-/
inductive JobError
  | state (message : String)
  | ownershipLost (jobId : JobId)
  | duplicateJobId (jobId : JobId)
  | repositoryNotApproved (repoId : RepositoryId)
  | emptyId (name : String)
  | invalidTime
  | event (message : String)
  deriving DecidableEq, Repr

/-- A step on jobs that may throw. -/
abbrev JobChecked := Except JobError

/-- `claimJob`, with the token that `newClaimToken` draws. An expiry out of range cannot be
stored, so it fails here instead of at the write.
-/
def claimJob (job : Job) (workerId : WorkerId) (token : ClaimToken) (now : Date)
    (ttlMs : Option Int)
    : JobChecked Job :=
  if job.status ≠ .queued then
    .error (.state s!"cannot claim job {job.id}: status is '{job.status}', expected 'queued'")
  else
    let claimed := {
      job with
      status := .claimed
      claimedBy := some workerId
      claimToken := some token
      claimedAt := some now
      attempts := job.attempts + 1
    }
    match ttlMs with
    | none => .ok claimed
    | some ttl =>
        match now.plus? ttl with
        | some expiry => .ok { claimed with claimExpiresAt := some expiry }
        | none => .error .invalidTime

def markJobRunning (job : Job) (now : Date) : JobChecked Job :=
  if job.status ≠ .claimed then
    .error (.state
      s!"cannot mark job {job.id} running: status is '{job.status}', expected 'claimed'")
  else
    .ok { job with status := .running, startedAt := some now }

def terminate (job : Job) (status : JobStatus) (now : Date) : JobChecked Job :=
  if job.status ≠ .running then
    .error (.state
      s!"cannot mark job {job.id} {status}: status is '{job.status}', expected 'running'")
  else
    .ok { job with status, completedAt := some now }

def markJobSucceeded (job : Job) (now : Date) : JobChecked Job :=
  terminate job .succeeded now

def markJobFailed (job : Job) (now : Date) : JobChecked Job :=
  terminate job .failed now

def markJobCancelled (job : Job) (now : Date) : JobChecked Job :=
  terminate job .cancelled now

def unclaimJob (job : Job) : JobChecked Job :=
  if job.status ≠ .claimed then
    .error (.state
      s!"cannot release claim on job {job.id}: status is '{job.status}', expected 'claimed'")
  else
    .ok { job with status := .queued, claimedBy := none, claimedAt := none, claimToken := none }

def resetJobToQueued (job : Job) : JobChecked Job :=
  if job.status ≠ .claimed ∧ job.status ≠ .running then
    .error (.state
      (s!"cannot reset job {job.id} to queued: status is '{job.status}', "
        ++ "expected 'claimed' or 'running'"))
  else
    .ok {
      job with
      status := .queued
      claimedBy := none
      claimedAt := none
      startedAt := none
      claimToken := none
    }

/-- `generateJobOwnership`: an empty token counts as none. -/
def generateJobOwnership (job : Job) (workerId : WorkerId) : Except String JobOwnership :=
  match truthy job.claimToken with
  | some claimToken => .ok { jobId := job.id, workerId, claimToken }
  | none => .error s!"job {job.id} has no claimToken"

/-- How the execution of a run ended, for the worker. -/
inductive ExecutionOutcome
  | completed
  | deferred
  | operatorBlocked
  | failed
  | cancelled
  deriving DecidableEq, Repr

def executionOutcomeToJobStatus : ExecutionOutcome → JobStatus
  | .completed | .deferred | .operatorBlocked => .succeeded
  | .failed => .failed
  | .cancelled => .cancelled

end AiSdlc.Domain
