import AiSdlc.Domain.Job

/-! Workers, and the lease under which a worker works on a repository. -/

namespace AiSdlc.Domain

open AiSdlc.Js

inductive WorkerStatus
  | idle
  | busy
  | stopping
  | unhealthy
  deriving DecidableEq, Repr

structure Worker where
  id : WorkerId
  repoId : RepositoryId
  hostname : String
  processId : Int
  status : WorkerStatus
  heartbeatAt : Date
  deriving DecidableEq, Repr

def markWorkerBusy (worker : Worker) : Worker :=
  { worker with status := .busy }

/-- A worker that stops or is unhealthy does not become idle. -/
def markWorkerIdle (worker : Worker) : Worker :=
  if worker.status = .stopping ∨ worker.status = .unhealthy then worker
  else { worker with status := .idle }

def markWorkerStopping (worker : Worker) : Worker :=
  { worker with status := .stopping }

def markWorkerUnhealthy (worker : Worker) : Worker :=
  { worker with status := .unhealthy }

abbrev LeaseToken := String

structure WorkerLease where
  repoId : RepositoryId
  workerId : WorkerId
  runId : RunId
  acquiredAt : Date
  heartbeatAt : Date
  expiresAt : Date
  leaseToken : LeaseToken
  deriving DecidableEq, Repr

/-- `WorkerLeaseConflictError`, `LeaseOwnershipLostError`, and the error of a time out of
range.
-/
inductive LeaseError
  | conflict (repoId : RepositoryId) (currentWorker : WorkerId)
  | ownershipLost (repoId : RepositoryId) (leaseToken : LeaseToken)
  | invalidTime
  deriving DecidableEq, Repr

end AiSdlc.Domain
