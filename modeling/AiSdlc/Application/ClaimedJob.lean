import Mathlib.Logic.Relation
import AiSdlc.Sqlite.JobAccounts
import AiSdlc.Sqlite.LeaseCalls
import AiSdlc.Sqlite.WorkerRegistryRepository
import AiSdlc.Application.WorkerLoop

/-! The stores around one worker that runs a claimed job, while other actors work on the same
stores between any two of its calls. The others draw tokens of their own, and none of them
marks this worker busy.
-/

namespace AiSdlc.Application

open Relation
open AiSdlc.Js
open AiSdlc.Domain
open AiSdlc.Async
open AiSdlc.Sqlite
open JobQueueRepository

/-- The grace period of a shutdown ran out while the execution went on. -/
def ExecutionRace.expiresGrace : ExecutionRace → Bool
  | aborted reason none => reason = some "shutdown"
  | aborted _ (some _) | settled _ => false

/-- The promise for the execution resolved with a completed outcome, before or after an abort. -/
def ExecutionRace.completes : ExecutionRace → Bool
  | settled (.ok result) | aborted _ (some (.ok result)) => result.toOutcome = .completed
  | settled (.error _) | aborted _ (some (.error _)) | aborted _ none => false

/-- The stores, and what has happened to the worker so far: which lease it acquired, whether
the grace period of a shutdown ran out, whether it was told that its lease is lost, whether its
execution completed, and whether it queued its job after that.
-/
structure ClaimedJobState where
  store : OperationalStore
  leaseToken : Option LeaseToken := none
  graceExpired : Bool := false
  leaseLost : Bool := false
  completed : Bool := false
  requeuedCompleted : Bool := false

/-- The claim holds its job, which has not ended. -/
def ClaimStands (store : OperationalStore) (owner : JobOwnership) : Prop :=
  ∃ row, store.jobs.find owner.jobId = some row ∧ owns owner row = true
    ∧ row.status.isTerminal = false

/-- What another actor does to the stores at once: a call on the jobs or on the leases, or any
change of the workers.
-/
inductive Interferes (workerId : WorkerId) (repoId : RepositoryId) (claimToken : ClaimToken)
    (leaseToken : Option LeaseToken)
    : OperationalStore → OperationalStore → Prop
  | job {store : OperationalStore} (call : JobCall)
      (onJobs : ∀ leases workers, call ≠ .other leases workers)
      (fresh : ∀ scope input now, call ≠ .claimNext scope input claimToken now)
      : Interferes workerId repoId claimToken leaseToken store (call.step store).after
  | lease {store : OperationalStore} (call : LeaseCall)
      (fresh : ∀ input token, call = .acquire input token → leaseToken ≠ some token)
      : Interferes workerId repoId claimToken leaseToken store
          { store with leases := (call.step store.leases).2 }
  | workers {store : OperationalStore} (workers : WorkerTable)
      (spares : WorkerRegistryRepository.IsBusy workers workerId repoId →
        WorkerRegistryRepository.IsBusy store.workers workerId repoId)
      : Interferes workerId repoId claimToken leaseToken store { store with workers }

namespace ClaimedJob

/-- What the queue replies to an owner's operation; `queues` tells the operations that give the
job back.
-/
def JobAnswers (state : ClaimedJobState) (queues : Bool) (outcome : JobChecked JobTable)
    (reply : Except WorkerError Unit) (next : ClaimedJobState)
    : Prop :=
  match outcome with
  | .ok jobs =>
      reply = .ok ()
      ∧ next = {
          state with
          store := { state.store with jobs }
          requeuedCompleted := state.requeuedCompleted || (queues && state.completed)
        }
  | .error (.ownershipLost _) =>
      (∃ message, reply = .error (.jobOwnershipLost message)) ∧ next = state
  | .error _ => (∃ message, reply = .error (.error message)) ∧ next = state

/-- What the registry replies to a mark. -/
def RegistryAnswers (state : ClaimedJobState) (outcome : Except String WorkerTable)
    (reply : Except WorkerError Unit) (next : ClaimedJobState)
    : Prop :=
  match outcome with
  | .ok workers =>
      reply = .ok () ∧ next = { state with store := { state.store with workers } }
  | .error message => reply = .error (.error message) ∧ next = state

/-- What the store of leases replies to an acquisition. -/
def AcquireAnswers (state : ClaimedJobState)
    (outcome : Except LeaseError (WorkerLease × LeaseTable))
    (reply : Except WorkerError WorkerLease) (next : ClaimedJobState)
    : Prop :=
  match outcome with
  | .ok (lease, leases) =>
      reply = .ok lease
      ∧ next = {
          state with
          store := { state.store with leases }
          leaseToken := some lease.leaseToken
        }
  | .error (.conflict _ _) =>
      (∃ message, reply = .error (.leaseConflict message)) ∧ next = state
  | .error _ => (∃ message, reply = .error (.error message)) ∧ next = state

/-- What the store of leases replies to a release. -/
def ReleaseAnswers (state : ClaimedJobState) (outcome : Except LeaseError LeaseTable)
    (reply : Except WorkerError Unit) (next : ClaimedJobState)
    : Prop :=
  match outcome with
  | .ok leases => reply = .ok () ∧ next = { state with store := { state.store with leases } }
  | .error (.ownershipLost _ _) =>
      (∃ message, reply = .error (.leaseOwnershipLost message)) ∧ next = state
  | .error _ => (∃ message, reply = .error (.error message)) ∧ next = state

def toldLeaseLost : Except WorkerError (Option AbortReason) → Bool
  | .ok (some .leaseLost) => true
  | .ok _ | .error _ => false

/-- What the ports of a worker reply; the other ports reply anything. -/
def StoreAnswers : Environment ClaimedJobState WorkerRequest WorkerRequest.Reply
  | state, .now, reply, next => (∃ date, reply = .ok date) ∧ next = state
  | state, .getAbortReason, reply, next =>
      next = { state with leaseLost := state.leaseLost || toldLeaseLost reply }
  | state, .prepareWorktree _, reply, next =>
      (∃ race : PreparationRace, race.result = reply) ∧ next = state
  | state, .executeRun _, reply, next =>
      ∃ race : ExecutionRace, race.result? = some reply
        ∧ next = {
            state with
            graceExpired := state.graceExpired || race.expiresGrace
            completed := state.completed || race.completes
          }
  | state, .acquireLease input, reply, next =>
      ∃ token, AcquireAnswers state
        (WorkerLeaseRepository.acquire state.store.leases input token) reply next
  | state, .releaseLease input, reply, next =>
      ReleaseAnswers state (WorkerLeaseRepository.release state.store.leases input) reply next
  | state, .markJobRunning owner now, reply, next =>
      JobAnswers state false (markRunning state.store.jobs owner now) reply next
  | state, .markJobSucceeded owner now, reply, next =>
      JobAnswers state false (markSucceeded state.store.jobs owner now) reply next
  | state, .markJobCancelled owner now, reply, next =>
      JobAnswers state false (markCancelled state.store.jobs owner now) reply next
  | state, .markJobFailed owner now, reply, next =>
      JobAnswers state false (markFailed state.store.jobs owner now) reply next
  | state, .resetJobToQueued owner, reply, next =>
      JobAnswers state true (resetToQueued state.store.jobs owner) reply next
  | state, .releaseClaim owner, reply, next =>
      JobAnswers state true (releaseClaim state.store.jobs owner) reply next
  | state, .findWorker id repoId, reply, next =>
      reply = .ok (WorkerRegistryRepository.findById state.store.workers id repoId)
      ∧ next = state
  | state, .markBusy id repoId, reply, next =>
      RegistryAnswers state (WorkerRegistryRepository.markBusy state.store.workers id repoId)
        reply next
  | state, .markIdle id repoId, reply, next =>
      RegistryAnswers state (WorkerRegistryRepository.markIdle state.store.workers id repoId)
        reply next
  | state, .markStopping id repoId, reply, next =>
      RegistryAnswers state
        (WorkerRegistryRepository.markStopping state.store.workers id repoId) reply next
  | state, .outerAborted, _, next | state, .abort _, _, next | state, .signalAborted, _, next
  | state, .handlePreparationFailure _ _, _, next | state, .findRun _, _, next
  | state, .updateRun _ _, _, next | state, .markUnreachable _ _, _, next
  | state, .notify _, _, next | state, .stopping, _, next => next = state

/-- The ports reply after any number of steps of the other actors. -/
def Answers (workerId : WorkerId) (repoId : RepositoryId) (claimToken : ClaimToken)
    : Environment ClaimedJobState WorkerRequest WorkerRequest.Reply :=
  fun state request reply next =>
    ∃ store, ReflTransGen (Interferes workerId repoId claimToken state.leaseToken)
        state.store store
      ∧ StoreAnswers { state with store } request reply next

end ClaimedJob

-----------------------------------------------------------------------------------------
-- What no other actor brings back
-----------------------------------------------------------------------------------------

/-- The lease of a worker's run stands under a token. -/
def LeaseStands (store : OperationalStore) (repoId : RepositoryId) (workerId : WorkerId)
    (runId : RunId) (leaseToken : LeaseToken)
    : Prop :=
  ∃ lease, WorkerLeaseRepository.current store.leases repoId = some lease
    ∧ WorkerLeaseRepository.fenced repoId workerId runId leaseToken lease = true

section Stands

variable {store next : OperationalStore} {owner : JobOwnership} {call : JobCall}
  {workerId : WorkerId} {repoId : RepositoryId} {runId : RunId} {leaseToken : LeaseToken}

/-- A claim that stands after a call on the jobs stood before it, unless the call drew its
token.
-/
theorem claimStands_of_performed {result : JobCallResult}
    (performed : call.Performed result store next)
    (fresh : ∀ scope input now, call ≠ .claimNext scope input owner.claimToken now)
    (stands : ClaimStands next owner)
    : ClaimStands store owner := by
  obtain ⟨row, found, owned, unfinished⟩ := stands
  have change := performed.rows owner.jobId
  rw [found] at change
  have claimed (unclaimed : Unclaimed row) : False := by
    have worker := (owns_iff.mp owned).2.1
    rw [unclaimed.1] at worker
    contradiction
  unfold ClaimStands
  generalize before : store.jobs.find owner.jobId = old at change
  cases change with
  | same _ free => exact ⟨row, rfl, owned, unfinished⟩
  | enqueued free keeps carries unclaimed => exact (claimed unclaimed).elim
  | @claimed old job taker takes carries queued held =>
      have token : taker.claimToken = owner.claimToken :=
        Option.some.inj ((owns_iff.mp held).2.2.symm.trans (owns_iff.mp owned).2.2)
      unfold JobCall.claims at takes
      split at takes
      · split at takes
        · cases takes
          cases token
          exact absurd rfl (fresh _ _ _)
        · contradiction
      · contradiction
  | @marked old job taker free keeps carries taken going same =>
      refine ⟨old, rfl, owns_iff.mpr ⟨JobTable.id_of_find before, ?_, ?_⟩, going⟩
      · exact same.1 ▸ (owns_iff.mp owned).2.1
      · exact same.2 ▸ (owns_iff.mp owned).2.2
  | ended free ends taken going unclaimed => exact (claimed unclaimed).elim

theorem claimStands_of_step
    (fresh : ∀ scope input now, call ≠ .claimNext scope input owner.claimToken now)
    (stands : ClaimStands (call.step store).after owner)
    : ClaimStands store owner := by
  rcases call.step_cases store with ⟨error, refused⟩ | ⟨result, next, done, ok⟩
  · rw [refused] at stands
    exact stands
  · rw [ok] at stands
    exact claimStands_of_performed done fresh stands

/-- A lease is fenced as the rows of its repository tell. -/
theorem leaseStands_of_mem {lease : WorkerLease} (member : lease ∈ store.leases.rows)
    (fence : WorkerLeaseRepository.fenced repoId workerId runId leaseToken lease = true)
    : LeaseStands store repoId workerId runId leaseToken := by
  have stored := Table.findKey_of_mem leaseSchema_keyed member
  rw [(WorkerLeaseRepository.fenced_iff.mp fence).1] at stored
  exact ⟨lease, stored, fence⟩

/-- The calls on the jobs write at most one lease and one worker, when they take a lease back:
no lease is added, and no worker becomes busy.
-/
theorem leases_workers_of_step (call : JobCall) (store : OperationalStore)
    (onJobs : ∀ leases workers, call ≠ .other leases workers)
    : (∀ lease ∈ (call.step store).after.leases.rows, lease ∈ store.leases.rows)
      ∧ ∀ id repoId, WorkerRegistryRepository.IsBusy (call.step store).after.workers id repoId →
          WorkerRegistryRepository.IsBusy store.workers id repoId := by
  have unchanged {next : OperationalStore} (leases : next.leases = store.leases)
      (workers : next.workers = store.workers)
      : (∀ lease ∈ next.leases.rows, lease ∈ store.leases.rows)
        ∧ ∀ id repoId, WorkerRegistryRepository.IsBusy next.workers id repoId →
            WorkerRegistryRepository.IsBusy store.workers id repoId := by
    rw [leases, workers]
    exact ⟨fun _ member => member, fun _ _ busy => busy⟩
  unfold JobCall.step
  cases performed : call.perform store with
  | error error => exact unchanged rfl rfl
  | ok done =>
      obtain ⟨result, next⟩ := done
      cases call with
      | enqueue | releaseClaim | resetToQueued | markRunning | markSucceeded | markFailed
        | markCancelled =>
          obtain ⟨_, -, -, rfl⟩ := withJobs_eq_ok performed
          exact unchanged rfl rfl
      | claimNext | reconcileTerminalJob =>
          obtain ⟨_, -, rest⟩ := checked_bind_eq_ok.mp performed
          obtain ⟨-, rfl⟩ := Prod.mk.inj (Except.ok.inj rest)
          exact unchanged rfl rfl
      | reclaimExpiredClaim input recorded =>
          obtain ⟨⟨_, after⟩, reclaims, rest⟩ := checked_bind_eq_ok.mp performed
          obtain ⟨-, rfl⟩ := Prod.mk.inj (Except.ok.inj rest)
          obtain ⟨leases, workers⟩ := OperationalRecoveryRepository.tables_of_reclaim reclaims
          exact unchanged leases workers
      | commitLeaseReclamation input recorded =>
          obtain ⟨⟨_, after⟩, commits, rest⟩ := checked_bind_eq_ok.mp performed
          obtain ⟨-, rfl⟩ := Prod.mk.inj (Except.ok.inj rest)
          rcases OperationalRecoveryRepository.commitLeaseReclamation_eq_ok commits with
            ⟨-, rfl⟩ | ⟨lease, jobs, worker, -, -, -, -, -, -, rfl⟩
          · exact unchanged rfl rfl
          · refine ⟨fun lease member => (Table.mem_delete.mp member).1, ?_⟩
            rintro id repoId ⟨row, member, here, busy⟩
            simp only [OperationalRecoveryRepository.removeLease, Table.mem_revise] at member
            obtain ⟨old, within, same⟩ := member
            split at same
            · subst same
              contradiction
            · exact ⟨old, within, same ▸ here, same ▸ busy⟩
      | other leases workers => exact absurd rfl (onJobs leases workers)

/-- A lease that stands after a call on the leases stood before it, unless the call drew its
token.
-/
theorem leaseStands_of_leaseStep {call : LeaseCall}
    (fresh : ∀ input token, call = .acquire input token → leaseToken ≠ token)
    (stands : LeaseStands { store with leases := (call.step store.leases).2 } repoId workerId
      runId leaseToken)
    : LeaseStands store repoId workerId runId leaseToken := by
  obtain ⟨lease, found, fence⟩ := stands
  simp only [LeaseCall.step] at found
  cases performed : call.perform store.leases with
  | error error =>
      rw [performed] at found
      exact ⟨lease, found, fence⟩
  | ok done =>
      obtain ⟨answer, after⟩ := done
      rw [performed] at found
      simp only at found
      cases call with
      | acquire input token =>
          obtain ⟨⟨acquired, table⟩, acquires, rest⟩ := checked_bind_eq_ok.mp performed
          obtain ⟨-, rfl⟩ := Prod.mk.inj (Except.ok.inj rest)
          obtain ⟨⟨expiresAt, -, drawn⟩, -, rows⟩ :=
            WorkerLeaseRepository.acquire_eq_ok acquires
          rw [rows repoId] at found
          split at found
          · cases found
            have same := (WorkerLeaseRepository.fenced_iff.mp fence).2.2.2
            rw [drawn] at same
            exact absurd same.symm (fresh input token rfl)
          · exact ⟨lease, found, fence⟩
      | heartbeat input =>
          obtain ⟨table, beats, rest⟩ := checked_bind_eq_ok.mp performed
          obtain ⟨-, rfl⟩ := Prod.mk.inj (Except.ok.inj rest)
          obtain ⟨held, stored, -, rows⟩ := WorkerLeaseRepository.heartbeat_eq_ok beats
          rw [rows repoId] at found
          split at found
          · rename_i here
            cases found
            exact ⟨held, here ▸ stored, fence⟩
          · exact ⟨lease, found, fence⟩
      | release input =>
          obtain ⟨table, releases, rest⟩ := checked_bind_eq_ok.mp performed
          obtain ⟨-, rfl⟩ := Prod.mk.inj (Except.ok.inj rest)
          obtain ⟨held, stored, -, rows⟩ := WorkerLeaseRepository.release_eq_ok releases
          rw [rows repoId] at found
          split at found
          · contradiction
          · exact ⟨lease, found, fence⟩

end Stands

/-- What the other actors keep: the jobs stay accounted for, and neither the claim nor the
lease of the worker comes back, nor does the worker become busy.
-/
structure Undisturbed (owner : JobOwnership) (repoId : RepositoryId)
    (leaseToken : Option LeaseToken) (before after : OperationalStore)
    : Prop where
  accounted (all : before.AllAccounted) : after.AllAccounted
  claim (stands : ClaimStands after owner) : ClaimStands before owner
  lease {leaseRepoId : RepositoryId} {runId : RunId} {token : LeaseToken}
    (drawn : leaseToken = some token)
    (stands : LeaseStands after leaseRepoId owner.workerId runId token)
    : LeaseStands before leaseRepoId owner.workerId runId token
  worker (busy : WorkerRegistryRepository.IsBusy after.workers owner.workerId repoId)
    : WorkerRegistryRepository.IsBusy before.workers owner.workerId repoId

section Interference

variable {owner : JobOwnership} {repoId : RepositoryId} {leaseToken : Option LeaseToken}
  {before middle after : OperationalStore}

theorem Undisturbed.refl : Undisturbed owner repoId leaseToken before before :=
  ⟨id, id, fun _ => id, id⟩

theorem Undisturbed.trans
    (first : Undisturbed owner repoId leaseToken before middle)
    (second : Undisturbed owner repoId leaseToken middle after)
    : Undisturbed owner repoId leaseToken before after :=
  ⟨second.accounted ∘ first.accounted, first.claim ∘ second.claim,
    fun drawn => first.lease drawn ∘ second.lease drawn, first.worker ∘ second.worker⟩

/-- A step of another actor keeps all this, by cases on the step. -/
theorem Interferes.undisturbed
    (interferes : Interferes owner.workerId repoId owner.claimToken leaseToken before after)
    : Undisturbed owner repoId leaseToken before after := by
  cases interferes with
  | job call onJobs fresh =>
      obtain ⟨leases, workers⟩ := leases_workers_of_step call before onJobs
      refine ⟨call.accounted_step, claimStands_of_step fresh, ?_, workers _ _⟩
      rintro leaseRepoId runId token - ⟨lease, found, fence⟩
      exact leaseStands_of_mem (leases lease (Table.mem_of_findKey found)) fence
  | lease call fresh =>
      refine ⟨id, id, fun drawn => ?_, id⟩
      refine leaseStands_of_leaseStep fun input token acquires same => ?_
      exact fresh input token acquires (same ▸ drawn)
  | workers workers spares => exact ⟨id, id, fun _ => id, spares⟩

/-- So do any number of steps, by induction over them. -/
theorem undisturbed_of_interferes
    (interferes : ReflTransGen
      (Interferes owner.workerId repoId owner.claimToken leaseToken) before after)
    : Undisturbed owner repoId leaseToken before after := by
  induction interferes with
  | refl => exact .refl
  | tail _ step ih => exact ih.trans step.undisturbed

end Interference

end AiSdlc.Application
