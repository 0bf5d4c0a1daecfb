import AiSdlc.Sqlite.JobClaims

/-! The state of a job accounts for its claim: a job that no worker holds is queued or has
ended. Every operation on jobs keeps this.
-/

namespace AiSdlc.Sqlite

open AiSdlc.Js
open AiSdlc.Domain
open JobQueueRepository
open OperationalRecoveryRepository

/-- A job that has ended, waits for a worker without a claim, or is under a claim. -/
def Accounted (row : Job) : Prop :=
  row.status.isTerminal = true
  ∨ row.status = .queued ∧ Unclaimed row
  ∨ ∃ owner, owns owner row = true

/-- Every job of a store is accounted for. -/
def OperationalStore.AllAccounted (store : OperationalStore) : Prop :=
  ∀ id row, store.jobs.find id = some row → Accounted row

/-- The status of a job without a claim. -/
def IsLoose (row : Job) : Prop :=
  row.status.isTerminal = true ∨ row.status = .queued ∧ Unclaimed row

variable {call : JobCall} {store next : OperationalStore} {owner : JobOwnership}
  {transition : Job → JobChecked Job} {id : JobId} {row : Job}

theorem accounted_of_owns (owned : owns owner row = true) : Accounted row :=
  .inr (.inr ⟨owner, owned⟩)

theorem IsLoose.accounted (loose : IsLoose row) : Accounted row :=
  loose.elim .inl fun waits => .inr (.inl waits)

/-- A row under a claim stays accounted for where its claim stays. -/
theorem accounted_of_marks (marks : Marks transition) {jobs : JobTable}
    (updates : updateJobWithOwnership store.jobs owner transition = .ok jobs)
    (all : store.AllAccounted) (found : jobs.find id = some row)
    : Accounted row := by
  obtain ⟨old, updated, stored, owned, moved, rows⟩ :=
    updateJobWithOwnership_eq_ok (fun job updated moved => (marks job updated moved).1) updates
  obtain ⟨-, -, worker, token⟩ := marks old updated moved
  rw [rows id] at found
  split at found
  · cases found
    have sameId : old.id = owner.jobId := id_of_owns owned
    have kept : owns owner (writeRow updated old) = true :=
      owns_iff.mpr ⟨sameId, worker.trans (owns_iff.mp owned).2.1,
        token.trans (owns_iff.mp owned).2.2⟩
    exact accounted_of_owns kept
  · exact all id row found

theorem accounted_of_frees (frees : Frees transition)
    (queues : ∀ job updated, transition job = .ok updated → updated.status = .queued)
    {jobs : JobTable} (updates : updateJobWithOwnership store.jobs owner transition = .ok jobs)
    (all : store.AllAccounted) (found : jobs.find id = some row)
    : Accounted row := by
  obtain ⟨old, updated, stored, -, moved, rows⟩ :=
    updateJobWithOwnership_eq_ok (fun job updated moved => (frees job updated moved).1) updates
  obtain ⟨-, -, worker, token⟩ := frees old updated moved
  rw [rows id] at found
  split at found
  · cases found
    exact IsLoose.accounted (.inr ⟨queues old updated moved, worker, token⟩)
  · exact all id row found

theorem unclaimJob_queues {job updated : Job} (freed : unclaimJob job = .ok updated)
    : updated.status = .queued := by
  unfold unclaimJob at freed
  split at freed
  · contradiction
  · cases freed
    rfl

theorem accounted_of_claimNext {scope : Option RepositoryId} {input : ClaimNextInput}
    {token : ClaimToken} {now : Date} {jobs : JobTable} {job : Option Job}
    (claims : claimNext scope store.jobs input token now = .ok (job, jobs))
    (all : store.AllAccounted) (found : jobs.find id = some row)
    : Accounted row := by
  cases job with
  | none =>
      rw [claimNext_none claims] at found
      exact all id row found
  | some claimed =>
      obtain ⟨old, stored, -, taken, rows⟩ := claimNext_some claims
      obtain ⟨-, -, -, worker, drawn⟩ := claimJob_eq_ok taken
      rw [rows id] at found
      split at found
      · cases found
        let taker : JobOwnership :=
          { jobId := claimed.id, workerId := input.workerId, claimToken := token }
        have sameId : old.id = claimed.id := JobTable.id_of_find stored
        have held : owns taker (claimRow claimed old) = true :=
          owns_iff.mpr ⟨sameId, worker, drawn⟩
        exact accounted_of_owns held
      · exact all id row found

theorem accounted_of_reconcile {scope : Option RepositoryId} {input : ReconcileTerminalJobInput}
    {jobs : JobTable} {result : ReconcileTerminalJobResult}
    (reconciles : reconcileTerminalJob scope store.jobs input = .ok (result, jobs))
    (all : store.AllAccounted) (found : jobs.find id = some row)
    : Accounted row := by
  rcases reconcileTerminalJob_eq_ok reconciles with ⟨-, rfl⟩ | ⟨old, -, -, -, rows⟩
  · exact all id row found
  · rw [rows id] at found
    split at found
    · cases found
      exact .inl input.targetStatus.property
    · exact all id row found

theorem accounted_of_reclaim {input : ReclaimExpiredClaimInput} {recorded : JobChecked Unit}
    {result : LeaseReclamationResult}
    (reclaims : reclaimExpiredClaim store input recorded = .ok (result, next))
    (all : store.AllAccounted) (found : next.jobs.find id = some row)
    : Accounted row := by
  rcases reclaimExpiredClaim_eq_ok reclaims with ⟨-, rfl⟩ | ⟨-, -, rows⟩
  · exact all id row found
  · rw [rows id] at found
    obtain ⟨old, stored, written⟩ := Option.map_eq_some_iff.mp found
    split at written
    · cases written
      exact IsLoose.accounted (.inr ⟨rfl, rfl, rfl⟩)
    · cases written
      exact all id _ stored

theorem accounted_of_commit {input : CommitLeaseReclamationInput} {recorded : JobChecked Unit}
    {result : LeaseReclamationResult}
    (commits : commitLeaseReclamation store input recorded = .ok (result, next))
    (all : store.AllAccounted) (found : next.jobs.find id = some row)
    : Accounted row := by
  rcases commitLeaseReclamation_eq_ok commits with
    ⟨-, rfl⟩ | ⟨lease, jobs, worker, -, -, -, -, -, requeues, rfl⟩
  · exact all id row found
  · rcases requeueOwned_eq_ok requeues with
      ⟨-, rfl⟩ | ⟨named, old, requeued, -, -, -, reset, rows⟩
    · exact all id row found
    · have written : jobs.find id = some row := found
      rw [rows id] at written
      split at written
      · cases written
        exact IsLoose.accounted (.inr ⟨(resetJobToQueued_eq_ok reset).2.2.1, rfl, rfl⟩)
      · exact all id row written

/-- Every operation leaves a store whose jobs are accounted for, by cases on the operation. -/
theorem JobCall.accounted {result : JobCallResult}
    (performed : call.perform store = .ok (result, next)) (all : store.AllAccounted)
    : next.AllAccounted := by
  intro id row found
  cases call with
  | enqueue enabled input =>
      obtain ⟨jobs, enqueued, rfl, rfl⟩ := withJobs_eq_ok performed
      obtain ⟨-, -, rows⟩ := enqueue_eq_ok enqueued
      have written : jobs.find id = some row := found
      rw [rows id] at written
      split at written
      · cases written
        exact IsLoose.accounted (.inr ⟨rfl, rfl, rfl⟩)
      · exact all id row written
  | claimNext scope input token now =>
      obtain ⟨⟨job, jobs⟩, claims, rest⟩ := checked_bind_eq_ok.mp performed
      obtain ⟨rfl, rfl⟩ := Prod.mk.inj (Except.ok.inj rest)
      exact accounted_of_claimNext claims all found
  | releaseClaim owner =>
      obtain ⟨jobs, updates, rfl, rfl⟩ := withJobs_eq_ok performed
      exact accounted_of_frees frees_unclaim (fun _ _ => unclaimJob_queues) updates all found
  | resetToQueued owner =>
      obtain ⟨jobs, updates, rfl, rfl⟩ := withJobs_eq_ok performed
      exact accounted_of_frees frees_reset
        (fun _ _ moved => (resetJobToQueued_eq_ok moved).2.2.1) updates all found
  | markRunning owner now =>
      obtain ⟨jobs, updates, rfl, rfl⟩ := withJobs_eq_ok performed
      exact accounted_of_marks (marks_running now) updates all found
  | markSucceeded owner now =>
      obtain ⟨jobs, updates, rfl, rfl⟩ := withJobs_eq_ok performed
      exact accounted_of_marks (marks_terminate .succeeded now) updates all found
  | markFailed owner now =>
      obtain ⟨jobs, updates, rfl, rfl⟩ := withJobs_eq_ok performed
      exact accounted_of_marks (marks_terminate .failed now) updates all found
  | markCancelled owner now =>
      obtain ⟨jobs, updates, rfl, rfl⟩ := withJobs_eq_ok performed
      exact accounted_of_marks (marks_terminate .cancelled now) updates all found
  | reconcileTerminalJob scope input =>
      obtain ⟨⟨report, jobs⟩, reconciles, rest⟩ := checked_bind_eq_ok.mp performed
      obtain ⟨rfl, rfl⟩ := Prod.mk.inj (Except.ok.inj rest)
      exact accounted_of_reconcile reconciles all found
  | reclaimExpiredClaim input recorded =>
      obtain ⟨⟨report, after⟩, reclaims, rest⟩ := checked_bind_eq_ok.mp performed
      obtain ⟨rfl, rfl⟩ := Prod.mk.inj (Except.ok.inj rest)
      exact accounted_of_reclaim reclaims all found
  | commitLeaseReclamation input recorded =>
      obtain ⟨⟨report, after⟩, commits, rest⟩ := checked_bind_eq_ok.mp performed
      obtain ⟨rfl, rfl⟩ := Prod.mk.inj (Except.ok.inj rest)
      exact accounted_of_commit commits all found
  | other leases workers =>
      obtain ⟨rfl, rfl⟩ := Prod.mk.inj (Except.ok.inj performed)
      exact all id row found

theorem JobCall.accounted_step (call : JobCall) (all : store.AllAccounted)
    : (call.step store).after.AllAccounted := by
  unfold JobCall.step
  cases performed : call.perform store with
  | error error => exact all
  | ok done => exact JobCall.accounted performed all

end AiSdlc.Sqlite
