import AiSdlc.Sqlite.JobAccounts

/-! A queued job should carry nothing of an earlier claim. A release and a reset leave the
expiry of the claim in the row, and a reclamation leaves the start of the job.
-/

namespace AiSdlc.Sqlite

open AiSdlc.Js
open AiSdlc.Domain
open AiSdlc.Transition
open JobQueueRepository
open OperationalRecoveryRepository

/-- The row carries nothing of an earlier claim. -/
structure IsClean (row : Job) : Prop where
  claimedBy : row.claimedBy = none
  claimToken : row.claimToken = none
  claimedAt : row.claimedAt = none
  claimExpiresAt : row.claimExpiresAt = none
  startedAt : row.startedAt = none

/-- A queued job is clean, and a claimed one has not started yet. -/
structure IsTidy (row : Job) : Prop where
  queued : row.status = .queued → IsClean row
  claimed : row.status = .claimed → row.startedAt = none

/-- Every job of the store is tidy. -/
def OperationalStore.AllTidy (store : OperationalStore) : Prop :=
  ∀ id row, store.jobs.find id = some row → IsTidy row

/-- The lease is of the generation that a commit names. -/
def namesLease (input : CommitLeaseReclamationInput) (lease : WorkerLease) : Bool :=
  lease.leaseToken = input.leaseToken
    && lease.workerId = input.expectedLeaseGeneration.workerId
    && lease.runId = input.expectedLeaseGeneration.runId

/-- What a release or a reset finds has no expiry, and what a reclamation or a commit finds
has not started.
-/
def TakesBackClean (store : OperationalStore) : JobCall → Prop
  | .releaseClaim owner =>
      ∀ row ∈ store.jobs.rows, owns owner row = true → row.status = .claimed →
        row.claimExpiresAt = none
  | .resetToQueued owner =>
      ∀ row ∈ store.jobs.rows, owns owner row = true → isHeld row = true →
        row.claimExpiresAt = none
  | .reclaimExpiredClaim input _ =>
      ∀ row ∈ store.jobs.rows, row.runId = input.runId → isHeld row = true →
        reclamationBlocked store input.repoId input.now = true ∨ row.startedAt = none
  | .commitLeaseReclamation input _ =>
      ∀ owner ∈ input.expectedJobOwnership, ∀ row ∈ store.jobs.rows, owns owner row = true →
        isHeld row = true →
          (WorkerLeaseRepository.current store.leases input.repoId).any (namesLease input) = false
            ∨ row.startedAt = none
  | _ => True

instance (store : OperationalStore) (call : JobCall) : Decidable (TakesBackClean store call) :=
  match call with
  | .releaseClaim owner =>
      inferInstanceAs (Decidable (∀ row ∈ store.jobs.rows, owns owner row = true →
        row.status = .claimed → row.claimExpiresAt = none))
  | .resetToQueued owner =>
      inferInstanceAs (Decidable (∀ row ∈ store.jobs.rows, owns owner row = true →
        isHeld row = true → row.claimExpiresAt = none))
  | .reclaimExpiredClaim input _ =>
      inferInstanceAs (Decidable (∀ row ∈ store.jobs.rows, row.runId = input.runId →
        isHeld row = true
        → reclamationBlocked store input.repoId input.now = true ∨ row.startedAt = none))
  | .commitLeaseReclamation input _ =>
      inferInstanceAs (Decidable (∀ owner ∈ input.expectedJobOwnership,
        ∀ row ∈ store.jobs.rows, owns owner row = true → isHeld row = true →
          (WorkerLeaseRepository.current store.leases input.repoId).any (namesLease input) = false
            ∨ row.startedAt = none))
  | .enqueue .. | .claimNext .. | .markRunning .. | .markSucceeded .. | .markFailed ..
  | .markCancelled .. | .reconcileTerminalJob .. | .other .. => .isTrue trivial

/-- The operations on jobs in any order, from a queue without jobs. -/
def queueSystem : System OperationalStore JobStep :=
  .ofCalls (fun store => store.jobs.rows = []) JobCall.stepWithStore

variable {store next : OperationalStore} {owner : JobOwnership} {id : JobId} {row : Job}

theorem IsTidy.of_status (queued : row.status ≠ .queued) (claimed : row.status ≠ .claimed)
    : IsTidy row :=
  ⟨fun same => (queued same).elim, fun same => (claimed same).elim⟩

theorem IsClean.tidy (clean : IsClean row) : IsTidy row :=
  ⟨fun _ => clean, fun _ => clean.startedAt⟩

theorem tidy_of_update {transition : Job → JobChecked Job} {jobs : JobTable}
    (keepsId : ∀ job updated, transition job = .ok updated → updated.id = job.id)
    (updates : updateJobWithOwnership store.jobs owner transition = .ok jobs)
    (all : store.AllTidy)
    (tidies : ∀ old updated, old ∈ store.jobs.rows → owns owner old = true → IsTidy old →
      transition old = .ok updated → IsTidy (writeRow updated old))
    (found : jobs.find id = some row)
    : IsTidy row := by
  obtain ⟨old, updated, stored, owned, moved, rows⟩ :=
    updateJobWithOwnership_eq_ok keepsId updates
  rw [rows id] at found
  split at found
  · cases found
    exact tidies old updated (Table.mem_of_findKey stored) owned (all _ old stored) moved
  · exact all id row found

theorem tidy_of_release {jobs : JobTable} (releases : releaseClaim store.jobs owner = .ok jobs)
    (takes : TakesBackClean store (.releaseClaim owner)) (all : store.AllTidy)
    (found : jobs.find id = some row)
    : IsTidy row := by
  refine tidy_of_update (fun job updated moved => (frees_unclaim job updated moved).1) releases
    all ?_ found
  intro old updated member owned tidy freed
  unfold unclaimJob at freed
  split at freed
  · contradiction
  · rename_i claimed
    have status : old.status = .claimed := not_not.mp claimed
    cases freed
    exact IsClean.tidy ⟨rfl, rfl, rfl, takes old member owned status, tidy.claimed status⟩

theorem tidy_of_reset {jobs : JobTable} (resets : resetToQueued store.jobs owner = .ok jobs)
    (takes : TakesBackClean store (.resetToQueued owner)) (all : store.AllTidy)
    (found : jobs.find id = some row)
    : IsTidy row := by
  refine tidy_of_update (fun job updated moved => (frees_reset job updated moved).1) resets
    all ?_ found
  intro old updated member owned tidy freed
  have held := (resetJobToQueued_eq_ok freed).1
  unfold resetJobToQueued at freed
  split at freed
  · contradiction
  · cases freed
    exact IsClean.tidy ⟨rfl, rfl, rfl, takes old member owned held, rfl⟩

theorem tidy_of_running {jobs : JobTable} {now : Date}
    (marks : markRunning store.jobs owner now = .ok jobs) (all : store.AllTidy)
    (found : jobs.find id = some row)
    : IsTidy row := by
  refine tidy_of_update (fun job updated moved => (marks_running now job updated moved).1) marks
    all ?_ found
  intro old updated _ _ _ moved
  simp only [markJobRunning] at moved
  split at moved
  · contradiction
  · cases moved
    exact .of_status (by simp [writeRow]) (by simp [writeRow])

theorem tidy_of_terminate {jobs : JobTable} {status : JobStatus} {now : Date}
    (terminal : status.isTerminal = true)
    (finishes : updateJobWithOwnership store.jobs owner (terminate · status now) = .ok jobs)
    (all : store.AllTidy) (found : jobs.find id = some row)
    : IsTidy row := by
  refine tidy_of_update (fun job updated moved => (marks_terminate status now job updated
    moved).1) finishes all ?_ found
  intro old updated _ _ _ moved
  simp only [terminate] at moved
  split at moved
  · contradiction
  · cases moved
    refine .of_status ?_ ?_ <;>
      · intro same
        rw [show status = _ from same] at terminal
        contradiction

theorem tidy_of_enqueue {enabled : RepositoryId → Bool} {input : CreateJobInput}
    {jobs : JobTable} (enqueues : enqueue enabled store.jobs (createJob input) = .ok jobs)
    (all : store.AllTidy) (found : jobs.find id = some row)
    : IsTidy row := by
  rw [(enqueue_eq_ok enqueues).2.2 id] at found
  split at found
  · cases found
    exact IsClean.tidy ⟨rfl, rfl, rfl, rfl, rfl⟩
  · exact all id row found

/-- A claim takes a queued job, which has not started. -/
theorem tidy_of_claim {scope : Option RepositoryId} {input : ClaimNextInput}
    {token : ClaimToken} {now : Date} {claimed : Option Job} {jobs : JobTable}
    (claims : claimNext scope store.jobs input token now = .ok (claimed, jobs))
    (all : store.AllTidy) (found : jobs.find id = some row)
    : IsTidy row := by
  cases claimed with
  | none => exact all id row (claimNext_none claims ▸ found)
  | some job =>
      obtain ⟨old, stored, queued, taken, rows⟩ := claimNext_some claims
      rw [rows id] at found
      split at found
      · cases found
        have started := ((all _ old stored).queued queued).startedAt
        have status := (claimJob_eq_ok taken).2.2.1
        exact ⟨fun same => (nomatch status.symm.trans same), fun _ => started⟩
      · exact all id row found

theorem tidy_of_reconcile {scope : Option RepositoryId} {input : ReconcileTerminalJobInput}
    {result : ReconcileTerminalJobResult} {jobs : JobTable}
    (reconciles : reconcileTerminalJob scope store.jobs input = .ok (result, jobs))
    (all : store.AllTidy) (found : jobs.find id = some row)
    : IsTidy row := by
  rcases reconcileTerminalJob_eq_ok reconciles with ⟨_, rfl⟩ | ⟨old, _, _, _, rows⟩
  · exact all id row found
  · rw [rows id] at found
    split at found
    · cases found
      have terminal := input.targetStatus.property
      refine .of_status ?_ ?_ <;>
        · intro same
          rw [show input.targetStatus.val = _ from same] at terminal
          contradiction
    · exact all id row found

theorem clean_unclaimedRow (started : row.startedAt = none) : IsClean (unclaimedRow row) :=
  ⟨rfl, rfl, rfl, rfl, started⟩

theorem tidy_of_reclaim {input : ReclaimExpiredClaimInput} {recorded : JobChecked Unit}
    {result : LeaseReclamationResult}
    (reclaims : reclaimExpiredClaim store input recorded = .ok (result, next))
    (takes : TakesBackClean store (.reclaimExpiredClaim input recorded)) (all : store.AllTidy)
    (found : next.jobs.find id = some row)
    : IsTidy row := by
  rcases reclaimExpiredClaim_eq_ok reclaims with ⟨_, rfl⟩ | ⟨_, unblocked, rows⟩
  · exact all id row found
  · rw [rows id] at found
    obtain ⟨old, stored, written⟩ := Option.map_eq_some_iff.mp found
    split at written
    · rename_i taken
      cases written
      rcases takes old (Table.mem_of_findKey stored) taken.1 taken.2 with blocked | started
      · exact nomatch blocked.symm.trans unblocked
      · exact (clean_unclaimedRow started).tidy
    · cases written
      exact all id _ stored

theorem tidy_of_commit {input : CommitLeaseReclamationInput} {recorded : JobChecked Unit}
    {result : LeaseReclamationResult}
    (commits : commitLeaseReclamation store input recorded = .ok (result, next))
    (takes : TakesBackClean store (.commitLeaseReclamation input recorded))
    (all : store.AllTidy) (found : next.jobs.find id = some row)
    : IsTidy row := by
  rcases commitLeaseReclamation_eq_ok commits with
    ⟨_, rfl⟩ | ⟨lease, jobs, worker, _, current, token, holder, run, requeues, rfl⟩
  · exact all id row found
  · rcases requeueOwned_eq_ok requeues with
      ⟨_, rfl⟩ | ⟨named, old, requeued, given, stored, owned, reset, rows⟩
    · exact all id row found
    · have written : jobs.find id = some row := found
      rw [rows id] at written
      split at written
      · cases written
        have names : namesLease input lease = true := by simp [namesLease, token, holder, run]
        rcases takes named given old (Table.mem_of_findKey stored) owned
          (resetJobToQueued_eq_ok reset).1 with other | started
        · simp [current, names] at other
        · rw [requeueRow_of_reset reset]
          exact (clean_unclaimedRow started).tidy
      · exact all id row written

/-- Every operation that takes back clean leaves tidy jobs, by cases on the operation. -/
theorem JobCall.tidy {call : JobCall} {result : JobCallResult}
    (performed : call.perform store = .ok (result, next)) (takes : TakesBackClean store call)
    (all : store.AllTidy)
    : next.AllTidy := by
  intro id row found
  cases call with
  | enqueue enabled input =>
      obtain ⟨jobs, enqueues, _, rfl⟩ := withJobs_eq_ok performed
      exact tidy_of_enqueue enqueues all found
  | claimNext scope input token now =>
      obtain ⟨⟨job, jobs⟩, claims, rest⟩ := checked_bind_eq_ok.mp performed
      obtain ⟨_, rfl⟩ := Prod.mk.inj (Except.ok.inj rest)
      exact tidy_of_claim claims all found
  | releaseClaim owner =>
      obtain ⟨jobs, releases, _, rfl⟩ := withJobs_eq_ok performed
      exact tidy_of_release releases takes all found
  | resetToQueued owner =>
      obtain ⟨jobs, resets, _, rfl⟩ := withJobs_eq_ok performed
      exact tidy_of_reset resets takes all found
  | markRunning owner now =>
      obtain ⟨jobs, marks, _, rfl⟩ := withJobs_eq_ok performed
      exact tidy_of_running marks all found
  | markSucceeded owner now =>
      obtain ⟨jobs, finishes, _, rfl⟩ := withJobs_eq_ok performed
      exact tidy_of_terminate rfl finishes all found
  | markFailed owner now =>
      obtain ⟨jobs, finishes, _, rfl⟩ := withJobs_eq_ok performed
      exact tidy_of_terminate rfl finishes all found
  | markCancelled owner now =>
      obtain ⟨jobs, finishes, _, rfl⟩ := withJobs_eq_ok performed
      exact tidy_of_terminate rfl finishes all found
  | reconcileTerminalJob scope input =>
      obtain ⟨⟨report, jobs⟩, reconciles, rest⟩ := checked_bind_eq_ok.mp performed
      obtain ⟨_, rfl⟩ := Prod.mk.inj (Except.ok.inj rest)
      exact tidy_of_reconcile reconciles all found
  | reclaimExpiredClaim input recorded =>
      obtain ⟨⟨report, after⟩, reclaims, rest⟩ := checked_bind_eq_ok.mp performed
      obtain ⟨_, rfl⟩ := Prod.mk.inj (Except.ok.inj rest)
      exact tidy_of_reclaim reclaims takes all found
  | commitLeaseReclamation input recorded =>
      obtain ⟨⟨report, after⟩, commits, rest⟩ := checked_bind_eq_ok.mp performed
      obtain ⟨_, rfl⟩ := Prod.mk.inj (Except.ok.inj rest)
      exact tidy_of_commit commits takes all found
  | other leases workers =>
      obtain ⟨_, rfl⟩ := Prod.mk.inj (Except.ok.inj performed)
      exact all id row found

/-- Every job of a run whose steps take back clean is tidy, by the run invariant rule. -/
theorem tidy_of_run {history : List JobStep}
    (run : (queueSystem.restrict fun store step => TakesBackClean store step.call).Run history
      store)
    : store.AllTidy := by
  refine run.invariant (fun _ store => store.AllTidy) ?_ ?_
  · intro store empty id row found
    have member := Table.mem_of_findKey found
    rw [empty] at member
    contradiction
  · intro history store step next all ⟨takes, call, labelled⟩
    obtain ⟨rfl, rfl⟩ := Prod.mk.inj labelled
    rw [JobCall.call_step] at takes
    unfold JobCall.step
    cases performed : call.perform store with
    | error error => exact all
    | ok outcome => exact JobCall.tidy performed takes all

theorem claimExpiresAt_of_clean {job claimed : Job} {workerId : WorkerId} {token : ClaimToken}
    {now : Date} (clean : IsClean job) (claims : claimJob job workerId token now none = .ok claimed)
    : claimed.claimExpiresAt = none := by
  unfold claimJob at claims
  split at claims
  · contradiction
  · cases claims
    exact clean.claimExpiresAt

/-- Where no claim with an expiry is released or reset, and no started job is taken back, every
queued job is clean, and a claim without a time to live has no expiry.
-/
theorem queued_jobs_are_clean {history : List JobStep}
    (run : (queueSystem.restrict fun store step => TakesBackClean store step.call).Run history
      store)
    : (∀ row ∈ store.jobs.rows, row.status = .queued → IsClean row)
        ∧ ∀ scope input token now job jobs,
            claimNext scope store.jobs input token now = .ok (some job, jobs) →
            input.ttlMs = none → job.claimExpiresAt = none := by
  have all := tidy_of_run run
  refine ⟨fun row member => (all _ row (Table.findKey_of_mem jobSchema_keyed member)).queued, ?_⟩
  intro scope input token now job jobs claims endless
  obtain ⟨old, stored, queued, taken, _⟩ := claimNext_some claims
  rw [endless] at taken
  exact claimExpiresAt_of_clean ((all _ old stored).queued queued) taken

theorem run_next {history : List JobStep} (call : JobCall)
    (run : (queueSystem.restrict fun store step => TakesBackClean store step.call).Run history
      store)
    (takes : TakesBackClean store call)
    : (queueSystem.restrict fun store step => TakesBackClean store step.call).Run
        (call.step store :: history) (call.step store).after := by
  have same : TakesBackClean store (call.step store).call := by rwa [JobCall.call_step]
  exact .next run ⟨same, call, rfl⟩

/-- A job whose first claim expired and was taken back before the job started. -/
def takenBack : List JobCall :=
  claimedAgain.drop 1

theorem queued_jobs_are_clean_takenBack
    : let store := (jobRun takenBack).2
      (∀ row ∈ store.jobs.rows, row.status = .queued → IsClean row)
        ∧ ∀ scope input token now job jobs,
            claimNext scope store.jobs input token now = .ok (some job, jobs) →
            input.ttlMs = none → job.claimExpiresAt = none := by
  have start : (queueSystem.restrict fun store step => TakesBackClean store step.call).Run []
      .empty := .start rfl
  have enqueued := run_next (takenBack.get ⟨2, by decide⟩) start trivial
  have claimed := run_next (takenBack.get ⟨1, by decide⟩) enqueued trivial
  have reclaimed := run_next (takenBack.get ⟨0, by decide⟩) claimed (by decide)
  exact queued_jobs_are_clean reclaimed

/-- A job whose first claim, which would expire, was released. -/
def releasedJob : List JobCall :=
  .releaseClaim { jobId := "job", workerId := "first", claimToken := "earlier" }
    :: claimedAgain.drop 2

/-- The job is claimed again without a time to live, and still expires. -/
theorem released_job_keeps_expiry
    : ¬∀ history store, queueSystem.Run history store →
        (∀ row ∈ store.jobs.rows, row.status = .queued → IsClean row)
          ∧ ∀ scope input token now job jobs,
              claimNext scope store.jobs input token now = .ok (some job, jobs) →
              input.ttlMs = none → job.claimExpiresAt = none := by
  intro clean
  have run : queueSystem.Run (jobRun releasedJob).1 (jobRun releasedJob).2 :=
    System.run_performAll (by rfl) releasedJob
  obtain ⟨job, jobs, claims, expires⟩ : ∃ job jobs,
      claimNext none (jobRun releasedJob).2.jobs { workerId := "second", repoId := "repo" } "later"
        Date.epoch = .ok (some job, jobs)
      ∧ job.claimExpiresAt = some ⟨1000, by decide⟩ := ⟨_, _, rfl, rfl⟩
  have absent := (clean _ _ run).2 _ _ _ _ _ _ claims rfl
  exact nomatch absent.symm.trans expires

end AiSdlc.Sqlite
