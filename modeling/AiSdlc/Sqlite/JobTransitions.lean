import AiSdlc.Sqlite.JobClaims

/-! What the transitions of jobs leave alone: every operation but `enqueue` carries jobs along
with their runs and repositories, and none revives a job that has ended.
-/

namespace AiSdlc.Sqlite

open AiSdlc.Js
open AiSdlc.Domain
open JobQueueRepository
open OperationalRecoveryRepository

/-- Every job was there before, for the same run and repository. -/
def KeepsRuns (jobs next : JobTable) : Prop :=
  ∀ row ∈ next.rows, ∃ old ∈ jobs.rows,
    old.id = row.id ∧ old.runId = row.runId ∧ old.repoId = row.repoId

/-- Every job was there before, and every active one was active. -/
def CarriesJobs (jobs next : JobTable) : Prop :=
  ∀ row ∈ next.rows, ∃ old ∈ jobs.rows, old.id = row.id ∧ old.runId = row.runId
    ∧ old.repoId = row.repoId ∧ (row.isActive = true → old.isActive = true)

theorem KeepsRuns.refl (jobs : JobTable) : KeepsRuns jobs jobs :=
  fun row member => ⟨row, member, rfl, rfl, rfl⟩

theorem CarriesJobs.refl (jobs : JobTable) : CarriesJobs jobs jobs :=
  fun row member => ⟨row, member, rfl, rfl, rfl, fun active => active⟩

theorem KeepsRuns.trans {first second third : JobTable} (before : KeepsRuns first second)
    (after : KeepsRuns second third)
    : KeepsRuns first third := by
  intro row member
  obtain ⟨middle, hm, sameId, sameRun, sameRepo⟩ := after row member
  obtain ⟨old, ho, oldId, oldRun, oldRepo⟩ := before middle hm
  exact ⟨old, ho, oldId.trans sameId, oldRun.trans sameRun, oldRepo.trans sameRepo⟩

theorem KeepsRuns.of_revise {jobs : JobTable} {selected : Job → Bool} {assign : Job → Job}
    {keeps : jobSchema.KeepsKeys assign}
    (same : ∀ row, row.id = (assign row).id ∧ row.runId = (assign row).runId
      ∧ row.repoId = (assign row).repoId)
    : KeepsRuns jobs (jobs.revise selected assign keeps) := by
  intro row member
  obtain ⟨old, hm, rfl⟩ := Table.mem_revise.mp member
  refine ⟨old, hm, ?_⟩
  split
  · exact same old
  · exact ⟨rfl, rfl, rfl⟩

variable {store next : OperationalStore} {jobs written : JobTable}

theorem keepsRuns_of_update {owner : JobOwnership} {transition : Job → JobChecked Job}
    (updates : updateJobWithOwnership jobs owner transition = .ok written)
    : KeepsRuns jobs written := by
  unfold updateJobWithOwnership at updates
  split at updates
  · contradiction
  obtain ⟨_, _, step⟩ := checked_bind_eq_ok.mp updates
  obtain ⟨updated, _, result⟩ := checked_bind_eq_ok.mp step
  simp only at result
  split at result
  · cases result
    exact .of_revise fun _ => ⟨rfl, rfl, rfl⟩
  · contradiction

theorem keepsRuns_of_claimNext {scope : Option RepositoryId} {input : ClaimNextInput}
    {token : ClaimToken} {now : Date} {claimed : Option Job}
    (claims : claimNext scope jobs input token now = .ok (claimed, written))
    : KeepsRuns jobs written := by
  unfold claimNext at claims
  split at claims
  · obtain ⟨_, rfl⟩ := Prod.mk.inj (Except.ok.inj claims)
    exact .refl _
  split at claims
  · obtain ⟨_, rfl⟩ := Prod.mk.inj (Except.ok.inj claims)
    exact .refl _
  · obtain ⟨_, _, step⟩ := checked_bind_eq_ok.mp claims
    obtain ⟨_, _, result⟩ := checked_bind_eq_ok.mp step
    obtain ⟨_, rfl⟩ := Prod.mk.inj (Except.ok.inj result)
    exact .of_revise fun _ => ⟨rfl, rfl, rfl⟩

theorem keepsRuns_of_reconcile {scope : Option RepositoryId} {input : ReconcileTerminalJobInput}
    {result : ReconcileTerminalJobResult}
    (reconciles : reconcileTerminalJob scope jobs input = .ok (result, written))
    : KeepsRuns jobs written := by
  unfold reconcileTerminalJob at reconciles
  split at reconciles
  · obtain ⟨_, rfl⟩ := Prod.mk.inj (Except.ok.inj reconciles)
    exact .refl _
  split at reconciles
  · obtain ⟨_, rfl⟩ := Prod.mk.inj (Except.ok.inj reconciles)
    exact .refl _
  split at reconciles
  · obtain ⟨_, rfl⟩ := Prod.mk.inj (Except.ok.inj reconciles)
    exact .refl _
  split at reconciles
  · contradiction
  · obtain ⟨_, rfl⟩ := Prod.mk.inj (Except.ok.inj reconciles)
    exact .of_revise fun _ => ⟨rfl, rfl, rfl⟩

/-- The loop of a reclamation keeps runs, by induction over the rows to take back. -/
theorem keepsRuns_of_requeueAll {runId : RunId} {rows : List Job}
    (requeues : requeueAll runId rows jobs = .ok written)
    : KeepsRuns jobs written := by
  induction rows generalizing jobs with
  | nil =>
      cases requeues
      exact .refl _
  | cons row rest ih =>
      obtain ⟨requeued, _, later⟩ := checked_bind_eq_ok.mp requeues
      refine KeepsRuns.trans ?_ (ih later)
      exact .of_revise fun _ => ⟨rfl, rfl, rfl⟩

theorem keepsRuns_of_reclaim {input : ReclaimExpiredClaimInput} {recorded : JobChecked Unit}
    {result : LeaseReclamationResult}
    (reclaims : reclaimExpiredClaim store input recorded = .ok (result, next))
    : KeepsRuns store.jobs next.jobs := by
  unfold reclaimExpiredClaim at reclaims
  split at reclaims
  · obtain ⟨_, rfl⟩ := Prod.mk.inj (Except.ok.inj reclaims)
    exact .refl _
  split at reclaims
  · obtain ⟨_, rfl⟩ := Prod.mk.inj (Except.ok.inj reclaims)
    exact .refl _
  split at reclaims
  · obtain ⟨_, rfl⟩ := Prod.mk.inj (Except.ok.inj reclaims)
    exact .refl _
  · obtain ⟨_, requeues, step⟩ := checked_bind_eq_ok.mp reclaims
    obtain ⟨_, _, result⟩ := checked_bind_eq_ok.mp step
    obtain ⟨_, rfl⟩ := Prod.mk.inj (Except.ok.inj result)
    exact keepsRuns_of_requeueAll requeues

theorem keepsRuns_of_requeueOwned {ownership : Option JobOwnership}
    (requeues : requeueOwned jobs ownership = .ok (.inr written))
    : KeepsRuns jobs written := by
  unfold requeueOwned at requeues
  split at requeues
  · cases requeues
    exact .refl _
  split at requeues
  · simp at requeues
  split at requeues
  · simp at requeues
  split at requeues
  · simp at requeues
  · obtain ⟨_, _, result⟩ := checked_bind_eq_ok.mp requeues
    cases result
    exact .of_revise fun _ => ⟨rfl, rfl, rfl⟩

theorem keepsRuns_of_commit {input : CommitLeaseReclamationInput} {recorded : JobChecked Unit}
    {result : LeaseReclamationResult}
    (commits : commitLeaseReclamation store input recorded = .ok (result, next))
    : KeepsRuns store.jobs next.jobs := by
  rcases commitLeaseReclamation_eq_ok commits with
    ⟨_, rfl⟩ | ⟨lease, jobs, worker, _, _, _, _, _, requeues, rfl⟩
  · exact .refl _
  · exact keepsRuns_of_requeueOwned requeues

/-- The operations that do not enqueue a job. -/
def JobCall.isTransition : JobCall → Bool
  | enqueue _ _ => false
  | claimNext _ _ _ _ | releaseClaim _ | resetToQueued _ | markRunning _ _ | markSucceeded _ _
  | markFailed _ _ | markCancelled _ _ | reconcileTerminalJob _ _ | reclaimExpiredClaim _ _
  | commitLeaseReclamation _ _ | other _ _ => true

theorem keepsRuns_of_withJobs {owner : JobOwnership} {transition : Job → JobChecked Job}
    {result : JobCallResult}
    (performed : store.withJobs (updateJobWithOwnership store.jobs owner transition)
      = .ok (result, next))
    : KeepsRuns store.jobs next.jobs := by
  obtain ⟨table, updates, rfl, rfl⟩ := withJobs_eq_ok performed
  exact keepsRuns_of_update updates

/-- The transitions keep runs, by cases on the operation. -/
theorem JobCall.keepsRuns {call : JobCall} {result : JobCallResult}
    (performed : call.perform store = .ok (result, next))
    (transition : call.isTransition = true)
    : KeepsRuns store.jobs next.jobs := by
  cases call with
  | enqueue enabled input => contradiction
  | claimNext scope input token now =>
      obtain ⟨⟨job, jobs⟩, claims, rest⟩ := checked_bind_eq_ok.mp performed
      obtain ⟨_, rfl⟩ := Prod.mk.inj (Except.ok.inj rest)
      exact keepsRuns_of_claimNext claims
  | releaseClaim owner | resetToQueued owner => exact keepsRuns_of_withJobs performed
  | markRunning owner now | markSucceeded owner now | markFailed owner now
  | markCancelled owner now => exact keepsRuns_of_withJobs performed
  | reconcileTerminalJob scope input =>
      obtain ⟨⟨report, jobs⟩, reconciles, rest⟩ := checked_bind_eq_ok.mp performed
      obtain ⟨_, rfl⟩ := Prod.mk.inj (Except.ok.inj rest)
      exact keepsRuns_of_reconcile reconciles
  | reclaimExpiredClaim input recorded =>
      obtain ⟨⟨report, after⟩, reclaims, rest⟩ := checked_bind_eq_ok.mp performed
      obtain ⟨_, rfl⟩ := Prod.mk.inj (Except.ok.inj rest)
      exact keepsRuns_of_reclaim reclaims
  | commitLeaseReclamation input recorded =>
      obtain ⟨⟨report, after⟩, commits, rest⟩ := checked_bind_eq_ok.mp performed
      obtain ⟨_, rfl⟩ := Prod.mk.inj (Except.ok.inj rest)
      exact keepsRuns_of_commit commits
  | other leases workers =>
      obtain ⟨_, rfl⟩ := Prod.mk.inj (Except.ok.inj performed)
      exact .refl _

/-- Every operation keeps each job that is stored, with its run. -/
theorem JobCall.run_kept {call : JobCall} {result : JobCallResult} {id : JobId} {row : Job}
    (performed : call.perform store = .ok (result, next))
    (found : store.jobs.find id = some row)
    : ∃ kept, next.jobs.find id = some kept ∧ kept.runId = row.runId := by
  have stays : ∃ kept, next.jobs.find id = some kept := by
    have change := (JobCall.performed performed).rows id
    rw [found] at change
    generalize next.jobs.find id = new at change
    cases change with
    | same | claimed | marked | ended => exact ⟨_, rfl⟩
  obtain ⟨kept, there⟩ := stays
  refine ⟨kept, there, ?_⟩
  have carried (transition : call.isTransition = true) : kept.runId = row.runId := by
    obtain ⟨old, member, sameId, sameRun, -⟩ :=
      JobCall.keepsRuns performed transition kept (List.mem_of_find?_eq_some there)
    have stored : store.jobs.find old.id = some old :=
      Table.findKey_of_mem jobSchema_keyed member
    rw [sameId, JobTable.id_of_find there, found] at stored
    obtain rfl := Option.some.inj stored
    exact sameRun.symm
  cases call with
  | enqueue enabled input =>
      obtain ⟨jobs, enqueued, -, rfl⟩ := withJobs_eq_ok performed
      obtain ⟨-, absent, rows⟩ := enqueue_eq_ok enqueued
      have other : id ≠ (createJob input).id := by
        rintro rfl
        simp [absent] at found
      rw [rows, if_neg other, found] at there
      exact congrArg Job.runId (Option.some.inj there).symm
  | claimNext | releaseClaim | resetToQueued | markRunning | markSucceeded | markFailed
  | markCancelled | reconcileTerminalJob | reclaimExpiredClaim | commitLeaseReclamation
  | other => exact carried rfl

theorem isActive_eq (job : Job) : job.isActive = !job.status.isTerminal := by
  unfold Job.isActive JobStatus.isTerminal
  cases job.status <;> rfl

theorem RowChange.active_of_changed {call : JobCall} {result : JobCallResult} {id : JobId}
    {row job : Job} (change : RowChange call result id (some row) (some job))
    (active : job.isActive = true)
    : row.isActive = true := by
  rw [isActive_eq]
  cases change with
  | same => rwa [← isActive_eq]
  | claimed _ _ queued => simp [queued, JobStatus.isTerminal]
  | marked _ _ _ _ unfinished => simp [unfinished]
  | ended _ _ _ unfinished => simp [unfinished]

/-- The transitions carry jobs along and revive none. -/
theorem JobCall.carriesJobs {call : JobCall} {result : JobCallResult}
    (performed : call.perform store = .ok (result, next))
    (transition : call.isTransition = true)
    : CarriesJobs store.jobs next.jobs := by
  intro row member
  obtain ⟨old, hm, sameId, sameRun, sameRepo⟩ :=
    JobCall.keepsRuns performed transition row member
  refine ⟨old, hm, sameId, sameRun, sameRepo, fun active => ?_⟩
  have change := (JobCall.performed performed).rows row.id
  have after : next.jobs.find row.id = some row := Table.findKey_of_mem jobSchema_keyed member
  have before : store.jobs.find row.id = some old :=
    sameId ▸ Table.findKey_of_mem jobSchema_keyed hm
  rw [after, before] at change
  exact change.active_of_changed active

end AiSdlc.Sqlite
