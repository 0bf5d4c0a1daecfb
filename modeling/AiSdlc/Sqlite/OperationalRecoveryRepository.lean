import AiSdlc.Sqlite.JobQueueRepository
import AiSdlc.Sqlite.WorkerLeaseRepository

/-! Taking back the claims and leases of workers that are gone. Each operation is one
transaction over the jobs, the leases and the workers.
-/

namespace AiSdlc.Sqlite

open AiSdlc.Js
open AiSdlc.Domain

/-- `workers`, keyed by id. -/
def workerSchema : Schema Worker :=
  ⟨[fun worker => some [.text worker.id]]⟩

abbrev WorkerTable := Table workerSchema

/-- The tables of the workers' store. -/
structure OperationalStore where
  jobs : JobTable
  leases : LeaseTable
  workers : WorkerTable

inductive OperationalRecoveryConflictReason
  | leaseGenerationChanged
  | claimGenerationChanged
  | workerStatusChanged
  | jobNotFound
  | jobAlreadyActive
  deriving DecidableEq, Repr

structure ExpectedLeaseGeneration where
  workerId : WorkerId
  runId : RunId
  deriving DecidableEq, Repr

structure CommitLeaseReclamationInput where
  repoId : RepositoryId
  leaseToken : LeaseToken
  runId : RunId
  now : Date
  expectedLeaseGeneration : ExpectedLeaseGeneration
  expectedJobOwnership : Option JobOwnership := none
  expectedWorkerStatus : Option WorkerStatus := none
  deriving DecidableEq, Repr

structure ReclaimExpiredClaimInput where
  repoId : RepositoryId
  runId : RunId
  now : Date
  deriving DecidableEq, Repr

structure LeaseReclamationResult where
  committed : Bool
  reason : Option OperationalRecoveryConflictReason := none
  deriving DecidableEq, Repr

/-- `{ committed: false, reason }`. -/
def refused (reason : OperationalRecoveryConflictReason) : LeaseReclamationResult :=
  { committed := false, reason := some reason }

namespace OperationalRecoveryRepository

/-- The columns that a reclamation sets; the start of the job stays. -/
def requeueRow (requeued row : Job) : Job :=
  {
    row with
    status := requeued.status
    claimedBy := none
    claimToken := none
    claimedAt := none
    claimExpiresAt := none
  }

theorem requeueRow_keepsKeys (requeued : Job) : jobSchema.KeepsKeys (requeueRow requeued) := by
  simp [Schema.KeepsKeys, jobSchema, requeueRow]

/-- `status IN ('claimed', 'running')`. -/
def isHeld (job : Job) : Bool :=
  job.status ∈ [.claimed, .running]

/-- A job that keeps its repository from being reclaimed. -/
def isNonExpired (now : Date) (job : Job) : Bool :=
  job.status = .queued || isHeld job && job.claimExpiresAt.any (now.ms < ·.ms)

/-- The loop over the rows of the claims to take back. -/
def requeueAll (runId : RunId) : List Job → JobTable → JobChecked JobTable
  | [], jobs => .ok jobs
  | row :: rest, jobs => do
      let requeued ← resetJobToQueued row
      requeueAll runId rest (jobs.revise
        (fun other => other.id = row.id && other.runId = runId)
        (requeueRow requeued) (requeueRow_keepsKeys requeued))

/-- `reclaimExpiredClaim`, where `recorded` is what the insert of its event does. -/
def reclaimExpiredClaim (store : OperationalStore) (input : ReclaimExpiredClaimInput)
    (recorded : JobChecked Unit)
    : JobChecked (LeaseReclamationResult × OperationalStore) :=
  if WorkerLeaseRepository.checkActiveLease store.leases input.repoId input.now then
    .ok (refused .leaseGenerationChanged, store)
  else if store.jobs.rows.any (fun job => job.repoId = input.repoId && job.isActive
      && isNonExpired input.now job) then
    .ok (refused .jobAlreadyActive, store)
  else
    match store.jobs.rows.filter (fun job => job.runId = input.runId && isHeld job) with
    | [] => .ok (refused .jobNotFound, store)
    | row :: rest => do
        let jobs ← requeueAll input.runId (row :: rest) store.jobs
        let _ ← recorded
        .ok ({ committed := true }, { store with jobs })

/-- The part of a commit that requeues the job of the lost worker, where one is named. -/
def requeueOwned (jobs : JobTable) (ownership : Option JobOwnership)
    : JobChecked (OperationalRecoveryConflictReason ⊕ JobTable) :=
  match ownership with
  | none => .ok (.inr jobs)
  | some owner =>
      match jobs.find owner.jobId with
      | none => .ok (.inl .jobNotFound)
      | some row =>
          if row.claimedBy ≠ some owner.workerId then
            .ok (.inl .claimGenerationChanged)
          else if row.claimToken ≠ some owner.claimToken then
            .ok (.inl .claimGenerationChanged)
          else do
            let requeued ← resetJobToQueued row
            .ok (.inr (jobs.revise (JobQueueRepository.owns { owner with jobId := row.id })
              (requeueRow requeued) (requeueRow_keepsKeys requeued)))

/-- The status that a commit gives to the lost worker. -/
def setStatus (worker row : Worker) : Worker :=
  { row with status := worker.status }

theorem setStatus_keepsKeys (worker : Worker) : workerSchema.KeepsKeys (setStatus worker) := by
  simp [Schema.KeepsKeys, workerSchema, setStatus]

/-- The writes of a commit to the workers and the leases. -/
def removeLease (store : OperationalStore) (input : CommitLeaseReclamationInput)
    (worker : Worker)
    : OperationalStore :=
  let generation := input.expectedLeaseGeneration
  {
    store with
    workers := store.workers.revise
      (fun row => row.id = generation.workerId && row.repoId = input.repoId)
      (setStatus (markWorkerUnhealthy worker)) (setStatus_keepsKeys _)
    leases := store.leases.delete (WorkerLeaseRepository.fenced input.repoId
      generation.workerId generation.runId input.leaseToken)
  }

/-- `commitLeaseReclamation`, where `recorded` is what the insert of its event does. The
expiry of the lease is not among the columns that it compares.
-/
def commitLeaseReclamation (store : OperationalStore) (input : CommitLeaseReclamationInput)
    (recorded : JobChecked Unit)
    : JobChecked (LeaseReclamationResult × OperationalStore) :=
  let generation := input.expectedLeaseGeneration
  match WorkerLeaseRepository.current store.leases input.repoId with
  | none => .ok (refused .leaseGenerationChanged, store)
  | some lease =>
      if lease.leaseToken ≠ input.leaseToken then
        .ok (refused .leaseGenerationChanged, store)
      else if lease.workerId ≠ generation.workerId then
        .ok (refused .leaseGenerationChanged, store)
      else if lease.runId ≠ generation.runId then
        .ok (refused .leaseGenerationChanged, store)
      else
        match store.workers.rows.find? (fun worker =>
          worker.id = generation.workerId && worker.repoId = input.repoId) with
        | none => .ok (refused .workerStatusChanged, store)
        | some worker =>
            if input.expectedWorkerStatus.any (worker.status ≠ ·) then
              .ok (refused .workerStatusChanged, store)
            else do
              match ← requeueOwned store.jobs input.expectedJobOwnership with
              | .inl reason => .ok (refused reason, store)
              | .inr jobs =>
                  let _ ← recorded
                  .ok ({ committed := true }, removeLease { store with jobs } input worker)

theorem resetJobToQueued_eq_ok {job requeued : Job}
    (resets : resetJobToQueued job = .ok requeued)
    : isHeld job = true ∧ requeued.id = job.id ∧ requeued.status = .queued
      ∧ requeued.claimedBy = none ∧ requeued.claimToken = none := by
  unfold resetJobToQueued at resets
  split at resets
  · contradiction
  · rename_i held
    cases resets
    refine ⟨?_, rfl, rfl, rfl, rfl⟩
    simp only [isHeld, List.mem_cons, List.not_mem_nil, or_false, decide_eq_true_eq]
    tauto

/-- A row that a reclamation has queued again: its start stays. -/
def unclaimedRow (row : Job) : Job :=
  {
    row with
    status := .queued
    claimedBy := none
    claimToken := none
    claimedAt := none
    claimExpiresAt := none
  }

theorem requeueRow_of_reset {job requeued : Job} (resets : resetJobToQueued job = .ok requeued)
    (row : Job)
    : requeueRow requeued row = unclaimedRow row := by
  simp [requeueRow, unclaimedRow, (resetJobToQueued_eq_ok resets).2.2.1]

/-- The loop queues the jobs of the run that are among the rows to take back, and leaves the
others alone, by induction over these rows.
-/
theorem requeueAll_eq_ok {runId : RunId} {rows : List Job} {jobs next : JobTable}
    (requeues : requeueAll runId rows jobs = .ok next) (id : JobId)
    : next.find id = (jobs.find id).map (fun job =>
        if job.runId = runId ∧ ∃ row ∈ rows, row.id = id then unclaimedRow job else job) := by
  induction rows generalizing jobs with
  | nil =>
      cases requeues
      simp
  | cons row rest ih =>
      obtain ⟨requeued, reset, later⟩ := checked_bind_eq_ok.mp requeues
      let selected (other : Job) : Bool := other.id = row.id && other.runId = runId
      have revised
          : JobTable.find (jobs.revise selected (requeueRow requeued)
              (requeueRow_keepsKeys requeued)) id
            = (jobs.find id).map
                (fun other => if selected other then requeueRow requeued other else other) :=
        Table.find_revise fun _ => rfl
      rw [ih later, revised]
      cases found : jobs.find id with
      | none => rfl
      | some job =>
          have sameId : job.id = id := JobTable.id_of_find found
          simp only [Option.map_some, Option.some.injEq, selected, sameId, Bool.and_eq_true,
            decide_eq_true_eq, requeueRow_of_reset reset, List.exists_mem_cons_iff]
          -- Taking a row back twice is taking it back once.
          by_cases here : id = row.id <;> by_cases run : job.runId = runId <;>
            simp [here, run, eq_comm, unclaimedRow]

theorem tables_of_reclaim {store next : OperationalStore} {input : ReclaimExpiredClaimInput}
    {recorded : JobChecked Unit} {result : LeaseReclamationResult}
    (reclaims : reclaimExpiredClaim store input recorded = .ok (result, next))
    : next.leases = store.leases ∧ next.workers = store.workers := by
  unfold reclaimExpiredClaim at reclaims
  split at reclaims
  · obtain ⟨-, rfl⟩ := Prod.mk.inj (Except.ok.inj reclaims)
    exact ⟨rfl, rfl⟩
  split at reclaims
  · obtain ⟨-, rfl⟩ := Prod.mk.inj (Except.ok.inj reclaims)
    exact ⟨rfl, rfl⟩
  split at reclaims
  · obtain ⟨-, rfl⟩ := Prod.mk.inj (Except.ok.inj reclaims)
    exact ⟨rfl, rfl⟩
  · obtain ⟨_, -, step⟩ := checked_bind_eq_ok.mp reclaims
    obtain ⟨_, -, written⟩ := checked_bind_eq_ok.mp step
    obtain ⟨-, rfl⟩ := Prod.mk.inj (Except.ok.inj written)
    exact ⟨rfl, rfl⟩

/-- A live lease, or a job that waits or whose claim has not expired, keeps the reclamations of
a repository off.
-/
def reclamationBlocked (store : OperationalStore) (repoId : RepositoryId) (now : Date) : Bool :=
  WorkerLeaseRepository.checkActiveLease store.leases repoId now
    || store.jobs.rows.any (fun job => job.repoId = repoId && job.isActive
      && isNonExpired now job)

/-- A reclamation that commits finds nothing that blocks it, queues the held jobs of its run,
and changes nothing else.
-/
theorem reclaimExpiredClaim_eq_ok {store next : OperationalStore}
    {input : ReclaimExpiredClaimInput} {recorded : JobChecked Unit}
    {result : LeaseReclamationResult}
    (reclaims : reclaimExpiredClaim store input recorded = .ok (result, next))
    : (result.committed = false ∧ next = store)
      ∨ (result.committed = true ∧ reclamationBlocked store input.repoId input.now = false
        ∧ ∀ id, next.jobs.find id = (store.jobs.find id).map (fun job =>
          if job.runId = input.runId ∧ isHeld job = true then unclaimedRow job else job)) := by
  unfold reclaimExpiredClaim at reclaims
  split at reclaims
  · obtain ⟨rfl, rfl⟩ := Prod.mk.inj (Except.ok.inj reclaims)
    exact .inl ⟨rfl, rfl⟩
  rename_i free
  split at reclaims
  · obtain ⟨rfl, rfl⟩ := Prod.mk.inj (Except.ok.inj reclaims)
    exact .inl ⟨rfl, rfl⟩
  rename_i expired
  split at reclaims
  · obtain ⟨rfl, rfl⟩ := Prod.mk.inj (Except.ok.inj reclaims)
    exact .inl ⟨rfl, rfl⟩
  rename_i row rest held
  obtain ⟨jobs, requeues, step⟩ := checked_bind_eq_ok.mp reclaims
  obtain ⟨_, _, written⟩ := checked_bind_eq_ok.mp step
  obtain ⟨rfl, rfl⟩ := Prod.mk.inj (Except.ok.inj written)
  have unblocked : reclamationBlocked store input.repoId input.now = false :=
    Bool.or_eq_false_iff.mpr ⟨by simpa using free, Bool.eq_false_iff.mpr expired⟩
  refine .inr ⟨rfl, unblocked, fun id => ?_⟩
  rw [requeueAll_eq_ok requeues id, ← held]
  cases found : store.jobs.find id with
  | none => rfl
  | some job =>
      have among : (job.runId = input.runId ∧ ∃ row ∈ store.jobs.rows.filter
          (fun job => job.runId = input.runId && isHeld job), row.id = id)
          ↔ job.runId = input.runId ∧ isHeld job = true := by
        refine and_congr_right fun run => ⟨fun ⟨other, member, here⟩ => ?_, fun isHeld => ?_⟩
        · have member := List.mem_filter.mp member
          have stored := Table.findKey_of_mem jobSchema_keyed member.1
          obtain rfl : other = job := Option.some.inj (stored.symm.trans (here ▸ found))
          simpa [run] using member.2
        · exact ⟨job, List.mem_filter.mpr ⟨Table.mem_of_findKey found, by simp [run, isHeld]⟩,
            JobTable.id_of_find found⟩
      simp only [Option.map_some, among]

theorem reset_of_isHeld {row : Job} (held : isHeld row = true)
    : ∃ requeued, resetJobToQueued row = .ok requeued := by
  simp only [isHeld, List.mem_cons, List.not_mem_nil, or_false, decide_eq_true_eq] at held
  unfold resetJobToQueued
  rcases held with claimed | running
  · simp [claimed]
  · simp [running]

/-- The loop gets through held jobs, by induction over these. -/
theorem requeueAll_of_isHeld {runId : RunId} {rows : List Job} {jobs : JobTable}
    (held : ∀ row ∈ rows, isHeld row = true)
    : ∃ next, requeueAll runId rows jobs = .ok next := by
  induction rows generalizing jobs with
  | nil => exact ⟨jobs, rfl⟩
  | cons row rest ih =>
      obtain ⟨requeued, resets⟩ := reset_of_isHeld (held row List.mem_cons_self)
      obtain ⟨next, later⟩ := ih fun other member => held other (List.mem_cons_of_mem _ member)
      exact ⟨next, checked_bind_eq_ok.mpr ⟨requeued, resets, later⟩⟩

theorem reclaimExpiredClaim_commits {store : OperationalStore}
    {input : ReclaimExpiredClaimInput}
    (unblocked : reclamationBlocked store input.repoId input.now = false)
    (held : ∃ job ∈ store.jobs.rows, job.runId = input.runId ∧ isHeld job = true)
    : ∃ next, reclaimExpiredClaim store input (.ok ()) = .ok ({ committed := true }, next) := by
  obtain ⟨free, expired⟩ := Bool.or_eq_false_iff.mp unblocked
  unfold reclaimExpiredClaim
  rw [if_neg (Bool.eq_false_iff.mp free), if_neg (Bool.eq_false_iff.mp expired)]
  split
  · rename_i none
    obtain ⟨job, member, run, isHeld⟩ := held
    have among := List.filter_eq_nil_iff.mp none job member
    simp [run, isHeld] at among
  · rename_i row rest some
    have all (other : Job) (member : other ∈ row :: rest) : isHeld other = true := by
      rw [← some, List.mem_filter, Bool.and_eq_true] at member
      exact member.2.2
    obtain ⟨jobs, requeues⟩ := requeueAll_of_isHeld all
    exact ⟨_, checked_bind_eq_ok.mpr ⟨jobs, requeues, rfl⟩⟩

/-- The part of a commit that requeues a job finds it under the claim that is named. -/
theorem requeueOwned_eq_ok {jobs next : JobTable} {ownership : Option JobOwnership}
    (requeues : requeueOwned jobs ownership = .ok (.inr next))
    : (ownership = none ∧ next = jobs)
      ∨ ∃ owner row requeued, ownership = some owner ∧ jobs.find owner.jobId = some row
          ∧ JobQueueRepository.owns owner row = true ∧ resetJobToQueued row = .ok requeued
          ∧ ∀ id, next.find id
            = if id = owner.jobId then some (requeueRow requeued row) else jobs.find id := by
  unfold requeueOwned at requeues
  split at requeues
  · cases requeues
    exact .inl ⟨rfl, rfl⟩
  rename_i owner
  split at requeues
  · simp at requeues
  rename_i row found
  split at requeues
  · simp at requeues
  rename_i worker
  split at requeues
  · simp at requeues
  rename_i token
  obtain ⟨requeued, reset, written⟩ := checked_bind_eq_ok.mp requeues
  cases written
  have sameId : row.id = owner.jobId := JobTable.id_of_find found
  have owned : JobQueueRepository.owns owner row = true :=
    JobQueueRepository.owns_iff.mpr ⟨sameId, by simpa using worker, by simpa using token⟩
  refine .inr ⟨owner, row, requeued, rfl, found, owned, reset, fun id => ?_⟩
  refine Table.findKey_revise jobSchema_keyed found ?_ ?_ id
  · intro other selected
    rw [← sameId]
    exact JobQueueRepository.id_of_owns selected
  · rw [sameId]
    exact owned

/-- A commit finds the lease of the generation it expects, removes it, and requeues at most
the job it names.
-/
theorem commitLeaseReclamation_eq_ok {store next : OperationalStore}
    {input : CommitLeaseReclamationInput} {recorded : JobChecked Unit}
    {result : LeaseReclamationResult}
    (commits : commitLeaseReclamation store input recorded = .ok (result, next))
    : (result.committed = false ∧ next = store)
      ∨ ∃ lease jobs worker,
          result.committed = true
          ∧ WorkerLeaseRepository.current store.leases input.repoId = some lease
          ∧ lease.leaseToken = input.leaseToken
          ∧ lease.workerId = input.expectedLeaseGeneration.workerId
          ∧ lease.runId = input.expectedLeaseGeneration.runId
          ∧ requeueOwned store.jobs input.expectedJobOwnership = .ok (.inr jobs)
          ∧ next = removeLease { store with jobs } input worker := by
  simp only [commitLeaseReclamation] at commits
  split at commits
  · obtain ⟨rfl, rfl⟩ := Prod.mk.inj (Except.ok.inj commits)
    exact .inl ⟨rfl, rfl⟩
  rename_i lease found
  split at commits
  · obtain ⟨rfl, rfl⟩ := Prod.mk.inj (Except.ok.inj commits)
    exact .inl ⟨rfl, rfl⟩
  rename_i token
  split at commits
  · obtain ⟨rfl, rfl⟩ := Prod.mk.inj (Except.ok.inj commits)
    exact .inl ⟨rfl, rfl⟩
  rename_i holder
  split at commits
  · obtain ⟨rfl, rfl⟩ := Prod.mk.inj (Except.ok.inj commits)
    exact .inl ⟨rfl, rfl⟩
  rename_i run
  split at commits
  · obtain ⟨rfl, rfl⟩ := Prod.mk.inj (Except.ok.inj commits)
    exact .inl ⟨rfl, rfl⟩
  rename_i worker _
  split at commits
  · obtain ⟨rfl, rfl⟩ := Prod.mk.inj (Except.ok.inj commits)
    exact .inl ⟨rfl, rfl⟩
  obtain ⟨requeued, requeues, step⟩ := checked_bind_eq_ok.mp commits
  cases requeued with
  | inl reason =>
      obtain ⟨rfl, rfl⟩ := Prod.mk.inj (Except.ok.inj step)
      exact .inl ⟨rfl, rfl⟩
  | inr jobs =>
      obtain ⟨_, _, written⟩ := checked_bind_eq_ok.mp step
      obtain ⟨rfl, rfl⟩ := Prod.mk.inj (Except.ok.inj written)
      exact .inr ⟨lease, jobs, worker, rfl, found, not_not.mp token, not_not.mp holder,
        not_not.mp run, requeues, rfl⟩

end OperationalRecoveryRepository

end AiSdlc.Sqlite
