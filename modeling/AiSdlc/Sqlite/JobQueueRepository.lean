import Mathlib.Data.List.Sort
import AiSdlc.Js.Text
import AiSdlc.Domain.Job
import AiSdlc.Sqlite.Table

/-! The job queue: a worker claims a job under a fresh token, and later changes the job only
by statements that name its claim. Each operation is one transaction, so one that throws
leaves the table as it was.
-/

namespace AiSdlc.Sqlite

open AiSdlc.Js
open AiSdlc.Domain

/-- `jobs`, keyed by id. -/
def jobSchema : Schema Job :=
  ⟨[fun job => some [.text job.id]]⟩

abbrev JobTable := Table jobSchema

theorem jobSchema_keyed : jobSchema.KeyedBy Job.id := List.mem_cons_self

/-- `SELECT * FROM jobs WHERE id = ?`. -/
def JobTable.find (jobs : JobTable) (id : JobId) : Option Job :=
  jobs.findKey Job.id id

theorem JobTable.id_of_find {jobs : JobTable} {id : JobId} {row : Job}
    (found : jobs.find id = some row)
    : row.id = id :=
  Table.key_of_findKey found

structure ClaimNextInput where
  workerId : WorkerId
  repoId : RepositoryId
  skipJobIds : Option (List JobId) := none
  ttlMs : Option Int := none
  deriving DecidableEq, Repr

/-- A status that a reconciliation may set. -/
abbrev TerminalJobStatus := { status : JobStatus // status.isTerminal = true }

structure ReconcileTerminalJobInput where
  jobId : JobId
  targetStatus : TerminalJobStatus
  now : Date
  expectedStatus : Option JobStatus := none
  owner : Option JobOwnership := none
  deriving DecidableEq

structure ReconcileTerminalJobResult where
  reconciled : Bool
  status : JobStatus
  deriving DecidableEq, Repr

namespace JobQueueRepository

/-- The ids of a row are made anew when it is read, and none of them may be blank. -/
def toJob (row : Job) : JobChecked Job :=
  if isBlank row.id then .error (.emptyId "JobId")
  else if isBlank row.runId then .error (.emptyId "RunId")
  else if isBlank row.repoId then .error (.emptyId "RepositoryId")
  else if row.claimedBy.any isBlank then .error (.emptyId "WorkerId")
  else .ok row

theorem toJob_eq_ok {row job : Job} (read : toJob row = .ok job) : job = row := by
  unfold toJob at read
  split at read
  · contradiction
  split at read
  · contradiction
  split at read
  · contradiction
  split at read
  · contradiction
  · exact (Except.ok.inj read).symm

/-- `ORDER BY priority DESC, created_at ASC, id ASC`, over the stored texts. -/
def claimsBefore (first second : Job) : Prop :=
  second.priority < first.priority
    ∨ second.priority = first.priority
      ∧ (first.createdAt.toISOString < second.createdAt.toISOString
        ∨ first.createdAt.toISOString = second.createdAt.toISOString ∧ first.id ≤ second.id)

instance (first second : Job) : Decidable (claimsBefore first second) :=
  inferInstanceAs (Decidable (_ ∨ _))

/-- The row that `claimNext` takes. A blank id is taken too, and then fails to be read. -/
def nextRow (jobs : JobTable) (input : ClaimNextInput) : Option Job :=
  let queued := jobs.rows.filter fun job => job.status = .queued && job.repoId = input.repoId
  (queued.insertionSort claimsBefore).find? fun job =>
    input.skipJobIds.all fun skipped => isBlank job.id || job.id ∉ skipped

/-- The columns that `claimNext` sets. -/
def claimRow (claimed row : Job) : Job :=
  {
    row with
    status := claimed.status
    claimedBy := claimed.claimedBy
    claimToken := claimed.claimToken
    claimedAt := claimed.claimedAt
    claimExpiresAt := claimed.claimExpiresAt
    attempts := claimed.attempts
  }

theorem claimRow_keepsKeys (claimed : Job) : jobSchema.KeepsKeys (claimRow claimed) := by
  simp [Schema.KeepsKeys, jobSchema, claimRow]

/-- `claimNext`, for a queue of one repository or of all of them. -/
def claimNext (scope : Option RepositoryId) (jobs : JobTable) (input : ClaimNextInput)
    (token : ClaimToken) (now : Date)
    : JobChecked (Option Job × JobTable) :=
  if scope.any (· ≠ input.repoId) then
    .ok (none, jobs)
  else
    match nextRow jobs input with
    | none => .ok (none, jobs)
    | some row => do
        let job ← toJob row
        let claimed ← claimJob job input.workerId token now input.ttlMs
        .ok (some claimed, jobs.revise
          (fun other => other.id = claimed.id && other.repoId = input.repoId)
          (claimRow claimed) (claimRow_keepsKeys claimed))

/-- `enqueue`, where `enabled` tells which repositories are registered and enabled. -/
def enqueue (enabled : RepositoryId → Bool) (jobs : JobTable) (job : Job)
    : JobChecked JobTable :=
  if enabled job.repoId then
    match jobs.insert job with
    | some inserted => .ok inserted
    | none => .error (.duplicateJobId job.id)
  else
    .error (.repositoryNotApproved job.repoId)

/-- `id = ? AND claimed_by = ? AND claim_token = ?`. -/
def owns (owner : JobOwnership) (row : Job) : Bool :=
  row.id = owner.jobId && row.claimedBy = some owner.workerId
    && row.claimToken = some owner.claimToken

theorem owns_iff {owner : JobOwnership} {row : Job}
    : owns owner row = true ↔ row.id = owner.jobId ∧ row.claimedBy = some owner.workerId
        ∧ row.claimToken = some owner.claimToken := by
  simp [owns, and_assoc]

theorem id_of_owns {owner : JobOwnership} {row : Job} (owned : owns owner row = true)
    : row.id = owner.jobId :=
  (owns_iff.mp owned).1

/-- The columns that an owner's operation sets. -/
def writeRow (updated row : Job) : Job :=
  {
    row with
    status := updated.status
    attempts := updated.attempts
    claimedBy := updated.claimedBy
    claimToken := updated.claimToken
    claimedAt := updated.claimedAt
    startedAt := updated.startedAt
    completedAt := updated.completedAt
    claimExpiresAt := updated.claimExpiresAt
  }

theorem writeRow_keepsKeys (updated : Job) : jobSchema.KeepsKeys (writeRow updated) := by
  simp [Schema.KeepsKeys, jobSchema, writeRow]

/-- A transition of the job that `owner` claimed. -/
def updateJobWithOwnership (jobs : JobTable) (owner : JobOwnership)
    (transition : Job → JobChecked Job)
    : JobChecked JobTable :=
  match jobs.rows.find? (owns owner) with
  | none => .error (.ownershipLost owner.jobId)
  | some row => do
      let job ← toJob row
      let updated ← transition job
      let written (other : Job) : Bool := owns { owner with jobId := updated.id } other
      if jobs.rows.any written then
        .ok (jobs.revise written (writeRow updated) (writeRow_keepsKeys updated))
      else
        .error (.ownershipLost owner.jobId)

def releaseClaim (jobs : JobTable) (owner : JobOwnership) : JobChecked JobTable :=
  updateJobWithOwnership jobs owner unclaimJob

def resetToQueued (jobs : JobTable) (owner : JobOwnership) : JobChecked JobTable :=
  updateJobWithOwnership jobs owner resetJobToQueued

def markRunning (jobs : JobTable) (owner : JobOwnership) (now : Date) : JobChecked JobTable :=
  updateJobWithOwnership jobs owner (markJobRunning · now)

def markSucceeded (jobs : JobTable) (owner : JobOwnership) (now : Date)
    : JobChecked JobTable :=
  updateJobWithOwnership jobs owner (markJobSucceeded · now)

def markFailed (jobs : JobTable) (owner : JobOwnership) (now : Date) : JobChecked JobTable :=
  updateJobWithOwnership jobs owner (markJobFailed · now)

def markCancelled (jobs : JobTable) (owner : JobOwnership) (now : Date)
    : JobChecked JobTable :=
  updateJobWithOwnership jobs owner (markJobCancelled · now)

/-- The columns that a reconciliation sets. -/
def reconcileRow (input : ReconcileTerminalJobInput) (row : Job) : Job :=
  {
    row with
    status := input.targetStatus.val
    completedAt := some input.now
    claimedBy := none
    claimToken := none
    claimExpiresAt := none
  }

theorem reconcileRow_keepsKeys (input : ReconcileTerminalJobInput)
    : jobSchema.KeepsKeys (reconcileRow input) := by
  simp [Schema.KeepsKeys, jobSchema, reconcileRow]

/-- The rows of one job, within the repository of a scoped queue. -/
def inScope (scope : Option RepositoryId) (id : JobId) (row : Job) : Bool :=
  row.id = id && scope.all (row.repoId = ·)

theorem id_of_inScope {scope : Option RepositoryId} {id : JobId} {row : Job}
    (within : inScope scope id row = true)
    : row.id = id := by
  simp only [inScope, Bool.and_eq_true, decide_eq_true_eq] at within
  exact within.1

/-- `reconcileTerminalJob`: a job that is missing, finished or in another status than expected
is left alone, and one that another worker claimed is refused.
-/
def reconcileTerminalJob (scope : Option RepositoryId) (jobs : JobTable)
    (input : ReconcileTerminalJobInput)
    : JobChecked (ReconcileTerminalJobResult × JobTable) :=
  match jobs.rows.find? (inScope scope input.jobId) with
  | none => .ok ({ reconciled := false, status := .failed }, jobs)
  | some row =>
      if row.status.isTerminal then
        .ok ({ reconciled := false, status := row.status }, jobs)
      else if input.expectedStatus.any (row.status ≠ ·) then
        .ok ({ reconciled := false, status := row.status }, jobs)
      else
        match input.owner.filter (fun owner => row.claimedBy ≠ some owner.workerId
          || row.claimToken ≠ some owner.claimToken) with
        | some owner => .error (.ownershipLost owner.jobId)
        | none =>
            .ok ({ reconciled := true, status := input.targetStatus.val },
              jobs.revise (inScope scope input.jobId) (reconcileRow input)
                (reconcileRow_keepsKeys input))

def listForRepo (scope : Option RepositoryId) (jobs : JobTable) (repoId : RepositoryId)
    : List Job :=
  if scope.any (repoId ≠ ·) then []
  else jobs.rows.filter fun job => job.repoId = repoId

def listForRun (scope : Option RepositoryId) (jobs : JobTable) (runId : RunId)
    : JobChecked (List Job) :=
  (jobs.rows.filter fun job => job.runId = runId && scope.all (job.repoId = ·)).mapM toJob

theorem claimJob_eq_ok {job claimed : Job} {workerId : WorkerId} {token : ClaimToken}
    {now : Date} {ttlMs : Option Int}
    (claims : claimJob job workerId token now ttlMs = .ok claimed)
    : job.status = .queued ∧ claimed.id = job.id ∧ claimed.status = .claimed
      ∧ claimed.claimedBy = some workerId ∧ claimed.claimToken = some token := by
  unfold claimJob at claims
  split at claims
  · contradiction
  rename_i queued
  refine ⟨by simpa using queued, ?_⟩
  cases ttlMs with
  | none =>
      cases Except.ok.inj claims
      exact ⟨rfl, rfl, rfl, rfl⟩
  | some ttl =>
      simp only at claims
      cases sum : now.plus? ttl with
      | none => simp [sum] at claims
      | some expiry =>
          rw [sum] at claims
          cases Except.ok.inj claims
          exact ⟨rfl, rfl, rfl, rfl⟩

theorem nextRow_eq_some {jobs : JobTable} {input : ClaimNextInput} {row : Job}
    (next : nextRow jobs input = some row)
    : row ∈ jobs.rows ∧ row.status = .queued ∧ row.repoId = input.repoId := by
  have member := List.mem_of_find?_eq_some next
  rw [List.mem_insertionSort, List.mem_filter] at member
  simpa using member

theorem claimNext_none {scope : Option RepositoryId} {jobs next : JobTable}
    {input : ClaimNextInput} {token : ClaimToken} {now : Date}
    (claims : claimNext scope jobs input token now = .ok (none, next))
    : next = jobs := by
  unfold claimNext at claims
  split at claims
  · exact (Prod.mk.inj (Except.ok.inj claims)).2.symm
  split at claims
  · exact (Prod.mk.inj (Except.ok.inj claims)).2.symm
  · simp [checked_bind_eq_ok] at claims

/-- A claim that finds a job found it queued, and changes its row only. -/
theorem claimNext_some {scope : Option RepositoryId} {jobs next : JobTable}
    {input : ClaimNextInput} {token : ClaimToken} {now : Date} {claimed : Job}
    (claims : claimNext scope jobs input token now = .ok (some claimed, next))
    : ∃ row, jobs.find claimed.id = some row ∧ row.status = .queued
        ∧ claimJob row input.workerId token now input.ttlMs = .ok claimed
        ∧ ∀ id, next.find id
          = if id = claimed.id then some (claimRow claimed row) else jobs.find id := by
  unfold claimNext at claims
  split at claims
  · simp at claims
  split at claims
  · simp at claims
  rename_i row found
  obtain ⟨member, queued, repo⟩ := nextRow_eq_some found
  obtain ⟨job, read, step⟩ := checked_bind_eq_ok.mp claims
  obtain ⟨taken, result, written⟩ := checked_bind_eq_ok.mp step
  obtain rfl := toJob_eq_ok read
  simp only [Except.ok.injEq, Prod.mk.injEq, Option.some.injEq] at written
  obtain ⟨rfl, rfl⟩ := written
  have same : taken.id = job.id := (claimJob_eq_ok result).2.1
  have stored : jobs.find taken.id = some job :=
    same ▸ Table.findKey_of_mem jobSchema_keyed member
  refine ⟨job, stored, queued, result, fun id => ?_⟩
  refine Table.findKey_revise jobSchema_keyed stored ?_ (by simp [same, repo]) id
  intro other selected
  simp only [Bool.and_eq_true, decide_eq_true_eq] at selected
  exact selected.1

theorem enqueue_eq_ok {enabled : RepositoryId → Bool} {jobs next : JobTable} {job : Job}
    (enqueued : enqueue enabled jobs job = .ok next)
    : enabled job.repoId = true ∧ jobs.find job.id = none
      ∧ ∀ id, next.find id = if id = job.id then some job else jobs.find id := by
  unfold enqueue at enqueued
  split at enqueued
  · rename_i approved
    cases inserted : jobs.insert job with
    | none => simp [inserted] at enqueued
    | some table =>
        simp only [inserted, Except.ok.injEq] at enqueued
        subst enqueued
        exact ⟨approved, Table.findKey_insert jobSchema_keyed inserted⟩
  · contradiction

/-- An owner's operation finds the job under the owner's claim, and changes its row only. -/
theorem updateJobWithOwnership_eq_ok {jobs next : JobTable} {owner : JobOwnership}
    {transition : Job → JobChecked Job}
    (keepsId : ∀ job updated, transition job = .ok updated → updated.id = job.id)
    (updates : updateJobWithOwnership jobs owner transition = .ok next)
    : ∃ row updated, jobs.find owner.jobId = some row ∧ owns owner row = true
        ∧ transition row = .ok updated
        ∧ ∀ id, next.find id
          = if id = owner.jobId then some (writeRow updated row) else jobs.find id := by
  unfold updateJobWithOwnership at updates
  split at updates
  · contradiction
  rename_i row found
  obtain ⟨stored, owned⟩ := Table.findKey_of_find jobSchema_keyed found fun _ => id_of_owns
  obtain ⟨job, read, step⟩ := checked_bind_eq_ok.mp updates
  obtain ⟨updated, result, written⟩ := checked_bind_eq_ok.mp step
  obtain rfl := toJob_eq_ok read
  have sameId : updated.id = owner.jobId :=
    (keepsId job updated result).trans (JobTable.id_of_find stored)
  simp only [sameId] at written
  split at written
  · cases written
    refine ⟨job, updated, stored, owned, result, fun id => ?_⟩
    exact Table.findKey_revise jobSchema_keyed stored (fun _ => id_of_owns) owned id
  · contradiction

/-- A reconciliation finds an unfinished job, which the given owner claimed, and changes its
row only.
-/
theorem reconcileTerminalJob_eq_ok {scope : Option RepositoryId} {jobs next : JobTable}
    {input : ReconcileTerminalJobInput} {result : ReconcileTerminalJobResult}
    (reconciles : reconcileTerminalJob scope jobs input = .ok (result, next))
    : (result.reconciled = false ∧ next = jobs)
      ∨ ∃ row, jobs.find input.jobId = some row ∧ row.status.isTerminal = false
          ∧ (∀ owner, input.owner = some owner →
            row.claimedBy = some owner.workerId ∧ row.claimToken = some owner.claimToken)
          ∧ ∀ id, next.find id
            = if id = input.jobId then some (reconcileRow input row) else jobs.find id := by
  unfold reconcileTerminalJob at reconciles
  split at reconciles
  · obtain ⟨rfl, rfl⟩ := Prod.mk.inj (Except.ok.inj reconciles)
    exact .inl ⟨rfl, rfl⟩
  rename_i row found
  obtain ⟨stored, within⟩ := Table.findKey_of_find jobSchema_keyed found fun _ => id_of_inScope
  split at reconciles
  · obtain ⟨rfl, rfl⟩ := Prod.mk.inj (Except.ok.inj reconciles)
    exact .inl ⟨rfl, rfl⟩
  rename_i unfinished
  split at reconciles
  · obtain ⟨rfl, rfl⟩ := Prod.mk.inj (Except.ok.inj reconciles)
    exact .inl ⟨rfl, rfl⟩
  split at reconciles
  · contradiction
  rename_i matching
  obtain ⟨rfl, rfl⟩ := Prod.mk.inj (Except.ok.inj reconciles)
  refine .inr ⟨row, stored, by simpa using unfinished, ?_, fun id => ?_⟩
  · intro owner given
    rw [given, Option.filter_eq_none_iff] at matching
    simpa using matching owner rfl
  · exact Table.findKey_revise jobSchema_keyed stored (fun _ => id_of_inScope) within id

theorem find_inScope_none {jobs : JobTable} {id : JobId}
    : jobs.rows.find? (inScope none id) = jobs.find id := by
  unfold JobTable.find Table.findKey
  congr 1
  funext row
  simp [inScope]

/-- A reconciliation of a job that is finished, or under the claim of the given owner, leaves it
finished, and leaves other jobs alone.
-/
theorem reconcileTerminalJob_of_stands {jobs : JobTable} {input : ReconcileTerminalJobInput}
    (unconditional : input.expectedStatus = none)
    (stands
      : ∀ owner, input.owner = some owner → ∃ row, jobs.find input.jobId = some row
        ∧ (row.status.isTerminal = true
          ∨ row.claimedBy = some owner.workerId ∧ row.claimToken = some owner.claimToken))
    : ∃ result next, reconcileTerminalJob none jobs input = .ok (result, next)
        ∧ (∀ row, jobs.find input.jobId = some row → ∃ finished,
          next.find input.jobId = some finished ∧ finished.runId = row.runId
            ∧ finished.status.isTerminal = true)
        ∧ ∀ id, id ≠ input.jobId → next.find id = jobs.find id := by
  unfold reconcileTerminalJob
  rw [find_inScope_none]
  cases found : jobs.find input.jobId with
  | none => exact ⟨_, jobs, rfl, fun row held => (nomatch held), fun _ _ => rfl⟩
  | some row =>
      by_cases terminal : row.status.isTerminal = true
      · refine ⟨_, jobs, if_pos terminal, fun other held => ?_, fun _ _ => rfl⟩
        obtain rfl := Option.some.inj held
        exact ⟨row, found, rfl, terminal⟩
      · have fits : input.owner.filter (fun owner => row.claimedBy ≠ some owner.workerId
            || row.claimToken ≠ some owner.claimToken) = none := by
          rw [Option.filter_eq_none_iff]
          intro owner given
          obtain ⟨other, held, state⟩ := stands owner given
          obtain rfl := Option.some.inj (found.symm.trans held)
          simpa [terminal] using state
        have within : inScope none input.jobId row = true := by
          simp [inScope, JobTable.id_of_find found]
        let written : JobTable :=
          jobs.revise (inScope none input.jobId) (reconcileRow input) (reconcileRow_keepsKeys input)
        have rows (id : JobId)
            : written.find id
              = if id = input.jobId then some (reconcileRow input row) else jobs.find id :=
          Table.findKey_revise jobSchema_keyed found (fun _ => id_of_inScope) within id
        refine ⟨{ reconciled := true, status := input.targetStatus.val }, written, ?_, ?_, ?_⟩
        · dsimp only
          rw [if_neg terminal, unconditional, fits]
          rfl
        · intro other held
          obtain rfl := Option.some.inj held
          refine ⟨reconcileRow input row, ?_, rfl, input.targetStatus.property⟩
          exact (rows input.jobId).trans (if_pos rfl)
        · intro id other
          exact (rows id).trans (if_neg other)

theorem listForRun_eq_ok {scope : Option RepositoryId} {jobs : JobTable} {runId : RunId}
    {listed : List Job} (lists : listForRun scope jobs runId = .ok listed)
    : listed = jobs.rows.filter fun job => job.runId = runId && scope.all (job.repoId = ·) := by
  have read (rows listed : List Job) (lists : rows.mapM toJob = .ok listed) : listed = rows := by
    induction rows generalizing listed with
    | nil => exact (Except.ok.inj lists).symm
    | cons row rows ih =>
        rw [List.mapM_cons] at lists
        obtain ⟨job, first, rest⟩ := checked_bind_eq_ok.mp lists
        obtain ⟨others, later, same⟩ := checked_bind_eq_ok.mp rest
        rw [toJob_eq_ok first, ih others later] at same
        exact (Except.ok.inj same).symm
  exact read _ _ lists

end JobQueueRepository

end AiSdlc.Sqlite
