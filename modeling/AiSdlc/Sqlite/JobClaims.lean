import AiSdlc.Transition.Fencing
import AiSdlc.Sqlite.OperationalRecoveryRepository

/-! Job claims over any order of the operations that read and write jobs. Each operation is
one step; the history of a run tells whose claim on a job stands.
-/

namespace AiSdlc.Sqlite

open AiSdlc.Js
open AiSdlc.Domain
open AiSdlc.Transition
open JobQueueRepository
open OperationalRecoveryRepository

/-- The operations on jobs, each with what it reads from outside of the store. All other
operations change leases and workers only.
-/
inductive JobCall
  | enqueue (enabled : RepositoryId → Bool) (input : CreateJobInput)
  | claimNext (scope : Option RepositoryId) (input : ClaimNextInput) (token : ClaimToken)
      (now : Date)
  | releaseClaim (owner : JobOwnership)
  | resetToQueued (owner : JobOwnership)
  | markRunning (owner : JobOwnership) (now : Date)
  | markSucceeded (owner : JobOwnership) (now : Date)
  | markFailed (owner : JobOwnership) (now : Date)
  | markCancelled (owner : JobOwnership) (now : Date)
  | reconcileTerminalJob (scope : Option RepositoryId) (input : ReconcileTerminalJobInput)
  | reclaimExpiredClaim (input : ReclaimExpiredClaimInput) (recorded : JobChecked Unit)
  | commitLeaseReclamation (input : CommitLeaseReclamationInput) (recorded : JobChecked Unit)
  | other (leases : LeaseTable) (workers : WorkerTable)

inductive JobCallResult
  | done
  | claimed (job : Option Job)
  | reconciled (result : ReconcileTerminalJobResult)
  | reclaimed (result : LeaseReclamationResult)

/-- The store with the jobs that an operation leaves. -/
def OperationalStore.withJobs (store : OperationalStore) (jobs : JobChecked JobTable)
    : JobChecked (JobCallResult × OperationalStore) := do
  let written ← jobs
  .ok (.done, { store with jobs := written })

def JobCall.perform (store : OperationalStore)
    : JobCall → JobChecked (JobCallResult × OperationalStore)
  | enqueue enabled input =>
      store.withJobs (JobQueueRepository.enqueue enabled store.jobs (createJob input))
  | claimNext scope input token now => do
      let (job, jobs) ← JobQueueRepository.claimNext scope store.jobs input token now
      .ok (.claimed job, { store with jobs })
  | releaseClaim owner => store.withJobs (JobQueueRepository.releaseClaim store.jobs owner)
  | resetToQueued owner => store.withJobs (JobQueueRepository.resetToQueued store.jobs owner)
  | markRunning owner now =>
      store.withJobs (JobQueueRepository.markRunning store.jobs owner now)
  | markSucceeded owner now =>
      store.withJobs (JobQueueRepository.markSucceeded store.jobs owner now)
  | markFailed owner now => store.withJobs (JobQueueRepository.markFailed store.jobs owner now)
  | markCancelled owner now =>
      store.withJobs (JobQueueRepository.markCancelled store.jobs owner now)
  | reconcileTerminalJob scope input => do
      let (result, jobs) ← JobQueueRepository.reconcileTerminalJob scope store.jobs input
      .ok (.reconciled result, { store with jobs })
  | reclaimExpiredClaim input recorded => do
      let (result, next) ← OperationalRecoveryRepository.reclaimExpiredClaim store input recorded
      .ok (.reclaimed result, next)
  | commitLeaseReclamation input recorded => do
      let (result, next) ←
        OperationalRecoveryRepository.commitLeaseReclamation store input recorded
      .ok (.reclaimed result, next)
  | other leases workers => .ok (.done, { store with leases, workers })

/-- An operation that was performed: an operation that throws is rolled back. -/
structure JobStep where
  call : JobCall
  before : OperationalStore
  outcome : JobChecked JobCallResult
  after : OperationalStore

def JobCall.step (call : JobCall) (store : OperationalStore) : JobStep :=
  match call.perform store with
  | .ok (result, next) => { call, before := store, outcome := .ok result, after := next }
  | .error error => { call, before := store, outcome := .error error, after := store }

def JobCall.stepWithStore (call : JobCall) (store : OperationalStore)
    : JobStep × OperationalStore :=
  (call.step store, (call.step store).after)

/-- The operations in any order, from a store without claims. -/
def jobSystem : System OperationalStore JobStep :=
  .ofCalls (fun store => ∀ row ∈ store.jobs.rows, row.claimedBy = none ∧ row.claimToken = none)
    JobCall.stepWithStore

@[simp]
theorem JobCall.call_step (call : JobCall) (store : OperationalStore)
    : (call.step store).call = call := by
  unfold step
  split <;> rfl

/-- The claim that an operation acts under, for the job that it is to change. -/
def JobCall.ownership : JobCall → Option JobOwnership
  | releaseClaim owner | resetToQueued owner | markRunning owner _ | markSucceeded owner _
  | markFailed owner _ | markCancelled owner _ => some owner
  | reconcileTerminalJob _ input =>
      input.owner.map fun owner => { owner with jobId := input.jobId }
  | commitLeaseReclamation input _ => input.expectedJobOwnership
  | enqueue _ _ | claimNext _ _ _ _ | reclaimExpiredClaim _ _ | other _ _ => none

/-- The operations that release, reset, reclaim or reconcile a claim. -/
def JobCall.endsClaims : JobCall → Bool
  | releaseClaim _ | resetToQueued _ | reconcileTerminalJob _ _ | reclaimExpiredClaim _ _
  | commitLeaseReclamation _ _ => true
  | enqueue _ _ | claimNext _ _ _ _ | markRunning _ _ | markSucceeded _ _ | markFailed _ _
  | markCancelled _ _ | other _ _ => false

/-- The claim on a job that `claimNext` returned. -/
def JobCall.claims (call : JobCall) (result : JobCallResult) (id : JobId)
    : Option JobOwnership :=
  match call, result with
  | claimNext _ input token _, .claimed (some job) =>
      if job.id = id then some { jobId := id, workerId := input.workerId, claimToken := token }
      else none
  | _, _ => none

/-- What a step does to the claim on a job. -/
def JobStep.claimChange (step : JobStep) (id : JobId) : Change JobOwnership :=
  match step.outcome with
  | .error _ => .keep
  | .ok result =>
      match step.call.claims result id with
      | some owner => .issue owner
      | none =>
          if step.call.endsClaims ∧ step.after.jobs.find id ≠ step.before.jobs.find id then
            .revoke
          else
            .keep

/-- The operation threw, or reported that it did nothing. -/
def JobStep.refused (step : JobStep) : Bool :=
  match step.outcome with
  | .error _ => true
  | .ok (.reconciled result) => !result.reconciled
  | .ok (.reclaimed result) => !result.committed
  | .ok .done | .ok (.claimed _) => false

/-- The token under which a step claimed a job. -/
def JobStep.claimToken? (step : JobStep) : Option ClaimToken :=
  match step.call, step.outcome with
  | .claimNext _ _ token _, .ok (.claimed (some _)) => some token
  | _, _ => none

/-- The tokens under which jobs were claimed. -/
def claimTokens (history : List JobStep) : List ClaimToken :=
  history.filterMap JobStep.claimToken?

-----------------------------------------------------------------------------------------
-- What an operation may do to the row of a job
-----------------------------------------------------------------------------------------

def Unclaimed (job : Job) : Prop :=
  job.claimedBy = none ∧ job.claimToken = none

/-- What a successful operation may do to the row of a job. -/
inductive RowChange (call : JobCall) (result : JobCallResult) (id : JobId)
    : Option Job → Option Job → Prop
  | same (row : Option Job) (free : call.claims result id = none)
    : RowChange call result id row row
  | enqueued {job : Job} (free : call.claims result id = none)
      (keeps : call.endsClaims = false) (carries : call.ownership = none)
      (unclaimed : Unclaimed job)
    : RowChange call result id none (some job)
  | claimed {row job : Job} {owner : JobOwnership}
      (takes : call.claims result id = some owner) (carries : call.ownership = none)
      (queued : row.status = .queued) (held : owns owner job = true)
    : RowChange call result id (some row) (some job)
  | marked {row job : Job} {owner : JobOwnership} (free : call.claims result id = none)
      (keeps : call.endsClaims = false) (carries : call.ownership = some owner)
      (owned : owns owner row = true) (unfinished : row.status.isTerminal = false)
      (same : job.claimedBy = row.claimedBy ∧ job.claimToken = row.claimToken)
    : RowChange call result id (some row) (some job)
  | ended {row job : Job} (free : call.claims result id = none)
      (ends : call.endsClaims = true)
      (owned : ∀ owner, call.ownership = some owner → owns owner row = true)
      (unfinished : row.status.isTerminal = false) (unclaimed : Unclaimed job)
    : RowChange call result id (some row) (some job)

/-- What a successful operation does: it changes rows as it may, and under a claim it does
nothing or finds the job under that claim.
-/
structure JobCall.Performed (call : JobCall) (result : JobCallResult)
    (store next : OperationalStore)
    : Prop where
  rows : ∀ id, RowChange call result id (store.jobs.find id) (next.jobs.find id)
  owned : ∀ owner, call.ownership = some owner →
    (({ call, before := store, outcome := .ok result, after := next } : JobStep).refused = true
      ∧ next = store)
    ∨ ∃ row, store.jobs.find owner.jobId = some row ∧ owns owner row = true

/-- A transition of an unfinished job that leaves its claim alone. -/
def Marks (transition : Job → JobChecked Job) : Prop :=
  ∀ job updated, transition job = .ok updated →
    updated.id = job.id ∧ job.status.isTerminal = false
      ∧ updated.claimedBy = job.claimedBy ∧ updated.claimToken = job.claimToken

/-- A transition of an unfinished job that ends its claim. -/
def Frees (transition : Job → JobChecked Job) : Prop :=
  ∀ job updated, transition job = .ok updated →
    updated.id = job.id ∧ job.status.isTerminal = false ∧ Unclaimed updated

theorem marks_running (now : Date) : Marks (markJobRunning · now) := by
  intro job updated marked
  simp only [markJobRunning] at marked
  split at marked
  · contradiction
  · rename_i claimed
    cases marked
    simp [not_not.mp claimed, JobStatus.isTerminal]

theorem marks_terminate (status : JobStatus) (now : Date) : Marks (terminate · status now) := by
  intro job updated marked
  simp only [terminate] at marked
  split at marked
  · contradiction
  · rename_i running
    cases marked
    simp [not_not.mp running, JobStatus.isTerminal]

theorem frees_unclaim : Frees unclaimJob := by
  intro job updated freed
  unfold unclaimJob at freed
  split at freed
  · contradiction
  · rename_i claimed
    cases freed
    simp [not_not.mp claimed, JobStatus.isTerminal, Unclaimed]

theorem unfinished_of_isHeld {job : Job} (held : isHeld job = true)
    : job.status.isTerminal = false := by
  simp only [isHeld, List.mem_cons, List.not_mem_nil, or_false, decide_eq_true_eq] at held
  rcases held with claimed | running
  · simp [claimed, JobStatus.isTerminal]
  · simp [running, JobStatus.isTerminal]

theorem frees_reset : Frees resetJobToQueued := by
  intro job updated freed
  obtain ⟨held, sameId, _, unclaimed⟩ := resetJobToQueued_eq_ok freed
  exact ⟨sameId, unfinished_of_isHeld held, unclaimed⟩

variable {call : JobCall} {store next : OperationalStore} {owner : JobOwnership}
  {transition : Job → JobChecked Job}

theorem RowChange.of_find {result : JobCallResult} {jobs written : JobTable} {target : JobId}
    {job : Job} (free : ∀ id, call.claims result id = none)
    (rows : ∀ id, written.find id = if id = target then some job else jobs.find id)
    (here : RowChange call result target (jobs.find target) (some job)) (id : JobId)
    : RowChange call result id (jobs.find id) (written.find id) := by
  rw [rows id]
  split
  · rename_i same
    exact same ▸ here
  · exact .same _ (free id)

/-- An owner's operation that succeeds found the job under its claim. -/
theorem performed_of_marks (marks : Marks transition) (carries : call.ownership = some owner)
    (keeps : call.endsClaims = false) (free : ∀ id, call.claims .done id = none)
    {jobs : JobTable} (updates : updateJobWithOwnership store.jobs owner transition = .ok jobs)
    : call.Performed .done store { store with jobs } := by
  obtain ⟨row, updated, found, owned, moved, rows⟩ :=
    updateJobWithOwnership_eq_ok (fun job updated moved => (marks job updated moved).1) updates
  obtain ⟨_, unfinished, same⟩ := marks row updated moved
  refine ⟨?_, ?_⟩
  · refine RowChange.of_find free rows ?_
    rw [found]
    exact .marked (free _) keeps carries owned unfinished same
  · intro other given
    obtain rfl : owner = other := Option.some.inj (carries.symm.trans given)
    exact .inr ⟨row, found, owned⟩

theorem performed_of_frees (frees : Frees transition) (carries : call.ownership = some owner)
    (ends : call.endsClaims = true) (free : ∀ id, call.claims .done id = none)
    {jobs : JobTable} (updates : updateJobWithOwnership store.jobs owner transition = .ok jobs)
    : call.Performed .done store { store with jobs } := by
  obtain ⟨row, updated, found, owned, moved, rows⟩ :=
    updateJobWithOwnership_eq_ok (fun job updated moved => (frees job updated moved).1) updates
  obtain ⟨_, unfinished, unclaimed⟩ := frees row updated moved
  have onlyOwner (other : JobOwnership) (given : call.ownership = some other)
      : other = owner :=
    (Option.some.inj (carries.symm.trans given)).symm
  refine ⟨?_, ?_⟩
  · refine RowChange.of_find free rows ?_
    rw [found]
    exact .ended (free _) ends (fun other given => onlyOwner other given ▸ owned) unfinished
      unclaimed
  · intro other given
    rw [onlyOwner other given]
    exact .inr ⟨row, found, owned⟩

theorem withJobs_eq_ok {jobs : JobChecked JobTable} {result : JobCallResult}
    (written : store.withJobs jobs = .ok (result, next))
    : ∃ table, jobs = .ok table ∧ result = .done ∧ next = { store with jobs := table } := by
  obtain ⟨table, same, rest⟩ := checked_bind_eq_ok.mp written
  obtain ⟨rfl, rfl⟩ := Prod.mk.inj (Except.ok.inj rest)
  exact ⟨table, same, rfl, rfl⟩

/-- An operation that leaves the jobs alone. -/
theorem performed_of_same {result : JobCallResult} (free : ∀ id, call.claims result id = none)
    (same : next.jobs = store.jobs)
    (quiet : call.ownership = none ∨ next = store
      ∧ ({ call, before := store, outcome := .ok result, after := next } : JobStep).refused
        = true)
    : call.Performed result store next := by
  refine ⟨fun id => same ▸ .same _ (free id), fun owner given => ?_⟩
  rcases quiet with none | ⟨unchanged, refused⟩
  · simp [none] at given
  · exact .inl ⟨refused, unchanged⟩

theorem performed_enqueue {enabled : RepositoryId → Bool} {input : CreateJobInput}
    {result : JobCallResult}
    (performed : (JobCall.enqueue enabled input).perform store = .ok (result, next))
    : (JobCall.enqueue enabled input).Performed result store next := by
  obtain ⟨jobs, enqueued, rfl, rfl⟩ := withJobs_eq_ok performed
  obtain ⟨_, absent, rows⟩ := enqueue_eq_ok enqueued
  refine ⟨RowChange.of_find (fun _ => rfl) rows ?_, by simp [JobCall.ownership]⟩
  rw [absent]
  exact .enqueued rfl rfl rfl ⟨rfl, rfl⟩

theorem performed_claimNext {scope : Option RepositoryId} {input : ClaimNextInput}
    {token : ClaimToken} {now : Date} {result : JobCallResult}
    (performed : (JobCall.claimNext scope input token now).perform store = .ok (result, next))
    : (JobCall.claimNext scope input token now).Performed result store next := by
  obtain ⟨⟨job, jobs⟩, claims, rest⟩ := checked_bind_eq_ok.mp performed
  obtain ⟨rfl, rfl⟩ := Prod.mk.inj (Except.ok.inj rest)
  cases job with
  | none => exact performed_of_same (fun _ => rfl) (claimNext_none claims) (.inl rfl)
  | some claimed =>
      obtain ⟨row, found, queued, taken, rows⟩ := claimNext_some claims
      obtain ⟨_, _, _, worker, drawn⟩ := claimJob_eq_ok taken
      refine ⟨fun id => ?_, by simp [JobCall.ownership]⟩
      simp only [rows id]
      split
      · rename_i here
        subst here
        rw [found]
        have sameId : row.id = claimed.id := JobTable.id_of_find found
        exact .claimed (if_pos rfl) rfl queued (owns_iff.mpr ⟨sameId, worker, drawn⟩)
      · rename_i elsewhere
        exact .same _ (if_neg (Ne.symm elsewhere))

theorem performed_reconcile {scope : Option RepositoryId} {input : ReconcileTerminalJobInput}
    {result : JobCallResult}
    (performed : (JobCall.reconcileTerminalJob scope input).perform store = .ok (result, next))
    : (JobCall.reconcileTerminalJob scope input).Performed result store next := by
  obtain ⟨⟨report, jobs⟩, reconciles, rest⟩ := checked_bind_eq_ok.mp performed
  obtain ⟨rfl, rfl⟩ := Prod.mk.inj (Except.ok.inj rest)
  rcases reconcileTerminalJob_eq_ok reconciles with
    ⟨idle, rfl⟩ | ⟨row, found, unfinished, owned, rows⟩
  · exact performed_of_same (fun _ => rfl) rfl (.inr ⟨rfl, by simp [JobStep.refused, idle]⟩)
  · have claimedBy (owner : JobOwnership)
        (given : (JobCall.reconcileTerminalJob scope input).ownership = some owner)
        : owns owner row = true ∧ owner.jobId = input.jobId := by
      obtain ⟨named, carried, rfl⟩ := Option.map_eq_some_iff.mp given
      exact ⟨owns_iff.mpr ⟨JobTable.id_of_find found, owned named carried⟩, rfl⟩
    refine ⟨RowChange.of_find (fun _ => rfl) rows ?_, fun owner given => .inr ⟨row, ?_⟩⟩
    · rw [found]
      exact .ended rfl rfl (fun owner given => (claimedBy owner given).1) unfinished ⟨rfl, rfl⟩
    · rw [(claimedBy owner given).2]
      exact ⟨found, (claimedBy owner given).1⟩

theorem performed_reclaim {input : ReclaimExpiredClaimInput} {recorded : JobChecked Unit}
    {result : JobCallResult}
    (performed : (JobCall.reclaimExpiredClaim input recorded).perform store
      = .ok (result, next))
    : (JobCall.reclaimExpiredClaim input recorded).Performed result store next := by
  obtain ⟨⟨report, after⟩, reclaims, rest⟩ := checked_bind_eq_ok.mp performed
  obtain ⟨rfl, rfl⟩ := Prod.mk.inj (Except.ok.inj rest)
  rcases reclaimExpiredClaim_eq_ok reclaims with ⟨_, rfl⟩ | ⟨_, _, rows⟩
  · exact performed_of_same (fun _ => rfl) rfl (.inl rfl)
  · refine ⟨fun id => ?_, by simp [JobCall.ownership]⟩
    rw [rows id]
    cases found : store.jobs.find id with
    | none => exact .same _ rfl
    | some row =>
        rw [Option.map_some]
        split
        · rename_i taken
          exact .ended rfl rfl (by simp [JobCall.ownership]) (unfinished_of_isHeld taken.2)
            ⟨rfl, rfl⟩
        · exact .same _ rfl

theorem performed_commit {input : CommitLeaseReclamationInput} {recorded : JobChecked Unit}
    {result : JobCallResult}
    (performed : (JobCall.commitLeaseReclamation input recorded).perform store
      = .ok (result, next))
    : (JobCall.commitLeaseReclamation input recorded).Performed result store next := by
  obtain ⟨⟨report, after⟩, commits, rest⟩ := checked_bind_eq_ok.mp performed
  obtain ⟨rfl, rfl⟩ := Prod.mk.inj (Except.ok.inj rest)
  rcases commitLeaseReclamation_eq_ok commits with
    ⟨idle, rfl⟩ | ⟨lease, jobs, worker, _, _, _, _, _, requeues, rfl⟩
  · exact performed_of_same (fun _ => rfl) rfl (.inr ⟨rfl, by simp [JobStep.refused, idle]⟩)
  · rcases requeueOwned_eq_ok requeues with
      ⟨unnamed, rfl⟩ | ⟨owner, row, requeued, named, found, owned, reset, rows⟩
    · exact performed_of_same (fun _ => rfl) rfl (.inl unnamed)
    · have onlyOwner (other : JobOwnership)
          (given : (JobCall.commitLeaseReclamation input recorded).ownership = some other)
          : other = owner :=
        Option.some.inj (given.symm.trans named)
      obtain ⟨held, _⟩ := resetJobToQueued_eq_ok reset
      refine ⟨RowChange.of_find (fun _ => rfl) rows ?_, fun other given => .inr ⟨row, ?_⟩⟩
      · rw [found]
        exact .ended rfl rfl (fun other given => onlyOwner other given ▸ owned)
          (unfinished_of_isHeld held) ⟨rfl, rfl⟩
      · rw [onlyOwner other given]
        exact ⟨found, owned⟩

/-- Every successful operation does what operations may do, by cases on the operation. -/
theorem JobCall.performed {result : JobCallResult}
    (performed : call.perform store = .ok (result, next))
    : call.Performed result store next := by
  cases call with
  | enqueue enabled input => exact performed_enqueue performed
  | claimNext scope input token now => exact performed_claimNext performed
  | releaseClaim owner =>
      obtain ⟨jobs, updates, rfl, rfl⟩ := withJobs_eq_ok performed
      exact performed_of_frees frees_unclaim rfl rfl (fun _ => rfl) updates
  | resetToQueued owner =>
      obtain ⟨jobs, updates, rfl, rfl⟩ := withJobs_eq_ok performed
      exact performed_of_frees frees_reset rfl rfl (fun _ => rfl) updates
  | markRunning owner now =>
      obtain ⟨jobs, updates, rfl, rfl⟩ := withJobs_eq_ok performed
      exact performed_of_marks (marks_running now) rfl rfl (fun _ => rfl) updates
  | markSucceeded owner now =>
      obtain ⟨jobs, updates, rfl, rfl⟩ := withJobs_eq_ok performed
      exact performed_of_marks (marks_terminate .succeeded now) rfl rfl (fun _ => rfl) updates
  | markFailed owner now =>
      obtain ⟨jobs, updates, rfl, rfl⟩ := withJobs_eq_ok performed
      exact performed_of_marks (marks_terminate .failed now) rfl rfl (fun _ => rfl) updates
  | markCancelled owner now =>
      obtain ⟨jobs, updates, rfl, rfl⟩ := withJobs_eq_ok performed
      exact performed_of_marks (marks_terminate .cancelled now) rfl rfl (fun _ => rfl) updates
  | reconcileTerminalJob scope input => exact performed_reconcile performed
  | reclaimExpiredClaim input recorded => exact performed_reclaim performed
  | commitLeaseReclamation input recorded => exact performed_commit performed
  | other leases workers =>
      obtain ⟨rfl, rfl⟩ := Prod.mk.inj (Except.ok.inj performed)
      exact performed_of_same (fun _ => rfl) rfl (.inl rfl)

-----------------------------------------------------------------------------------------
-- The claim that stands is the one in the row
-----------------------------------------------------------------------------------------

def claimOf (row : Job) : Option JobOwnership := do
  return { jobId := row.id, workerId := ← row.claimedBy, claimToken := ← row.claimToken }

/-- The claim under which the store holds a job. -/
def OperationalStore.claimHolder (store : OperationalStore) (id : JobId)
    : Option JobOwnership :=
  (store.jobs.find id).bind claimOf

theorem claimOf_eq_some {row : Job} {owner : JobOwnership}
    : claimOf row = some owner ↔ owns owner row = true := by
  rw [owns_iff]
  obtain ⟨jobId, workerId, claimToken⟩ := owner
  cases worker : row.claimedBy <;> cases token : row.claimToken <;>
    simp [claimOf, worker, token]

theorem claimOf_of_unclaimed {job : Job} (unclaimed : Unclaimed job) : claimOf job = none := by
  simp [claimOf, unclaimed.1]

theorem JobCall.step_cases (call : JobCall) (store : OperationalStore)
    : (∃ error, call.step store
        = { call, before := store, outcome := .error error, after := store })
      ∨ ∃ result next, call.Performed result store next
          ∧ call.step store = { call, before := store, outcome := .ok result, after := next } := by
  unfold step
  cases performed : call.perform store with
  | error error => exact .inl ⟨error, rfl⟩
  | ok done => exact .inr ⟨done.1, done.2, JobCall.performed performed, rfl⟩

theorem claimOf_of_same {row job : Job} (sameId : job.id = row.id)
    (same : job.claimedBy = row.claimedBy ∧ job.claimToken = row.claimToken)
    : claimOf job = claimOf row := by
  simp [claimOf, sameId, same.1, same.2]

/-- Every step changes the claim on a job as its label tells, by cases on what it did to the
row.
-/
theorem jobSystem_follows
    : jobSystem.Follows OperationalStore.claimHolder JobStep.claimChange := by
  rintro store step next ⟨call, taken⟩ id
  obtain ⟨rfl, rfl⟩ := Prod.mk.inj taken
  rcases call.step_cases store with ⟨error, refused⟩ | ⟨result, next, done, ok⟩
  · rw [refused]
    rfl
  · rw [ok]
    have change := done.rows id
    simp only [JobStep.claimChange, OperationalStore.claimHolder]
    generalize before : store.jobs.find id = old at change
    generalize after : next.jobs.find id = new at change
    cases change with
    | same row free => simp [free, Change.apply]
    | enqueued free keeps carries unclaimed =>
        simp [free, keeps, Change.apply, claimOf_of_unclaimed unclaimed]
    | claimed takes carries queued held =>
        simp [takes, Change.apply, claimOf_eq_some.mpr held]
    | marked free keeps carries owned unfinished same =>
        have sameId := (JobTable.id_of_find after).trans (JobTable.id_of_find before).symm
        simp [free, keeps, Change.apply, claimOf_of_same sameId same]
    | @ended row job free ends owned unfinished unclaimed =>
        simp only [free, ends, true_and, Option.bind_some]
        split
        · exact claimOf_of_unclaimed unclaimed
        · rename_i unchanged
          cases Option.some.inj (not_not.mp unchanged)
          rfl

theorem standing_eq_claimHolder {history : List JobStep} {store : OperationalStore}
    (run : jobSystem.Run history store) (id : JobId)
    : standing JobStep.claimChange history id = store.claimHolder id := by
  refine (run.holder_eq_standing jobSystem_follows ?_ id).symm
  intro start initial id
  unfold OperationalStore.claimHolder
  cases found : start.jobs.find id with
  | none => rfl
  | some row => exact claimOf_of_unclaimed (initial row (List.mem_of_find?_eq_some found))

theorem claimHolder_of_owns {store : OperationalStore} {owner : JobOwnership} {row : Job}
    (found : store.jobs.find owner.jobId = some row) (owned : owns owner row = true)
    : store.claimHolder owner.jobId = some owner := by
  simp [OperationalStore.claimHolder, found, claimOf_eq_some.mpr owned]

/-- A step under a claim changes no row but that of the job held under it. -/
theorem changed_of_ownership {step : JobStep} (taken : jobSystem.step store step next)
    (carries : step.call.ownership = some owner) {id : JobId}
    (changed : next.jobs.find id ≠ store.jobs.find id)
    : id = owner.jobId ∧ store.claimHolder id = some owner := by
  obtain ⟨call, labelled⟩ := taken
  obtain ⟨rfl, rfl⟩ := Prod.mk.inj labelled
  rw [JobCall.call_step] at carries
  rcases call.step_cases store with ⟨error, refused⟩ | ⟨result, next, done, ok⟩
  · rw [refused] at changed
    exact absurd rfl changed
  · rw [ok] at changed
    have change := done.rows id
    have held {row : Job} (found : store.jobs.find id = some row)
        (owned : owns owner row = true)
        : id = owner.jobId ∧ store.claimHolder id = some owner := by
      have here : id = owner.jobId := (JobTable.id_of_find found).symm.trans (id_of_owns owned)
      exact ⟨here, here ▸ claimHolder_of_owns (here ▸ found) owned⟩
    generalize before : store.jobs.find id = old at change changed held
    generalize after : next.jobs.find id = new at change changed
    cases change with
    | same row free => exact absurd rfl changed
    | enqueued free keeps none unclaimed => simp [none] at carries
    | claimed takes none queued own => simp [none] at carries
    | marked free keeps given owned unfinished same =>
        obtain rfl := Option.some.inj (given.symm.trans carries)
        exact held rfl owned
    | ended free ends owned unfinished unclaimed => exact held rfl (owned owner carries)

theorem refused_of_ownership {step : JobStep} (taken : jobSystem.step store step next)
    (carries : step.call.ownership = some owner)
    (foreign : store.claimHolder owner.jobId ≠ some owner)
    : step.refused = true ∧ next = store := by
  obtain ⟨call, labelled⟩ := taken
  obtain ⟨rfl, rfl⟩ := Prod.mk.inj labelled
  rw [JobCall.call_step] at carries
  rcases call.step_cases store with ⟨error, threw⟩ | ⟨result, next, done, ok⟩
  · rw [threw]
    exact ⟨rfl, rfl⟩
  · rcases done.owned owner carries with ⟨refused, same⟩ | ⟨row, found, owned⟩
    · rw [ok]
      exact ⟨refused, same⟩
    · exact absurd (claimHolder_of_owns found owned) foreign

theorem terminal_kept {step : JobStep} (taken : jobSystem.step store step next) {id : JobId}
    {row : Job} (found : store.jobs.find id = some row) (terminal : row.status.isTerminal = true)
    : ∃ kept, next.jobs.find id = some kept ∧ kept.status = row.status := by
  obtain ⟨call, labelled⟩ := taken
  obtain ⟨rfl, rfl⟩ := Prod.mk.inj labelled
  rcases call.step_cases store with ⟨error, refused⟩ | ⟨result, next, done, ok⟩
  · rw [refused]
    exact ⟨row, found, rfl⟩
  · rw [ok]
    have change := done.rows id
    rw [found] at change
    generalize next.jobs.find id = new at change
    cases change with
    | same row free => exact ⟨_, rfl, rfl⟩
    | claimed takes none queued own => simp [queued, JobStatus.isTerminal] at terminal
    | marked free keeps given owned unfinished same => simp [unfinished] at terminal
    | ended free ends owned unfinished unclaimed => simp [unfinished] at terminal

theorem claimToken_of_issue {step : JobStep} {id : JobId} {owner : JobOwnership}
    (issues : step.claimChange id = .issue owner)
    : step.claimToken? = some owner.claimToken := by
  obtain ⟨call, before, outcome, after⟩ := step
  cases outcome with
  | error error => simp [JobStep.claimChange] at issues
  | ok result =>
      simp only [JobStep.claimChange] at issues
      split at issues
      · rename_i claimed
        cases issues
        unfold JobCall.claims at claimed
        split at claimed
        · split at claimed
          · cases claimed
            rfl
          · contradiction
        · contradiction
      · split at issues
        · contradiction
        · contradiction

/-- The claims on a job are among all claims, by induction over the history. -/
theorem issued_sublist (history : List JobStep) (id : JobId)
    : ((issued JobStep.claimChange history id).map JobOwnership.claimToken).Sublist
        (claimTokens history) := by
  induction history with
  | nil => exact .slnil
  | cons step earlier ih =>
      simp only [issued, claimTokens, List.filterMap_cons]
      cases effect : step.claimChange id with
      | issue owner =>
          simp only [Change.issued?, claimToken_of_issue effect, List.map_cons]
          exact ih.cons_cons _
      | keep =>
          simp only [Change.issued?]
          cases step.claimToken? with
          | none => exact ih
          | some token => exact ih.cons _
      | revoke =>
          simp only [Change.issued?]
          cases step.claimToken? with
          | none => exact ih
          | some token => exact ih.cons _

theorem issued_nodup {history : List JobStep} (fresh : (claimTokens history).Nodup)
    (id : JobId)
    : (issued JobStep.claimChange history id).Nodup :=
  List.Nodup.of_map JobOwnership.claimToken (fresh.sublist (issued_sublist history id))

/-- An operation under a claim changes only the job that this claim still holds, and else it
is refused and changes nothing; with fresh tokens, a claim that was released, reset, taken
back, reconciled or replaced never gets through again. A finished job keeps its status.
-/
theorem job_claims_are_fenced {history : List JobStep} {store next : OperationalStore}
    {step : JobStep} (run : jobSystem.Run history store)
    (taken : jobSystem.step store step next)
    : (∀ owner, step.call.ownership = some owner →
        (∀ id, next.jobs.find id ≠ store.jobs.find id →
          id = owner.jobId ∧ standing JobStep.claimChange history id = some owner)
        ∧ (standing JobStep.claimChange history owner.jobId ≠ some owner →
          step.refused = true ∧ next = store)
        ∧ ((claimTokens history).Nodup → ∀ later claim earlier,
          history = later ++ claim :: earlier →
          claim.claimChange owner.jobId = .issue owner →
          (∃ other ∈ later, other.claimChange owner.jobId ≠ .keep) →
          step.refused = true ∧ next = store))
      ∧ ∀ id row, store.jobs.find id = some row → row.status.isTerminal = true →
          ∀ more last, jobSystem.Path store more last →
            ∃ kept, last.jobs.find id = some kept ∧ kept.status = row.status := by
  refine ⟨fun owner carries => ?_, fun id row found terminal more last path => ?_⟩
  · have refusal (foreign : standing JobStep.claimChange history owner.jobId ≠ some owner)
        : step.refused = true ∧ next = store := by
      rw [standing_eq_claimHolder run] at foreign
      exact refused_of_ownership taken carries foreign
    refine ⟨fun id changed => ?_, refusal, ?_⟩
    · rw [standing_eq_claimHolder run]
      exact changed_of_ownership taken carries changed
    · rintro fresh later claim earlier rfl issues superseded
      refine refused_of_ownership taken carries ?_
      exact run.holder_ne_of_superseded jobSystem_follows issues (issued_nodup fresh _)
        superseded
  · refine path.invariant
      (fun state => ∃ kept, state.jobs.find id = some kept ∧ kept.status = row.status)
      ?_ ⟨row, found, rfl⟩
    rintro state step after ⟨kept, here, same⟩ moved
    obtain ⟨last, there, still⟩ := terminal_kept moved here (same ▸ terminal)
    exact ⟨last, there, still.trans same⟩

/-- A store without rows. -/
def OperationalStore.empty : OperationalStore :=
  { jobs := .empty, leases := .empty, workers := .empty }

/-- The first claim on the job below. -/
def firstClaim : JobCall :=
  .claimNext none { workerId := "first", repoId := "repo", ttlMs := some 1000 } "earlier"
    Date.epoch

/-- A job whose first claim expired and was taken back, and which another worker claimed. -/
def claimedAgain : List JobCall :=
  let job : CreateJobInput :=
    { id := "job", runId := "run", repoId := "repo", issueNumber := 1, createdAt := Date.epoch }
  let late : Date := .fiveSeconds
  [
    .claimNext none { workerId := "second", repoId := "repo" } "later" late,
    .reclaimExpiredClaim { repoId := "repo", runId := "run", now := late } (.ok ()),
    firstClaim,
    .enqueue (fun _ => true) job
  ]

/-- The run of some operations from the empty store. -/
def jobRun (calls : List JobCall) : List JobStep × OperationalStore :=
  performAll JobCall.stepWithStore .empty calls

theorem run_jobRun (calls : List JobCall)
    : jobSystem.Run (jobRun calls).1 (jobRun calls).2 :=
  System.run_performAll (by simp [OperationalStore.empty, Table.empty]) calls

/-- The first worker cannot finish the job that the second one claimed. -/
theorem job_claims_are_fenced_claimedAgain
    : let store := (jobRun claimedAgain).2
      let finish := JobCall.markSucceeded
        { jobId := "job", workerId := "first", claimToken := "earlier" } ⟨6000, by decide⟩
      (finish.step store).refused = true ∧ (finish.step store).after = store := by
  intro store finish
  let before := jobRun (claimedAgain.drop 3)
  have taken : jobSystem.step store (finish.step store) (finish.step store).after :=
    ⟨finish, rfl⟩
  have fenced := (job_claims_are_fenced (run_jobRun claimedAgain) taken).1
    { jobId := "job", workerId := "first", claimToken := "earlier" }
    (by rw [JobCall.call_step]; rfl)
  have fresh : (claimTokens (jobRun claimedAgain).1).Nodup := by
    have tokens : claimTokens (jobRun claimedAgain).1 = ["later", "earlier"] := rfl
    simp [tokens]
  refine fenced.2.2 fresh ((jobRun claimedAgain).1.take 2) (firstClaim.step before.2) before.1
    rfl rfl ?_
  refine ⟨_, List.mem_cons_self, fun kept => ?_⟩
  have claimed : Change.issue (⟨"job", "second", "later"⟩ : JobOwnership) = .keep := kept
  contradiction

end AiSdlc.Sqlite
