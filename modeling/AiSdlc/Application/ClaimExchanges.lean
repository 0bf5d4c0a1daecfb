import AiSdlc.Application.ClaimedJob

/-! What each exchange of a worker does to the stores around it. All but those
that take the lease and mark the worker busy are steps that another actor could take as well.
-/

namespace AiSdlc.Application

open Relation
open AiSdlc.Js
open AiSdlc.Domain
open AiSdlc.Async
open AiSdlc.Sqlite
open JobQueueRepository

section Operations

variable {jobs next : JobTable} {owner : JobOwnership} {transition : Job → JobChecked Job}

/-- A transition that ends the job, or takes its claim off. -/
def Settling (transition : Job → JobChecked Job) : Prop :=
  ∀ job updated, transition job = .ok updated →
    updated.id = job.id ∧ (updated.status.isTerminal = true ∨ Unclaimed updated)

/-- What a transition throws is an error of its own. -/
def Stating (transition : Job → JobChecked Job) : Prop :=
  ∀ job error, transition job = .error error → ∃ message, error = .state message

theorem settling_of_frees (frees : Frees transition) : Settling transition := by
  intro job updated moved
  obtain ⟨sameId, -, unclaimed⟩ := frees job updated moved
  exact ⟨sameId, .inr unclaimed⟩

theorem settling_terminate {status : JobStatus} {now : Date}
    (terminal : status.isTerminal = true)
    : Settling (terminate · status now) := by
  intro job updated moved
  simp only [terminate] at moved
  split at moved
  · contradiction
  · cases moved
    exact ⟨rfl, .inl terminal⟩

theorem stating_terminate {status : JobStatus} {now : Date}
    : Stating (terminate · status now) := by
  intro job error moved
  simp only [terminate] at moved
  split at moved
  · cases moved
    exact ⟨_, rfl⟩
  · contradiction

theorem stating_unclaim : Stating unclaimJob := by
  intro job error moved
  unfold unclaimJob at moved
  split at moved
  · cases moved
    exact ⟨_, rfl⟩
  · contradiction

theorem stating_reset : Stating resetJobToQueued := by
  intro job error moved
  unfold resetJobToQueued at moved
  split at moved
  · cases moved
    exact ⟨_, rfl⟩
  · contradiction

theorem not_claimStands_of_settling {store : OperationalStore} (settling : Settling transition)
    (updates : updateJobWithOwnership jobs owner transition = .ok next)
    (written : store.jobs = next)
    : ¬ClaimStands store owner := by
  obtain ⟨row, updated, -, -, moved, rows⟩ := updateJobWithOwnership_eq_ok
    (fun job updated moved => (settling job updated moved).1) updates
  rintro ⟨last, found, owned, unfinished⟩
  rw [written, rows owner.jobId, if_pos rfl] at found
  cases found
  rcases (settling row updated moved).2 with terminal | unclaimed
  · have ended : (writeRow updated row).status.isTerminal = true := terminal
    rw [ended] at unfinished
    contradiction
  · have worker : updated.claimedBy = some owner.workerId := (owns_iff.mp owned).2.1
    rw [unclaimed.1] at worker
    contradiction

/-- The queue reports a lost claim only where the claim does not stand. -/
theorem not_claimStands_of_lost {store : OperationalStore} {id : JobId}
    (keepsId : ∀ job updated, transition job = .ok updated → updated.id = job.id)
    (stating : Stating transition)
    (refuses
      : updateJobWithOwnership store.jobs owner transition = .error (.ownershipLost id))
    : ¬ClaimStands store owner := by
  rintro ⟨row, found, owned, -⟩
  have member : row ∈ store.jobs.rows := Table.mem_of_findKey found
  unfold updateJobWithOwnership at refuses
  split at refuses
  · rename_i absent
    exact absurd owned (by simpa using List.find?_eq_none.mp absent row member)
  rename_i other located
  cases read : toJob other with
  | error error =>
      rw [read] at refuses
      cases refuses
      unfold toJob at read
      grind
  | ok job =>
      obtain rfl := toJob_eq_ok read
      rw [read] at refuses
      cases moved : transition job with
      | error error =>
          obtain ⟨message, rfl⟩ := stating job error moved
          simp [moved, bind, Except.bind] at refuses
      | ok updated =>
          have here : owns { owner with jobId := updated.id } job = true := by
            have held := owns_iff.mp (List.find?_some located)
            exact owns_iff.mpr ⟨(keepsId job updated moved).symm, held.2⟩
          have any : store.jobs.rows.any (owns { owner with jobId := updated.id }) = true :=
            List.any_eq_true.mpr ⟨job, List.mem_of_find?_eq_some located, here⟩
          simp [moved, bind, Except.bind, any] at refuses

end Operations

namespace ClaimedJob

section Exchanges

variable {state next : ClaimedJobState}

theorem JobAnswers.store {queues : Bool} {outcome : JobChecked JobTable}
    {reply : Except WorkerError Unit} (answered : JobAnswers state queues outcome reply next)
    (call : JobCall) (performs : call.perform state.store = state.store.withJobs outcome)
    : next.store = (call.step state.store).after := by
  unfold JobCall.step
  rw [performs]
  unfold JobAnswers at answered
  split at answered
  · obtain ⟨-, rfl⟩ := answered
    rfl
  · obtain ⟨-, rfl⟩ := answered
    rfl
  · obtain ⟨-, rfl⟩ := answered
    rfl

/-- An operation of an owner keeps what has happened, and adds that a job was given back. -/
theorem JobAnswers.kept {queues : Bool} {outcome : JobChecked JobTable}
    {reply : Except WorkerError Unit} (answered : JobAnswers state queues outcome reply next)
    : next.leaseToken = state.leaseToken ∧ next.graceExpired = state.graceExpired
      ∧ next.leaseLost = state.leaseLost ∧ next.completed = state.completed := by
  unfold JobAnswers at answered
  split at answered
  · obtain ⟨-, rfl⟩ := answered
    exact ⟨rfl, rfl, rfl, rfl⟩
  · obtain ⟨-, rfl⟩ := answered
    exact ⟨rfl, rfl, rfl, rfl⟩
  · obtain ⟨-, rfl⟩ := answered
    exact ⟨rfl, rfl, rfl, rfl⟩

theorem RegistryAnswers.marks {outcome : Except String WorkerTable}
    {reply : Except WorkerError Unit} (answered : RegistryAnswers state outcome reply next)
    : (∃ workers, outcome = .ok workers
        ∧ next = { state with store := { state.store with workers } })
      ∨ next = state := by
  unfold RegistryAnswers at answered
  split at answered
  · exact .inl ⟨_, rfl, answered.2⟩
  · exact .inr answered.2

theorem RegistryAnswers.marked {outcome : Except String WorkerTable}
    (answered : RegistryAnswers state outcome (.ok ()) next)
    : ∃ workers, outcome = .ok workers ∧ next.store.workers = workers := by
  unfold RegistryAnswers at answered
  split at answered
  · obtain ⟨-, rfl⟩ := answered
    exact ⟨_, rfl, rfl⟩
  · obtain ⟨refused, -⟩ := answered
    contradiction

theorem ReleaseAnswers.releases {input : ReleaseLeaseInput} {reply : Except WorkerError Unit}
    (answered : ReleaseAnswers state
      (WorkerLeaseRepository.release state.store.leases input) reply next)
    : next = {
        state with
        store := {
          state.store with
          leases := ((LeaseCall.release input).step state.store.leases).2
        }
      } := by
  simp only [LeaseCall.step, LeaseCall.perform]
  unfold ReleaseAnswers at answered
  generalize WorkerLeaseRepository.release state.store.leases input = outcome at answered ⊢
  cases outcome with
  | ok leases => exact answered.2
  | error error => cases error <;> exact answered.2

end Exchanges

/-- The exchanges that are followed by themselves: they take the lease or the worker, or may
throw anything.
-/
def Apart : WorkerRequest → Prop
  | .acquireLease _ | .markBusy _ _ | .notify _ => True
  | _ => False

/-- What every other exchange keeps, with the steps of the other actors before it. -/
structure Follows (deps : WorkerLoopDeps) (owner : JobOwnership)
    (state next : ClaimedJobState)
    : Prop where
  stores : Undisturbed owner deps.repoId state.leaseToken state.store
    next.store
  leaseToken : next.leaseToken = state.leaseToken
  graceExpired : state.graceExpired = true → next.graceExpired = true
  leaseLost : state.leaseLost = true → next.leaseLost = true
  completed : state.completed = true → next.completed = true

section Follows

variable {deps : WorkerLoopDeps} {owner : JobOwnership} {state next : ClaimedJobState}

/-- A step of the stores, beside which nothing has happened. -/
theorem Follows.of_store
    (stores : Undisturbed owner deps.repoId state.leaseToken state.store
      next.store)
    (kept : next.leaseToken = state.leaseToken ∧ next.graceExpired = state.graceExpired
      ∧ next.leaseLost = state.leaseLost ∧ next.completed = state.completed)
    : Follows deps owner state next := by
  obtain ⟨token, grace, lost, completed⟩ := kept
  exact ⟨stores, token, fun holds => grace ▸ holds, fun holds => lost ▸ holds,
    fun holds => completed ▸ holds⟩

theorem Follows.refl : Follows deps owner state state :=
  .of_store .refl ⟨rfl, rfl, rfl, rfl⟩

/-- The steps of the other actors come before the exchange. -/
theorem Follows.after {store : OperationalStore}
    (earlier : Undisturbed owner deps.repoId state.leaseToken state.store
      store)
    (follows : Follows deps owner { state with store } next)
    : Follows deps owner state next :=
  ⟨earlier.trans follows.stores, follows.leaseToken, follows.graceExpired, follows.leaseLost,
    follows.completed⟩

theorem JobAnswers.follows {queues : Bool} {outcome : JobChecked JobTable}
    {reply : Except WorkerError Unit} (answered : JobAnswers state queues outcome reply next)
    (call : JobCall) (performs : call.perform state.store = state.store.withJobs outcome)
    (onJobs : ∀ leases workers, call ≠ .other leases workers)
    (fresh : ∀ scope input now, call ≠ .claimNext scope input owner.claimToken now)
    : Follows deps owner state next := by
  refine .of_store ?_ answered.kept
  rw [answered.store call performs]
  exact Interferes.undisturbed (.job call onJobs fresh)

theorem RegistryAnswers.follows {outcome : Except String WorkerTable} {id : WorkerId}
    {repoId : RepositoryId} {mark : Worker → Worker} {reply : Except WorkerError Unit}
    (marked : outcome = WorkerRegistryRepository.updateStatus state.store.workers id repoId mark)
    (quiet : ∀ worker, (mark worker).status ≠ .busy)
    (answered : RegistryAnswers state outcome reply next)
    : Follows deps owner state next := by
  rcases answered.marks with ⟨workers, written, rfl⟩ | rfl
  · refine .of_store (Interferes.undisturbed (.workers workers fun busy => ?_))
      ⟨rfl, rfl, rfl, rfl⟩
    exact WorkerRegistryRepository.isBusy_of_updateStatus (fun worker _ => quiet worker)
      (marked.symm.trans written) busy
  · exact .refl

/-- Every other exchange keeps all this, by cases on the request. -/
theorem follows_of_storeAnswers {request : WorkerRequest} {reply : request.Reply}
    (quiet : ¬Apart request) (answered : StoreAnswers state request reply next)
    : Follows deps owner state next := by
  cases request with
  | acquireLease | markBusy | notify => exact absurd trivial quiet
  | now | prepareWorktree =>
      obtain ⟨-, rfl⟩ := answered
      exact .refl
  | getAbortReason =>
      cases answered
      exact ⟨.refl, rfl, id, fun lost => by simp [lost], id⟩
  | executeRun input =>
      obtain ⟨race, -, rfl⟩ := answered
      exact ⟨.refl, rfl, fun grace => by simp [grace], id, fun completed => by simp [completed]⟩
  | releaseLease input =>
      rw [ReleaseAnswers.releases answered]
      exact .of_store (Interferes.undisturbed (.lease (.release input) (by simp)))
        ⟨rfl, rfl, rfl, rfl⟩
  | markJobRunning taken now =>
      exact JobAnswers.follows answered (.markRunning taken now) rfl (by simp) (by simp)
  | markJobSucceeded taken now =>
      exact JobAnswers.follows answered (.markSucceeded taken now) rfl (by simp) (by simp)
  | markJobCancelled taken now =>
      exact JobAnswers.follows answered (.markCancelled taken now) rfl (by simp) (by simp)
  | markJobFailed taken now =>
      exact JobAnswers.follows answered (.markFailed taken now) rfl (by simp) (by simp)
  | resetJobToQueued taken =>
      exact JobAnswers.follows answered (.resetToQueued taken) rfl (by simp) (by simp)
  | releaseClaim taken =>
      exact JobAnswers.follows answered (.releaseClaim taken) rfl (by simp) (by simp)
  | findWorker id repoId =>
      obtain ⟨-, rfl⟩ := answered
      exact .refl
  | markIdle id repoId =>
      exact RegistryAnswers.follows rfl
        (fun _ => WorkerRegistryRepository.markWorkerIdle_status) answered
  | markStopping id repoId =>
      exact RegistryAnswers.follows rfl (fun _ => by simp [markWorkerStopping]) answered
  | outerAborted | abort | signalAborted | handlePreparationFailure | findRun | updateRun
    | markUnreachable | stopping =>
      cases answered
      exact .refl

/-- So does it with the steps of the other actors before it. -/
theorem follows_of_answers {request : WorkerRequest} {reply : request.Reply}
    (quiet : ¬Apart request)
    (answered : Answers owner.workerId deps.repoId owner.claimToken state request reply next)
    : Follows deps owner state next := by
  obtain ⟨store, others, replied⟩ := answered
  exact .after (undisturbed_of_interferes others) (follows_of_storeAnswers quiet replied)

end Follows

end ClaimedJob

end AiSdlc.Application
