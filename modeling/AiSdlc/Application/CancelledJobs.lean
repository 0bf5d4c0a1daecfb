import AiSdlc.Async.Beside
import AiSdlc.Application.CancelRun
import AiSdlc.Sqlite.JobTransitions

/-! The cancellation beside other actors, which perform any operations on the jobs before each
of its calls. A job that is listed under a claim is reconciled only while that claim stands, so
one whose claim was released, reset or taken anew in between stays active.
-/

namespace AiSdlc.Application

open AiSdlc.Js
open AiSdlc.Domain
open AiSdlc.Async
open AiSdlc.Sqlite
open AiSdlc.Transition
open JobQueueRepository

/-- The stores, the ids of the jobs that the run had when its status became cancelled, the lease
that the cancellation read, and the leases that it removed.
-/
structure Cancelling where
  store : OperationalStore
  runs : RunTable
  existing : Option (List JobId) := none
  read : Option WorkerLease := none
  removed : List WorkerLease := []

/-- The state after operations of other actors, which may also write the runs. -/
def Cancelling.Others (state between : Cancelling) : Prop :=
  ∃ steps store runs, jobSystem.Path state.store steps store
    ∧ between = { state with store, runs }

/-- The ids of the jobs of a run. -/
def jobsOf (jobs : JobTable) (runId : RunId) : List JobId :=
  (jobs.rows.filter fun job => job.runId = runId).map Job.id

/-- The leases that a table has no more. -/
def removedLeases (leases next : LeaseTable) : List WorkerLease :=
  leases.rows.filter fun lease => lease ∉ next.rows

/-- The replies of the stores, whose only errors are those of lost ownership, and the free
replies of the other ports. The queue and the runs are bound to no repository.
-/
def Cancelling.Replies (state : Cancelling)
    : (request : CancelRequest) → request.Reply → Cancelling → Prop
  | .now, .ok _, after => after = state
  | .findByUuid runId, .ok found, after =>
      found = RunRepository.findByUuid none state.runs runId ∧ after = state
  | .atomicUpdateByUuid runId patch expected, .ok updated, after =>
      ∃ runs, RunRepository.atomicUpdateByUuid state.runs runId patch expected = (updated, runs)
        ∧ after = {
          state with
          runs
          existing := if updated then some (jobsOf state.store.jobs runId) else state.existing
        }
  | .listForRun runId, .ok jobs, after =>
      JobQueueRepository.listForRun none state.store.jobs runId = .ok jobs ∧ after = state
  | .reconcileTerminalJob input, reply, after =>
      match JobQueueRepository.reconcileTerminalJob none state.store.jobs input with
      | .ok (result, jobs) =>
          reply = .ok result ∧ after = { state with store := { state.store with jobs } }
      | .error error => reply = .error (.job error) ∧ after = state
  | .currentLease repoId, .ok lease, after =>
      lease = WorkerLeaseRepository.current state.store.leases repoId
      ∧ after = { state with read := lease }
  | .releaseLease input, reply, after =>
      match WorkerLeaseRepository.release state.store.leases input with
      | .ok leases =>
          reply = .ok ()
          ∧ after = {
            state with
            store := { state.store with leases }
            removed := state.removed ++ removedLeases state.store.leases leases
          }
      | .error error => reply = .error (.lease error) ∧ after = state
  | .now, .error _, _ | .findByUuid _, .error _, _ | .atomicUpdateByUuid _ _ _, .error _, _
  | .listForRun _, .error _, _ | .currentLease _, .error _, _ => False
  | .publish _ _, _, after | .abort _, _, after | .unregister _, _, after
  | .findCwd _, _, after | .headCommitShaOf _, _, after | .headCommitSha _, _, after
  | .resetHard _ _, _, after | .cleanUntracked _, _, after => after = state

/-- The cancellation beside other actors, where its calls meet a condition on the state that
they find.
-/
def Cancelling.Beside (condition : Cancelling → CancelRequest → Bool)
    : Environment Cancelling CancelRequest CancelRequest.Reply :=
  beside Cancelling.Others fun between request reply after =>
    condition between request = true ∧ between.Replies request reply after

/-- A reconciliation for an owner finds the job finished, or still under that owner's claim. -/
def Cancelling.claimStands (state : Cancelling) : CancelRequest → Bool
  | .reconcileTerminalJob input =>
      input.owner.all fun owner =>
        (state.store.jobs.find input.jobId).any fun row =>
          row.status.isTerminal
          || (row.claimedBy = some owner.workerId && row.claimToken = some owner.claimToken)
  | _ => true

/-- Every job that the run had when it became cancelled is finished, and every lease that was
removed was one of this run under the token that was read.
-/
structure Cancelling.Settled (runId : RunId) (state : Cancelling) : Prop where
  jobs
    : ∃ existing, state.existing = some existing ∧ ∀ id ∈ existing, ∃ row,
        state.store.jobs.find id = some row ∧ row.status.isTerminal = true
  leases
    : ∀ lease ∈ state.removed, lease.runId = runId
        ∧ ∃ read, state.read = some read ∧ lease.leaseToken = read.leaseToken

section Jobs

variable {store next : OperationalStore} {id : JobId} {row : Job}

/-- A job of a run that is finished, or still to be reconciled. -/
def Accounted (store : OperationalStore) (runId : RunId) (pending : JobId → Prop) (id : JobId)
    : Prop :=
  ∃ row, store.jobs.find id = some row ∧ row.runId = runId
    ∧ (row.status.isTerminal = true ∨ pending id)

/-- An operation keeps jobs accounted: a finished one keeps its status. -/
theorem Accounted.step {runId : RunId} {pending : JobId → Prop} {step : JobStep}
    (accounted : Accounted store runId pending id) (taken : jobSystem.step store step next)
    : Accounted next runId pending id := by
  obtain ⟨row, found, same, state⟩ := accounted
  have stays : ∃ kept, next.jobs.find id = some kept ∧ kept.runId = row.runId := by
    obtain ⟨call, labelled⟩ := taken
    obtain ⟨rfl, rfl⟩ := Prod.mk.inj labelled
    unfold JobCall.step
    cases performed : call.perform store with
    | error error => exact ⟨row, found, rfl⟩
    | ok done => exact JobCall.run_kept performed found
  obtain ⟨kept, there, sameRun⟩ := stays
  refine ⟨kept, there, sameRun.trans same, ?_⟩
  rcases state with terminal | pending
  · obtain ⟨finished, here, status⟩ := terminal_kept taken found terminal
    obtain rfl := Option.some.inj (there.symm.trans here)
    exact .inl (status ▸ terminal)
  · exact .inr pending

end Jobs

/-- All jobs that the run had when it became cancelled are accounted. -/
def Cancelling.Pending (runId : RunId) (pending : JobId → Prop) (state : Cancelling) : Prop :=
  ∃ existing, state.existing = some existing
    ∧ ∀ id ∈ existing, Accounted state.store runId pending id

section States

variable {state between after : Cancelling} {runId : RunId} {pending : JobId → Prop}

theorem unaffected_pending
    : Unaffected Cancelling.Others (Cancelling.Pending runId pending) := by
  rintro state between ⟨steps, store, runs, path, rfl⟩ ⟨existing, same, each⟩
  refine ⟨existing, same, fun id held => ?_⟩
  exact path.invariant (fun store => Accounted store runId pending id)
    (fun _ _ _ accounted taken => accounted.step taken) (each id held)

theorem unaffected_removed (condition : List WorkerLease → Option WorkerLease → Prop)
    : Unaffected Cancelling.Others fun state => condition state.removed state.read := by
  rintro state between ⟨steps, store, runs, path, rfl⟩ holds
  exact holds

/-- The calls that read and write nothing that the results speak about. -/
def CancelRequest.IsCalm : CancelRequest → Prop
  | .atomicUpdateByUuid _ _ _ | .reconcileTerminalJob _ | .currentLease _ | .releaseLease _ =>
      False
  | _ => True

theorem Cancelling.Replies.calm {request : CancelRequest} {reply : request.Reply}
    (replied : Cancelling.Replies state request reply after) (calm : request.IsCalm)
    : after = state := by
  cases request with
  | now | findByUuid | listForRun =>
      cases reply with
      | error error => exact replied.elim
      | ok answer => first | exact replied | exact replied.2
  | publish | abort | unregister | findCwd | headCommitShaOf | headCommitSha | resetHard
  | cleanUntracked => exact replied
  | atomicUpdateByUuid | reconcileTerminalJob | currentLease | releaseLease => exact calm.elim

end States

section Statements

open CancelRun

variable {condition : Cancelling → CancelRequest → Bool} {before after exit : Cancelling → Prop}
  {invariant : Cancelling → Prop} {α : Type} {deps : CancelRunDeps} {input : CancelRunInput}
  {run : Run}

theorem leads_calm {request : CancelRequest} (calm : request.IsCalm)
    (unaffected : Unaffected Cancelling.Others invariant)
    : (CancelRun.call request).Leads (Cancelling.Beside condition) invariant invariant
        invariant := by
  refine Block.leads_call unaffected ?_ ?_
  · intro between next answer holds replied
    exact replied.2.calm calm ▸ holds
  · intro between next error holds replied
    exact replied.2.calm calm ▸ holds

theorem leads_bestEffort {statements : CancelStatements Unit}
    (leads : statements.Leads (Cancelling.Beside condition) before after after)
    : (bestEffort statements).Leads (Cancelling.Beside condition) before after exit :=
  Block.leads_attempt leads fun _ => fun _ _ holds => holds

/-- What no calm call changes, the agent and the worktree leave alone. -/
theorem leads_abortAgent (unaffected : Unaffected Cancelling.Others invariant)
    : (abortAgent input).Leads (Cancelling.Beside condition) invariant invariant exit := by
  refine Block.keeps_bind (leads_bestEffort ?_) fun _ => leads_bestEffort ?_
  · refine Block.keeps_bind (leads_calm trivial unaffected) fun abortRes => ?_
    exact Block.keeps_assign fun _ _ holds => holds
  · exact leads_calm trivial unaffected

theorem leads_resetWorktree (unaffected : Unaffected Cancelling.Others invariant)
    : (resetWorktree input).Leads (Cancelling.Beside condition) invariant invariant exit := by
  refine Block.keeps_bind Block.keeps_locals fun locals => Block.keeps_ifThen fun _ => ?_
  apply leads_bestEffort
  refine Block.keeps_bind (leads_calm trivial unaffected) fun cwd => ?_
  refine Block.keeps_bind (leads_calm trivial unaffected) fun own => ?_
  refine Block.keeps_bind ?_ fun branchSha => ?_
  · cases own with
    | some branchSha => exact Block.keeps_pure
    | none => exact leads_calm trivial unaffected
  refine Block.keeps_bind (Block.keeps_assign fun _ _ holds => holds) fun _ => ?_
  refine Block.keeps_bind ?_ fun _ => ?_
  · exact Block.keeps_ifThen fun _ => leads_calm trivial unaffected
  refine Block.keeps_bind (leads_calm trivial unaffected) fun _ => ?_
  exact Block.keeps_assign fun _ _ holds => holds

/-- What is known before a job is reconciled, with the jobs that were listed after it. -/
def Awaiting (runId : RunId) (jobs : List Job) (state : Cancelling) : Prop :=
  state.Pending runId (fun id => ∃ job ∈ jobs, job.id = id) ∧ state.removed = []

theorem unaffected_awaiting {runId : RunId} {jobs : List Job}
    : Unaffected Cancelling.Others (Awaiting runId jobs) :=
  unaffected_pending.and (unaffected_removed fun removed _ => removed = [])

/-- A reconciliation whose claim stands finishes its job, and leaves the rest to do. -/
theorem leads_reconcile {runId : RunId} {job : Job} {rest : List Job} {reconciledAt : Date}
    : (CancelRun.call (.reconcileTerminalJob (reconcileInput job reconciledAt))).Leads
        (Cancelling.Beside Cancelling.claimStands) (Awaiting runId (job :: rest))
        (Awaiting runId rest) (Awaiting runId rest) := by
  have finishes (between next : Cancelling)
      (reply : (CancelRequest.reconcileTerminalJob (reconcileInput job reconciledAt)).Reply)
      (awaiting : Awaiting runId (job :: rest) between)
      (stands
        : between.claimStands (.reconcileTerminalJob (reconcileInput job reconciledAt)) = true)
      (replied
        : between.Replies (.reconcileTerminalJob (reconcileInput job reconciledAt)) reply next)
      : Awaiting runId rest next := by
    obtain ⟨⟨existing, same, each⟩, quiet⟩ := awaiting
    have claimed (owner : JobOwnership) (given : ownerOf job = some owner)
        : ∃ row, between.store.jobs.find job.id = some row
          ∧ (row.status.isTerminal = true
            ∨ row.claimedBy = some owner.workerId ∧ row.claimToken = some owner.claimToken) := by
      simp only [Cancelling.claimStands, Option.all_eq_true] at stands
      simpa [reconcileInput, Option.any_eq_true] using stands owner given
    have unconditional : (reconcileInput job reconciledAt).expectedStatus = none := rfl
    obtain ⟨result, jobs, reconciles, here, others⟩ :=
      reconcileTerminalJob_of_stands unconditional claimed
    simp only [Cancelling.Replies, reconciles] at replied
    obtain ⟨-, rfl⟩ := replied
    refine ⟨⟨existing, same, fun id held => ?_⟩, quiet⟩
    obtain ⟨row, found, sameRun, state⟩ := each id held
    by_cases this : id = job.id
    · subst this
      obtain ⟨finished, there, kept, terminal⟩ := here row found
      exact ⟨finished, there, kept.trans sameRun, .inl terminal⟩
    · refine ⟨row, (others id this).trans found, sameRun, state.imp_right ?_⟩
      rintro ⟨listed, member, rfl⟩
      rcases List.mem_cons.mp member with rfl | member
      · exact absurd rfl this
      · exact ⟨listed, member, rfl⟩
  refine Block.leads_call unaffected_awaiting ?_ ?_
  · intro between next answer awaiting replied
    exact finishes between next _ awaiting replied.1 replied.2
  · intro between next error awaiting replied
    exact finishes between next _ awaiting replied.1 replied.2

theorem leads_now (unaffected : Unaffected Cancelling.Others before)
    : (CancelRun.call .now).Leads (Cancelling.Beside condition) before before exit := by
  refine Block.leads_call unaffected ?_ ?_
  · intro between next answer holds replied
    exact replied.2 ▸ holds
  · intro between next error holds replied
    exact replied.2.elim

theorem leads_reconcileJob {runId : RunId} {job : Job} {rest : List Job}
    : (reconcileJob deps input run job).Leads (Cancelling.Beside Cancelling.claimStands)
        (Awaiting runId (job :: rest)) (Awaiting runId rest) exit := by
  apply leads_bestEffort
  refine Block.triple_bind (leads_now unaffected_awaiting) fun reconciledAt => ?_
  refine Block.triple_bind leads_reconcile fun res => Block.keeps_ifThen fun _ => ?_
  refine Block.keeps_bind (leads_now unaffected_awaiting) fun publishedAt => ?_
  exact leads_calm trivial unaffected_awaiting

theorem lists_awaiting {runId : RunId} {state : Cancelling} {jobs : List Job}
    (pending : state.Pending runId fun _ => True) (quiet : state.removed = [])
    (lists : JobQueueRepository.listForRun none state.store.jobs runId = .ok jobs)
    : Awaiting runId (jobs.filter Job.isActive) state := by
  obtain ⟨existing, same, each⟩ := pending
  refine ⟨⟨existing, same, fun id held => ?_⟩, quiet⟩
  obtain ⟨row, found, sameRun, -⟩ := each id held
  refine ⟨row, found, sameRun, ?_⟩
  cases active : row.isActive with
  | false =>
      rw [isActive_eq] at active
      exact .inl (by simpa using active)
  | true =>
      refine .inr ⟨row, List.mem_filter.mpr ⟨?_, active⟩, JobTable.id_of_find found⟩
      rw [listForRun_eq_ok lists]
      simpa [sameRun] using Table.mem_of_findKey found

/-- The state once the status is written: the jobs that the run has are still to be listed. -/
def Written (runId : RunId) (state : Cancelling) : Prop :=
  state.Pending runId (fun _ => True) ∧ state.removed = []

theorem unaffected_written {runId : RunId}
    : Unaffected Cancelling.Others (Written runId) :=
  unaffected_pending.and (unaffected_removed fun removed _ => removed = [])

theorem leads_reconcileJobs (configured : deps.queue = true)
    : (reconcileJobs deps input run).Leads (Cancelling.Beside Cancelling.claimStands)
        (Written input.runId) (Awaiting input.runId []) exit := by
  unfold reconcileJobs
  rw [configured]
  apply leads_bestEffort
  refine Block.leads_call_then (fun jobs =>
    Awaiting input.runId (List.filter Job.isActive jobs)) unaffected_written ?_ ?_ fun jobs => ?_
  · rintro between reached jobs written ⟨-, lists, rfl⟩
    exact lists_awaiting written.1 written.2 lists
  · intro between reached error written replied
    exact replied.2.elim
  · exact Block.triple_forEach (fun jobs _ => Awaiting input.runId jobs)
      fun job rest => leads_reconcileJob

theorem removed_of_release {leases next : LeaseTable} {release : ReleaseLeaseInput}
    (releases : WorkerLeaseRepository.release leases release = .ok next) {lease : WorkerLease}
    (removed : lease ∈ removedLeases leases next)
    : lease.runId = release.runId ∧ lease.leaseToken = release.leaseToken := by
  unfold WorkerLeaseRepository.release at releases
  dsimp only at releases
  split at releases
  · obtain rfl := Except.ok.inj releases
    obtain ⟨held, missing⟩ := List.mem_filter.mp removed
    have fence : WorkerLeaseRepository.fenced release.repoId release.workerId release.runId
        release.leaseToken lease = true := by
      simpa [Table.mem_delete, held] using missing
    obtain ⟨-, -, run, token⟩ := WorkerLeaseRepository.fenced_iff.mp fence
    exact ⟨run, token⟩
  · contradiction

theorem settled_of_awaiting {runId : RunId} {state : Cancelling}
    (awaiting : Awaiting runId [] state)
    : state.Settled runId := by
  obtain ⟨⟨existing, same, each⟩, quiet⟩ := awaiting
  refine ⟨⟨existing, same, fun id held => ?_⟩, fun lease removed => ?_⟩
  · obtain ⟨row, found, -, terminal | ⟨job, member, -⟩⟩ := each id held
    · exact ⟨row, found, terminal⟩
    · exact absurd member List.not_mem_nil
  · rw [quiet] at removed
    exact absurd removed List.not_mem_nil

/-- The lease is released under the token that was read, and only where it is this run's. -/
theorem leads_releaseLease
    : (releaseLease input run).Leads (Cancelling.Beside condition) (Awaiting input.runId [])
        (Cancelling.Settled input.runId) exit := by
  apply leads_bestEffort
  refine Block.leads_call_then (fun current state =>
    Awaiting input.runId [] state ∧ state.read = current) unaffected_awaiting ?_ ?_ fun current =>
      ?_
  · rintro between reached current awaiting ⟨-, rfl, rfl⟩
    exact ⟨awaiting, rfl⟩
  · intro between reached error awaiting replied
    exact replied.2.elim
  cases current with
  | none => exact fun _ _ holds => settled_of_awaiting holds.1
  | some lease =>
      have unaffected : Unaffected Cancelling.Others fun state =>
          Awaiting input.runId [] state ∧ state.read = some lease :=
        unaffected_awaiting.and (unaffected_removed fun _ read => read = some lease)
      by_cases own : lease.runId = input.runId
      · simp only [own, decide_true]
        refine Block.leads_call unaffected ?_ ?_
        · rintro between next answer ⟨awaiting, read⟩ ⟨-, replied⟩
          have settled := settled_of_awaiting awaiting
          simp only [Cancelling.Replies] at replied
          split at replied
          next leases releases =>
            obtain ⟨-, rfl⟩ := replied
            refine ⟨settled.jobs, fun removed held => ?_⟩
            dsimp only at held
            rw [awaiting.2, List.nil_append] at held
            obtain ⟨run, token⟩ := removed_of_release releases held
            exact ⟨run.trans own, lease, read, token⟩
          next => exact nomatch replied.1
        · rintro between next error ⟨awaiting, read⟩ ⟨-, replied⟩
          simp only [Cancelling.Replies] at replied
          split at replied
          next => exact nomatch replied.1
          next => exact replied.2 ▸ settled_of_awaiting awaiting
      · simp only [own, decide_false]
        exact fun _ _ holds => settled_of_awaiting holds.1

theorem leads_check {checked : Except String α}
    : (check checked).Leads (Cancelling.Beside condition) invariant invariant
        fun _ => True := by
  cases checked with
  | ok value => exact Block.keeps_pure
  | error message => exact fun _ _ _ => trivial

/-- The status is written where the jobs of the run are noted. -/
theorem leads_persistCancelled
    : (persistCancelled input).Leads (Cancelling.Beside condition)
        (fun state => state.removed = []) (Written input.runId) fun _ => True := by
  have quiet : Unaffected Cancelling.Others fun state => state.removed = [] :=
    unaffected_removed fun removed _ => removed = []
  have asks {request : CancelRequest} (calm : request.IsCalm)
      : (CancelRun.call request).Leads (Cancelling.Beside condition)
          (fun state => state.removed = []) (fun state => state.removed = []) fun _ => True :=
    (leads_calm calm quiet).mono (fun _ _ holds => holds) (fun _ _ holds => holds)
      fun _ _ _ => trivial
  refine Block.triple_bind (asks trivial) fun found => ?_
  cases found with
  | none => exact fun _ _ _ => trivial
  | some run =>
      refine Block.triple_bind (asks trivial) fun cancelledAt => ?_
      refine Block.triple_bind leads_check fun cancelled => ?_
      refine Block.leads_call_then (fun updated state =>
        updated = true → Written input.runId state) quiet ?_ ?_ fun updated => ?_
      · rintro between reached updated begins ⟨-, runs, -, rfl⟩ rfl
        refine ⟨⟨_, rfl, fun id held => ?_⟩, begins⟩
        obtain ⟨job, member, rfl⟩ := List.mem_map.mp held
        obtain ⟨stored, same⟩ := List.mem_filter.mp member
        exact ⟨job, Table.findKey_of_mem jobSchema_keyed stored, by simpa using same,
          .inr trivial⟩
      · exact fun _ _ _ _ _ => trivial
      · cases updated with
        | true => exact fun _ _ holds => holds rfl
        | false => exact fun _ _ _ => trivial

/-- The cancellation settles the jobs of its run, whatever other actors do in between, while
the claims that it reconciles under stand.
-/
theorem leads_execute (input : CancelRunInput) (configured : deps.queue = true)
    : (execute deps input).Leads (Cancelling.Beside Cancelling.claimStands)
        (fun state => state.removed = []) (Cancelling.Settled input.runId) fun _ => True := by
  refine Block.triple_bind leads_persistCancelled fun (run, cancelled) => ?_
  refine Block.triple_bind (leads_reconcileJobs configured) fun _ => ?_
  refine Block.triple_bind (leads_abortAgent unaffected_awaiting) fun _ => ?_
  refine Block.triple_bind (leads_resetWorktree unaffected_awaiting) fun _ => ?_
  refine Block.triple_bind leads_releaseLease fun _ => ?_
  exact Block.keeps_bind Block.keeps_locals fun _ => Block.keeps_pure

end Statements

/-- When a cancellation returns, beside other actors that perform any operations on the jobs
before each of its calls, every job that the run had when it became cancelled is finished, and
no other lease was removed, as long as each claim that a job was listed under stands until its
turn or the job is finished by then.
-/
theorem cancelled_run_settles_jobs {deps : CancelRunDeps} (configured : deps.queue = true)
    {input : CancelRunInput} {start final : Cancelling} {result : CancelRunResult}
    {locals : CancelLocals} (begins : start.removed = [])
    (execution
      : (CancelRun.execute deps input {}).Exec (Cancelling.Beside Cancelling.claimStands) start
          (.normal result, locals) final)
    : final.Settled input.runId := by
  have whole := leads_execute input configured {} start begins
  unfold Block.Ensures at whole
  exact whole.of_exec execution

-----------------------------------------------------------------------------------------
-- Cancellations of a run with one claimed job
-----------------------------------------------------------------------------------------

def claimedStore : OperationalStore :=
  (jobRun [
    firstClaim,
    .enqueue (fun _ => true)
      { id := "job", runId := "run", repoId := "repo", issueNumber := 1, createdAt := Date.epoch }
  ]).2

def cancellableRun : Run :=
  createRun {
    uuid := "run"
    displayId := "run"
    repoId := "repo"
    issueNumber := 1
    startedAt := Date.epoch
  }

def cancellation : Cancelling :=
  { store := claimedStore, runs := ⟨[cancellableRun], by simp⟩ }

def cancelDeps : CancelRunDeps :=
  { queue := true, eventBus := true }

/-- Answers the calls of the cancellation, in the state that the other actors have left. -/
def cancelReplies (state : Cancelling)
    : (request : CancelRequest) → Option (request.Reply × Cancelling)
  | .now => some (.ok Date.epoch, state)
  | .findByUuid runId => some (.ok (RunRepository.findByUuid none state.runs runId), state)
  | .atomicUpdateByUuid runId patch expected =>
      let (updated, runs) := RunRepository.atomicUpdateByUuid state.runs runId patch expected
      let existing := if updated then some (jobsOf state.store.jobs runId) else state.existing
      some (.ok updated, { state with runs, existing })
  | .listForRun runId =>
      match JobQueueRepository.listForRun none state.store.jobs runId with
      | .ok jobs => some (.ok jobs, state)
      | .error _ => none
  | .reconcileTerminalJob input =>
      match JobQueueRepository.reconcileTerminalJob none state.store.jobs input with
      | .ok (result, jobs) => some (.ok result, { state with store := { state.store with jobs } })
      | .error error => some (.error (.job error), state)
  | .currentLease repoId =>
      let lease := WorkerLeaseRepository.current state.store.leases repoId
      some (.ok lease, { state with read := lease })
  | .abort _ => some (.ok (some .exited), state)
  | .findCwd _ | .headCommitSha _ => some (.ok "text", state)
  | .headCommitShaOf _ => some (.ok (some "text"), state)
  | .publish _ _ | .unregister _ | .resetHard _ _ | .cleanUntracked _ => some (.ok (), state)
  | .releaseLease _ => none

/-- Answers the calls of the cancellation beside other actors, while they meet a condition. -/
def cancelHandler (condition : Cancelling → CancelRequest → Bool)
    (others : CancelRequest → List JobCall) (state : Cancelling) (request : CancelRequest)
    : Option (request.Reply × Cancelling) :=
  let store := (performAll JobCall.stepWithStore state.store (others request)).2
  if condition { state with store } request then cancelReplies { state with store } request
  else none

theorem cancelReplies_answers {state after : Cancelling} {request : CancelRequest}
    {reply : request.Reply} (handled : cancelReplies state request = some (reply, after))
    : state.Replies request reply after := by
  cases request with
  | listForRun runId =>
      simp only [cancelReplies] at handled
      split at handled
      next lists =>
        obtain ⟨rfl, rfl⟩ := Prod.mk.inj (Option.some.inj handled)
        exact ⟨lists, rfl⟩
      next => contradiction
  | reconcileTerminalJob input =>
      simp only [cancelReplies] at handled
      simp only [Cancelling.Replies]
      split at handled
      next reconciles =>
        obtain ⟨rfl, rfl⟩ := Prod.mk.inj (Option.some.inj handled)
        exact ⟨rfl, rfl⟩
      next reconciles =>
        obtain ⟨rfl, rfl⟩ := Prod.mk.inj (Option.some.inj handled)
        exact ⟨rfl, rfl⟩
  | atomicUpdateByUuid runId patch expected =>
      obtain ⟨rfl, rfl⟩ := Prod.mk.inj (Option.some.inj handled)
      exact ⟨_, rfl, rfl⟩
  | findByUuid | currentLease =>
      obtain ⟨rfl, rfl⟩ := Prod.mk.inj (Option.some.inj handled)
      exact ⟨rfl, rfl⟩
  | now | publish | abort | unregister | findCwd | headCommitShaOf | headCommitSha | resetHard
  | cleanUntracked =>
      obtain ⟨rfl, rfl⟩ := Prod.mk.inj (Option.some.inj handled)
      rfl
  | releaseLease => exact nomatch handled

theorem cancelHandler_answers {condition : Cancelling → CancelRequest → Bool}
    {others : CancelRequest → List JobCall} (state : Cancelling) (request : CancelRequest)
    (reply : request.Reply) (after : Cancelling)
    (handled : cancelHandler condition others state request = some (reply, after))
    : Cancelling.Beside condition state request reply after := by
  unfold cancelHandler at handled
  dsimp only at handled
  split at handled
  next meets =>
    have path := System.path_performAll jobSystem.initial JobCall.stepWithStore state.store
      (others request)
    exact ⟨_, ⟨_, _, _, path, rfl⟩, meets, cancelReplies_answers handled⟩
  next => contradiction

/-- A worker that goes on with the job before its turn comes does not keep it from being
cancelled.
-/
def goesOn : CancelRequest → List JobCall
  | .reconcileTerminalJob _ =>
      [.markRunning { jobId := "job", workerId := "first", claimToken := "earlier" } Date.epoch]
  | _ => []

/-- The cancellation returned a result. -/
def endsNormally
    : Completion CancelError Empty CancelRunResult × CancelLocals → Bool
  | (.normal _, _) => true
  | _ => false

/-- The cancellation while its worker goes on with the job. -/
theorem cancelled_run_settles_jobs_worked
    : ∃ final : Cancelling, (final.store.jobs.find "job").map (·.status) = some .cancelled
        ∧ final.Settled "run" := by
  let ran := (CancelRun.execute cancelDeps { runId := "run" } {}).run
    (cancelHandler Cancelling.claimStands goesOn) cancellation
  have completes : (ran.map fun ended =>
      (endsNormally ended.1, (ended.2.store.jobs.find "job").map (·.status)))
      = some (true, some .cancelled) := by
    decide
  obtain ⟨⟨⟨completion, locals⟩, final⟩, same, ends⟩ := Option.map_eq_some_iff.mp completes
  obtain ⟨normal, status⟩ := Prod.mk.inj ends
  cases completion with
  | normal result =>
      exact ⟨final, status, cancelled_run_settles_jobs rfl rfl
        (Program.exec_of_run cancelHandler_answers same)⟩
  | returned | threw => contradiction

/-- A worker that releases its claim before the turn of the job comes. -/
def letsGo : CancelRequest → List JobCall
  | .reconcileTerminalJob _ =>
      [.releaseClaim { jobId := "job", workerId := "first", claimToken := "earlier" }]
  | _ => []

/-- A job whose claim is released before its turn stays queued. -/
theorem cancelled_run_leaves_released_job
    : ¬∀ (deps : CancelRunDeps) (input : CancelRunInput) (start final : Cancelling)
        (result : CancelRunResult) (locals : CancelLocals), deps.queue = true →
        start.removed = [] →
        (CancelRun.execute deps input {}).Exec (Cancelling.Beside fun _ _ => true) start
          (.normal result, locals) final →
        final.Settled input.runId := by
  intro claim
  let ran := (CancelRun.execute cancelDeps { runId := "run" } {}).run
    (cancelHandler (fun _ _ => true) letsGo) cancellation
  have completes : (ran.map fun ended =>
      (endsNormally ended.1, (ended.2.store.jobs.find "job").map (·.status), ended.2.existing))
      = some (true, some .queued, some ["job"]) := by
    decide
  obtain ⟨⟨⟨completion, locals⟩, final⟩, same, ends⟩ := Option.map_eq_some_iff.mp completes
  obtain ⟨normal, ends⟩ := Prod.mk.inj ends
  obtain ⟨status, noted⟩ := Prod.mk.inj ends
  cases completion with
  | normal result =>
      have settled := claim cancelDeps { runId := "run" } cancellation final result locals rfl rfl
        (Program.exec_of_run cancelHandler_answers same)
      obtain ⟨existing, known, each⟩ := settled.jobs
      obtain rfl := Option.some.inj (noted.symm.trans known)
      obtain ⟨row, found, terminal⟩ := each "job" List.mem_cons_self
      have queued : row.status = .queued := by simpa [found] using status
      simp [queued, JobStatus.isTerminal] at terminal
  | returned | threw => contradiction

end AiSdlc.Application
