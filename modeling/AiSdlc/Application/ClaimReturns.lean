import AiSdlc.Application.ClaimSettlement
import AiSdlc.Application.WorkerRuns

/-! A return of `runClaimedJob` settles the job, the lease and the worker, through its handler of
errors and its cleanup; and a port that throws the error of a lost claim leaves the job running.
-/

namespace AiSdlc.Application

open Relation
open AiSdlc.Js
open AiSdlc.Domain
open AiSdlc.Async
open AiSdlc.Sqlite
open JobQueueRepository
open WorkerLoop

namespace ClaimedJob

section Handler

variable {deps : WorkerLoopDeps} {job : Job} {owner : JobOwnership} {error : WorkerError}

/-- Statements of the handler: the claim does not stand where they complete. -/
abbrev Recovers {α : Type} (deps : WorkerLoopDeps) (owner : JobOwnership)
    (before : WorkerLocals → ClaimedJobState → Prop) (statements : WorkerStatements α)
    : Prop :=
  Finishes deps owner before (fun _ => Done owner) (fun _ => Knowing) statements

theorem recovers_of_done {before : WorkerLocals → ClaimedJobState → Prop}
    {statements : WorkerStatements Unit} (done : FinishesDone deps owner before statements)
    : Recovers deps owner before statements :=
  done.mono (fun _ _ holds => holds) (fun _ _ _ holds => holds)
    fun _ _ _ holds => ⟨holds.1.1, trivial⟩

theorem knowing_call {request : WorkerRequest} (quiet : ¬Apart request)
    : Finishes deps owner Knowing (fun _ => Knowing) (fun _ => Knowing) (WorkerLoop.call request) :=
  (finishes_quiet lasting_true quiet).mono (fun _ _ holds => holds) (fun _ _ _ holds => holds)
    fun _ _ _ holds => holds.1

theorem recovers_releaseClaim
    : FinishesDone deps owner Knowing
        (unlessOwnershipLost (WorkerLoop.call (.releaseClaim owner))) :=
  finishes_unlessOwnershipLost (finishes_settling settles_releaseClaim id)

theorem recovers_return {before : WorkerLocals → ClaimedJobState → Prop}
    {statements : WorkerStatements Unit} {result : RunClaimedJobResult}
    (recovers : Recovers deps owner before statements)
    : Recovers deps owner before (do
        statements
        pure result) :=
  Block.settles_bind recovers fun _ => Block.settles_pure fun _ _ holds => holds

/-- A notification changes nothing, whatever it throws. -/
theorem knowing_notifyFailure {run : Option Run} {cause : String}
    : Finishes deps owner Knowing (fun _ => Knowing) (fun _ => Knowing)
        (notifyFailure deps job run cause) := by
  have kept {event : RunTerminalNotification} {locals : WorkerLocals}
      {state next : ClaimedJobState} {reply : Except WorkerError Unit}
      (holds : Knowing locals state)
      (answered : GenuineAnswers deps owner state (.notify event) reply next)
      : Knowing locals next := by
    obtain ⟨⟨⟨store, others, rfl⟩, -⟩, -⟩ := answered
    have accounted := (undisturbed_of_interferes others).accounted holds.1.accounted
    exact ⟨⟨accounted, holds.1.lease, holds.1.grace⟩, trivial⟩
  refine Block.settles_attempt (Block.settles_call (by exact fun _ _ _ => trivial) ?_ ?_)
    fun _ => Block.settles_pure fun _ _ holds => holds
  · exact fun _ _ _ _ => kept
  · exact fun _ _ _ _ => kept

theorem recovers_failUnavailable {cause : String}
    : Recovers deps owner Knowing (failUnavailable deps job owner cause) := by
  refine Block.settles_bind
    (Block.settles_ifThen (fun _ => knowing_call id) fun _ _ _ holds => holds) fun _ => ?_
  refine Block.settles_bind (knowing_call id) fun _ => ?_
  refine Block.settles_bind (knowing_call id) fun run => ?_
  refine Block.settles_bind
    (Block.settles_ifThen (fun _ => knowing_notifyFailure) fun _ _ _ holds => holds) fun _ => ?_
  refine Block.settles_bind (Block.settles_locals fun _ _ holds => holds) fun locals => ?_
  refine recovers_return (recovers_of_done ?_)
  cases locals.started with
  | true => exact finishes_unlessOwnershipLost finishes_failJob
  | false => exact recovers_releaseClaim

theorem recovers_failStarted {reason : Option AbortReason}
    : Recovers deps owner Knowing (failStarted job owner reason) := by
  have fails : Recovers deps owner Knowing (unlessOwnershipLost (failJob owner)) :=
    recovers_of_done (finishes_unlessOwnershipLost finishes_failJob)
  cases reason with
  | none => exact fails
  | some reason =>
      cases reason with
      | shutdown =>
          exact recovers_of_done
            (finishes_unlessTerminal (finishes_settling settles_resetJobToQueued id))
      | userCancelled =>
          exact Block.settles_bind (knowing_call id)
            fun _ => recovers_of_done (finishes_unlessTerminal finishes_cancelJob)
      | leaseLost | repositoryUnavailable => exact fails

/-- The grace period is taken for expired where the error says so, and then it is. -/
theorem recovers_failClaimed {reason : Option AbortReason}
    : Recovers deps owner (Failing owner (fun _ => True) error)
        (failClaimed job owner reason error) := by
  refine Block.settles_assign_then Knowing (fun locals state holds => ?_) ?_
  · exact ⟨⟨holds.1.1.1, holds.1.1.2, holds.2.2⟩, trivial⟩
  refine Block.settles_bind (Block.settles_locals fun _ _ holds => holds) fun locals => ?_
  refine recovers_return ?_
  refine Block.settles_ite (fun _ => ?_) fun _ => recovers_of_done recovers_releaseClaim
  refine Block.settles_ite (fun _ => ?_) fun _ => recovers_failStarted
  exact recovers_of_done (finishes_unlessTerminal finishes_failJob)

/-- Where the handler completes, the claim does not stand, by cases on the error. -/
theorem recovers_recoverClaimed
    : Recovers deps owner (Failing owner (fun _ => True) error)
        (recoverClaimed deps job owner error) := by
  have reason : Finishes deps owner (Failing owner (fun _ => True) error)
      (fun _ => Failing owner (fun _ => True) error) (fun _ => Knowing) (abortReason deps) := by
    refine (finishes_abortReason lasting_raised).mono
      (fun _ _ holds => ⟨holds.1.1, holds.2⟩) ?_ fun _ _ _ holds => ⟨holds.1.1, trivial⟩
    exact fun _ _ _ holds => ⟨⟨holds.1.1, trivial⟩, holds.1.2⟩
  have knowing {statements : WorkerStatements RunClaimedJobResult}
      (recovers : Recovers deps owner Knowing statements)
      : Recovers deps owner (Failing owner (fun _ => True) error) statements :=
    recovers.mono (fun _ _ holds => holds.1) (fun _ _ _ holds => holds) fun _ _ _ holds => holds
  refine Block.settles_bind reason fun reason => ?_
  cases error with
  | jobOwnershipLost message =>
      exact Block.settles_pure fun _ _ holds => ⟨holds.1.1, holds.2.1 message rfl⟩
  | leaseConflict message =>
      exact knowing (recovers_return (recovers_of_done recovers_releaseClaim))
  | repositoryUnavailable message cause => exact knowing recovers_failUnavailable
  | error | leaseOwnershipLost | value => exact recovers_failClaimed

end Handler

section Cleanup

variable {deps : WorkerLoopDeps} {job : Job} {owner : JobOwnership}
  {fact : ClaimedJobState → Prop}

/-- Where nothing is asked of an error, any ending in one is fine. -/
abbrev Cleans {α : Type} (deps : WorkerLoopDeps) (owner : JobOwnership)
    (before : WorkerLocals → ClaimedJobState → Prop)
    (after : α → WorkerLocals → ClaimedJobState → Prop) (statements : WorkerStatements α)
    : Prop :=
  Finishes deps owner before after (fun _ _ _ => True) statements

theorem cleans_call {request : WorkerRequest} (lasting : Lasting deps owner fact)
    (quiet : ¬Apart request)
    : Cleans deps owner (KnownWith fact)
        (fun answer locals state => KnownWith fact locals state
          ∧ ∃ before, StoreAnswers before request (.ok answer) state) (WorkerLoop.call request) :=
  (finishes_call lasting quiet).mono (fun _ _ holds => holds) (fun _ _ _ holds => holds)
    fun _ _ _ _ => trivial

/-- After a release, even one that throws, the lease does not stand. -/
theorem not_leaseStands_of_release {input : ReleaseLeaseInput} {before state : ClaimedJobState}
    {reply : Except WorkerError Unit}
    (answered : StoreAnswers before (.releaseLease input) reply state)
    : ¬LeaseStands state.store input.repoId input.workerId input.runId input.leaseToken := by
  have replied : ReleaseAnswers before
      (WorkerLeaseRepository.release before.store.leases input) reply state := answered
  rintro ⟨lease, found, fence⟩
  cases released : WorkerLeaseRepository.release before.store.leases input with
  | ok leases =>
      rw [released] at replied
      obtain ⟨-, rfl⟩ := replied
      obtain ⟨held, -, -, rows⟩ := WorkerLeaseRepository.release_eq_ok released
      have gone : WorkerLeaseRepository.current leases input.repoId = some lease := found
      rw [rows, if_pos rfl] at gone
      contradiction
  | error error =>
      rw [released] at replied
      have same : state = before := by
        cases error <;> exact replied.2
      subst same
      unfold WorkerLeaseRepository.release at released
      simp only at released
      split at released
      · contradiction
      · rename_i missed
        exact missed (List.any_eq_true.mpr ⟨lease, Table.mem_of_findKey found, fence⟩)

/-- The lease that was acquired is given back. -/
theorem cleans_releaseAcquired {lease : WorkerLease} (lasting : Lasting deps owner fact)
    (token : ∀ state, fact state → state.leaseToken = some lease.leaseToken)
    : Cleans deps owner (KnownWith fact)
        (fun _ => KnownWith fun state => fact state ∧ Freed job owner state)
        (releaseAcquired owner.workerId job lease) := by
  let input : ReleaseLeaseInput :=
    {
      repoId := job.repoId
      runId := job.runId
      workerId := owner.workerId
      leaseToken := lease.leaseToken
    }
  have freed {before state : ClaimedJobState} {reply : Except WorkerError Unit}
      (holds : fact state) (answered : StoreAnswers before (.releaseLease input) reply state)
      : Freed job owner state := by
    intro drawn same stands
    cases (token state holds).symm.trans same
    exact absurd stands (not_leaseStands_of_release answered)
  have called : Finishes deps owner (KnownWith fact)
      (fun _ => KnownWith fun state => fact state ∧ Freed job owner state)
      (fun error locals state => KnownWith (fun state => fact state ∧ Freed job owner state)
        locals state) (WorkerLoop.call (.releaseLease input)) := by
    refine (finishes_call lasting (by exact id)).mono (fun _ _ holds => holds) ?_ ?_
    · rintro answer locals state ⟨known, before, answered⟩
      exact ⟨known.1, known.2, freed known.2 answered⟩
    · rintro error locals state ⟨known, -, -, before, answered⟩
      exact ⟨known.1, known.2, freed known.2 answered⟩
  refine Block.settles_attempt called fun error => ?_
  cases error with
  | leaseOwnershipLost message => exact Block.settles_pure fun _ _ holds => holds
  | error | leaseConflict | jobOwnershipLost | repositoryUnavailable | value =>
      exact Block.settles_throw fun _ _ _ => trivial

theorem cleans_mark {request : WorkerRequest} {mark : Worker → Worker}
    (lasting : Lasting deps owner fact) (quiet : ¬Apart request)
    (idle : ∀ worker, (mark worker).status ≠ .busy)
    (marks : ∀ before answer state, StoreAnswers before request (.ok answer) state →
      ∃ workers, WorkerRegistryRepository.updateStatus before.store.workers owner.workerId
          deps.repoId mark = .ok workers ∧ state.store.workers = workers)
    : Cleans deps owner (KnownWith fact)
        (fun _ => KnownWith fun state => fact state ∧ Rested deps owner state)
        (WorkerLoop.call request) := by
  refine (cleans_call lasting quiet).mono (fun _ _ holds => holds) ?_ fun _ _ _ _ => trivial
  rintro answer locals state ⟨known, before, answered⟩
  obtain ⟨workers, marked, written⟩ := marks before answer state answered
  refine ⟨known.1, known.2, fun busy => ?_⟩
  rw [written] at busy
  exact absurd busy
    (WorkerRegistryRepository.not_isBusy_of_updateStatus (fun worker _ => idle worker) marked)

theorem cleans_markStopping (lasting : Lasting deps owner fact)
    : Cleans deps owner (KnownWith fact)
        (fun _ => KnownWith fun state => fact state ∧ Rested deps owner state)
        (WorkerLoop.call (.markStopping owner.workerId deps.repoId)) :=
  cleans_mark lasting id (fun worker => by simp [markWorkerStopping])
    fun _ _ _ answered => RegistryAnswers.marked answered

theorem cleans_markIdle (lasting : Lasting deps owner fact)
    : Cleans deps owner (KnownWith fact)
        (fun _ => KnownWith fun state => fact state ∧ Rested deps owner state)
        (WorkerLoop.call (.markIdle owner.workerId deps.repoId)) :=
  cleans_mark lasting id (fun _ => WorkerRegistryRepository.markWorkerIdle_status)
    fun _ _ _ answered => RegistryAnswers.marked answered

/-- What the cleanup reads before it acts, as facts that no exchange takes back. -/
structure Read (fact : ClaimedJobState → Prop) (reason : Option AbortReason)
    (locals : WorkerLocals) (state : ClaimedJobState)
    : Prop where
  fact : fact state
  reason : reason = some .leaseLost → state.leaseLost = true
  lease : locals.acquiredLease.map WorkerLease.leaseToken = state.leaseToken
  grace : locals.graceExpiredDuringShutdown = true → state.graceExpired = true

theorem lasting_read {reason : Option AbortReason} {locals : WorkerLocals}
    (lasting : Lasting deps owner fact)
    : Lasting deps owner (Read fact reason locals) := by
  intro state next follows read
  exact ⟨lasting state next follows read.fact, fun lost => follows.leaseLost (read.reason lost),
    read.lease.trans follows.leaseToken.symm,
    fun graced => follows.graceExpired (read.grace graced)⟩

/-- A worker that can run is marked, and one that cannot is not busy. -/
theorem cleans_rest {found : Option Worker} {reason : Option AbortReason}
    {locals : WorkerLocals} (lasting : Lasting deps owner fact)
    (graced : ∀ state, fact state →
      locals.graceExpiredDuringShutdown = true → state.graceExpired = true)
    (seen : ∀ state, fact state →
      WorkerRegistryRepository.IsBusy state.store.workers owner.workerId deps.repoId →
      (found.any fun worker => isRunnable worker.status) = true)
    : Cleans deps owner (KnownWith fact)
        (fun _ => KnownWith fun state => fact state ∧ Rested deps owner state)
        (Block.ifThen ((found.any fun worker => isRunnable worker.status)
            && !locals.graceExpiredDuringShutdown) do
          (if reason = some .shutdown then do
            Block.ifThen deps.markStopping (WorkerLoop.call .stopping)
            WorkerLoop.call (.markStopping owner.workerId deps.repoId)
          else
            WorkerLoop.call (.markIdle owner.workerId deps.repoId)
            : WorkerStatements Unit)) := by
  refine Block.settles_ifThen (fun _ => ?_) fun skipped locals state known => ?_
  · refine Block.settles_ite (fun _ => ?_) fun _ => cleans_markIdle lasting
    refine Block.settles_bind (Block.settles_ifThen (fun _ => ?_) fun _ _ _ known => known)
      fun _ => cleans_markStopping lasting
    exact (cleans_call lasting (by exact id)).mono (fun _ _ known => known)
      (fun _ _ _ known => known.1) fun _ _ _ _ => trivial
  · refine ⟨known.1, known.2, fun busy => ?_⟩
    rw [seen state known.2 busy, Bool.true_and, Bool.not_eq_false'] at skipped
    exact graced state known.2 skipped

/-- The lease is given back, unless the reason or the grace period forbid it. -/
theorem cleans_free {reason : Option AbortReason} {locals : WorkerLocals}
    (lasting : Lasting deps owner fact)
    : Cleans deps owner (KnownWith (Read fact reason locals))
        (fun _ => KnownWith fun state => Read fact reason locals state ∧ Freed job owner state)
        (match locals.acquiredLease with
        | some lease =>
            Block.ifThen (reason ≠ some .leaseLost && !locals.graceExpiredDuringShutdown)
              (releaseAcquired owner.workerId job lease)
        | none => pure ()) := by
  cases acquired : locals.acquiredLease with
  | none =>
      refine Block.settles_pure fun _ state known => ⟨known.1, known.2, fun token drawn => ?_⟩
      have none := known.2.lease
      rw [acquired, drawn] at none
      contradiction
  | some lease =>
      refine Block.settles_ifThen (fun _ => ?_) fun skipped _ state known => ?_
      · refine cleans_releaseAcquired (lasting_read lasting) fun state read => ?_
        exact (acquired ▸ read.lease).symm
      · refine ⟨known.1, known.2, fun _ _ _ => ?_⟩
        simp only [ne_eq, decide_not, Bool.and_eq_false_imp, Bool.not_eq_true',
          decide_eq_false_iff_not, Bool.not_eq_false'] at skipped
        by_cases lost : reason = some .leaseLost
        · exact .inr (known.2.reason lost)
        · exact .inl (known.2.grace (skipped lost))

theorem cleans_findWorker (lasting : Lasting deps owner fact)
    : Cleans deps owner (KnownWith fact)
        (fun found => KnownWith fun state => fact state
          ∧ (WorkerRegistryRepository.IsBusy state.store.workers owner.workerId deps.repoId →
            (found.any fun worker => isRunnable worker.status) = true))
        (WorkerLoop.call (.findWorker owner.workerId deps.repoId)) := by
  refine (cleans_call lasting (by exact id)).mono (fun _ _ known => known) ?_
    fun _ _ _ _ => trivial
  rintro found locals state ⟨known, before, replied, rfl⟩
  refine ⟨known.1, known.2, fun busy => ?_⟩
  obtain ⟨worker, stored, status⟩ := WorkerRegistryRepository.isBusy_iff.mp busy
  rw [Except.ok.inj replied, stored]
  simp [isRunnable, status]

theorem lasting_seen {condition : Prop}
    : Lasting deps owner fun state =>
        WorkerRegistryRepository.IsBusy state.store.workers owner.workerId deps.repoId →
        condition :=
  fun _ _ follows seen busy => seen (follows.stores.worker busy)

/-- The cleanup gives the lease back and leaves the worker not busy, unless it must not. -/
theorem cleans_cleanUp (lasting : Lasting deps owner fact)
    : Cleans deps owner (KnownWith fact)
        (fun _ => KnownWith fun state =>
          fact state ∧ Freed job owner state ∧ Rested deps owner state)
        (cleanUp deps owner.workerId job) := by
  refine Block.settles_bind ((finishes_abortReason lasting).mono (fun _ _ known => known)
    (fun _ _ _ known => known) fun _ _ _ _ => trivial) fun reason => ?_
  have reads : Cleans deps owner (KnownReason fact reason)
      (fun locals => KnownWith (Read fact reason locals)) Block.locals :=
    Block.settles_locals fun locals state known =>
      ⟨known.1.1, known.1.2, known.2, known.1.1.lease, known.1.1.grace⟩
  refine Block.settles_bind reads fun locals => ?_
  refine Block.settles_bind (cleans_free lasting) fun _ => ?_
  have freed : Lasting deps owner fun state =>
      Read fact reason locals state ∧ Freed job owner state :=
    (lasting_read lasting).and lasting_freed
  refine Block.settles_bind (cleans_findWorker freed) fun found => ?_
  refine (cleans_rest (freed.and lasting_seen) (fun state known => known.1.1.grace)
    fun state known => known.2).mono (fun _ _ known => known) ?_ fun _ _ _ _ => trivial
  exact fun _ _ _ known => ⟨known.1, known.2.1.1.1.fact, known.2.1.1.2, known.2.2⟩

end Cleanup

section Returns

variable {deps : WorkerLoopDeps} {workerId : WorkerId} {job : Job} {owner : JobOwnership}

/-- The statements of `runClaimedJob`, where the job is under a claim. -/
theorem runClaimedJob_eq (claimed : generateJobOwnership job workerId = .ok owner)
    : WorkerLoop.runClaimedJob deps workerId job
      = ((claimedRun deps workerId job owner).attempt
          (recoverClaimed deps job owner)).always (cleanUp deps workerId job) := by
  unfold WorkerLoop.runClaimedJob
  cases token : truthy job.claimToken with
  | none =>
      unfold generateJobOwnership at claimed
      rw [token] at claimed
      contradiction
  | some text => rw [claimed]

theorem workerId_of_claimed (claimed : generateJobOwnership job workerId = .ok owner)
    : owner.workerId = workerId ∧ owner.jobId = job.id := by
  unfold generateJobOwnership at claimed
  split at claimed
  · cases claimed
    exact ⟨rfl, rfl⟩
  · contradiction

theorem claim_of_released {state : ClaimedJobState} (all : state.store.AllAccounted)
    (released : Released owner state) {row : Job}
    (found : state.store.jobs.find owner.jobId = some row)
    : row.status.isTerminal = true ∨ row.status = .queued ∧ Unclaimed row
      ∨ ∃ other, other ≠ owner ∧ owns other row = true := by
  cases ended : row.status.isTerminal with
  | true => exact .inl rfl
  | false =>
      rcases all owner.jobId row found with terminal | waits | ⟨other, owned⟩
      · exact .inl (ended.symm.trans terminal)
      · exact .inr (.inl waits)
      · refine .inr (.inr ⟨other, ?_, owned⟩)
        rintro rfl
        exact released ⟨row, found, owned, ended⟩

theorem finishes_runClaimedJob (claimed : generateJobOwnership job workerId = .ok owner)
    : Finishes deps owner Knowing (fun _ _ state => Settled deps job owner state)
        (fun _ _ _ => True) (WorkerLoop.runClaimedJob deps workerId job) := by
  obtain ⟨rfl, -⟩ := workerId_of_claimed claimed
  rw [runClaimedJob_eq claimed]
  have tried : Recovers deps owner Knowing ((claimedRun deps owner.workerId job owner).attempt
      (recoverClaimed deps job owner)) :=
    Block.settles_attempt finishes_claimedRun fun _ => recovers_recoverClaimed
  refine Block.settles_always_finished tried (fun _ => ?_) fun _ => ?_
  · refine (cleans_cleanUp lasting_released).mono (fun _ _ known => known) ?_
      fun _ _ _ _ => trivial
    intro _ locals state known
    exact ⟨fun row => claim_of_released known.1.accounted known.2.1, known.2.2.1, known.2.2.2⟩
  · exact (cleans_cleanUp lasting_true).mono (fun _ _ known => known) (fun _ _ _ _ => trivial)
      fun _ _ _ _ => trivial

/-- A call of `runClaimedJob` that returns leaves its job ended, queued without a claim or under
another claim; it gave back the lease that it acquired unless the grace period of a shutdown
ran out or the lease was reported as lost, and its worker is not busy unless the grace period
ran out: in any execution among genuine replies, with any steps of the other actors.
-/
theorem claimed_job_is_settled {store : OperationalStore} {final : ClaimedJobState}
    {completion : Completion WorkerError RunClaimedJobResult RunClaimedJobResult}
    {locals : WorkerLocals} (claimed : generateJobOwnership job workerId = .ok owner)
    (accounted : store.AllAccounted)
    (execution : (WorkerLoop.runClaimedJob deps workerId job {}).Exec
      (GenuineAnswers deps owner) { store } (completion, locals) final)
    (returned : ∀ error, completion ≠ .threw error)
    : Settled deps job owner final := by
  have known : Knowing {} ({ store } : ClaimedJobState) :=
    ⟨⟨accounted, rfl, fun graced => nomatch graced⟩, trivial⟩
  have ended := (finishes_runClaimedJob claimed {} _ known).of_exec execution
  cases completion with
  | normal result => exact ended
  | returned result => exact ended.elim
  | threw error => exact absurd rfl (returned error)

end Returns

-----------------------------------------------------------------------------------------
-- An execution that fails with the error of a lost claim
-----------------------------------------------------------------------------------------

/-- What the queue, the registry and the store of leases reply when nobody else is there. -/
def jobReply (state : ClaimedJobState) (outcome : JobChecked JobTable)
    : Option (Except WorkerError Unit × ClaimedJobState) :=
  match outcome with
  | .ok jobs => some (.ok (), { state with store := { state.store with jobs } })
  | .error _ => none

def registryReply (state : ClaimedJobState) (outcome : Except String WorkerTable)
    : Option (Except WorkerError Unit × ClaimedJobState) :=
  match outcome with
  | .ok workers => some (.ok (), { state with store := { state.store with workers } })
  | .error _ => none

def acquireReply (state : ClaimedJobState)
    (outcome : Except LeaseError (WorkerLease × LeaseTable))
    : Option (Except WorkerError WorkerLease × ClaimedJobState) :=
  match outcome with
  | .ok (lease, leases) =>
      some (.ok lease, {
        state with store := { state.store with leases }, leaseToken := some lease.leaseToken
      })
  | .error _ => none

def releaseReply (state : ClaimedJobState) (outcome : Except LeaseError LeaseTable)
    : Option (Except WorkerError Unit × ClaimedJobState) :=
  match outcome with
  | .ok leases => some (.ok (), { state with store := { state.store with leases } })
  | .error _ => none

/-- Answers the calls of a worker whose execution settles without an abort. -/
def settledHandler (result : Except WorkerError ExecuteRunResult) (state : ClaimedJobState)
    : (request : WorkerRequest) → Option (request.Reply × ClaimedJobState)
  | .now => some (.ok workerTime, state)
  | .markBusy id repoId =>
      registryReply state (WorkerRegistryRepository.markBusy state.store.workers id repoId)
  | .acquireLease input =>
      acquireReply state (WorkerLeaseRepository.acquire state.store.leases input "lease")
  | .markJobRunning owner now => jobReply state (markRunning state.store.jobs owner now)
  | .prepareWorktree _ => some (.ok "/worktree", state)
  | .findRun _ => some (.ok (some workedRun), state)
  | .executeRun _ =>
      some (result, {
        state with completed := state.completed || (ExecutionRace.settled result).completes
      })
  | .markJobSucceeded owner now => jobReply state (markSucceeded state.store.jobs owner now)
  | .releaseLease input =>
      releaseReply state (WorkerLeaseRepository.release state.store.leases input)
  | .findWorker id repoId =>
      some (.ok (WorkerRegistryRepository.findById state.store.workers id repoId), state)
  | .markIdle id repoId =>
      registryReply state (WorkerRegistryRepository.markIdle state.store.workers id repoId)
  | _ => none

section Replies

variable {state next : ClaimedJobState}

theorem jobReply_answers {outcome : JobChecked JobTable} {reply : Except WorkerError Unit}
    (replied : jobReply state outcome = some (reply, next))
    : JobAnswers state false outcome reply next ∧ reply = .ok () := by
  cases outcome with
  | ok jobs =>
      obtain ⟨rfl, rfl⟩ := Prod.mk.inj (Option.some.inj replied)
      exact ⟨⟨rfl, by simp⟩, rfl⟩
  | error error => contradiction

theorem registryReply_answers {outcome : Except String WorkerTable}
    {reply : Except WorkerError Unit}
    (replied : registryReply state outcome = some (reply, next))
    : RegistryAnswers state outcome reply next ∧ reply = .ok () := by
  cases outcome with
  | ok workers =>
      obtain ⟨rfl, rfl⟩ := Prod.mk.inj (Option.some.inj replied)
      exact ⟨⟨rfl, rfl⟩, rfl⟩
  | error error => contradiction

theorem acquireReply_answers {outcome : Except LeaseError (WorkerLease × LeaseTable)}
    {reply : Except WorkerError WorkerLease}
    (replied : acquireReply state outcome = some (reply, next))
    : AcquireAnswers state outcome reply next ∧ ∃ lease, reply = .ok lease := by
  cases outcome with
  | ok acquired =>
      obtain ⟨rfl, rfl⟩ := Prod.mk.inj (Option.some.inj replied)
      exact ⟨⟨rfl, rfl⟩, acquired.1, rfl⟩
  | error error => contradiction

theorem releaseReply_answers {outcome : Except LeaseError LeaseTable}
    {reply : Except WorkerError Unit}
    (replied : releaseReply state outcome = some (reply, next))
    : ReleaseAnswers state outcome reply next ∧ reply = .ok () := by
  cases outcome with
  | ok leases =>
      obtain ⟨rfl, rfl⟩ := Prod.mk.inj (Option.some.inj replied)
      exact ⟨⟨rfl, rfl⟩, rfl⟩
  | error error => contradiction

/-- The handler answers as the ports do, and only the execution may throw. -/
theorem settledHandler_answers {result : Except WorkerError ExecuteRunResult}
    {request : WorkerRequest} {reply : request.Reply}
    (handled : settledHandler result state request = some (reply, next))
    : StoreAnswers state request reply next
      ∧ ((∃ answer, reply = .ok answer) ∨ ∃ input, request = .executeRun input) := by
  cases request with
  | now =>
      cases handled
      exact ⟨⟨⟨_, rfl⟩, rfl⟩, .inl ⟨_, rfl⟩⟩
  | prepareWorktree input =>
      cases handled
      exact ⟨⟨⟨.settled (.ok "/worktree"), rfl⟩, rfl⟩, .inl ⟨_, rfl⟩⟩
  | findRun runId =>
      cases handled
      exact ⟨rfl, .inl ⟨_, rfl⟩⟩
  | findWorker id repoId =>
      cases handled
      exact ⟨⟨rfl, rfl⟩, .inl ⟨_, rfl⟩⟩
  | executeRun input =>
      cases handled
      exact ⟨⟨.settled result, rfl, by simp [ExecutionRace.expiresGrace]⟩, .inr ⟨_, rfl⟩⟩
  | markBusy | markIdle =>
      obtain ⟨answers, ok⟩ := registryReply_answers handled
      exact ⟨answers, .inl ⟨_, ok⟩⟩
  | acquireLease input =>
      obtain ⟨answers, ok⟩ := acquireReply_answers handled
      exact ⟨⟨"lease", answers⟩, .inl ok⟩
  | releaseLease input =>
      obtain ⟨answers, ok⟩ := releaseReply_answers handled
      exact ⟨answers, .inl ⟨_, ok⟩⟩
  | markJobRunning | markJobSucceeded =>
      obtain ⟨answers, ok⟩ := jobReply_answers handled
      exact ⟨answers, .inl ⟨_, ok⟩⟩
  | _ => contradiction

end Replies

/-- The job that the worker has claimed, an idle worker, and no lease. -/
def claimedStore : OperationalStore :=
  {
    jobs := ⟨[workedJob], by simp⟩
    leases := .empty
    workers := ⟨[{
      id := "worker"
      repoId := "repo"
      hostname := "host"
      processId := 1
      status := .idle
      heartbeatAt := workerTime
    }], by simp⟩
  }

def workedClaim : JobOwnership :=
  { jobId := "job", workerId := "worker", claimToken := "token" }

def settledWorker : Program WorkerRequest WorkerRequest.Reply WorkerEnding :=
  WorkerLoop.runClaimedJob { repoId := "repo", ttlMs := 1000 } "worker" workedJob {}

/-- The execution throws the error of a lost claim, which the claim of the worker is not. -/
def strayError : Except WorkerError ExecuteRunResult :=
  .error (.jobOwnershipLost "other")

theorem claimedStore_accounted : claimedStore.AllAccounted := by
  intro id row found
  have member : row ∈ [workedJob] := Table.mem_of_findKey found
  cases List.mem_singleton.mp member
  exact accounted_of_owns (show owns workedClaim workedJob = true by decide)

theorem settledHandler_promised {result : Except WorkerError ExecuteRunResult}
    {deps : WorkerLoopDeps} {owner : JobOwnership} (state : ClaimedJobState)
    (request : WorkerRequest) (reply : request.Reply) (next : ClaimedJobState)
    (handled : settledHandler result state request = some (reply, next))
    : PromisedAnswers deps owner state request reply next := by
  obtain ⟨answers, settled⟩ := settledHandler_answers handled
  refine ⟨⟨state.store, .refl, answers⟩, ?_⟩
  rcases settled with ⟨answer, rfl⟩ | ⟨input, rfl⟩
  · cases request <;> trivial
  · trivial

/-- A worker whose execution throws the error of a claim that was lost elsewhere returns with
its job running under its claim.
-/
theorem stray_error_leaves_job_running
    : ¬∀ (deps : WorkerLoopDeps) (workerId : WorkerId) (job : Job) (owner : JobOwnership)
        (store : OperationalStore) (final : ClaimedJobState)
        (completion : Completion WorkerError RunClaimedJobResult RunClaimedJobResult)
        (locals : WorkerLocals),
        generateJobOwnership job workerId = .ok owner → store.AllAccounted →
        (WorkerLoop.runClaimedJob deps workerId job {}).Exec (PromisedAnswers deps owner)
          { store } (completion, locals) final →
        (∀ error, completion ≠ .threw error) → Settled deps job owner final := by
  intro claim
  let ran := (settledWorker.run (settledHandler strayError) { store := claimedStore }).get rfl
  have ended : settledWorker.run (settledHandler strayError) { store := claimedStore }
      = some (ran.1, ran.2) := rfl
  have execution : settledWorker.Exec
      (PromisedAnswers { repoId := "repo", ttlMs := 1000 } workedClaim)
      { store := claimedStore } ran.1 ran.2 :=
    Program.exec_of_run settledHandler_promised ended
  have settled := claim _ _ _ workedClaim _ _ _ _ rfl claimedStore_accounted execution
    fun error same => nomatch same
  rcases settled.claim _ rfl with ended | ⟨queued, -⟩ | ⟨other, differs, owned⟩
  · contradiction
  · contradiction
  · obtain ⟨sameId, worker, token⟩ := owns_iff.mp owned
    refine differs ?_
    cases other
    cases sameId
    cases worker
    cases token
    rfl

/-- A worker whose execution completes returns with its job settled. -/
theorem claimed_job_is_settled_completed
    : ∃ final, Settled { repoId := "repo", ttlMs := 1000 } workedJob workedClaim final
        ∧ (final.store.jobs.find "job").map Job.status = some .succeeded := by
  let ran := (settledWorker.run (settledHandler (.ok (.outcome .completed)))
    { store := claimedStore }).get rfl
  have ended : settledWorker.run (settledHandler (.ok (.outcome .completed)))
      { store := claimedStore } = some (ran.1, ran.2) := rfl
  have genuine (state : ClaimedJobState) (request : WorkerRequest) (reply : request.Reply)
      (next : ClaimedJobState)
      (handled : settledHandler (.ok (.outcome .completed)) state request = some (reply, next))
      : GenuineAnswers { repoId := "repo", ttlMs := 1000 } workedClaim state request reply
          next := by
    refine ⟨settledHandler_promised state request reply next handled, ?_⟩
    obtain ⟨-, ⟨answer, rfl⟩ | ⟨input, rfl⟩⟩ := settledHandler_answers handled
    · cases request <;> trivial
    · cases handled
      trivial
  have execution := Program.exec_of_run genuine ended
  exact ⟨_, claimed_job_is_settled rfl claimedStore_accounted execution
    fun error same => (nomatch same), rfl⟩

end ClaimedJob

end AiSdlc.Application
