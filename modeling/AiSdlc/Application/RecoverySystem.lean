import AiSdlc.Application.RepositoryRecoveryCoordinator
import AiSdlc.Async.Pool
import AiSdlc.Sqlite.LeaseCalls

/-! Recovery coordinators next to the workers that hold leases: any number of coordinators, the
calls of the holders and all other changes to jobs and workers interleave at each call.
-/

namespace AiSdlc.Application

open AiSdlc.Js
open AiSdlc.Domain
open AiSdlc.Async
open AiSdlc.Sqlite
open AiSdlc.Transition
open RepositoryRecoveryCoordinator

-----------------------------------------------------------------------------------------
-- What a coordinator commits
-----------------------------------------------------------------------------------------

abbrev RecoveryInteraction : Type := Interaction RecoveryRequest RecoveryRequest.Reply

/-- What an exchange showed of the lease of a repository. -/
def inspection? : RecoveryInteraction → Option (RepositoryId × Option WorkerLease)
  | ⟨.currentLease repoId, .ok lease⟩ => some (repoId, lease)
  | _ => none

/-- What a coordinator saw last of the lease of its repository. -/
def inspected (log : List RecoveryInteraction) : Option (RepositoryId × Option WorkerLease) :=
  log.findSome? inspection?

/-- A coordinator saw `lease` last, and has read the clock at `now`. -/
structure Inspected (repoId : RepositoryId) (lease : Option WorkerLease) (now : Date)
    (log : List RecoveryInteraction)
    : Prop where
  seen : inspected log = some (repoId, lease)
  clock : (⟨.now, .ok now⟩ : RecoveryInteraction) ∈ log

/-- A commit is for a lease that the coordinator saw, and that had expired when it read the
clock; it names no job. Other calls are not restricted.
-/
def CommitsInspected (log : List RecoveryInteraction) : RecoveryRequest → Prop
  | .commitLeaseReclamation input =>
      ∃ lease now, Inspected input.repoId (some lease) now log
        ∧ lease.expiresAt.ms ≤ now.ms ∧ input.leaseToken = lease.leaseToken
        ∧ input.expectedLeaseGeneration = { workerId := lease.workerId, runId := lease.runId }
        ∧ input.expectedJobOwnership = none
  | _ => True

/-- The calls that neither inspect a lease nor commit. -/
def RecoveryRequest.isPlain : RecoveryRequest → Bool
  | currentLease _ | commitLeaseReclamation _ => false
  | _ => true

section Keeps

variable {repoId : RepositoryId} {lease : Option WorkerLease} {now : Date}

/-- A statement that keeps what the coordinator saw, and commits as it may. -/
abbrev KeepsInspection {α : Type} (repoId : RepositoryId) (lease : Option WorkerLease)
    (now : Date) (statements : RecoveryStatements α)
    : Prop :=
  statements.Keeps logged CommitsInspected (fun _ => Inspected repoId lease now)
    (fun _ _ => True)

theorem inspection_of_isPlain {request : RecoveryRequest} (plain : request.isPlain = true)
    (reply : request.Reply)
    : inspection? ⟨request, reply⟩ = none := by
  cases request <;> first | rfl | contradiction

theorem Inspected.cons {log : List RecoveryInteraction} (shown : Inspected repoId lease now log)
    {interaction : RecoveryInteraction} (unseen : inspection? interaction = none)
    : Inspected repoId lease now (interaction :: log) :=
  ⟨by simpa [inspected, unseen] using shown.seen, List.mem_cons_of_mem _ shown.clock⟩

theorem commitsInspected_of_isPlain {request : RecoveryRequest}
    (plain : request.isPlain = true) (log : List RecoveryInteraction)
    : CommitsInspected log request := by
  cases request <;> trivial

theorem keeps_ask {request : RecoveryRequest} (plain : request.isPlain = true)
    : KeepsInspection repoId lease now (ask request) := by
  intro locals log shown
  refine Block.ensures_call.mpr ⟨commitsInspected_of_isPlain plain log, ?_, ?_⟩
  · rintro answer after rfl
    exact shown.cons (inspection_of_isPlain plain _)
  · rintro error after rfl
    trivial

theorem keeps_askWhen {condition : Bool} {request : RecoveryRequest}
    {otherwise : request.Answer} (plain : request.isPlain = true)
    : KeepsInspection repoId lease now (askWhen condition request otherwise) := by
  unfold askWhen
  exact Block.keeps_ite (fun _ => keeps_ask plain) (fun _ => Block.keeps_pure)

theorem keeps_commitReclamation {seen : WorkerLease} (same : lease = some seen)
    (expired : seen.expiresAt.ms ≤ now.ms)
    : KeepsInspection repoId lease now (commitReclamation repoId seen) := by
  refine Block.keeps_bind (keeps_ask rfl) fun time => ?_
  refine Block.keeps_bind ?_ fun _ => Block.keeps_pure
  intro locals log shown
  have permitted : CommitsInspected log (.commitLeaseReclamation {
      repoId
      leaseToken := seen.leaseToken
      runId := seen.runId
      now := time
      expectedLeaseGeneration := { workerId := seen.workerId, runId := seen.runId }
    }) :=
    ⟨seen, now, same ▸ shown, expired, rfl, rfl, rfl⟩
  refine Block.ensures_call.mpr ⟨permitted, ?_, ?_⟩
  · rintro answer after rfl
    exact shown.cons rfl
  · rintro error after rfl
    trivial

variable {deps : RepositoryRecoveryCoordinatorDeps} {state : RepoState}

theorem keeps_readWorkerStale {seen : WorkerLease}
    : KeepsInspection repoId lease now (readWorkerStale deps repoId seen) := by
  refine Block.keeps_bind (keeps_ask rfl) fun worker => ?_
  refine Block.keeps_bind (keeps_ask rfl) fun alive => ?_
  refine Block.keeps_bind (keeps_askWhen rfl) fun hostname => ?_
  exact Block.keeps_bind (keeps_askWhen rfl) fun pid => Block.keeps_pure

theorem keeps_readRun {seen : Option WorkerLease} {job : Option Job}
    : KeepsInspection repoId lease now (readRun seen job) := by
  unfold readRun
  split
  · exact keeps_ask rfl
  · exact keeps_ask rfl
  · exact Block.keeps_pure

theorem keeps_resolveCandidateRun
    : KeepsInspection repoId lease now (resolveCandidateRun deps repoId state) := by
  refine Block.keeps_bind ?_ fun jobRun => ?_
  · split
    · exact keeps_ask rfl
    · exact Block.keeps_pure
  · cases jobRun with
    | some run => exact Block.keeps_pure
    | none =>
        refine Block.keeps_ite (fun _ => Block.keeps_pure) fun _ => ?_
        exact Block.keeps_bind (keeps_askWhen rfl) fun _ => Block.keeps_pure

theorem keeps_rebindLease {candidateRun : Run}
    : KeepsInspection repoId lease now (rebindLease repoId state candidateRun) := by
  refine Block.keeps_bind (keeps_ask rfl) fun _ => ?_
  exact Block.keeps_bind (keeps_ask rfl) fun _ => Block.keeps_pure

theorem keeps_prepareWorktree {run : Run}
    : KeepsInspection repoId lease now (prepareWorktree deps repoId run) := by
  refine Block.keeps_bind (keeps_askWhen rfl) fun worktreePath => ?_
  refine Block.keeps_bind (keeps_askWhen rfl) fun quarantineRoot => ?_
  refine Block.keeps_ite (fun _ => keeps_ask rfl) fun _ => ?_
  exact Block.keeps_bind (keeps_ask rfl) fun _ => Block.keeps_pure

theorem keeps_executeReclaim {candidateRun : Run} (same : state.lease = lease)
    (expired : ∀ seen, lease = some seen → seen.expiresAt.ms ≤ now.ms)
    : KeepsInspection repoId lease now (executeReclaim deps repoId state candidateRun) := by
  refine Block.keeps_bind keeps_prepareWorktree fun safe => ?_
  refine Block.keeps_ite (fun _ => ?_) fun _ => Block.keeps_pure
  split
  · rename_i seen found
    have shown : lease = some seen := same.symm.trans found
    refine Block.keeps_bind (Block.keeps_ifThen fun _ => ?_) fun _ => ?_
    · exact keeps_commitReclamation shown (expired seen shown)
    · exact Block.keeps_ifThen fun _ => keeps_rebindLease
  · exact Block.keeps_pure

theorem keeps_determineLeaseAction {seen : WorkerLease} (same : state.lease = lease)
    (expired : state.isLeaseExpired = true →
      ∀ seen, lease = some seen → seen.expiresAt.ms ≤ now.ms)
    : KeepsInspection repoId lease now (determineLeaseAction deps repoId state seen) := by
  refine Block.keeps_ite (fun stale => ?_) fun _ => Block.keeps_pure
  simp only [Bool.and_eq_true] at stale
  refine Block.keeps_bind keeps_resolveCandidateRun fun candidateRun => ?_
  split
  · exact Block.keeps_pure
  · refine Block.keeps_ite (fun _ => ?_) fun _ => ?_
    · refine Block.keeps_bind (keeps_executeReclaim same (expired stale.1)) fun _ => ?_
      exact Block.keeps_pure
    · refine Block.keeps_bind (Block.keeps_ifThen fun _ => keeps_rebindLease) fun _ => ?_
      exact Block.keeps_bind (keeps_ask rfl) fun _ => Block.keeps_pure

theorem keeps_reactivate {enabled : Bool} {run : Run}
    : KeepsInspection repoId lease now (reactivate repoId enabled run) :=
  Block.keeps_ite (fun _ => Block.keeps_bind (keeps_ask rfl) fun _ => Block.keeps_pure)
    fun _ => Block.keeps_pure

theorem keeps_determineNoLeaseWithRunAction {run : Run}
    : KeepsInspection repoId lease now (determineNoLeaseWithRunAction repoId state run) := by
  refine Block.keeps_ite (fun _ => keeps_reactivate) fun _ => ?_
  refine Block.keeps_ite (fun _ => ?_) fun _ => Block.keeps_pure
  exact Block.keeps_bind (keeps_ask rfl) fun _ => Block.keeps_pure

theorem keeps_determineAction (same : state.lease = lease)
    (expired : state.isLeaseExpired = true →
      ∀ seen, lease = some seen → seen.expiresAt.ms ≤ now.ms)
    : KeepsInspection repoId lease now (determineAction deps repoId state) := by
  refine Block.keeps_ite (fun _ => Block.keeps_pure) fun _ => ?_
  refine Block.keeps_ite (fun _ => Block.keeps_pure) fun _ => ?_
  refine Block.keeps_ite (fun _ => Block.keeps_pure) fun _ => ?_
  split
  · exact keeps_determineLeaseAction same expired
  · exact keeps_determineNoLeaseWithRunAction
  · refine Block.keeps_ite (fun _ => Block.keeps_pure) fun _ => ?_
    refine Block.keeps_bind (keeps_askWhen rfl) fun runs => ?_
    split
    · exact keeps_reactivate
    · exact Block.keeps_pure

end Keeps

/-- The part of `execute` after it read the lease. -/
theorem keeps_afterInspection {deps : RepositoryRecoveryCoordinatorDeps}
    {repoId : RepositoryId} {lease : Option WorkerLease} {now : Date}
    {repo : Option RegisteredRepository}
    : KeepsInspection repoId lease now (executeAfterInspection deps repoId now repo lease) := by
  refine Block.keeps_bind (keeps_ask rfl) fun jobs => ?_
  refine Block.keeps_bind keeps_readRun fun run => ?_
  refine Block.keeps_bind ?_ fun isWorkerStale => ?_
  · split
    · exact keeps_readWorkerStale
    · exact Block.keeps_pure
  · refine Block.keeps_bind (keeps_ask rfl) fun hasActiveLease => ?_
    refine keeps_determineAction rfl ?_
    rintro expired seen rfl
    simpa using expired

/-- Whatever its calls answer, a coordinator commits only for an expired lease that it saw. -/
theorem execute_commitsInspected (deps : RepositoryRecoveryCoordinatorDeps)
    (repoId : RepositoryId)
    : (execute deps repoId).Ensures logged CommitsInspected (fun _ _ _ => True) () [] := by
  refine Block.ensures_bind.mpr (Block.ensures_call.mpr ⟨trivial, ?_, fun _ _ _ => trivial⟩)
  rintro now clock rfl
  rw [Completion.andThen_normal]
  refine Block.ensures_bind.mpr (Block.ensures_call.mpr ⟨trivial, ?_, fun _ _ _ => trivial⟩)
  rintro repo found rfl
  rw [Completion.andThen_normal]
  refine Block.ensures_bind.mpr (Block.ensures_call.mpr ⟨trivial, ?_, fun _ _ _ => trivial⟩)
  rintro lease shown rfl
  rw [Completion.andThen_normal]
  refine Block.Ensures.mono (keeps_afterInspection _ _ ⟨rfl, by simp⟩) ?_
  intro _ _ _ _
  trivial

-----------------------------------------------------------------------------------------
-- Coordinators and lease holders side by side
-----------------------------------------------------------------------------------------

/-- The store, and the lease tokens that were drawn so far: `randomBytes` repeats none. -/
structure RecoveryWorld where
  store : OperationalStore
  drawn : List LeaseToken

/-- The token that a call draws. -/
def LeaseCall.drawnToken : LeaseCall → Option LeaseToken
  | .acquire _ leaseToken => some leaseToken
  | .heartbeat _ | .release _ => none

/-- A call on the leases, unless it draws a token again. -/
def RecoveryWorld.call (call : LeaseCall) (world : RecoveryWorld)
    : Option (LeaseStep × RecoveryWorld) :=
  if (LeaseCall.drawnToken call).any (· ∈ world.drawn) then
    none
  else
    some ((call.step world.store.leases).1, {
      store := { world.store with leases := (call.step world.store.leases).2 }
      drawn := (LeaseCall.drawnToken call).toList ++ world.drawn
    })

/-- What happens next to the coordinators: calls of lease holders, and changes of the jobs and
workers.
-/
inductive RecoveryEvent
  | lease (step : LeaseStep)
  | other

def RecoveryWorld.Happens (world : RecoveryWorld) (event : RecoveryEvent)
    (after : RecoveryWorld)
    : Prop :=
  match event with
  | .lease step => world.call step.call = some (step, after)
  | .other => after.store.leases = world.store.leases ∧ after.drawn = world.drawn

/-- The stores answer from their tables; the other ports answer as they like. A call that
throws changes nothing, but an acquisition may have drawn its token.
-/
def RecoveryWorld.Answers : Environment RecoveryWorld RecoveryRequest RecoveryRequest.Reply
  | world, .currentLease repoId, .ok lease, after =>
      lease = WorkerLeaseRepository.current world.store.leases repoId ∧ after = world
  | world, .checkActiveLease repoId now, .ok active, after =>
      active = WorkerLeaseRepository.checkActiveLease world.store.leases repoId now
        ∧ after = world
  | world, .listJobsForRepo repoId, .ok jobs, after =>
      jobs = JobQueueRepository.listForRepo none world.store.jobs repoId ∧ after = world
  | world, .findWorker id repoId, .ok worker, after =>
      worker = world.store.workers.rows.find? (fun worker =>
        worker.id = id && worker.repoId = repoId) ∧ after = world
  | world, .commitLeaseReclamation input, .ok result, after =>
      ∃ recorded next, OperationalRecoveryRepository.commitLeaseReclamation world.store input
          recorded = .ok (result, next)
        ∧ after = { world with store := next }
  | world, .acquireLease input, .ok lease, after =>
      ∃ leaseToken call, world.call (.acquire input leaseToken)
        = some ({ call, outcome := .ok (some lease) }, after)
  | world, .acquireLease input, .error _, after =>
      after = world ∨ ∃ leaseToken call error, world.call (.acquire input leaseToken)
        = some ({ call, outcome := .error error }, after)
  | world, _, _, after => after = world

abbrev RecoveryEnding : Type :=
  Completion String RepositoryRecoveryAction RepositoryRecoveryAction × Unit

abbrev RecoveryLabel : Type :=
  PoolLabel RecoveryEvent RecoveryRequest RecoveryRequest.Reply RecoveryEnding

abbrev RecoveryPool : Type :=
  Pool RecoveryWorld RecoveryRequest RecoveryRequest.Reply RecoveryEnding

/-- Any number of coordinators with any ports, on any repositories, from any leases. -/
def recoverySystem : System RecoveryPool RecoveryLabel :=
  poolSystem
    (fun world => ∀ lease ∈ world.store.leases.rows, lease.leaseToken ∈ world.drawn)
    RecoveryWorld.Answers RecoveryWorld.Happens
    (fun program => ∃ deps repoId, program = execute deps repoId ())

/-- A heartbeat that got through. -/
def heartbeat? : RecoveryLabel → Option HeartbeatLeaseInput
  | .event (.lease ⟨.heartbeat input, .ok _⟩) => some input
  | _ => none

/-- A step in which a coordinator sees the lease of its repository. -/
def inspects (thread : Nat) (label : RecoveryLabel) : Bool :=
  ((label.interaction? thread).bind inspection?).isSome

/-- The latest heartbeat that reached a lease since a coordinator saw it. -/
def latestHeartbeat (thread : Nat) (lease : WorkerLease)
    : List RecoveryLabel → Option HeartbeatLeaseInput
  | [] => none
  | label :: earlier =>
      if inspects thread label then
        none
      else
        ((heartbeat? label).filter fun input => WorkerLeaseRepository.fenced input.repoId
          input.workerId input.runId input.leaseToken lease).or
          (latestHeartbeat thread lease earlier)

/-- The time at which the lease that a coordinator saw expires: as it saw it, or as the latest
heartbeat since then has set it.
-/
def expiryNow (thread : Nat) (lease : WorkerLease) (labels : List RecoveryLabel) : Date :=
  ((latestHeartbeat thread lease labels).map HeartbeatLeaseInput.newExpiresAt).getD
    lease.expiresAt

/-- The lease that the coordinator saw has expired at the time of its commit: no heartbeat
since then has set a later expiry, and the clock has not gone back.
-/
def CommitsInTime (labels : List RecoveryLabel) (thread : Nat)
    (input : CommitLeaseReclamationInput)
    : Prop :=
  ∀ lease, inspected (ownLog thread labels) = some (input.repoId, some lease) →
    (expiryNow thread lease labels).ms ≤ input.now.ms

/-- No lease that has not expired at the commit's own time is deleted, and no job changes. -/
def SparesLiveLeases (before : OperationalStore) (input : CommitLeaseReclamationInput)
    (after : OperationalStore)
    : Prop :=
  after.jobs = before.jobs
    ∧ ∀ repoId lease, WorkerLeaseRepository.current before.leases repoId = some lease →
        WorkerLeaseRepository.isLive lease input.now = true →
        WorkerLeaseRepository.current after.leases repoId = some lease

/-- What a step may do to the leases. -/
inductive LeaseEffect (world : RecoveryWorld) (label : RecoveryLabel) (after : RecoveryWorld)
    : Prop
  | same (quiet : heartbeat? label = none)
      (leases : ∀ repoId, WorkerLeaseRepository.current after.store.leases repoId
        = WorkerLeaseRepository.current world.store.leases repoId)
      (drawn : world.drawn ⊆ after.drawn)
  | acquired (quiet : heartbeat? label = none) (target : RepositoryId) (lease : WorkerLease)
      (fresh : lease.leaseToken ∉ world.drawn)
      (leases : ∀ repoId, WorkerLeaseRepository.current after.store.leases repoId
        = if repoId = target then some lease
          else WorkerLeaseRepository.current world.store.leases repoId)
      (drawn : after.drawn = lease.leaseToken :: world.drawn)
  | extended (input : HeartbeatLeaseInput) (beats : heartbeat? label = some input)
      (held : WorkerLease)
      (stored : WorkerLeaseRepository.current world.store.leases input.repoId = some held)
      (fence : WorkerLeaseRepository.fenced input.repoId input.workerId input.runId
        input.leaseToken held = true)
      (leases : ∀ repoId, WorkerLeaseRepository.current after.store.leases repoId
        = if repoId = input.repoId then some (WorkerLeaseRepository.extend input held)
          else WorkerLeaseRepository.current world.store.leases repoId)
      (drawn : after.drawn = world.drawn)
  | removed (quiet : heartbeat? label = none) (target : RepositoryId)
      (leases : ∀ repoId, WorkerLeaseRepository.current after.store.leases repoId
        = if repoId = target then none
          else WorkerLeaseRepository.current world.store.leases repoId)
      (drawn : after.drawn = world.drawn)

/-- A call on the leases that draws no used token has one of these effects, by cases on the
call and its outcome.
-/
theorem leaseEffect_of_call {world after : RecoveryWorld} {call : LeaseCall} {step : LeaseStep}
    {label : RecoveryLabel} (called : world.call call = some (step, after))
    (beats : heartbeat? label = heartbeat? (.event (.lease step)))
    : LeaseEffect world label after := by
  unfold RecoveryWorld.call at called
  split at called
  · contradiction
  rename_i unused
  obtain ⟨rfl, rfl⟩ := Prod.mk.inj (Option.some.inj called)
  unfold LeaseCall.step at beats ⊢
  cases performed : call.perform world.store.leases with
  | error error =>
      rw [performed] at beats
      refine .same ?_ (fun repoId => ?_) (List.subset_append_right _ _)
      · rw [beats]
        cases call <;> rfl
      · rfl
  | ok done =>
      rw [performed] at beats
      cases call with
      | acquire input leaseToken =>
          obtain ⟨⟨lease, table⟩, acquires, rest⟩ := checked_bind_eq_ok.mp performed
          obtain rfl := Except.ok.inj rest
          obtain ⟨⟨expiresAt, _, rfl⟩, _, rows⟩ := WorkerLeaseRepository.acquire_eq_ok acquires
          have fresh : leaseToken ∉ world.drawn := by
            simpa [LeaseCall.drawnToken] using unused
          exact .acquired beats input.repoId
            (WorkerLeaseRepository.leaseOf input expiresAt leaseToken) fresh rows rfl
      | heartbeat input =>
          obtain ⟨table, beat, rest⟩ := checked_bind_eq_ok.mp performed
          obtain rfl := Except.ok.inj rest
          obtain ⟨held, stored, fence, rows⟩ := WorkerLeaseRepository.heartbeat_eq_ok beat
          exact .extended input beats held stored fence rows rfl
      | release input =>
          obtain ⟨table, releases, rest⟩ := checked_bind_eq_ok.mp performed
          obtain rfl := Except.ok.inj rest
          obtain ⟨held, stored, fence, rows⟩ := WorkerLeaseRepository.release_eq_ok releases
          exact .removed beats input.repoId rows rfl

theorem leaseEffect_of_acquire {world after : RecoveryWorld} {input : AcquireLeaseInput}
    {leaseToken : LeaseToken} {step : LeaseStep} {label : RecoveryLabel}
    (called : world.call (.acquire input leaseToken) = some (step, after))
    (quiet : heartbeat? label = none)
    : LeaseEffect world label after := by
  refine leaseEffect_of_call called ?_
  unfold RecoveryWorld.call at called
  split at called
  · contradiction
  · obtain ⟨rfl, _⟩ := Prod.mk.inj (Option.some.inj called)
    have same := LeaseCall.call_step (.acquire input leaseToken) world.store.leases
    rw [quiet]
    generalize ((LeaseCall.acquire input leaseToken).step world.store.leases).1 = step at same
    cases step
    cases same
    rfl

/-- A commit removes the lease of the generation that it names, or changes nothing. -/
theorem leases_of_commit {store next : OperationalStore} {input : CommitLeaseReclamationInput}
    {recorded : JobChecked Unit} {result : LeaseReclamationResult}
    (commits : OperationalRecoveryRepository.commitLeaseReclamation store input recorded
      = .ok (result, next))
    : (result.committed = false ∧ next = store)
      ∨ (result.committed = true
        ∧ ∃ lease, WorkerLeaseRepository.current store.leases input.repoId = some lease
          ∧ WorkerLeaseRepository.fenced input.repoId input.expectedLeaseGeneration.workerId
            input.expectedLeaseGeneration.runId input.leaseToken lease = true
          ∧ (∀ repoId, WorkerLeaseRepository.current next.leases repoId
            = if repoId = input.repoId then none
              else WorkerLeaseRepository.current store.leases repoId)
          ∧ (input.expectedJobOwnership = none → next.jobs = store.jobs)) := by
  rcases OperationalRecoveryRepository.commitLeaseReclamation_eq_ok commits with
    idle | ⟨lease, jobs, worker, committed, found, token, holder, run, requeues, rfl⟩
  · exact .inl idle
  · have fence : WorkerLeaseRepository.fenced input.repoId
        input.expectedLeaseGeneration.workerId input.expectedLeaseGeneration.runId
        input.leaseToken lease = true :=
      WorkerLeaseRepository.fenced_iff.mpr ⟨Table.key_of_findKey found, holder, run, token⟩
    refine .inr ⟨committed, lease, found, fence, fun repoId => ?_, fun unnamed => ?_⟩
    · exact Table.findKey_delete leaseSchema_keyed found
        (fun _ selected => (WorkerLeaseRepository.fenced_iff.mp selected).1) fence repoId
    · rcases OperationalRecoveryRepository.requeueOwned_eq_ok requeues with
        ⟨_, rfl⟩ | ⟨owner, _, _, named, _⟩
      · rfl
      · rw [unnamed] at named
        contradiction

/-- Every step has one of these effects on the leases, by cases on the step. -/
theorem leaseEffect_of_step {pool next : RecoveryPool} {label : RecoveryLabel}
    (taken : recoverySystem.step pool label next)
    : LeaseEffect pool.state label next.state := by
  cases taken with
  | @event world after threads event happened =>
      cases event with
      | lease step => exact leaseEffect_of_call happened rfl
      | other =>
          obtain ⟨leases, drawn⟩ := happened
          exact .same rfl (fun repoId => by rw [leases]) (drawn ▸ List.Subset.refl _)
  | start permitted => exact .same rfl (fun _ => rfl) (List.Subset.refl _)
  | @act world after threads thread request rest reply running answered =>
      have unchanged (same : after = world)
          : LeaseEffect world (.act thread request reply) after :=
        .same rfl (fun _ => by rw [same]) (same ▸ List.Subset.refl _)
      cases request with
      | commitLeaseReclamation input =>
          cases reply with
          | error error => exact unchanged answered
          | ok result =>
              obtain ⟨recorded, store, commits, rfl⟩ := answered
              rcases leases_of_commit commits with ⟨_, rfl⟩ | ⟨_, lease, _, _, leases, _⟩
              · exact unchanged rfl
              · exact .removed rfl input.repoId leases rfl
      | acquireLease input =>
          cases reply with
          | error error =>
              rcases answered with same | ⟨leaseToken, call, failure, called⟩
              · exact unchanged same
              · exact leaseEffect_of_acquire called rfl
          | ok lease =>
              obtain ⟨leaseToken, call, called⟩ := answered
              exact leaseEffect_of_acquire called rfl
      | currentLease | checkActiveLease | listJobsForRepo | findWorker =>
          cases reply with
          | error error => exact unchanged answered
          | ok answer => exact unchanged answered.2
      | now | findRepository | findRun | listRunsForRepo | isWorkerAlive
        | registryWorkerHostname | checkPid | getWorktreePath | getQuarantineRoot
        | prepareWorktree | resetWorktree | onOrphan | onWaitingReactivation =>
          exact unchanged answered

section Inspection

variable {thread : Nat} {label : RecoveryLabel} {labels : List RecoveryLabel}
  {lease : WorkerLease}

theorem inspected_cons (thread : Nat) (label : RecoveryLabel) (labels : List RecoveryLabel)
    : inspected (ownLog thread (label :: labels))
      = ((label.interaction? thread).bind inspection?).or (inspected (ownLog thread labels)) := by
  unfold inspected ownLog
  cases interaction : label.interaction? thread with
  | none => simp [interaction]
  | some exchange =>
      cases shown : inspection? exchange with
      | none => simp [interaction, shown]
      | some seen => simp [interaction, shown]

theorem eq_of_inspects (inspecting : inspects thread label = true)
    : ∃ repoId lease, label = .act thread (.currentLease repoId) (.ok lease) := by
  unfold inspects at inspecting
  obtain ⟨seen, shown⟩ := Option.isSome_iff_exists.mp inspecting
  obtain ⟨exchange, found, shown⟩ := Option.bind_eq_some_iff.mp shown
  rw [PoolLabel.eq_act_of_interaction found]
  obtain ⟨request, reply⟩ := exchange
  unfold inspection? at shown
  split at shown
  · rename_i repoId lease same
    cases same
    exact ⟨repoId, lease, rfl⟩
  · contradiction

theorem inspected_of_plain (plain : inspects thread label = false)
    : inspected (ownLog thread (label :: labels)) = inspected (ownLog thread labels) := by
  rw [inspected_cons]
  cases shown : (label.interaction? thread).bind inspection? with
  | none => rfl
  | some seen => simp [inspects, shown] at plain

theorem expiryNow_of_inspects (inspecting : inspects thread label = true)
    : expiryNow thread lease (label :: labels) = lease.expiresAt := by
  simp [expiryNow, latestHeartbeat, inspecting]

theorem expiryNow_of_quiet (plain : inspects thread label = false)
    (quiet : heartbeat? label = none)
    : expiryNow thread lease (label :: labels) = expiryNow thread lease labels := by
  simp [expiryNow, latestHeartbeat, plain, quiet]

theorem inspects_of_heartbeat {input : HeartbeatLeaseInput}
    (beats : heartbeat? label = some input)
    : inspects thread label = false := by
  cases label with
  | event event => rfl
  | start program => rfl
  | act actor request reply => simp [heartbeat?] at beats

theorem expiryNow_of_heartbeat {input : HeartbeatLeaseInput}
    (beats : heartbeat? label = some input)
    : expiryNow thread lease (label :: labels)
      = if WorkerLeaseRepository.fenced input.repoId input.workerId input.runId
          input.leaseToken lease then input.newExpiresAt
        else expiryNow thread lease labels := by
  have plain : inspects thread label = false := inspects_of_heartbeat beats
  by_cases fence : WorkerLeaseRepository.fenced input.repoId input.workerId input.runId
      input.leaseToken lease = true
  · simp [expiryNow, latestHeartbeat, plain, beats, Option.filter_some, fence]
  · simp [expiryNow, latestHeartbeat, plain, beats, Option.filter_some, fence]

end Inspection

/-- The lease that a coordinator saw still has its worker and run while it is stored, and
expires as the heartbeats since then have set.
-/
structure Tracked (labels : List RecoveryLabel) (world : RecoveryWorld) (thread : Nat)
    (repoId : RepositoryId) (lease : WorkerLease)
    : Prop where
  repo : lease.repoId = repoId
  drawn : lease.leaseToken ∈ world.drawn
  stored : ∀ held, WorkerLeaseRepository.current world.store.leases repoId = some held →
    held.leaseToken = lease.leaseToken →
    held.workerId = lease.workerId ∧ held.runId = lease.runId
      ∧ held.expiresAt = expiryNow thread lease labels

/-- All stored leases have drawn tokens, and all leases that were seen are tracked. -/
structure LeasesTracked (labels : List RecoveryLabel) (world : RecoveryWorld) : Prop where
  drawn : ∀ repoId held, WorkerLeaseRepository.current world.store.leases repoId = some held →
    held.leaseToken ∈ world.drawn
  seen : ∀ thread repoId lease,
    inspected (ownLog thread labels) = some (repoId, some lease) →
    Tracked labels world thread repoId lease

section Tracked

variable {labels : List RecoveryLabel} {world after : RecoveryWorld} {label : RecoveryLabel}
  {thread : Nat} {repoId : RepositoryId} {lease : WorkerLease}

/-- A lease that was seen before a step is tracked after it, by cases on what the step did to
the leases: only a heartbeat moves an expiry, and an acquisition draws another token.
-/
theorem Tracked.step (tracked : Tracked labels world thread repoId lease)
    (effect : LeaseEffect world label after) (plain : inspects thread label = false)
    : Tracked (label :: labels) after thread repoId lease := by
  cases effect with
  | same quiet leases drawn =>
      refine ⟨tracked.repo, drawn tracked.drawn, ?_⟩
      rw [leases, expiryNow_of_quiet plain quiet]
      exact tracked.stored
  | acquired quiet target acquired fresh leases drawn =>
      refine ⟨tracked.repo, drawn ▸ List.mem_cons_of_mem _ tracked.drawn, ?_⟩
      rw [leases, expiryNow_of_quiet plain quiet]
      split
      · rintro held ⟨⟩ same
        exact absurd (same ▸ tracked.drawn) fresh
      · exact tracked.stored
  | extended input beats held stored fence leases drawn =>
      refine ⟨tracked.repo, drawn ▸ tracked.drawn, ?_⟩
      rw [leases, expiryNow_of_heartbeat beats]
      obtain ⟨_, sameWorker, sameRun, sameToken⟩ := WorkerLeaseRepository.fenced_iff.mp fence
      split
      · rename_i here
        rintro extended ⟨⟩ token
        obtain ⟨worker, run, _⟩ := tracked.stored held (here ▸ stored) token
        have reached : WorkerLeaseRepository.fenced input.repoId input.workerId input.runId
            input.leaseToken lease = true :=
          WorkerLeaseRepository.fenced_iff.mpr ⟨tracked.repo.trans here,
            worker ▸ sameWorker, run ▸ sameRun, token ▸ sameToken⟩
        rw [if_pos reached]
        exact ⟨worker, run, rfl⟩
      · rename_i elsewhere
        have missed : ¬WorkerLeaseRepository.fenced input.repoId input.workerId input.runId
            input.leaseToken lease = true := by
          intro reached
          exact elsewhere
            (tracked.repo.symm.trans (WorkerLeaseRepository.fenced_iff.mp reached).1)
        rw [if_neg missed]
        exact tracked.stored
  | removed quiet target leases drawn =>
      refine ⟨tracked.repo, drawn ▸ tracked.drawn, ?_⟩
      rw [leases, expiryNow_of_quiet plain quiet]
      split
      · rintro held ⟨⟩
      · exact tracked.stored

/-- All stored leases have drawn tokens after a step too. -/
theorem drawn_of_effect (effect : LeaseEffect world label after)
    (drawn : ∀ repoId held, WorkerLeaseRepository.current world.store.leases repoId = some held →
      held.leaseToken ∈ world.drawn)
    : ∀ repoId held, WorkerLeaseRepository.current after.store.leases repoId = some held →
      held.leaseToken ∈ after.drawn := by
  intro repoId held found
  cases effect with
  | same quiet leases more =>
      rw [leases] at found
      exact more (drawn repoId held found)
  | acquired quiet target acquired fresh leases more =>
      rw [leases] at found
      rw [more]
      split at found
      · cases found
        exact List.mem_cons_self
      · exact List.mem_cons_of_mem _ (drawn repoId held found)
  | extended input beats extended stored fence leases more =>
      rw [leases] at found
      rw [more]
      split at found
      · cases found
        exact drawn _ extended stored
      · exact drawn repoId held found
  | removed quiet target leases more =>
      rw [leases] at found
      rw [more]
      split at found
      · contradiction
      · exact drawn repoId held found

end Tracked

/-- In every run, all leases are tracked, by the run invariant rule. -/
theorem leasesTracked_of_run {labels : List RecoveryLabel} {pool : RecoveryPool}
    (run : recoverySystem.Run labels pool)
    : LeasesTracked labels pool.state := by
  refine run.invariant (fun labels pool => LeasesTracked labels pool.state) ?_ ?_
  · intro pool initial
    refine ⟨fun repoId held found => ?_, fun thread repoId lease seen => ?_⟩
    · exact initial.1 held (Table.mem_of_findKey found)
    · simp [ownLog, inspected] at seen
  · intro labels pool label next tracked taken
    have effect := leaseEffect_of_step taken
    refine ⟨drawn_of_effect effect tracked.drawn, fun thread repoId lease seen => ?_⟩
    cases inspecting : inspects thread label with
    | false =>
        rw [inspected_of_plain inspecting] at seen
        exact (tracked.seen thread repoId lease seen).step effect inspecting
    | true =>
        obtain ⟨target, shown, rfl⟩ := eq_of_inspects inspecting
        rw [inspected_cons] at seen
        simp only [PoolLabel.interaction?, if_pos, Option.bind_some, inspection?,
          Option.some_or, Option.some.injEq, Prod.mk.injEq] at seen
        obtain ⟨rfl, rfl⟩ := seen
        cases taken with
        | act running answered =>
            obtain ⟨found, rfl⟩ := answered
            refine ⟨Table.key_of_findKey found.symm, tracked.drawn _ _ found.symm, ?_⟩
            intro held again _
            obtain rfl := Option.some.inj (again.symm.trans found.symm)
            exact ⟨rfl, rfl, (expiryNow_of_inspects inspecting).symm⟩

/-- In every run and at each commit of a coordinator, live leases and their jobs are spared if
the lease that the coordinator saw has expired by then, and a commit that takes a lease back
spares live leases only then.
-/
theorem commits_spare_live_leases {labels : List RecoveryLabel} {pool next : RecoveryPool}
    {thread : Nat} {input : CommitLeaseReclamationInput}
    {reply : RecoveryRequest.Reply (.commitLeaseReclamation input)}
    (run : recoverySystem.Run labels pool)
    (taken : recoverySystem.step pool (.act thread (.commitLeaseReclamation input) reply) next)
    : (CommitsInTime labels thread input →
        SparesLiveLeases pool.state.store input next.state.store)
      ∧ ∀ result, reply = .ok result → result.committed = true →
        SparesLiveLeases pool.state.store input next.state.store →
        CommitsInTime labels thread input := by
  obtain ⟨lease, now, shown, _, token, generation, unnamed⟩ :=
    Pool.allowed_of_act (fun program started => by
      obtain ⟨deps, repoId, rfl⟩ := started
      exact execute_commitsInspected deps repoId) run taken
  have tracked := (leasesTracked_of_run run).seen thread input.repoId lease shown.seen
  cases taken with
  | @act world after threads _ _ _ _ running answered =>
      cases reply with
      | error error =>
          obtain rfl : after = world := answered
          exact ⟨fun _ => ⟨rfl, fun _ _ found _ => found⟩, fun _ same => by contradiction⟩
      | ok result =>
          obtain ⟨recorded, store, commits, rfl⟩ := answered
          rcases leases_of_commit commits with
            ⟨idle, rfl⟩ | ⟨committed, held, found, fence, leases, jobs⟩
          · refine ⟨fun _ => ⟨rfl, fun _ _ found _ => found⟩, ?_⟩
            rintro _ ⟨⟩ committed
            simp [idle] at committed
          · have sameToken : held.leaseToken = lease.leaseToken :=
              (WorkerLeaseRepository.fenced_iff.mp fence).2.2.2.trans token
            have expiry : held.expiresAt = expiryNow thread lease labels :=
              (tracked.stored held found sameToken).2.2
            refine ⟨fun inTime => ⟨jobs unnamed, fun repoId kept before live => ?_⟩, ?_⟩
            · rw [leases]
              split
              · rename_i here
                subst here
                obtain rfl := Option.some.inj (before.symm.trans found)
                have passed := inTime lease shown.seen
                rw [← expiry] at passed
                simp only [WorkerLeaseRepository.isLive, decide_eq_true_eq] at live
                omega
              · exact before
            · rintro _ ⟨⟩ _ spares seen again
              obtain ⟨_, same⟩ := Prod.mk.inj (Option.some.inj (shown.seen.symm.trans again))
              obtain rfl := Option.some.inj same
              rw [← expiry]
              by_contra later
              have live : WorkerLeaseRepository.isLive held input.now = true := by
                simp only [WorkerLeaseRepository.isLive, decide_eq_true_eq]
                omega
              have still := spares.2 input.repoId held found live
              simp [leases] at still

-----------------------------------------------------------------------------------------
-- A heartbeat between inspection and commit
-----------------------------------------------------------------------------------------

def recoveryTime : Date := .fiveSeconds

def staleLease : WorkerLease :=
  {
    repoId := "repo"
    workerId := "worker"
    runId := "run"
    acquiredAt := Date.epoch
    heartbeatAt := Date.epoch
    expiresAt := .oneSecond
    leaseToken := "token"
  }

def runningRun : Run :=
  { createRun {
      uuid := "run"
      displayId := "run"
      repoId := "repo"
      issueNumber := 1
      startedAt := Date.epoch
    } with status := .running }

def runningJob : Job :=
  { createJob {
      id := "job"
      runId := "run"
      repoId := "repo"
      issueNumber := 1
      createdAt := Date.epoch
    } with status := .running, claimedBy := some "worker", claimToken := some "claim" }

def silentWorker : Worker :=
  {
    id := "worker"
    repoId := "repo"
    hostname := "host"
    processId := 1
    status := .busy
    heartbeatAt := Date.epoch
  }

/-- A repository whose worker has let its lease expire while it runs a job. -/
def staleWorld : RecoveryWorld :=
  {
    store := {
      jobs := ⟨[runningJob], by simp⟩
      leases := ⟨[staleLease], by simp⟩
      workers := ⟨[silentWorker], by simp⟩
    }
    drawn := ["token"]
  }

/-- Answers the calls of a coordinator that takes the worker for dead. -/
def recoveryHandler (world : RecoveryWorld)
    : (request : RecoveryRequest) → Option (request.Reply × RecoveryWorld)
  | .now => some (.ok recoveryTime, world)
  | .currentLease repoId =>
      some (.ok (WorkerLeaseRepository.current world.store.leases repoId), world)
  | .checkActiveLease repoId now =>
      some (.ok (WorkerLeaseRepository.checkActiveLease world.store.leases repoId now), world)
  | .listJobsForRepo repoId =>
      some (.ok (JobQueueRepository.listForRepo none world.store.jobs repoId), world)
  | .findWorker id repoId =>
      some (.ok (world.store.workers.rows.find? (fun worker =>
        worker.id = id && worker.repoId = repoId)), world)
  | .commitLeaseReclamation input =>
      match OperationalRecoveryRepository.commitLeaseReclamation world.store input (.ok ()) with
      | .ok (result, next) => some (.ok result, { world with store := next })
      | .error _ => none
  | .findRepository id =>
      some (.ok (some { id, enabled := true, fullName := "repo", localBasePath := "base" }),
        world)
  | .findRun _ => some (.ok (some runningRun), world)
  | .isWorkerAlive _ => some (.ok false, world)
  | .getWorktreePath _ => some (.ok "worktree", world)
  | .prepareWorktree _ => some (.ok true, world)
  | .acquireLease _ | .listRunsForRepo _ | .registryWorkerHostname _ _ | .checkPid _
  | .getQuarantineRoot _ | .resetWorktree _ | .onOrphan _ | .onWaitingReactivation _ _ => none

theorem recoveryHandler_answers (world : RecoveryWorld) (request : RecoveryRequest)
    (reply : request.Reply) (after : RecoveryWorld)
    (handled : recoveryHandler world request = some (reply, after))
    : world.Answers request reply after := by
  cases request with
  | commitLeaseReclamation input =>
      simp only [recoveryHandler] at handled
      split at handled
      · rename_i result next commits
        obtain ⟨rfl, rfl⟩ := Prod.mk.inj (Option.some.inj handled)
        exact ⟨.ok (), next, commits, rfl⟩
      · contradiction
  | currentLease | checkActiveLease | listJobsForRepo | findWorker =>
      obtain ⟨rfl, rfl⟩ := Prod.mk.inj (Option.some.inj handled)
      exact ⟨rfl, rfl⟩
  | now | findRepository | findRun | isWorkerAlive | getWorktreePath | prepareWorktree =>
      obtain ⟨rfl, rfl⟩ := Prod.mk.inj (Option.some.inj handled)
      rfl
  | acquireLease | listRunsForRepo | registryWorkerHostname | checkPid | getQuarantineRoot
    | resetWorktree | onOrphan | onWaitingReactivation => contradiction

def leaseEvent (call : LeaseCall) (world : RecoveryWorld)
    : Option (RecoveryEvent × RecoveryWorld) :=
  (world.call call).map fun (step, after) => (.lease step, after)

theorem leaseEvent_happens (call : LeaseCall) (world : RecoveryWorld) (event : RecoveryEvent)
    (after : RecoveryWorld) (performed : leaseEvent call world = some (event, after))
    : world.Happens event after := by
  obtain ⟨⟨step, reached⟩, called, same⟩ := Option.map_eq_some_iff.mp performed
  obtain ⟨rfl, rfl⟩ := Prod.mk.inj same
  have sameCall : step.call = call := by
    unfold RecoveryWorld.call at called
    split at called
    · contradiction
    · rw [← (Prod.mk.inj (Option.some.inj called)).1, LeaseCall.call_step]
  change world.call step.call = some (step, reached)
  rw [sameCall]
  exact called

def preparingDeps : RepositoryRecoveryCoordinatorDeps :=
  { worktreeRecovery := true, operationalRecovery := true, getWorktreePath := true }

/-- A coordinator up to the preparation of the worktree, and from there to its commit, with
some calls of lease holders in between.
-/
def recoverySchedule (calls : List LeaseCall)
    : List (Move LeaseCall RecoveryRequest RecoveryRequest.Reply RecoveryEnding) :=
  [.start (execute preparingDeps "repo" ())] ++ List.replicate 10 (.act 0)
    ++ calls.map .event ++ [.act 0, .act 0]

def recoveryPlay (calls : List LeaseCall) : Option (List RecoveryLabel × RecoveryPool) :=
  Pool.play recoveryHandler leaseEvent (recoverySchedule calls) [] ⟨staleWorld, []⟩

theorem run_recoveryPlay {calls : List LeaseCall} {labels : List RecoveryLabel}
    {pool : RecoveryPool} (played : recoveryPlay calls = some (labels, pool))
    : recoverySystem.Run labels pool := by
  refine Pool.run_of_play recoveryHandler_answers leaseEvent_happens ?_ (.start ?_) played
  · intro program member
    simp only [recoverySchedule, List.mem_append, List.mem_cons, List.mem_map,
      List.mem_replicate, List.not_mem_nil, Move.start.injEq, reduceCtorEq, or_false,
      and_false, exists_false] at member
    exact ⟨preparingDeps, "repo", member⟩
  · exact ⟨by simp [staleWorld, staleLease], rfl⟩

/-- The heartbeat of the worker that the coordinator takes for dead. -/
def lateHeartbeat : LeaseCall :=
  .heartbeat {
    repoId := "repo"
    workerId := "worker"
    runId := "run"
    now := recoveryTime
    newExpiresAt := ⟨100000, by decide⟩
    leaseToken := "token"
  }

/-- The commit that the coordinator makes in the end. -/
def recoveryCommit : CommitLeaseReclamationInput :=
  {
    repoId := "repo"
    leaseToken := "token"
    runId := "run"
    now := recoveryTime
    expectedLeaseGeneration := { workerId := "worker", runId := "run" }
  }

theorem step_of_recoveryMove {pool next : RecoveryPool} {label : RecoveryLabel} (thread : Nat)
    (moved : pool.move recoveryHandler leaseEvent (.act thread) = some (label, next))
    : recoverySystem.step pool label next :=
  Pool.step_of_move recoveryHandler_answers leaseEvent_happens (fun _ same => by contradiction)
    moved

/-- A coordinator deletes a lease that a heartbeat has just extended. -/
theorem commit_deletes_live_lease
    : ¬∀ (labels : List RecoveryLabel) (pool next : RecoveryPool) (thread : Nat)
        (input : CommitLeaseReclamationInput)
        (reply : RecoveryRequest.Reply (.commitLeaseReclamation input)),
        recoverySystem.Run labels pool →
        recoverySystem.step pool (.act thread (.commitLeaseReclamation input) reply) next →
        SparesLiveLeases pool.state.store input next.state.store := by
  intro claim
  let reached := (recoveryPlay [lateHeartbeat]).get rfl
  let moved := (reached.2.move recoveryHandler leaseEvent (.act 0)).get rfl
  have played : recoveryPlay [lateHeartbeat] = some (reached.1, reached.2) := rfl
  have run : recoverySystem.Run reached.1 reached.2 := run_recoveryPlay played
  have step : recoverySystem.step reached.2
      (.act 0 (.commitLeaseReclamation recoveryCommit) (.ok { committed := true })) moved.2 :=
    step_of_recoveryMove 0 rfl
  have spared := (claim _ _ _ _ _ _ run step).2 "repo" _ rfl rfl
  have deleted : (none : Option WorkerLease) = some _ := spared
  contradiction

/-- Without a heartbeat in between, the commit is in time and spares live leases. -/
theorem commits_spare_live_leases_stale
    : let reached := (recoveryPlay []).get rfl
      let moved := (reached.2.move recoveryHandler leaseEvent (.act 0)).get rfl
      SparesLiveLeases reached.2.state.store recoveryCommit moved.2.state.store := by
  intro reached moved
  have played : recoveryPlay [] = some (reached.1, reached.2) := rfl
  have step : recoverySystem.step reached.2
      (.act 0 (.commitLeaseReclamation recoveryCommit) (.ok { committed := true })) moved.2 :=
    step_of_recoveryMove 0 rfl
  refine (commits_spare_live_leases (run_recoveryPlay played) step).1 ?_
  intro lease seen
  have shown : some ("repo", some staleLease) = some (recoveryCommit.repoId, some lease) := seen
  cases shown
  decide

end AiSdlc.Application
