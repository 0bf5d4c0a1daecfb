import AiSdlc.Application.RecoverySystem
import AiSdlc.Async.Reach
import AiSdlc.Async.Block
import AiSdlc.Sqlite.RequeuePaths

/-! Two readings of an expired claim: the one by which the coordinator classifies a repository,
and the one by which the store takes claims back. They differ on running jobs, on claims
without an expiry, on the instant of the expiry, and on live claims beside an expired one.
-/

namespace AiSdlc.Application

open AiSdlc.Js
open AiSdlc.Domain
open AiSdlc.Async
open AiSdlc.Sqlite
open RepositoryRecoveryCoordinator
open OperationalRecoveryRepository

/-- The replies at one time: the clock stands still. -/
def RecoveryWorld.AnswersAt (now : Date)
    : Environment RecoveryWorld RecoveryRequest RecoveryRequest.Reply
  | world, .now, .ok time, after => time = now ∧ after = world
  | world, request, reply, after => world.Answers request reply after

/-- An execution that classifies the repository as one with an expired claim. -/
def ClassifiesExpired (deps : RepositoryRecoveryCoordinatorDeps) (world : RecoveryWorld)
    (repoId : RepositoryId) (now : Date)
    : Prop :=
  ∃ after, (execute deps repoId ()).Exec (RecoveryWorld.AnswersAt now) world
    (.normal .requeue, ()) after

/-- The expired claims of a run that the coordinator finds are reclaimed by the store, and no
claim that the coordinator takes for a live one is.
-/
structure ClassificationsAgree (deps : RepositoryRecoveryCoordinatorDeps) (world : RecoveryWorld)
    (repoId : RepositoryId) (runId : RunId) (now : Date)
    : Prop where
  commits : ClassifiesExpired deps world repoId now →
    (∃ job ∈ world.store.jobs.rows, job.repoId = repoId ∧ job.runId = runId
      ∧ isExpiredClaim now job = true) →
    ∃ next, reclaimExpiredClaim world.store { repoId, runId, now } (.ok ())
      = .ok ({ committed := true }, next)
  spares : ∀ recorded next, reclaimExpiredClaim world.store { repoId, runId, now } recorded
      = .ok ({ committed := true }, next) →
    ∀ id row, world.store.jobs.find id = some row → next.jobs.find id ≠ some row →
      isActiveNonExpired now row = false

/-- The repository has no live lease, no waiting job, and a claim that expired before now. -/
structure HasExpiredClaim (store : OperationalStore) (repoId : RepositoryId) (now : Date)
    : Prop where
  unleased : WorkerLeaseRepository.checkActiveLease store.leases repoId now = false
  noneQueued : ∀ job ∈ store.jobs.rows, job.repoId = repoId → job.status ≠ .queued
  expired : ∃ job ∈ store.jobs.rows, job.repoId = repoId ∧ isExpiredClaim now job = true

section Classification

variable {deps : RepositoryRecoveryCoordinatorDeps} {world : RecoveryWorld}
  {repoId : RepositoryId} {now : Date} {α : Type}

/-- What a block may answer with while it leaves the world alone. -/
def Reads (world : RecoveryWorld) (now : Date) (after : α → Prop)
    (statements : RecoveryStatements α)
    : Prop :=
  statements.Meets (RecoveryWorld.AnswersAt now) (fun _ _ => True)
    (fun _ state => state = world) (fun value _ state => state = world ∧ after value)
    (fun _ _ _ => True) fun _ _ _ => True

theorem reads_pure {value : α} {after : α → Prop} (holds : after value)
    : Reads world now after (pure value) :=
  Block.meets_pure fun _ _ same => ⟨same, holds⟩

theorem reads_bind {β : Type} {first : RecoveryStatements β}
    {next : β → RecoveryStatements α} {middle : β → Prop} {after : α → Prop}
    (reads : Reads world now middle first)
    (rest : ∀ value, middle value → Reads world now after (next value))
    : Reads world now after (first >>= next) :=
  Block.meets_bind reads fun value locals state holds =>
    rest value holds.2 locals state holds.1

theorem reads_ask {request : RecoveryRequest} {after : request.Answer → Prop}
    (answers : ∀ answer next, RecoveryWorld.AnswersAt now world request (.ok answer) next →
      next = world ∧ after answer)
    : Reads world now after (ask request) := by
  refine Block.meets_call (fun _ _ _ => trivial) ?_ fun _ _ _ _ _ _ => trivial
  intro locals state next answer same answered
  exact answers answer next (same ▸ answered)

theorem reads_askWhen {condition : Bool} {request : RecoveryRequest}
    {otherwise : request.Answer}
    (answers : ∀ answer next, RecoveryWorld.AnswersAt now world request (.ok answer) next →
      next = world)
    : Reads world now (fun _ => True) (askWhen condition request otherwise) := by
  unfold askWhen
  exact Block.meets_ite
    (fun _ => reads_ask fun answer next answered => ⟨answers answer next answered, trivial⟩)
    fun _ => reads_pure trivial

/-- Whether the worker is gone is found out by reading. -/
theorem reads_readWorkerStale {lease : WorkerLease}
    : Reads world now (fun _ => True) (readWorkerStale deps repoId lease) := by
  unfold readWorkerStale
  refine reads_bind (reads_ask fun _ _ answered => ⟨answered.2, trivial⟩) fun worker _ => ?_
  refine reads_bind (reads_ask fun _ _ answered => ⟨answered, trivial⟩) fun alive _ => ?_
  refine reads_bind (reads_askWhen fun _ _ answered => answered) fun registered _ => ?_
  refine reads_bind (reads_askWhen fun _ _ answered => answered) fun pid _ => ?_
  exact reads_pure trivial

theorem reads_readRun {lease : Option WorkerLease} {activeJob : Option Job}
    : Reads world now (fun _ => True) (readRun lease activeJob) := by
  unfold readRun
  split
  · exact reads_ask fun _ _ answered => ⟨answered, trivial⟩
  · exact reads_ask fun _ _ answered => ⟨answered, trivial⟩
  · exact reads_pure trivial

/-- The other actions are never the one for an expired claim. -/
theorem meets_determineLeaseAction {state : RepoState} {lease : WorkerLease}
    : (determineLeaseAction deps repoId state lease).Meets (RecoveryWorld.AnswersAt now)
        (fun _ _ => True) (fun _ _ => True) (fun action _ _ => action ≠ .requeue)
        (fun _ _ _ => True) fun _ _ _ => True := by
  unfold determineLeaseAction
  refine Block.meets_ite (fun _ => ?_) fun _ => Block.meets_pure fun _ _ _ => nofun
  refine Block.meets_bind (Block.meets_trivially _) fun candidateRun => ?_
  split
  · exact Block.meets_pure fun _ _ _ => nofun
  · refine Block.meets_ite (fun _ => ?_) fun _ => ?_
    · exact Block.meets_bind (Block.meets_trivially _) fun _ =>
        Block.meets_pure fun _ _ _ => nofun
    · refine Block.meets_bind (Block.meets_trivially _) fun _ => ?_
      exact Block.meets_bind (Block.meets_trivially _) fun _ =>
        Block.meets_pure fun _ _ _ => nofun

theorem meets_reactivate {enabled : Bool} {run : Run}
    : (RepositoryRecoveryCoordinator.reactivate repoId enabled run).Meets
        (RecoveryWorld.AnswersAt now) (fun _ _ => True) (fun _ _ => True)
        (fun action _ _ => action ≠ .requeue) (fun _ _ _ => True) fun _ _ _ => True := by
  unfold RepositoryRecoveryCoordinator.reactivate
  refine Block.meets_ite (fun _ => ?_) fun _ => Block.meets_pure fun _ _ _ => nofun
  exact Block.meets_bind (Block.meets_trivially _) fun _ => Block.meets_pure fun _ _ _ => nofun

theorem meets_determineNoLeaseWithRunAction {state : RepoState} {run : Run}
    : (determineNoLeaseWithRunAction repoId state run).Meets (RecoveryWorld.AnswersAt now)
        (fun _ _ => True) (fun _ _ => True) (fun action _ _ => action ≠ .requeue)
        (fun _ _ _ => True) fun _ _ _ => True := by
  unfold determineNoLeaseWithRunAction
  refine Block.meets_ite (fun _ => meets_reactivate) fun _ => ?_
  refine Block.meets_ite (fun _ => ?_) fun _ => Block.meets_pure fun _ _ _ => nofun
  exact Block.meets_bind (Block.meets_trivially _) fun _ => Block.meets_pure fun _ _ _ => nofun

/-- The state by which the coordinator decides that there is an expired claim. -/
def RepoState.hasExpiredClaim (state : RepoState) : Bool :=
  !state.hasActiveLease && !state.activeNonExpiredJobs.any (·.status = .queued)
    && !state.activeExpiredClaimJobs.isEmpty

/-- The coordinator decides so in such a state only. -/
theorem meets_determineAction (state : RepoState)
    : (determineAction deps repoId state).Meets (RecoveryWorld.AnswersAt now)
        (fun _ _ => True) (fun _ _ => True)
        (fun action _ _ => action = .requeue → state.hasExpiredClaim = true)
        (fun _ _ _ => True) fun _ _ _ => True := by
  have other {statements : RecoveryStatements RepositoryRecoveryAction}
      (meets : statements.Meets (RecoveryWorld.AnswersAt now) (fun _ _ => True)
        (fun _ _ => True) (fun action _ _ => action ≠ .requeue) (fun _ _ _ => True)
        fun _ _ _ => True)
      : statements.Meets (RecoveryWorld.AnswersAt now) (fun _ _ => True) (fun _ _ => True)
          (fun action _ _ => action = .requeue → state.hasExpiredClaim = true)
          (fun _ _ _ => True) fun _ _ _ => True :=
    meets.mono (fun _ _ start => start) fun _ _ _ differs same => absurd same differs
  unfold determineAction
  refine Block.meets_ite (fun _ => Block.meets_pure fun _ _ _ => nofun) fun unleased => ?_
  refine Block.meets_ite (fun _ => Block.meets_pure fun _ _ _ => nofun) fun noneQueued => ?_
  refine Block.meets_ite (fun expired => Block.meets_pure fun _ _ _ _ => ?_) fun _ => ?_
  · simp [RepoState.hasExpiredClaim, unleased, noneQueued, expired]
  · split
    · exact other meets_determineLeaseAction
    · exact other meets_determineNoLeaseWithRunAction
    · refine Block.meets_ite (fun _ => Block.meets_pure fun _ _ _ => nofun) fun _ => ?_
      refine Block.meets_bind (Block.meets_trivially _) fun runs => ?_
      split
      · exact other meets_reactivate
      · exact Block.meets_pure fun _ _ _ => nofun

/-- In such a state it decides so at once. -/
theorem determineAction_requeue {state : RepoState} (expired : state.hasExpiredClaim = true)
    : determineAction deps repoId state = pure .requeue := by
  simp only [RepoState.hasExpiredClaim, Bool.and_eq_true, Bool.not_eq_eq_eq_not,
    Bool.not_true] at expired
  obtain ⟨⟨unleased, noneQueued⟩, claims⟩ := expired
  simp [determineAction, unleased, noneQueued, claims]

/-- What the coordinator has found when it decides. -/
def RepoState.ofStore (store : OperationalStore) (repoId : RepositoryId) (now : Date)
    (repo : Option RegisteredRepository) (run : Option Run) (isWorkerStale : Bool)
    : RepoState :=
  let jobs := JobQueueRepository.listForRepo none store.jobs repoId
  let lease := WorkerLeaseRepository.current store.leases repoId
  {
    lease
    activeNonExpiredJobs := jobs.filter (isActiveNonExpired now)
    activeExpiredClaimJobs := jobs.filter (isExpiredClaim now)
    run
    repoEnabled := repo.any (·.enabled)
    isLeaseExpired := lease.any (·.expiresAt.ms ≤ now.ms)
    isWorkerStale
    hasActiveLease := WorkerLeaseRepository.checkActiveLease store.leases repoId now
  }

/-- Its decision rests on the lease and the jobs of the store. -/
theorem RepoState.hasExpiredClaim_ofStore {store : OperationalStore}
    {repo : Option RegisteredRepository} {run : Option Run} {isWorkerStale : Bool}
    : (ofStore store repoId now repo run isWorkerStale).hasExpiredClaim = true
      ↔ HasExpiredClaim store repoId now := by
  have queuedIsLive (job : Job) (queued : job.status = .queued)
      : isActiveNonExpired now job = true := by
    simp [isActiveNonExpired, isExpiredClaim, Job.isActive, queued]
  simp only [hasExpiredClaim, ofStore, JobQueueRepository.listForRepo,
    Option.any_none, Bool.false_eq_true, ite_false, Bool.and_eq_true, Bool.not_eq_eq_eq_not,
    Bool.not_true, List.any_eq_false, List.mem_filter, decide_eq_true_eq,
    List.isEmpty_eq_false_iff_exists_mem]
  constructor
  · intro ⟨⟨unleased, noneQueued⟩, job, ⟨member, repo⟩, expired⟩
    refine ⟨unleased, fun other present here queued => ?_, job, member, repo, expired⟩
    exact noneQueued other ⟨⟨present, here⟩, queuedIsLive other queued⟩ queued
  · intro ⟨unleased, noneQueued, job, member, repo, expired⟩
    refine ⟨⟨unleased, fun other present queued => ?_⟩, job, ⟨member, repo⟩, expired⟩
    exact noneQueued other present.1.1 present.1.2 queued

/-- A decision that is made after some reads. -/
def Decides (world : RecoveryWorld) (now : Date) (after : RepositoryRecoveryAction → Prop)
    (statements : RecoveryStatements RepositoryRecoveryAction)
    : Prop :=
  statements.Meets (RecoveryWorld.AnswersAt now) (fun _ _ => True)
    (fun _ state => state = world) (fun action _ _ => after action) (fun _ _ _ => True)
    fun _ _ _ => True

theorem decides_bind {first : RecoveryStatements α}
    {next : α → RecoveryStatements RepositoryRecoveryAction} {middle : α → Prop}
    {after : RepositoryRecoveryAction → Prop} (reads : Reads world now middle first)
    (rest : ∀ value, middle value → Decides world now after (next value))
    : Decides world now after (first >>= next) :=
  Block.meets_bind reads fun value locals state holds =>
    rest value holds.2 locals state holds.1

/-- The coordinator decides that there is an expired claim only where there is one: it reads
the lease and the jobs of the store.
-/
theorem decides_execute (deps : RepositoryRecoveryCoordinatorDeps) (repoId : RepositoryId)
    : Decides world now (fun action => action = .requeue → HasExpiredClaim world.store repoId now)
        (execute deps repoId) := by
  unfold execute executeAfterInspection
  refine decides_bind (reads_ask fun _ _ answered => ⟨answered.2, answered.1⟩) fun time same => ?_
  obtain rfl : time = now := same
  refine decides_bind (reads_ask fun _ _ answered => ⟨answered, trivial⟩) fun repo _ => ?_
  refine decides_bind (reads_ask fun _ _ answered => ⟨answered.2, answered.1⟩)
    fun lease current => ?_
  refine decides_bind (reads_ask fun _ _ answered => ⟨answered.2, answered.1⟩)
    fun jobs listed => ?_
  refine decides_bind reads_readRun fun run _ => ?_
  refine decides_bind (?_ : Reads world time (fun _ => True) _) fun stale _ => ?_
  · split
    · exact reads_readWorkerStale
    · exact reads_pure trivial
  refine decides_bind (reads_ask fun _ _ answered => ⟨answered.2, answered.1⟩)
    fun live active => ?_
  subst current listed active
  refine (meets_determineAction (.ofStore world.store repoId time repo run stale)).mono
    (fun _ _ _ => trivial) fun action _ _ decided requeue => ?_
  exact RepoState.hasExpiredClaim_ofStore.mp (decided requeue)

theorem hasExpiredClaim_of_classified (classified : ClassifiesExpired deps world repoId now)
    : HasExpiredClaim world.store repoId now := by
  obtain ⟨after, execution⟩ := classified
  have decides : Decides world now _ (execute deps repoId) := decides_execute deps repoId
  have ended := decides () world rfl
  unfold Block.Ensures at ended
  exact ended.of_exec execution rfl

/-- What a block can answer with where the calls that it makes are answered. -/
def Finds (world : RecoveryWorld) (now : Date) (after : α → Prop)
    (statements : RecoveryStatements α)
    : Prop :=
  statements.Passes (RecoveryWorld.AnswersAt now) (fun _ state => state = world)
    fun value _ state => state = world ∧ after value

theorem finds_pure {value : α} {after : α → Prop} (holds : after value)
    : Finds world now after (pure value) :=
  Block.passes_pure fun _ _ same => ⟨same, holds⟩

theorem finds_bind {β : Type} {first : RecoveryStatements β}
    {next : β → RecoveryStatements α} {middle : β → Prop} {after : α → Prop}
    (finds : Finds world now middle first)
    (rest : ∀ value, middle value → Finds world now after (next value))
    : Finds world now after (first >>= next) :=
  Block.passes_bind finds fun value locals state holds =>
    rest value holds.2 locals state holds.1

theorem finds_ask (request : RecoveryRequest) {after : request.Answer → Prop}
    (answer : request.Answer)
    (answered : RecoveryWorld.AnswersAt now world request (.ok answer) world)
    (holds : after answer)
    : Finds world now after (ask request) :=
  Block.passes_call fun _ _ same => ⟨answer, world, same ▸ answered, rfl, holds⟩

theorem finds_asked (request : RecoveryRequest) (answer : request.Answer)
    (answered : RecoveryWorld.AnswersAt now world request (.ok answer) world)
    : Finds world now (fun _ => True) (ask request) :=
  finds_ask request answer answered trivial

theorem finds_askWhen {condition : Bool} {request : RecoveryRequest}
    {otherwise : request.Answer} (answer : request.Answer)
    (answered : RecoveryWorld.AnswersAt now world request (.ok answer) world)
    : Finds world now (fun _ => True) (askWhen condition request otherwise) := by
  unfold askWhen
  exact Block.passes_ite (fun _ => finds_asked request answer answered) fun _ => finds_pure trivial

theorem finds_readWorkerStale {lease : WorkerLease}
    : Finds world now (fun _ => True) (readWorkerStale deps repoId lease) := by
  unfold readWorkerStale
  refine finds_bind (finds_asked (.findWorker _ _) _ ⟨rfl, rfl⟩) fun worker _ => ?_
  refine finds_bind (finds_asked (.isWorkerAlive _) false rfl) fun alive _ => ?_
  refine finds_bind (finds_askWhen none rfl) fun registered _ => ?_
  refine finds_bind (finds_askWhen false rfl) fun pid _ => ?_
  exact finds_pure trivial

theorem finds_readRun {lease : Option WorkerLease} {activeJob : Option Job}
    : Finds world now (fun _ => True) (readRun lease activeJob) := by
  unfold readRun
  split
  · exact finds_asked (.findRun _) none rfl
  · exact finds_asked (.findRun _) none rfl
  · exact finds_pure trivial

/-- Where there is an expired claim, the coordinator can find it, by its reads. -/
theorem classified_of_hasExpiredClaim (expired : HasExpiredClaim world.store repoId now)
    : ClassifiesExpired deps world repoId now := by
  have finds : Finds world now (· = .requeue) (execute deps repoId) := by
    unfold execute executeAfterInspection
    have clock : Finds world now (· = now) (ask .now) := finds_ask .now now ⟨rfl, rfl⟩ rfl
    refine finds_bind clock fun time same => ?_
    obtain rfl : time = now := same
    refine finds_bind (finds_asked (.findRepository _) none rfl) fun repo _ => ?_
    have lookup : Finds world time (· = WorkerLeaseRepository.current world.store.leases repoId)
        (ask (.currentLease repoId)) :=
      finds_ask (.currentLease _) _ ⟨rfl, rfl⟩ rfl
    refine finds_bind lookup fun lease current => ?_
    have listing : Finds world time
        (· = JobQueueRepository.listForRepo none world.store.jobs repoId)
        (ask (.listJobsForRepo repoId)) :=
      finds_ask (.listJobsForRepo _) _ ⟨rfl, rfl⟩ rfl
    refine finds_bind listing fun jobs listed => ?_
    refine finds_bind finds_readRun fun run _ => ?_
    refine finds_bind (?_ : Finds world time (fun _ => True) _) fun stale _ => ?_
    · split
      · exact finds_readWorkerStale
      · exact finds_pure trivial
    have check : Finds world time
        (· = WorkerLeaseRepository.checkActiveLease world.store.leases repoId time)
        (ask (.checkActiveLease repoId time)) :=
      finds_ask (.checkActiveLease _ _) _ ⟨rfl, rfl⟩ rfl
    refine finds_bind check fun live active => ?_
    subst current listed active
    have decided : determineAction deps repoId
        (.ofStore world.store repoId time repo run stale) = pure .requeue :=
      determineAction_requeue (RepoState.hasExpiredClaim_ofStore.mpr expired)
    exact decided ▸ finds_pure rfl
  obtain ⟨action, _, after, execution, _, rfl⟩ := finds () world rfl
  exact ⟨after, execution⟩

end Classification

section Agreement

variable {deps : RepositoryRecoveryCoordinatorDeps} {world : RecoveryWorld}
  {repoId : RepositoryId} {runId : RunId} {now : Date}

theorem isActive_of_isHeld {job : Job} (held : isHeld job = true) : job.isActive = true := by
  simp only [isHeld, List.mem_cons, List.not_mem_nil, or_false, decide_eq_true_eq] at held
  rcases held with claimed | running
  · simp [Job.isActive, claimed]
  · simp [Job.isActive, running]

theorem isActiveNonExpired_of_isHeld {job : Job} (held : isHeld job = true)
    : isActiveNonExpired now job = !isExpiredClaim now job := by
  rw [isActiveNonExpired, isActive_of_isHeld held, Bool.true_and]

theorem isHeld_of_isExpiredClaim {job : Job} (expired : isExpiredClaim now job = true)
    : isHeld job = true := by
  simp only [isExpiredClaim, Bool.and_eq_true, decide_eq_true_eq] at expired
  simp [isHeld, expired.1]

theorem expiry_le_of_unblocked {store : OperationalStore}
    (unblocked : reclamationBlocked store repoId now = false) {job : Job}
    (member : job ∈ store.jobs.rows) (here : job.repoId = repoId) (held : isHeld job = true)
    {expiry : Date} (expires : job.claimExpiresAt = some expiry)
    : expiry.ms ≤ now.ms := by
  have none := (Bool.or_eq_false_iff.mp unblocked).2
  rw [List.any_eq_false] at none
  have isActive : job.isActive = true := isActive_of_isHeld held
  have early : job.status ≠ .queued ∧ expiry.ms ≤ now.ms := by
    simpa [here, isActive, isNonExpired, held, expires] using none job member
  exact early.2

theorem unblocked_of_hasExpiredClaim {store : OperationalStore}
    (found : HasExpiredClaim store repoId now)
    (expired : ∀ job ∈ store.jobs.rows, job.repoId = repoId → isHeld job = true →
      ∀ expiry, job.claimExpiresAt = some expiry → expiry.ms ≤ now.ms)
    : reclamationBlocked store repoId now = false := by
  refine Bool.or_eq_false_iff.mpr ⟨found.unleased, List.any_eq_false.mpr fun job member => ?_⟩
  simp only [Bool.and_eq_true, decide_eq_true_eq, isNonExpired, Bool.or_eq_true, not_and,
    not_or, and_imp]
  intro here _
  refine ⟨found.noneQueued job member here, fun held live => ?_⟩
  obtain ⟨expiry, expires, later⟩ := (Option.any_eq_true _ _).mp live
  have bound := expired job member here held expiry expires
  have after : now.ms < expiry.ms := by simpa using later
  omega

theorem held_of_reclaimed {store next : OperationalStore} {input : ReclaimExpiredClaimInput}
    {recorded : JobChecked Unit} {id : JobId} {row : Job}
    (reclaims : reclaimExpiredClaim store input recorded = .ok ({ committed := true }, next))
    (found : store.jobs.find id = some row) (changed : next.jobs.find id ≠ some row)
    : reclamationBlocked store input.repoId input.now = false ∧ row.runId = input.runId
      ∧ isHeld row = true := by
  rcases reclaimExpiredClaim_eq_ok reclaims with ⟨refused, _⟩ | ⟨_, unblocked, rows⟩
  · contradiction
  · rw [rows id, found, Option.map_some] at changed
    split at changed
    · rename_i taken
      exact ⟨unblocked, taken⟩
    · contradiction

/-- For every state of the stores, run and time the two classifications agree exactly when the
repository of a found expired claim has no later one, and every held job of the run, where
nothing blocks its reclamation, is a claimed one that expired before now.
-/
theorem classifications_agree_iff
    : ClassificationsAgree deps world repoId runId now
      ↔ (HasExpiredClaim world.store repoId now →
          (∃ job ∈ world.store.jobs.rows, job.repoId = repoId ∧ job.runId = runId
            ∧ isExpiredClaim now job = true) →
          ∀ job ∈ world.store.jobs.rows, job.repoId = repoId → isHeld job = true →
            ∀ expiry, job.claimExpiresAt = some expiry → expiry.ms ≤ now.ms)
        ∧ (reclamationBlocked world.store repoId now = false →
          ∀ job ∈ world.store.jobs.rows, job.runId = runId → isHeld job = true →
            isExpiredClaim now job = true) := by
  constructor
  · intro ⟨commits, spares⟩
    refine ⟨fun found ofRun job member here held expiry expires => ?_, ?_⟩
    · obtain ⟨next, reclaims⟩ := commits (classified_of_hasExpiredClaim found) ofRun
      rcases reclaimExpiredClaim_eq_ok reclaims with ⟨refused, _⟩ | ⟨_, unblocked, _⟩
      · contradiction
      · exact expiry_le_of_unblocked unblocked member here held expires
    · intro unblocked job member run held
      obtain ⟨next, reclaims⟩ : ∃ next, reclaimExpiredClaim world.store { repoId, runId, now }
          (.ok ()) = .ok ({ committed := true }, next) :=
        reclaimExpiredClaim_commits unblocked ⟨job, member, run, held⟩
      have stored := Table.findKey_of_mem jobSchema_keyed member
      have taken := find_of_reclaim held stored run.symm reclaims
      have changed : next.jobs.find job.id ≠ some job := by
        rw [taken]
        intro same
        rw [← Option.some.inj same] at held
        contradiction
      have dead := spares _ _ reclaims job.id job stored changed
      simpa [isActiveNonExpired_of_isHeld held] using dead
  · intro ⟨noLater, allExpired⟩
    constructor
    · intro classified ⟨job, member, here, run, expired⟩
      have found := hasExpiredClaim_of_classified classified
      exact reclaimExpiredClaim_commits
        (unblocked_of_hasExpiredClaim found (noLater found ⟨job, member, here, run, expired⟩))
        ⟨job, member, run, isHeld_of_isExpiredClaim expired⟩
    · intro recorded next reclaims id row stored changed
      obtain ⟨unblocked, run, held⟩ := held_of_reclaimed reclaims stored changed
      have expired := allExpired unblocked row (Table.mem_of_findKey stored) run held
      rw [isActiveNonExpired_of_isHeld held, expired]
      rfl

end Agreement

/-- A world with this job only. -/
def worldOf (row : Job) : RecoveryWorld :=
  { store := onlyJob row, drawn := [] }

/-- The store takes back a running job whose claim expired, which the coordinator leaves. -/
theorem reclaims_live_claim
    : ¬∀ deps world repoId runId now, ClassificationsAgree deps world repoId runId now := by
  intro agree
  obtain ⟨now, next, reclaims⟩ : ∃ now next, reclaimExpiredClaim (onlyJob expiringJob)
      { repoId := "repo", runId := "run", now } (.ok ()) = .ok ({ committed := true }, next) :=
    reclaim_onlyJob rfl
  have agreed := agree {} (worldOf expiringJob) "repo" "run" now
  have taken := find_of_reclaim rfl find_onlyJob rfl reclaims
  have changed : next.jobs.find expiringJob.id ≠ some expiringJob := by
    rw [taken]
    decide
  exact nomatch agreed.spares _ _ reclaims expiringJob.id expiringJob find_onlyJob changed

end AiSdlc.Application
