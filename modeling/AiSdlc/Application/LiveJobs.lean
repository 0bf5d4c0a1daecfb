import AiSdlc.Application.ItemAdmission
import AiSdlc.Application.ResumeSystem
import AiSdlc.Async.Sum
import AiSdlc.Sqlite.JobTransitions

/-! Active jobs of a run: the coordinator enqueues one when it has read that there is none, and
`ResumeRun` enqueues one without looking. Both interleave with the workers' transitions.
-/

namespace AiSdlc.Application

open AiSdlc.Js
open AiSdlc.Domain
open AiSdlc.Async
open AiSdlc.Sqlite
open AiSdlc.Transition

-----------------------------------------------------------------------------------------
-- What the coordinator enqueues
-----------------------------------------------------------------------------------------

abbrev CoordinatorInteraction : Type := Interaction Request Request.Reply

def listing? : CoordinatorInteraction → Option (RepositoryId × List Job)
  | ⟨.listJobsForRepo repoId, .ok jobs⟩ => some (repoId, jobs)
  | _ => none

/-- The jobs that a coordinator has read last, with their repository. -/
def listed (log : List CoordinatorInteraction) : Option (RepositoryId × List Job) :=
  log.findSome? listing?

/-- The coordinator enqueues a job for a run that had no active one in its repository when the
jobs were read.
-/
structure EnqueuesUnlisted (home : RunId → RepositoryId) (log : List CoordinatorInteraction)
    (job : Job)
    : Prop where
  repository : job.repoId = home job.runId
  queued : job.status = .queued
  unlisted : ∃ jobs, listed log = some (job.repoId, jobs)
    ∧ ∀ other ∈ jobs, other.runId = job.runId → other.isActive = false

def EnqueuesOnce (home : RunId → RepositoryId) (log : List CoordinatorInteraction)
    : Request → Prop
  | .enqueueJob job => EnqueuesUnlisted home log job
  | _ => True

section Ensure

variable {home : RunId → RepositoryId} {shown : Option (RepositoryId × List Job)}

/-- Statements after which the same jobs are the ones read last. -/
abbrev KeepsListed {α : Type} (home : RunId → RepositoryId)
    (shown : Option (RepositoryId × List Job)) (statements : Statements α)
    : Prop :=
  statements.Keeps logged (EnqueuesOnce home) (fun _ log => listed log = shown)
    (fun _ _ => True)

theorem keepsListed_randomUUID : KeepsListed home shown (call .randomUUID) := by
  intro locals log same
  refine Block.ensures_call.mpr ⟨trivial, ?_, fun _ _ _ => trivial⟩
  intro answer after answered
  rw [answered]
  exact same

theorem keepsListed_nonEmpty {name value : String}
    : KeepsListed home shown (nonEmpty name value) :=
  Block.keeps_ite (fun _ => Block.keeps_throw fun _ _ _ => trivial) fun _ => Block.keeps_pure

/-- Whatever its calls answer, the coordinator enqueues a job only after it has found none. -/
theorem ensureJobEnqueued_once {runUuid : RunId} {issueNumber : Int} {now : Date}
    {locals : Locals}
    : (ensureJobEnqueued (home runUuid) runUuid issueNumber now).Ensures logged
        (EnqueuesOnce home) (fun _ _ _ => True) locals [] := by
  have read : (call (.listJobsForRepo (home runUuid))).Yields logged (EnqueuesOnce home)
      (fun _ _ => True) (fun jobs _ log => listed log = some (home runUuid, jobs))
      (fun _ _ => True) := by
    refine Block.yields_call (fun _ _ _ => trivial) ?_ fun _ _ _ _ _ _ => trivial
    intro locals log next jobs _ answered
    rw [answered]
    rfl
  have execution : (ensureJobEnqueued (home runUuid) runUuid issueNumber now).Yields logged
      (EnqueuesOnce home) (fun _ _ => True) (fun _ _ _ => True) (fun _ _ => True) := by
    refine Block.yields_bind read fun jobs => ?_
    refine Block.yields_ite (fun _ => Block.yields_pure fun _ _ _ => trivial) fun none => ?_
    have ended (other : Job) (member : other ∈ jobs) (same : other.runId = runUuid)
        : other.isActive = false := by
      simp only [List.any_eq_true, not_exists, not_and] at none
      simpa [same] using none other member
    refine Block.yields_bind keepsListed_randomUUID.yields fun jobId => ?_
    refine Block.yields_bind keepsListed_nonEmpty.yields fun _ => ?_
    refine Block.yields_bind keepsListed_nonEmpty.yields fun _ => ?_
    have checked : KeepsListed home (some (home runUuid, jobs))
        (if issueNumber ≤ 0 then
          Block.throw (.port s!"IssueNumber must be a positive integer, got {issueNumber}")
        else
          pure ()) :=
      Block.keeps_ite (fun _ => Block.keeps_throw fun _ _ _ => trivial) fun _ => Block.keeps_pure
    refine Block.yields_bind checked.yields fun _ => ?_
    refine Block.yields_bind (Block.yields_call (fun _ log same => ⟨rfl, rfl, jobs, same, ended⟩)
      (fun _ _ _ _ _ _ => trivial) fun _ _ _ _ _ _ => trivial) fun _ => ?_
    exact Block.yields_pure fun _ _ _ => trivial
  exact (execution locals [] trivial).mono fun _ _ _ _ => trivial

end Ensure

-----------------------------------------------------------------------------------------
-- Resumed runs, coordinators and workers side by side
-----------------------------------------------------------------------------------------

/-- The job queue answers the coordinator; its other ports answer as they like. -/
def ResumeWorld.Coordinates : Environment ResumeWorld Request Request.Reply
  | world, .listJobsForRepo repoId, .ok jobs, after =>
      jobs = JobQueueRepository.listForRepo none world.jobs repoId ∧ after = world
  | world, .enqueueJob job, .ok (), after =>
      ∃ enabled jobs, JobQueueRepository.enqueue enabled world.jobs job = .ok jobs
        ∧ after = { world with jobs }
  | world, _, _, after => after = world

abbrev EnqueueEnding : Type := Completion Thrown PassResult Bool × Locals

abbrev JobRequest : Type := ResumeRequest ⊕ Request

abbrev JobReply : JobRequest → Type := SumReply ResumeRequest.Reply Request.Reply

abbrev JobEnding : Type := ResumeEnding ⊕ EnqueueEnding

abbrev JobProgram : Type := Program JobRequest JobReply JobEnding

/-- A worker's transition of a job, or a change of the other tables. -/
inductive JobEvent
  | transition (call : JobCall)
  | other

/-- The runs and the jobs of a run are in the repository of the run. -/
structure AtHome (home : RunId → RepositoryId) (world : ResumeWorld) : Prop where
  runs : ∀ row ∈ world.runs.rows, row.repoId = home row.uuid
  jobs : ∀ row ∈ world.jobs.rows, row.repoId = home row.runId

def jobEvents (home : RunId → RepositoryId) (world : ResumeWorld) (event : JobEvent)
    (after : ResumeWorld)
    : Prop :=
  match event with
  | .transition call =>
      call.isTransition = true ∧ ∃ leases workers result next,
        call.perform { jobs := world.jobs, leases, workers } = .ok (result, next)
          ∧ after = { world with jobs := next.jobs }
  | .other => after.jobs = world.jobs ∧ AtHome home after

/-- A call of `ResumeRun`, or of `ensureJobEnqueued` for a run in its repository. -/
def enqueues (home : RunId → RepositoryId) (program : JobProgram) : Prop :=
  (∃ resume : ResumeProgram, isResume resume ∧ program = resume.inl)
    ∨ ∃ runUuid issueNumber now locals,
        program = (ensureJobEnqueued (home runUuid) runUuid issueNumber now locals).inr

/-- At most one job of a run is queued, claimed or running. -/
def OneActivePerRun (jobs : JobTable) : Prop :=
  ∀ first ∈ jobs.rows, ∀ second ∈ jobs.rows, first.isActive = true → second.isActive = true →
    first.runId = second.runId → first = second

abbrev JobLabel : Type := PoolLabel JobEvent JobRequest JobReply JobEnding

abbrev JobPool : Type := Pool ResumeWorld JobRequest JobReply JobEnding

/-- Any number of both calls on any runs, where `home` is the repository of each run. -/
abbrev jobPoolSystem (home : RunId → RepositoryId) : System JobPool JobLabel :=
  poolSystem (fun world => AtHome home world ∧ OneActivePerRun world.jobs)
    (ResumeWorld.Answers.sum ResumeWorld.Coordinates) (jobEvents home) (enqueues home)

/-- The job that a step has enqueued. -/
def enqueuedJob? : JobLabel → Option Job
  | .act _ (.inl (.enqueueJob job)) (.ok ()) => some job
  | .act _ (.inr (.enqueueJob job)) (.ok ()) => some job
  | _ => none

/-- A step in which a coordinator reads the jobs. -/
def listsJobs (thread : Nat) : JobLabel → Bool
  | .act other (.inr (.listJobsForRepo _)) (.ok _) => other = thread
  | _ => false

/-- The steps since a coordinator has read the jobs. -/
def sinceListed (thread : Nat) (labels : List JobLabel) : List JobLabel :=
  labels.takeWhile (!listsJobs thread ·)

/-- `ResumeRun` enqueues a job for a run without an active one; and a coordinator does so when
no active job of the run was enqueued since it has read the jobs.
-/
def EnqueuesAlone (labels : List JobLabel) (pool : JobPool) : JobLabel → Prop
  | .act _ (.inl (.enqueueJob job)) reply =>
      reply = .ok () → ∀ row ∈ pool.state.jobs.rows, row.isActive = true →
        row.runId ≠ job.runId
  | .act thread (.inr (.enqueueJob job)) reply =>
      reply = .ok () → ∀ row ∈ pool.state.jobs.rows, row.isActive = true →
        row.runId = job.runId → ∀ label ∈ sinceListed thread labels, ∀ enqueued,
          enqueuedJob? label = some enqueued → enqueued.id ≠ row.id
  | _ => True

/-- What both calls may ask for. -/
abbrev EnqueuesSome (home : RunId → RepositoryId)
    : List (Interaction JobRequest JobReply) → JobRequest → Prop :=
  SumAllowed ResumesSome (EnqueuesOnce home)

theorem enqueues.ensures {home : RunId → RepositoryId} {program : JobProgram}
    (calls : enqueues home program)
    : program.Ensures logged (EnqueuesSome home) (fun _ _ => True) [] := by
  rcases calls with ⟨resume, resumes, rfl⟩ | ⟨runUuid, issueNumber, now, locals, rfl⟩
  · exact resumes.ensures.inl
  · have once : (ensureJobEnqueued (home runUuid) runUuid issueNumber now).Ensures logged
        (EnqueuesOnce home) (fun _ _ _ => True) locals [] := ensureJobEnqueued_once
    exact once.inr

/-- What a step may do to the jobs: it carries them along, or it enqueues one. -/
inductive JobsEffect (jobs : JobTable) (label : JobLabel) : JobTable → Prop
  | carried {next : JobTable} (quiet : enqueuedJob? label = none)
      (carries : CarriesJobs jobs next)
      : JobsEffect jobs label next
  | enqueued {next : JobTable} {job : Job} (new : enqueuedJob? label = some job)
      (rows : next.rows = jobs.rows ++ [job]) (absent : jobs.find job.id = none)
      : JobsEffect jobs label next

theorem rows_of_enqueue {enabled : RepositoryId → Bool} {jobs next : JobTable} {job : Job}
    (enqueued : JobQueueRepository.enqueue enabled jobs job = .ok next)
    : next.rows = jobs.rows ++ [job] := by
  unfold JobQueueRepository.enqueue at enqueued
  split at enqueued
  · split at enqueued
    · rename_i table inserted
      cases enqueued
      exact (Table.insert_eq_some.mp inserted).2
    · contradiction
  · contradiction

section Effects

variable {home : RunId → RepositoryId} {world after : ResumeWorld} {labels : List JobLabel}
  {pool next : JobPool} {label : JobLabel}

/-- Only an enqueue of `ResumeRun` that gets through changes the jobs. -/
theorem ResumeWorld.Answers.jobsEffect {thread : Nat} {request : ResumeRequest}
    {reply : request.Reply} (answered : world.Answers request reply after)
    : JobsEffect world.jobs (.act thread (.inl request) reply) after.jobs := by
  have same (unchanged : after.jobs = world.jobs)
      (quiet : enqueuedJob? (.act thread (.inl request) reply) = none)
      : JobsEffect world.jobs (.act thread (.inl request) reply) after.jobs :=
    .carried quiet (unchanged ▸ CarriesJobs.refl _)
  cases reply with
  | error error => cases request <;> exact same (congrArg _ answered) rfl
  | ok answer =>
      cases request with
      | enqueueJob job =>
          obtain ⟨enabled, jobs, enqueued, rfl⟩ := answered
          exact .enqueued rfl (rows_of_enqueue enqueued)
            (JobQueueRepository.enqueue_eq_ok enqueued).2.1
      | findRun | listSteps | listPhases => exact same (congrArg _ answered.2) rfl
      | now | findRepository | inspectWorktree | acquireLease | releaseLease =>
          exact same (congrArg _ answered) rfl
      | atomicUpdateRun | upsertStep | insertPhase | updatePhase =>
          obtain ⟨_, _, rfl⟩ := answered
          exact same rfl rfl

/-- Only an enqueue of a coordinator that gets through changes the jobs. -/
theorem ResumeWorld.Coordinates.jobsEffect {thread : Nat} {request : Request}
    {reply : request.Reply} (answered : world.Coordinates request reply after)
    : JobsEffect world.jobs (.act thread (.inr request) reply) after.jobs := by
  have same (unchanged : after = world)
      (quiet : enqueuedJob? (.act thread (.inr request) reply) = none)
      : JobsEffect world.jobs (.act thread (.inr request) reply) after.jobs :=
    .carried quiet (unchanged ▸ CarriesJobs.refl _)
  cases reply with
  | error error => cases request <;> exact same answered rfl
  | ok answer =>
      by_cases enqueuing : ∃ job, request = .enqueueJob job
      · obtain ⟨job, rfl⟩ := enqueuing
        obtain ⟨enabled, jobs, enqueued, rfl⟩ := answered
        exact .enqueued rfl (rows_of_enqueue enqueued)
          (JobQueueRepository.enqueue_eq_ok enqueued).2.1
      by_cases listing : ∃ repoId, request = .listJobsForRepo repoId
      · obtain ⟨repoId, rfl⟩ := listing
        exact same answered.2 rfl
      cases request <;> first
        | exact same answered rfl
        | exact absurd ⟨_, rfl⟩ enqueuing
        | exact absurd ⟨_, rfl⟩ listing

/-- A coordinator leaves the runs alone while it enqueues. -/
theorem ResumeWorld.Coordinates.runs_eq {request : Request} {reply : request.Reply}
    (answered : world.Coordinates request reply after)
    : after.runs = world.runs := by
  cases reply with
  | error error => cases request <;> exact congrArg _ answered
  | ok answer =>
      cases request with
      | enqueueJob job =>
          obtain ⟨_, _, _, rfl⟩ := answered
          rfl
      | listJobsForRepo repoId => exact congrArg _ answered.2
      | _ => exact congrArg _ answered

theorem jobsEffect_of_step (taken : (jobPoolSystem home).step pool label next)
    : JobsEffect pool.state.jobs label next.state.jobs := by
  cases taken with
  | @event state after threads event happened =>
      cases event with
      | transition call =>
          obtain ⟨transition, leases, workers, result, store, performed, rfl⟩ := happened
          exact .carried rfl (JobCall.carriesJobs performed transition)
      | other =>
          refine .carried rfl ?_
          rw [show after.jobs = state.jobs from happened.1]
          exact .refl _
  | start => exact .carried rfl (.refl _)
  | @act _ _ _ _ request _ _ _ answered =>
      cases request with
      | inl request => exact ResumeWorld.Answers.jobsEffect answered
      | inr request => exact ResumeWorld.Coordinates.jobsEffect answered

theorem OneActivePerRun.carried {jobs written : JobTable} (one : OneActivePerRun jobs)
    (carries : CarriesJobs jobs written)
    : OneActivePerRun written := by
  intro first firstMember second secondMember firstActive secondActive sameRun
  obtain ⟨left, leftMember, leftId, leftRun, _, leftActive⟩ := carries first firstMember
  obtain ⟨right, rightMember, rightId, rightRun, _, rightActive⟩ := carries second secondMember
  have same : left = right :=
    one left leftMember right rightMember (leftActive firstActive) (rightActive secondActive)
      (leftRun.trans (sameRun.trans rightRun.symm))
  have sameId : first.id = second.id := by rw [← leftId, ← rightId, same]
  have found := Table.findKey_of_mem jobSchema_keyed firstMember
  rw [sameId, Table.findKey_of_mem jobSchema_keyed secondMember] at found
  exact (Option.some.inj found).symm

/-- A new active job keeps this exactly when its run has no other one. -/
theorem oneActivePerRun_enqueued {jobs written : JobTable} {job : Job}
    (one : OneActivePerRun jobs) (rows : written.rows = jobs.rows ++ [job])
    (absent : jobs.find job.id = none) (active : job.isActive = true)
    : OneActivePerRun written
      ↔ ∀ row ∈ jobs.rows, row.isActive = true → row.runId ≠ job.runId := by
  have apart (row : Job) (member : row ∈ jobs.rows) : row ≠ job := by
    rintro rfl
    rw [JobTable.find, Table.findKey_of_mem jobSchema_keyed member] at absent
    contradiction
  constructor
  · intro kept row member rowActive sameRun
    exact apart row member (kept row (by simp [rows, member]) job (by simp [rows]) rowActive
      active sameRun)
  · intro alone first firstMember second secondMember firstActive secondActive sameRun
    rw [rows, List.mem_append, List.mem_singleton] at firstMember secondMember
    rcases firstMember with firstOld | rfl
    · rcases secondMember with secondOld | rfl
      · exact one first firstOld second secondOld firstActive secondActive sameRun
      · exact absurd sameRun (alone first firstOld firstActive)
    · rcases secondMember with secondOld | rfl
      · exact absurd sameRun.symm (alone second secondOld secondActive)
      · rfl

-- the logs of both kinds that a thread has

abbrev resumeLog (thread : Nat) (labels : List JobLabel) : List ResumeInteraction :=
  (ownLog thread labels).filterMap Interaction.first?

abbrev coordinatorLog (thread : Nat) (labels : List JobLabel) : List CoordinatorInteraction :=
  (ownLog thread labels).filterMap Interaction.second?

/-- Another step leaves the jobs that a coordinator has read last as they are. -/
theorem listed_cons_other {thread : Nat} (other : listsJobs thread label = false)
    : listed (coordinatorLog thread (label :: labels))
      = listed (coordinatorLog thread labels) := by
  cases label with
  | event | start => rfl
  | act actor request reply =>
      by_cases same : actor = thread
      swap
      · simp only [coordinatorLog, ownLog_act_other same]
      subst same
      simp only [coordinatorLog, ownLog_act_self]
      cases request with
      | inl request => rfl
      | inr request =>
          have unlisted : listing? ⟨request, reply⟩ = none := by
            cases request with
            | listJobsForRepo repoId =>
                cases reply with
                | ok jobs => simp [listsJobs] at other
                | error error => rfl
            | _ => rfl
          exact List.findSome?_cons_of_isNone (by simp [unlisted])

/-- An active job of the repository that a coordinator has read was among the jobs it read, as
far as its run tells, or was enqueued since.
-/
def Covers (jobs : JobTable) (shown : RepositoryId × List Job) (since : List JobLabel) : Prop :=
  ∀ row ∈ jobs.rows, row.isActive = true → row.repoId = shown.1 →
    (∃ job ∈ shown.2, job.runId = row.runId ∧ job.isActive = true)
      ∨ ∃ label ∈ since, ∃ enqueued, enqueuedJob? label = some enqueued ∧ enqueued.id = row.id

/-- What the jobs of the system keep: each is in the repository of its run, the calls have read
runs that are, and no active job escapes a coordinator that has read the jobs.
-/
structure JobsStand (home : RunId → RepositoryId) (labels : List JobLabel) (pool : JobPool)
    : Prop where
  atHome : AtHome home pool.state
  readAtHome : ∀ thread id run, (id, run) ∈ reads (resumeLog thread labels) →
    run.repoId = home id
  covered : ∀ thread shown, listed (coordinatorLog thread labels) = some shown →
    Covers pool.state.jobs shown (sinceListed thread labels)

/-- A step that does not read the jobs for a coordinator keeps them covered. -/
theorem Covers.step {jobs written : JobTable} {shown : RepositoryId × List Job}
    {since : List JobLabel} (covers : Covers jobs shown since)
    (effect : JobsEffect jobs label written)
    : Covers written shown (label :: since) := by
  intro row member active here
  cases effect with
  | carried quiet carries =>
      obtain ⟨old, oldMember, sameId, sameRun, sameRepo, oldActive⟩ := carries row member
      rcases covers old oldMember (oldActive active) (sameRepo.trans here) with
        ⟨job, read, jobRun, jobActive⟩ | ⟨earlier, hm, enqueued, new, id⟩
      · exact .inl ⟨job, read, jobRun.trans sameRun, jobActive⟩
      · exact .inr ⟨earlier, List.mem_cons_of_mem _ hm, enqueued, new, id.trans sameId⟩
  | enqueued new rows =>
      rw [rows, List.mem_append, List.mem_singleton] at member
      rcases member with old | rfl
      · rcases covers row old active here with read | ⟨earlier, hm, enqueued, before, id⟩
        · exact .inl read
        · exact .inr ⟨earlier, List.mem_cons_of_mem _ hm, enqueued, before, id⟩
      · exact .inr ⟨label, List.mem_cons_self, row, new, rfl⟩

/-- The effects on the runs leave them in their repositories. -/
theorem ResumeWorld.Answers.runs_atHome {request : ResumeRequest} {reply : request.Reply}
    (answered : world.Answers request reply after)
    (atHome : ∀ row ∈ world.runs.rows, row.repoId = home row.uuid)
    : ∀ row ∈ after.runs.rows, row.repoId = home row.uuid := by
  by_cases swapping : swap? ⟨request, reply⟩ = none
  · rw [answered.runs_of_unswapped swapping]
    exact atHome
  cases request with
  | atomicUpdateRun uuid patch expected =>
      cases reply with
      | error error =>
          rw [show after = world from answered]
          exact atHome
      | ok swapped =>
          obtain ⟨runs, updated, rfl⟩ := answered
          intro row member
          have written : row ∈ (RunRepository.atomicUpdateByUuid world.runs uuid patch
              expected).2.rows :=
            updated ▸ member
          unfold RunRepository.atomicUpdateByUuid at written
          split at written
          · exact atHome row written
          · obtain ⟨old, hm, rfl⟩ := RunRepository.mem_updateWhere.mp written
            have stays := atHome old hm
            split
            · exact stays
            · exact stays
  | _ => exact absurd (by cases reply <;> rfl) swapping

/-- What a thread reads is in its repository, since the stored runs are. -/
theorem JobsStand.reads_step (stand : JobsStand home labels pool)
    (taken : (jobPoolSystem home).step pool label next)
    : ∀ thread id run, (id, run) ∈ reads (resumeLog thread (label :: labels)) →
        run.repoId = home id := by
  intro thread id run member
  cases taken with
  | event | start => exact stand.readAtHome thread id run member
  | @act _ _ _ actor request _ reply _ answered =>
      by_cases same : actor = thread
      swap
      · rw [resumeLog, ownLog_act_other same] at member
        exact stand.readAtHome thread id run member
      subst same
      rw [resumeLog, ownLog_act_self] at member
      cases request with
      | inr request => exact stand.readAtHome actor id run member
      | inl request =>
          cases read : readRun? ⟨request, reply⟩ with
          | none =>
              have unread : reads (⟨request, reply⟩ :: resumeLog actor labels)
                  = reads (resumeLog actor labels) :=
                List.filterMap_cons_none read
              exact stand.readAtHome actor id run (unread ▸ member)
          | some found =>
              have added : reads (⟨request, reply⟩ :: resumeLog actor labels)
                  = found :: reads (resumeLog actor labels) :=
                List.filterMap_cons_some read
              rcases List.mem_cons.mp (added ▸ member) with same | earlier
              · cases request with
                | findRun uuid =>
                    cases reply with
                    | error error => contradiction
                    | ok answer =>
                        cases answer with
                        | none => contradiction
                        | some shown =>
                            cases read
                            cases same
                            obtain ⟨⟨repoId, shown⟩, _⟩ := answered
                            obtain ⟨stored, sameId⟩ := RunRepository.findByUuid_eq_some shown.symm
                            rw [← sameId]
                            exact stand.atHome.runs run stored
                | _ => cases reply <;> contradiction
              · exact stand.readAtHome actor id run earlier

theorem enqueuesSome_of_run (run : (jobPoolSystem home).Run labels pool) {thread : Nat}
    {request : JobRequest} {rest : JobReply request → JobProgram}
    (running : pool.threads[thread]? = some (.ask request rest))
    : EnqueuesSome home (ownLog thread labels) request :=
  (Pool.ensures_of_run (fun _ => enqueues.ensures) run thread _ running).1

/-- A job that is enqueued is queued, in the repository of its run. -/
theorem JobsStand.enqueued (run : (jobPoolSystem home).Run labels pool)
    (stand : JobsStand home labels pool) (taken : (jobPoolSystem home).step pool label next)
    {job : Job} (new : enqueuedJob? label = some job)
    : job.status = .queued ∧ job.repoId = home job.runId := by
  cases taken with
  | event | start => contradiction
  | @act _ _ _ thread request _ reply running _ =>
      have permitted := enqueuesSome_of_run run running
      cases request with
      | inl request =>
          cases request with
          | enqueueJob other =>
              obtain ⟨runId, once⟩ := permitted
              cases reply with
              | error error => contradiction
              | ok answer =>
                  cases new
                  obtain ⟨read, member, repository⟩ := once.repository
                  refine ⟨once.queued, ?_⟩
                  rw [repository, once.run]
                  exact stand.readAtHome thread runId read member
          | _ => cases reply <;> contradiction
      | inr request =>
          cases request with
          | enqueueJob other =>
              cases reply with
              | error error => contradiction
              | ok answer =>
                  cases new
                  exact ⟨permitted.queued, permitted.repository⟩
          | _ => cases reply <;> contradiction

theorem JobsStand.jobs_step (run : (jobPoolSystem home).Run labels pool)
    (stand : JobsStand home labels pool) (taken : (jobPoolSystem home).step pool label next)
    : ∀ row ∈ next.state.jobs.rows, row.repoId = home row.runId := by
  intro row member
  cases jobsEffect_of_step taken with
  | carried quiet carries =>
      obtain ⟨old, hm, _, sameRun, sameRepo, _⟩ := carries row member
      rw [← sameRun, ← sameRepo]
      exact stand.atHome.jobs old hm
  | enqueued new rows =>
      rw [rows, List.mem_append, List.mem_singleton] at member
      rcases member with old | rfl
      · exact stand.atHome.jobs row old
      · exact (stand.enqueued run taken new).2

/-- The runs stay in their repositories. -/
theorem JobsStand.runs_step (stand : JobsStand home labels pool)
    (taken : (jobPoolSystem home).step pool label next)
    : ∀ row ∈ next.state.runs.rows, row.repoId = home row.uuid := by
  cases taken with
  | @event _ _ _ event happened =>
      cases event with
      | transition call =>
          obtain ⟨_, _, _, _, _, _, rfl⟩ := happened
          exact stand.atHome.runs
      | other => exact happened.2.runs
  | start => exact stand.atHome.runs
  | @act state after _ _ request _ reply _ answered =>
      cases request with
      | inl request => exact ResumeWorld.Answers.runs_atHome answered stand.atHome.runs
      | inr request =>
          rw [ResumeWorld.Coordinates.runs_eq answered]
          exact stand.atHome.runs

/-- A coordinator that reads the jobs sees all active ones of the repository. -/
theorem JobsStand.covered_step (stand : JobsStand home labels pool)
    (taken : (jobPoolSystem home).step pool label next)
    : ∀ thread shown, listed (coordinatorLog thread (label :: labels)) = some shown →
        Covers next.state.jobs shown (sinceListed thread (label :: labels)) := by
  intro thread shown read
  have effect := jobsEffect_of_step taken
  cases lists : listsJobs thread label with
  | false =>
      rw [listed_cons_other lists] at read
      have since : sinceListed thread (label :: labels) = label :: sinceListed thread labels := by
        simp [sinceListed, lists]
      rw [since]
      exact (stand.covered thread shown read).step effect
  | true =>
      cases taken with
      | event | start => contradiction
      | @act _ _ _ actor request _ reply _ answered =>
          cases request with
          | inl request => contradiction
          | inr request =>
              cases request with
              | listJobsForRepo repoId =>
                  cases reply with
                  | error error => contradiction
                  | ok jobs =>
                      obtain rfl : actor = thread := by simpa [listsJobs] using lists
                      obtain ⟨rfl, rfl⟩ := answered
                      simp only [coordinatorLog, ownLog_act_self] at read
                      obtain rfl := Option.some.inj read
                      intro row member active here
                      have readToo : row ∈ JobQueueRepository.listForRepo none _ repoId :=
                        List.mem_filter.mpr ⟨member, by simpa using here⟩
                      exact .inl ⟨row, readToo, rfl, active⟩
              | _ => contradiction

theorem JobsStand.step (run : (jobPoolSystem home).Run labels pool)
    (stand : JobsStand home labels pool) (taken : (jobPoolSystem home).step pool label next)
    : JobsStand home (label :: labels) next :=
  {
    atHome := { runs := stand.runs_step taken, jobs := stand.jobs_step run taken }
    readAtHome := stand.reads_step taken
    covered := stand.covered_step taken
  }

/-- The jobs stand so along every run, by induction over the run. -/
theorem jobsStand_of_run (run : (jobPoolSystem home).Run labels pool)
    : JobsStand home labels pool := by
  induction run with
  | start initially =>
      exact ⟨initially.1.1, fun _ _ _ member => absurd member List.not_mem_nil,
        fun _ _ read => by contradiction⟩
  | next earlier taken ih => exact ih.step earlier taken

/-- A step that enqueues no job meets the condition. -/
theorem enqueuesAlone_of_quiet (quiet : enqueuedJob? label = none)
    : EnqueuesAlone labels pool label := by
  cases label with
  | event | start => trivial
  | act thread request reply =>
      cases request with
      | inl request =>
          cases request with
          | enqueueJob job =>
              rintro rfl
              contradiction
          | _ => trivial
      | inr request =>
          cases request with
          | enqueueJob job =>
              rintro rfl
              contradiction
          | _ => trivial

/-- A coordinator that enqueues a job finds no active one of its run, unless one was enqueued
since it has read the jobs.
-/
theorem JobsStand.free_of_listed (stand : JobsStand home labels pool) {thread : Nat} {job : Job}
    (permitted : EnqueuesUnlisted home (coordinatorLog thread labels) job)
    (unseen : ∀ row ∈ pool.state.jobs.rows, row.isActive = true → row.runId = job.runId →
      ∀ label ∈ sinceListed thread labels, ∀ enqueued, enqueuedJob? label = some enqueued →
        enqueued.id ≠ row.id)
    : ∀ row ∈ pool.state.jobs.rows, row.isActive = true → row.runId ≠ job.runId := by
  intro row member active sameRun
  obtain ⟨jobs, read, ended⟩ := permitted.unlisted
  have here : row.repoId = job.repoId := by
    rw [permitted.repository, ← sameRun]
    exact stand.atHome.jobs row member
  rcases stand.covered thread _ read row member active here with
    ⟨other, listed, otherRun, otherActive⟩ | ⟨label, since, enqueued, new, sameId⟩
  · have isOver := ended other listed (otherRun.trans sameRun)
    rw [otherActive] at isOver
    contradiction
  · exact unseen row member active sameRun label since enqueued new sameId

/-- A step keeps at most one active job for each run exactly when it meets the condition. -/
theorem oneActivePerRun_step (run : (jobPoolSystem home).Run labels pool)
    (one : OneActivePerRun pool.state.jobs)
    (taken : (jobPoolSystem home).step pool label next)
    : OneActivePerRun next.state.jobs ↔ EnqueuesAlone labels pool label := by
  have stand := jobsStand_of_run run
  cases jobsEffect_of_step taken with
  | carried quiet carries => exact iff_of_true (one.carried carries) (enqueuesAlone_of_quiet quiet)
  | enqueued new rows absent =>
      have queued := (stand.enqueued run taken new).1
      rw [oneActivePerRun_enqueued one rows absent (by simp [Job.isActive, queued])]
      cases taken with
      | event | start => contradiction
      | @act _ _ _ thread request _ reply running _ =>
          have permitted := enqueuesSome_of_run run running
          cases request with
          | inl request =>
              cases request with
              | enqueueJob other =>
                  cases reply with
                  | error error => contradiction
                  | ok answer =>
                      cases new
                      exact ⟨fun alone _ => alone, fun alone => alone rfl⟩
              | _ => cases reply <;> contradiction
          | inr request =>
              cases request with
              | enqueueJob other =>
                  cases reply with
                  | error error => contradiction
                  | ok answer =>
                      cases new
                      refine ⟨fun alone _ row member active sameRun => ?_, fun unseen => ?_⟩
                      · exact absurd sameRun (alone row member active)
                      · exact stand.free_of_listed permitted (unseen rfl)
              | _ => cases reply <;> contradiction

/-- In every run in which `ResumeRun` enqueues only for runs without an active job, and in which
no active job of a run is enqueued between a coordinator's read of the jobs and its enqueue,
each run has at most one active job, and exactly the steps that go on so keep this.
-/
theorem one_active_job_per_run
    (run : (jobPoolSystem home).RunWhere EnqueuesAlone labels pool)
    : OneActivePerRun pool.state.jobs
      ∧ ∀ label next, (jobPoolSystem home).step pool label next →
          (OneActivePerRun next.state.jobs ↔ EnqueuesAlone labels pool label) := by
  have one : OneActivePerRun pool.state.jobs := by
    induction run with
    | start initially => exact initially.1.2
    | next earlier meets taken ih => exact (oneActivePerRun_step earlier.run ih taken).mpr meets
  exact ⟨one, fun label next taken => oneActivePerRun_step run.run one taken⟩

end Effects

-----------------------------------------------------------------------------------------
-- A run that is resumed while its job runs
-----------------------------------------------------------------------------------------

/-- The job of a worker that has failed the run and not yet the job. -/
def unfinishedJob : Job :=
  { createJob {
      id := "job"
      runId := "run"
      repoId := "repo"
      issueNumber := 1
      createdAt := Date.epoch
    } with status := .running, claimedBy := some "worker", claimToken := some "claim" }

def unfinishedWorld : ResumeWorld :=
  { failedWorld with jobs := ⟨[unfinishedJob], by simp⟩ }

/-- Answers the calls of `ResumeRun` alone. -/
def jobHandler (world : ResumeWorld)
    : (request : JobRequest) → Option (JobReply request × ResumeWorld)
  | .inl request => resumeHandler true world request
  | .inr _ => none

theorem jobHandler_answers (world : ResumeWorld) (request : JobRequest)
    (reply : JobReply request) (after : ResumeWorld)
    (handled : jobHandler world request = some (reply, after))
    : ResumeWorld.Answers.sum ResumeWorld.Coordinates world request reply after := by
  cases request with
  | inl request => exact resumeHandler_answers world request reply after handled
  | inr request => contradiction

def noCall (call : Empty) (_ : ResumeWorld) : Option (JobEvent × ResumeWorld) :=
  call.elim

/-- A call of `ResumeRun` that makes some requests. -/
def jobPlay (world : ResumeWorld) (requests : Nat) : Option (List JobLabel × JobPool) :=
  Pool.play jobHandler noCall
    ([.start (resumeCall "worker").inl] ++ List.replicate requests (.act 0)) [] ⟨world, []⟩

theorem run_jobPlay {world : ResumeWorld} {requests : Nat} {labels : List JobLabel}
    {pool : JobPool}
    (starts : AtHome (fun _ => "repo") world ∧ OneActivePerRun world.jobs)
    (played : jobPlay world requests = some (labels, pool))
    : (jobPoolSystem fun _ => "repo").Run labels pool := by
  refine Pool.run_of_play jobHandler_answers (fun call => call.elim) ?_ (.start ⟨starts, rfl⟩)
    played
  intro program member
  simp only [List.mem_append, List.mem_cons, List.mem_replicate, List.not_mem_nil,
    Move.start.injEq, reduceCtorEq, or_false, and_false] at member
  exact .inl ⟨_, ⟨{}, _, rfl⟩, member⟩

/-- The run has failed while its job is still running, and `ResumeRun` enqueues a second one. -/
theorem resume_enqueues_second_job
    : ¬∀ (home : RunId → RepositoryId) (labels : List JobLabel) (pool : JobPool),
        (jobPoolSystem home).Run labels pool → OneActivePerRun pool.state.jobs := by
  intro claim
  let reached := (jobPlay unfinishedWorld 10).get rfl
  have played : jobPlay unfinishedWorld 10 = some (reached.1, reached.2) := rfl
  have run := run_jobPlay ⟨⟨by simp [unfinishedWorld, failedWorld, failedRun, createRun],
    by simp [unfinishedWorld, unfinishedJob, createJob]⟩,
    by simp [OneActivePerRun, unfinishedWorld]⟩ played
  have one := claim _ _ _ run
  have both : ∃ job, reached.2.state.jobs.rows = [unfinishedJob, job] ∧ job.runId = "run"
      ∧ job.status = .queued :=
    ⟨_, rfl, rfl, rfl⟩
  obtain ⟨job, rows, sameRun, queued⟩ := both
  have same : unfinishedJob = job :=
    one unfinishedJob (by simp [rows]) job (by simp [rows]) rfl
      (by simp [Job.isActive, queued]) sameRun.symm
  rw [← same] at queued
  contradiction

theorem step_of_jobMove {pool next : JobPool} {label : JobLabel} (thread : Nat)
    (moved : pool.move jobHandler noCall (.act thread) = some (label, next))
    : (jobPoolSystem fun _ => "repo").step pool label next :=
  Pool.step_of_move jobHandler_answers (fun call => call.elim) (fun _ same => by contradiction)
    moved

/-- Without a job that still runs, the resumed run has one active job. -/
theorem one_active_job_per_run_resumed
    : let reached := (jobPlay failedWorld 9).get rfl
      let moved := (reached.2.move jobHandler noCall (.act 0)).get rfl
      OneActivePerRun moved.2.state.jobs := by
  intro reached moved
  have played : jobPlay failedWorld 9 = some (reached.1, reached.2) := rfl
  have run := run_jobPlay ⟨⟨by simp [failedWorld, failedRun, createRun],
    by simp [failedWorld, Table.empty]⟩, by simp [OneActivePerRun, failedWorld, Table.empty]⟩
    played
  have quiet : reached.1.all (fun label => (enqueuedJob? label).isNone) = true := rfl
  have alone : (jobPoolSystem fun _ => "repo").RunWhere EnqueuesAlone reached.1 reached.2 := by
    refine run.runWhere fun label member earlier pool => ?_
    have unseen := List.all_eq_true.mp quiet label member
    exact enqueuesAlone_of_quiet (by simpa using unseen)
  have step : (jobPoolSystem fun _ => "repo").step reached.2 moved.1 moved.2 :=
    step_of_jobMove 0 rfl
  refine ((one_active_job_per_run alone).2 _ _ step).mpr ?_
  intro _ row member
  have none : reached.2.state.jobs.rows = [] := rfl
  rw [none] at member
  contradiction

end AiSdlc.Application
