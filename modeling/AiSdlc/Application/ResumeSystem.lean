import AiSdlc.Application.ResumeExchanges

/-! Calls of `ResumeRun` side by side: their store operations interleave in any order. A run is
held by at most one call that has made it running and has not rolled back.
-/

namespace AiSdlc.Application

open AiSdlc.Js
open AiSdlc.Domain
open AiSdlc.Async
open AiSdlc.Sqlite
open AiSdlc.Transition

/-- The tables that `ResumeRun` reads and writes, beside the leases. -/
structure ResumeWorld where
  runs : RunTable
  steps : List Step
  phases : List Phase
  jobs : JobTable

/-- Steps are stored by their run, phase and index. -/
def sameStep (first second : Step) : Bool :=
  first.runId = second.runId && first.phaseId = second.phaseId && first.index = second.index

/-- The stores answer from their tables; how an upsert merges a row with the stored one is left
open, as are the replies of the other ports. A call that throws changes nothing.
-/
def ResumeWorld.Answers : Environment ResumeWorld ResumeRequest ResumeRequest.Reply
  | world, .findRun runId, .ok run, after =>
      (∃ repoId, run = RunRepository.findByUuid repoId world.runs runId) ∧ after = world
  | world, .listSteps runId, .ok steps, after =>
      steps.Perm (world.steps.filter (·.runId = runId)) ∧ after = world
  | world, .listPhases runId, .ok phases, after =>
      phases.Perm (world.phases.filter (·.runUuid = runId)) ∧ after = world
  | world, .atomicUpdateRun uuid patch expected, .ok swapped, after =>
      ∃ runs, RunRepository.atomicUpdateByUuid world.runs uuid patch expected = (swapped, runs)
        ∧ after = { world with runs }
  | world, .upsertStep step, .ok (), after =>
      ∃ steps, steps.filter (!sameStep step ·) = world.steps.filter (!sameStep step ·)
        ∧ after = { world with steps }
  | world, .insertPhase phase, .ok (), after =>
      ∃ phases, phases.filter (·.id ≠ phase.id) = world.phases.filter (·.id ≠ phase.id)
        ∧ after = { world with phases }
  | world, .updatePhase phase, .ok (), after =>
      ∃ phases, phases.filter (·.id ≠ phase.id) = world.phases.filter (·.id ≠ phase.id)
        ∧ after = { world with phases }
  | world, .enqueueJob job, .ok (), after =>
      ∃ enabled jobs, JobQueueRepository.enqueue enabled world.jobs job = .ok jobs
        ∧ after = { world with jobs }
  | world, _, _, after => after = world

abbrev ResumeEnding : Type :=
  Completion ResumeError ResumeRunResult ResumeRunResult × Unit

abbrev ResumeLabel (Event : Type) : Type :=
  PoolLabel Event ResumeRequest ResumeRequest.Reply ResumeEnding

abbrev ResumePool : Type :=
  Pool ResumeWorld ResumeRequest ResumeRequest.Reply ResumeEnding

abbrev ResumeProgram : Type :=
  Program ResumeRequest ResumeRequest.Reply ResumeEnding

def isResume (program : ResumeProgram) : Prop :=
  ∃ deps input, program = ResumeRun.execute deps input ()

/-- Any number of calls with any inputs, next to other changes of the stores. -/
def resumeSystem {Event : Type} (initial : ResumeWorld → Prop)
    (external : ResumeWorld → Event → ResumeWorld → Prop)
    : System ResumePool (ResumeLabel Event) :=
  poolSystem initial ResumeWorld.Answers external isResume

/-- What a call may ask for, whichever run it resumes. -/
def ResumesSome (log : List ResumeInteraction) (request : ResumeRequest) : Prop :=
  ∃ runId, ResumesOnce runId log request

theorem isResume.ensures {program : ResumeProgram} (resumes : isResume program)
    : program.Ensures logged ResumesSome (fun _ _ => True) [] := by
  obtain ⟨deps, input, rfl⟩ := resumes
  exact Program.Ensures.mono (ResumeRun.execute_resumesOnce deps input)
    (fun _ _ once => ⟨input.runId, once⟩) fun _ _ _ => trivial

theorem resumesSome_of_run {Event : Type} {initial : ResumeWorld → Prop}
    {external : ResumeWorld → Event → ResumeWorld → Prop} {labels : List (ResumeLabel Event)}
    {pool : ResumePool} (run : (resumeSystem initial external).Run labels pool) {thread : Nat}
    {request : ResumeRequest} {next : request.Reply → ResumeProgram}
    (running : pool.threads[thread]? = some (.ask request next))
    : ResumesSome (ownLog thread labels) request :=
  (Pool.ensures_of_run (fun _ => isResume.ensures) run thread _ running).1

section Answers

variable {world after : ResumeWorld}

/-- A call that reads changes nothing. -/
theorem ResumeWorld.Answers.same_of_read {request : ResumeRequest} {reply : request.Reply}
    (answered : world.Answers request reply after)
    (reading : request.isPlain = true ∨ ∃ runId, request = .findRun runId)
    : after = world := by
  cases reply with
  | error error => cases request <;> exact answered
  | ok answer =>
      cases request with
      | findRun runId | listSteps runId | listPhases runId => exact answered.2
      | now | findRepository | inspectWorktree | acquireLease | releaseLease => exact answered
      | atomicUpdateRun | upsertStep | insertPhase | updatePhase | enqueueJob =>
          simp [ResumeRequest.isPlain] at reading

/-- Only a compare-and-set changes the runs. -/
theorem ResumeWorld.Answers.runs_of_unswapped {request : ResumeRequest} {reply : request.Reply}
    (answered : world.Answers request reply after) (unswapped : swap? ⟨request, reply⟩ = none)
    : after.runs = world.runs := by
  cases reply with
  | error error => cases request <;> exact congrArg _ answered
  | ok answer =>
      cases request with
      | findRun | listSteps | listPhases => exact congrArg _ answered.2
      | now | findRepository | inspectWorktree | acquireLease | releaseLease =>
          exact congrArg _ answered
      | atomicUpdateRun => contradiction
      | upsertStep | insertPhase | updatePhase =>
          obtain ⟨_, _, rfl⟩ := answered
          rfl
      | enqueueJob =>
          obtain ⟨_, _, _, rfl⟩ := answered
          rfl

end Answers

-----------------------------------------------------------------------------------------
-- At most one call holds a run
-----------------------------------------------------------------------------------------

/-- The calls that write steps, phases and jobs. -/
def ResumeRequest.writes : ResumeRequest → Bool
  | upsertStep _ | insertPhase _ | updatePhase _ | enqueueJob _ => true
  | now | findRun _ | findRepository _ | inspectWorktree _ | acquireLease _ | releaseLease _
  | listSteps _ | listPhases _ | atomicUpdateRun _ _ _ => false

/-- A call holds the run that it has made running until it has rolled back. -/
structure Holds (uuid : String) (log : List ResumeInteraction) : Prop where
  won : ∃ swap ∈ swaps log, swap.uuid = uuid ∧ swap.won = true
  stands : ∀ swap ∈ swaps log, swap.swapped = true → swap.won = true

section Log

variable {log : List ResumeInteraction} {request : ResumeRequest} {reply : request.Reply}
  {uuid : String}

theorem hasWon_of_enqueues {runId : RunId} {job : Job} (enqueues : EnqueuesAfterWin runId log job)
    : HasWon log := by
  obtain ⟨swap, swapped, _, won⟩ := enqueues.won
  exact ⟨swap, by simp [swapped], won⟩

theorem hasWon_of_writes (permitted : ResumesSome log request) (writes : request.writes = true)
    : HasWon log := by
  obtain ⟨runId, permitted⟩ := permitted
  cases request with
  | upsertStep | insertPhase | updatePhase => exact permitted
  | enqueueJob job => exact hasWon_of_enqueues permitted
  | now | findRun | findRepository | inspectWorktree | acquireLease | releaseLease | listSteps
    | listPhases | atomicUpdateRun => contradiction

/-- An exchange in which no compare-and-set takes place decides nothing. -/
theorem Holds.of_lost {interaction : ResumeInteraction}
    (lost : ∀ swap, swap? interaction = some swap → swap.swapped = false)
    (holds : Holds uuid (interaction :: log))
    : Holds uuid log := by
  obtain ⟨⟨winner, member, target, won⟩, stands⟩ := holds
  cases swapping : swap? interaction with
  | none =>
      have same : swaps (interaction :: log) = swaps log := List.filterMap_cons_none swapping
      rw [same] at member stands
      exact ⟨⟨winner, member, target, won⟩, stands⟩
  | some swap =>
      have added : swaps (interaction :: log) = swap :: swaps log :=
        List.filterMap_cons_some swapping
      rw [added] at member stands
      rcases List.mem_cons.mp member with rfl | earlier
      · simp [Swap.won, lost winner swapping] at won
      · exact ⟨⟨winner, earlier, target, won⟩,
          fun other hm => stands other (List.mem_cons_of_mem _ hm)⟩

end Log

/-- What a call's request may do: nothing, write after a win, make the run running, or undo
that.
-/
inductive ResumeEffect (log : List ResumeInteraction) (world : ResumeWorld)
    : ResumeInteraction → ResumeWorld → Prop
  | quiet {interaction : ResumeInteraction}
      (lost : ∀ swap, swap? interaction = some swap → swap.swapped = false)
      : ResumeEffect log world interaction world
  | wrote {request : ResumeRequest} {reply : request.Reply} {after : ResumeWorld}
      (writes : request.writes = true) (won : HasWon log) (runs : after.runs = world.runs)
      : ResumeEffect log world ⟨request, reply⟩ after
  | reactivated {uuid : String} {patch : RunRepositoryUpdatePatch} {expected : RunStatus}
      {runs : RunTable} (first : Reactivates log uuid patch expected)
      (swapped : RunRepository.atomicUpdateByUuid world.runs uuid patch expected = (true, runs))
      : ResumeEffect log world ⟨.atomicUpdateRun uuid patch expected, .ok true⟩
          { world with runs }
  | rolledBack {uuid : String} {patch : RunRepositoryUpdatePatch} {expected : RunStatus}
      {runs : RunTable} (second : RollsBack log uuid patch expected)
      (swapped : RunRepository.atomicUpdateByUuid world.runs uuid patch expected = (true, runs))
      : ResumeEffect log world ⟨.atomicUpdateRun uuid patch expected, .ok true⟩
          { world with runs }

/-- A permitted request has one of these effects, by cases on the request and its reply. -/
theorem resumeEffect_of_answer {log : List ResumeInteraction} {world after : ResumeWorld}
    {request : ResumeRequest} {reply : request.Reply} (permitted : ResumesSome log request)
    (answered : world.Answers request reply after)
    : ResumeEffect log world ⟨request, reply⟩ after := by
  have unchanged (quiet : after = world)
      (lost : ∀ swap, swap? ⟨request, reply⟩ = some swap → swap.swapped = false)
      : ResumeEffect log world ⟨request, reply⟩ after :=
    quiet ▸ .quiet lost
  by_cases writes : request.writes = true
  · refine .wrote writes (hasWon_of_writes permitted writes) (answered.runs_of_unswapped ?_)
    cases request <;> first | contradiction | cases reply <;> rfl
  cases request with
  | atomicUpdateRun uuid patch expected =>
      cases reply with
      | error error => exact unchanged answered (by simp [swap?])
      | ok swapped =>
          obtain ⟨runs, updated, rfl⟩ := answered
          cases swapped with
          | false =>
              rw [RunRepository.atomicUpdateByUuid_false updated]
              exact .quiet (by simp [swap?])
          | true =>
              obtain ⟨runId, -, first | second⟩ := permitted
              · exact .reactivated first updated
              · exact .rolledBack second updated
  | findRun runId =>
      exact unchanged (answered.same_of_read (.inr ⟨runId, rfl⟩)) (by cases reply <;> simp [swap?])
  | now | findRepository | inspectWorktree | acquireLease | releaseLease | listSteps
    | listPhases =>
      exact unchanged (answered.same_of_read (.inl rfl)) (by cases reply <;> simp [swap?])
  | upsertStep | insertPhase | updatePhase | enqueueJob => simp [ResumeRequest.writes] at writes

variable {log : List ResumeInteraction} {world after : ResumeWorld}
  {interaction : ResumeInteraction}

/-- A call that has not won leaves the tables as they were. -/
theorem ResumeEffect.same_of_not_won (effect : ResumeEffect log world interaction after)
    (loser : ¬HasWon (interaction :: log))
    : after = world := by
  cases effect with
  | quiet => rfl
  | wrote _ won => exact absurd (won.cons _) loser
  | @reactivated uuid patch expected runs first =>
      refine absurd ⟨⟨uuid, expected, patch, true⟩, ?_, ?_⟩ loser
      · exact List.mem_filterMap.mpr ⟨_, List.mem_cons_self, rfl⟩
      · simp [Swap.won, first.status]
  | rolledBack second =>
      obtain ⟨swap, earlier, _, won, _⟩ := second.second
      have hasWon : HasWon log := ⟨swap, by simp [earlier], won⟩
      exact absurd (hasWon.cons _) loser

/-- Each run has at most one call that holds it, and is running while it has one. -/
structure HoldersExclude {Event : Type} (labels : List (ResumeLabel Event)) (runs : RunTable)
    : Prop where
  running : ∀ uuid thread, Holds uuid (ownLog thread labels) →
    ∃ row, runs.find uuid = some row ∧ row.status = .running
  alone : ∀ uuid first second, Holds uuid (ownLog first labels) →
    Holds uuid (ownLog second labels) → first = second

section Holders

variable {Event : Type} {labels later : List (ResumeLabel Event)} {runs next : RunTable}

/-- Calls that held their runs before, and runs that have not changed. -/
theorem HoldersExclude.of_fewer (exclude : HoldersExclude labels runs)
    (fewer : ∀ uuid thread, Holds uuid (ownLog thread later) →
      Holds uuid (ownLog thread labels) ∧ next.find uuid = runs.find uuid)
    : HoldersExclude later next := by
  constructor
  · intro uuid thread holds
    obtain ⟨before, same⟩ := fewer uuid thread holds
    rw [same]
    exact exclude.running uuid thread before
  · intro uuid first second left right
    exact exclude.alone uuid first second (fewer uuid first left).1 (fewer uuid second right).1

/-- A call that makes a run running holds it alone: nobody held it, since it was not running. -/
theorem HoldersExclude.reactivated {thread : Nat} {uuid : String}
    {patch : RunRepositoryUpdatePatch} {expected : RunStatus}
    (exclude : HoldersExclude labels runs)
    (first : Reactivates (ownLog thread labels) uuid patch expected)
    (swapped : RunRepository.atomicUpdateByUuid runs uuid patch expected = (true, next))
    : HoldersExclude (.act thread (.atomicUpdateRun uuid patch expected) (.ok true) :: labels)
        next := by
  obtain ⟨row, found, status, rows⟩ := RunRepository.atomicUpdateByUuid_true swapped
  obtain ⟨run, _, resumable, same⟩ := first.read
  have free (other : Nat) (holds : Holds uuid (ownLog other labels)) : False := by
    obtain ⟨held, foundHeld, running⟩ := exclude.running uuid other holds
    obtain rfl := Option.some.inj (found.symm.trans foundHeld)
    exact ResumeRun.status_ne_running_of_canResume resumable (same ▸ status ▸ running)
  have own (target : String) (holds : Holds target (ownLog thread
      (.act thread (.atomicUpdateRun uuid patch expected) (.ok true) :: labels)))
      : target = uuid := by
    obtain ⟨swap, member, own, _⟩ := holds.won
    have only : swaps (ownLog thread
        (.act thread (.atomicUpdateRun uuid patch expected) (.ok true) :: labels))
        = [⟨uuid, expected, patch, true⟩] := by
      rw [ownLog_act_self]
      simpa [swaps, swap?] using first.first
    rw [only, List.mem_singleton] at member
    rw [← own, member]
  have others (target : String) (other : Nat) (apart : other ≠ thread)
      (holds : Holds target (ownLog other
        (.act thread (.atomicUpdateRun uuid patch expected) (.ok true) :: labels)))
      : Holds target (ownLog other labels) ∧ target ≠ uuid := by
    rw [ownLog_act_other (Ne.symm apart)] at holds
    exact ⟨holds, fun same => free other (same ▸ holds)⟩
  constructor
  · intro target other holds
    rcases eq_or_ne other thread with rfl | apart
    · rw [own target holds, rows, if_pos rfl]
      exact ⟨_, rfl, by simp [RunRepositoryUpdatePatch.patch, first.status]⟩
    · obtain ⟨before, elsewhere⟩ := others target other apart holds
      rw [rows, if_neg elsewhere]
      exact exclude.running target other before
  · intro target left right holdsLeft holdsRight
    rcases eq_or_ne left thread with rfl | apartLeft
    · rcases eq_or_ne right left with rfl | apartRight
      · rfl
      · exact absurd (own target holdsLeft) (others target right apartRight holdsRight).2
    · rcases eq_or_ne right thread with rfl | apartRight
      · exact absurd (own target holdsRight) (others target left apartLeft holdsLeft).2
      · exact exclude.alone target left right (others target left apartLeft holdsLeft).1
          (others target right apartRight holdsRight).1

/-- A call that rolls back gives up the run that it held. -/
theorem HoldersExclude.rolledBack {thread : Nat} {uuid : String}
    {patch : RunRepositoryUpdatePatch} {expected : RunStatus}
    (exclude : HoldersExclude labels runs)
    (second : RollsBack (ownLog thread labels) uuid patch expected)
    (swapped : RunRepository.atomicUpdateByUuid runs uuid patch expected = (true, next))
    : HoldersExclude (.act thread (.atomicUpdateRun uuid patch expected) (.ok true) :: labels)
        next := by
  obtain ⟨row, found, status, rows⟩ := RunRepository.atomicUpdateByUuid_true swapped
  obtain ⟨swap, only, target, won, stopped, restores⟩ := second.second
  have held : Holds uuid (ownLog thread labels) := by
    constructor
    · exact ⟨swap, by simp [only], target, won⟩
    · simpa [only] using fun _ => won
  refine exclude.of_fewer fun other thread' holds => ?_
  rcases eq_or_ne thread' thread with rfl | apart
  · rw [ownLog_act_self] at holds
    have undone := holds.stands ⟨uuid, expected, patch, true⟩
      (List.mem_filterMap.mpr ⟨_, List.mem_cons_self, rfl⟩) rfl
    simp [Swap.won, restores, stopped] at undone
  · rw [ownLog_act_other (Ne.symm apart)] at holds
    refine ⟨holds, ?_⟩
    rw [rows, if_neg]
    rintro rfl
    exact apart (exclude.alone other thread' thread holds held)

theorem HoldersExclude.act {thread : Nat} {request : ResumeRequest} {reply : request.Reply}
    (exclude : HoldersExclude labels world.runs)
    (effect : ResumeEffect (ownLog thread labels) world ⟨request, reply⟩ after)
    : HoldersExclude (.act thread request reply :: labels) after.runs := by
  have kept (lost : ∀ swap, swap? ⟨request, reply⟩ = some swap → swap.swapped = false)
      : HoldersExclude (.act thread request reply :: labels) world.runs := by
    refine exclude.of_fewer fun uuid other holds => ⟨?_, rfl⟩
    rcases eq_or_ne other thread with rfl | apart
    · rw [ownLog_act_self] at holds
      exact holds.of_lost lost
    · rwa [ownLog_act_other (Ne.symm apart)] at holds
  cases effect with
  | quiet lost => exact kept lost
  | wrote writes won runs =>
      rw [runs]
      refine kept ?_
      cases request <;> first | contradiction | cases reply <;> simp [swap?]
  | reactivated first swapped => exact exclude.reactivated first swapped
  | rolledBack second swapped => exact exclude.rolledBack second swapped

end Holders

/-- Nothing changes the stores but the calls of `ResumeRun`. -/
def noEvents (_ : ResumeWorld) (_ : Empty) (_ : ResumeWorld) : Prop :=
  False

/-- Along every run of calls alone, each run has at most one holder, by the run invariant
rule.
-/
theorem holdersExclude_of_run {initial : ResumeWorld → Prop}
    {labels : List (ResumeLabel Empty)} {pool : ResumePool}
    (run : (resumeSystem initial noEvents).Run labels pool)
    : HoldersExclude labels pool.state.runs := by
  induction run with
  | start initially =>
      constructor
      · intro uuid thread holds
        obtain ⟨swap, member, _⟩ := holds.won
        contradiction
      · intro uuid first second holds
        obtain ⟨swap, member, _⟩ := holds.won
        contradiction
  | @next labels pool after label earlier taken ih =>
      cases taken with
      | event happened => exact happened.elim
      | start permitted =>
          exact ih.of_fewer fun uuid thread holds => ⟨by rwa [ownLog_start] at holds, rfl⟩
      | act running answered =>
          exact ih.act (resumeEffect_of_answer (resumesSome_of_run earlier running) answered)

/-- At every moment at most one call has made a run running without having rolled back, so a
second call wins only after the first one has undone its win; only a call that has won writes
steps, phases and jobs, and the others leave all tables as they are.
-/
theorem resumes_hold_runs_alone {initial : ResumeWorld → Prop}
    {labels : List (ResumeLabel Empty)} {pool : ResumePool}
    (run : (resumeSystem initial noEvents).Run labels pool)
    : (∀ uuid first second, Holds uuid (ownLog first labels) →
        Holds uuid (ownLog second labels) → first = second)
      ∧ ∀ thread request (reply : request.Reply) next,
        (resumeSystem initial noEvents).step pool (.act thread request reply) next →
        (request.writes = true → HasWon (ownLog thread labels))
        ∧ (¬HasWon (ownLog thread (.act thread request reply :: labels)) →
          next.state = pool.state) := by
  refine ⟨(holdersExclude_of_run run).alone, ?_⟩
  intro thread request reply next taken
  cases taken with
  | act running answered =>
      have permitted := resumesSome_of_run run running
      refine ⟨hasWon_of_writes permitted, fun loser => ?_⟩
      rw [ownLog_act_self] at loser
      exact (resumeEffect_of_answer permitted answered).same_of_not_won loser

-----------------------------------------------------------------------------------------
-- A win after a rollback
-----------------------------------------------------------------------------------------

def resumeTime : Date := .fiveSeconds

def failedRun : Run :=
  { createRun {
      uuid := "run"
      displayId := "run"
      repoId := "repo"
      issueNumber := 1
      startedAt := Date.epoch
    } with status := .failed, completedAt := some resumeTime }

/-- The run as a call makes it running. -/
def restartedRun : Run :=
  { failedRun with status := .running, completedAt := none }

def failedWorld : ResumeWorld :=
  {
    runs := ⟨[failedRun], by simp⟩
    steps := []
    phases := []
    jobs := .empty
  }

/-- Answers the calls of `ResumeRun` on runs without phases to start from; the lease is free,
and `approved` tells whether the repository is still enabled when the job is enqueued.
-/
def resumeHandler (approved : Bool) (world : ResumeWorld)
    : (request : ResumeRequest) → Option (request.Reply × ResumeWorld)
  | .now => some (.ok resumeTime, world)
  | .findRun runId => some (.ok (RunRepository.findByUuid none world.runs runId), world)
  | .findRepository id =>
      some (.ok (some { id, enabled := true, fullName := "repo", localBasePath := "base" }),
        world)
  | .acquireLease input =>
      some (.ok (WorkerLeaseRepository.leaseOf input resumeTime "token"), world)
  | .releaseLease _ => some (.ok (), world)
  | .atomicUpdateRun uuid patch expected =>
      let (swapped, runs) := RunRepository.atomicUpdateByUuid world.runs uuid patch expected
      some (.ok swapped, { world with runs })
  | .enqueueJob job =>
      match JobQueueRepository.enqueue (fun _ => approved) world.jobs job with
      | .ok jobs => some (.ok (), { world with jobs })
      | .error error => some (.error (.job error), world)
  | .inspectWorktree _ | .listSteps _ | .listPhases _ | .upsertStep _ | .insertPhase _
  | .updatePhase _ => none

theorem resumeHandler_answers {approved : Bool} (world : ResumeWorld) (request : ResumeRequest)
    (reply : request.Reply) (after : ResumeWorld)
    (handled : resumeHandler approved world request = some (reply, after))
    : world.Answers request reply after := by
  cases request with
  | now | findRepository | acquireLease | releaseLease =>
      obtain ⟨rfl, rfl⟩ := Prod.mk.inj (Option.some.inj handled)
      rfl
  | findRun runId =>
      obtain ⟨rfl, rfl⟩ := Prod.mk.inj (Option.some.inj handled)
      exact ⟨⟨none, rfl⟩, rfl⟩
  | atomicUpdateRun uuid patch expected =>
      obtain ⟨rfl, rfl⟩ := Prod.mk.inj (Option.some.inj handled)
      exact ⟨_, rfl, rfl⟩
  | enqueueJob job =>
      simp only [resumeHandler] at handled
      split at handled
      · rename_i jobs enqueued
        obtain ⟨rfl, rfl⟩ := Prod.mk.inj (Option.some.inj handled)
        exact ⟨fun _ => approved, jobs, enqueued, rfl⟩
      · obtain ⟨rfl, rfl⟩ := Prod.mk.inj (Option.some.inj handled)
        rfl
  | inspectWorktree | listSteps | listPhases | upsertStep | insertPhase | updatePhase =>
      contradiction

/-- A call for the run, without a phase to start from. -/
def resumeCall (workerId : WorkerId) : ResumeProgram :=
  ResumeRun.execute {} { runId := "run", workerId } ()

/-- Two calls read the failed run; the first one makes it running, fails to enqueue its job and
rolls back, and then the second one makes it running.
-/
def rollbackSchedule : List (Move Empty ResumeRequest ResumeRequest.Reply ResumeEnding) :=
  [.start (resumeCall "first"), .start (resumeCall "second")] ++ List.replicate 6 (.act 0)
    ++ List.replicate 6 (.act 1) ++ List.replicate 5 (.act 0) ++ [.act 1]

def rollbackPlay : Option (List (ResumeLabel Empty) × ResumePool) :=
  Pool.play (resumeHandler false) (fun event _ => event.elim) rollbackSchedule []
    ⟨failedWorld, []⟩

theorem run_rollbackPlay {labels : List (ResumeLabel Empty)} {pool : ResumePool}
    (played : rollbackPlay = some (labels, pool))
    : (resumeSystem (fun _ => True) noEvents).Run labels pool := by
  refine Pool.run_of_play resumeHandler_answers (fun event => event.elim) ?_ (.start ?_) played
  · intro program member
    simp only [rollbackSchedule, List.mem_append, List.mem_cons, List.mem_replicate,
      List.not_mem_nil, Move.start.injEq, reduceCtorEq, or_false, and_false] at member
    rcases member with rfl | rfl
    · exact ⟨{}, _, rfl⟩
    · exact ⟨{}, _, rfl⟩
  · exact ⟨trivial, rfl⟩

/-- The compare-and-set of a call that finds the run failed. -/
def failedSwap : Swap :=
  {
    uuid := "run"
    expected := .failed
    patch := ResumeRun.reactivation { runId := "run", workerId := "" } restartedRun
    swapped := true
  }

/-- Two calls that have read the run as failed both win. -/
theorem resumes_win_twice
    : ¬∀ (labels : List (ResumeLabel Empty)) (pool : ResumePool),
        (resumeSystem (fun _ => True) noEvents).Run labels pool →
        ∀ first second, ∀ won ∈ swaps (ownLog first labels),
          ∀ other ∈ swaps (ownLog second labels), won.won = true → other.won = true →
          won.uuid = other.uuid → won.expected = other.expected → first = second := by
  intro claim
  let reached := rollbackPlay.get rfl
  have played : rollbackPlay = some (reached.1, reached.2) := rfl
  have firstWin : failedSwap ∈ swaps (ownLog 0 reached.1) :=
    List.mem_of_getElem? (show _[1]? = _ from rfl)
  have secondWin : failedSwap ∈ swaps (ownLog 1 reached.1) :=
    List.mem_of_getElem? (show _[0]? = _ from rfl)
  exact Nat.zero_ne_one
    (claim _ _ (run_rollbackPlay played) 0 1 _ firstWin _ secondWin rfl rfl rfl rfl)

/-- After the rollback the second call holds the run alone. -/
theorem resumes_hold_runs_alone_rollback
    : let reached := rollbackPlay.get rfl
      ∀ thread, Holds "run" (ownLog thread reached.1) → thread = 1 := by
  intro reached thread holds
  have played : rollbackPlay = some (reached.1, reached.2) := rfl
  have only : swaps (ownLog 1 reached.1) = [failedSwap] := rfl
  have second : Holds "run" (ownLog 1 reached.1) := by
    constructor
    · exact ⟨failedSwap, by simp [only], rfl, rfl⟩
    · rw [only]
      simp [Swap.won, failedSwap, ResumeRun.reactivation, restartedRun]
  exact (resumes_hold_runs_alone (run_rollbackPlay played)).1 "run" thread 1 holds second

end AiSdlc.Application
