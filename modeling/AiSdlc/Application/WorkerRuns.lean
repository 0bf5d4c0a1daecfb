import AiSdlc.Application.WorkerExchanges

/-! Workers and other actors side by side on the table of runs: a worker spares the runs that
have ended, unless one of its two updates comes after another actor ended the run.
-/

namespace AiSdlc.Application

open AiSdlc.Js
open AiSdlc.Domain
open AiSdlc.Async
open AiSdlc.Sqlite
open AiSdlc.Transition
open WorkerLoop

/-- `recordPreparationFailure` marks a run for review, unless it has ended. -/
def RecordsPreparationFailure (runs : RunTable) (runId : RunId) (error : WorkerError)
    (after : RunTable)
    : Prop :=
  after = runs
  ∨ ∃ repoId run now, RunRepository.findByUuid repoId runs runId = some run
      ∧ run.status.isTerminal = false
      ∧ after = RunRepository.update runs run.uuid {
          status := some .needsHumanReview
          currentPhase := some run.currentPhase
          completedAt := some (some now)
          failureReason := some error.message?
        }

/-- The table of runs answers a worker; the other ports reply anything, and what the execution
and the preparation write to the runs happens beside the worker.
-/
def WorkerAnswers : Environment RunTable WorkerRequest WorkerRequest.Reply
  | runs, .findRun runId, .ok run, after =>
      (∃ repoId, run = RunRepository.findByUuid repoId runs runId) ∧ after = runs
  | runs, .updateRun runId patch, .ok (), after => after = RunRepository.update runs runId patch
  | runs, .handlePreparationFailure runId error, _, after =>
      RecordsPreparationFailure runs runId error after
  | runs, .prepareWorktree _, reply, after =>
      (∃ race : PreparationRace, race.result = reply) ∧ after = runs
  | runs, .executeRun _, reply, after =>
      (∃ race : ExecutionRace, race.result? = some reply) ∧ after = runs
  | runs, _, _, after => after = runs

abbrev WorkerEnding : Type :=
  Completion WorkerError RunClaimedJobResult RunClaimedJobResult × WorkerLocals

/-- The other actors leave any table of runs. -/
abbrev WorkerLabel : Type :=
  PoolLabel RunTable WorkerRequest WorkerRequest.Reply WorkerEnding

abbrev WorkerPool : Type :=
  Pool RunTable WorkerRequest WorkerRequest.Reply WorkerEnding

/-- A worker starts on a claimed job. -/
def StartsWorker (program : Program WorkerRequest WorkerRequest.Reply WorkerEnding) : Prop :=
  ∃ deps workerId job, program = runClaimedJob deps workerId job {}

/-- Any number of workers on any jobs, with any other change of the runs in between. -/
abbrev workerSystem : System WorkerPool WorkerLabel :=
  poolSystem (fun _ => True) WorkerAnswers (fun _ event after => after = event) StartsWorker

/-- The runs that have ended keep their status, their time and their reason. -/
def SparesTerminal (before after : RunTable) : Prop :=
  ∀ uuid row, before.find uuid = some row → row.status.isTerminal = true →
    ∃ kept, after.find uuid = some kept ∧ kept.status = row.status
      ∧ kept.completedAt = row.completedAt ∧ kept.failureReason = row.failureReason

/-- An update of a worker finds a run that has not ended, or one that already ended with what
the update sets.
-/
def WriteHarmless (runs : RunTable) : (request : WorkerRequest) → request.Reply → Prop
  | .updateRun runId patch, .ok () =>
      ∀ row, runs.find runId = some row → row.status.isTerminal = true →
        (patch = cancelledUpdate → row.status = .cancelled)
        ∧ ∀ cause, patch = failedUpdate cause →
            row.status = .failed ∧ row.failureReason = some cause
  | _, _ => True

/-- The updates of the workers are harmless, and the other actors spare the runs that have
ended.
-/
def LeavesTerminal (pool : WorkerPool) : WorkerLabel → Prop
  | .event after => SparesTerminal pool.state after
  | .start _ => True
  | .act _ request reply => WriteHarmless pool.state request reply

theorem SparesTerminal.refl (runs : RunTable) : SparesTerminal runs runs :=
  fun _ row found _ => ⟨row, found, rfl, rfl, rfl⟩

theorem SparesTerminal.trans {before middle after : RunTable}
    (first : SparesTerminal before middle) (second : SparesTerminal middle after)
    : SparesTerminal before after := by
  intro uuid row found ended
  obtain ⟨kept, there, status, completedAt, failureReason⟩ := first uuid row found ended
  obtain ⟨last, here, same, time, reason⟩ := second uuid kept there (by rw [status, ended])
  exact ⟨last, here, same.trans status, time.trans completedAt, reason.trans failureReason⟩

/-- An update spares the runs that have ended if and only if it leaves the one that it finds,
where that has ended.
-/
theorem sparesTerminal_update {runs : RunTable} {uuid : String}
    {patch : RunRepositoryUpdatePatch}
    : SparesTerminal runs (RunRepository.update runs uuid patch)
      ↔ ∀ row, runs.find uuid = some row → row.status.isTerminal = true →
          (patch.patch row).status = row.status
          ∧ (patch.patch row).completedAt = row.completedAt
          ∧ (patch.patch row).failureReason = row.failureReason := by
  constructor
  · intro spares row found ended
    obtain ⟨kept, there, same⟩ := spares uuid row found ended
    rw [RunRepository.find_update, if_pos rfl, found] at there
    cases there
    exact same
  · intro leaves id row found ended
    rw [RunRepository.find_update]
    split
    · rename_i here
      rw [here] at found
      rw [found]
      exact ⟨_, rfl, leaves row found ended⟩
    · exact ⟨row, found, rfl, rfl, rfl⟩

theorem RecordsPreparationFailure.sparesTerminal {runs after : RunTable} {runId : RunId}
    {error : WorkerError} (records : RecordsPreparationFailure runs runId error after)
    : SparesTerminal runs after := by
  rcases records with same | ⟨repoId, run, now, read, going, same⟩
  · exact same ▸ .refl runs
  · rw [same]
    refine sparesTerminal_update.mpr fun row found ended => ?_
    -- The run that was read is the one with its UUID, and it has not ended.
    have member := (RunRepository.findByUuid_eq_some read).1
    have stored : runs.find run.uuid = some run := Table.findKey_of_mem runSchema_keyed member
    cases stored.symm.trans found
    rw [going] at ended
    contradiction

/-- An update that a worker makes spares the runs that have ended if and only if it is
harmless.
-/
theorem update_spares_iff {runs : RunTable} {runId : RunId} {patch : RunRepositoryUpdatePatch}
    {log : WorkerLog} (permitted : UpdatesRun log (.updateRun runId patch))
    : SparesTerminal runs (RunRepository.update runs runId patch)
      ↔ WriteHarmless runs (.updateRun runId patch) (.ok ()) := by
  rw [sparesTerminal_update]
  refine forall_congr' fun row => forall_congr' fun found => forall_congr' fun ended => ?_
  rcases permitted with ⟨cause, rfl, -⟩ | ⟨rfl, -⟩
  · constructor
    · rintro ⟨status, -, reason⟩
      refine ⟨fun same => ?_, fun other same => ?_⟩
      · exact absurd same (by simp [failedUpdate, cancelledUpdate])
      · cases (by simpa [failedUpdate] using same : cause = other)
        exact ⟨status.symm, reason.symm⟩
    · rintro ⟨-, harmless⟩
      obtain ⟨status, reason⟩ := harmless cause rfl
      exact ⟨status.symm, rfl, reason.symm⟩
  · constructor
    · rintro ⟨status, -⟩
      refine ⟨fun _ => status.symm, fun other same => ?_⟩
      exact absurd same (by simp [failedUpdate, cancelledUpdate])
    · rintro ⟨harmless, -⟩
      exact ⟨(harmless rfl).symm, rfl, rfl⟩

section Steps

variable {labels : List WorkerLabel} {pool next : WorkerPool}

theorem updatesRun_of_step (run : workerSystem.Run labels pool) {thread : Nat}
    {request : WorkerRequest} {reply : request.Reply}
    (taken : workerSystem.step pool (.act thread request reply) next)
    : UpdatesRun (ownLog thread labels) request := by
  have safe : ∀ program, StartsWorker program →
      program.Ensures logged UpdatesRun (fun _ _ => True) [] := by
    rintro program ⟨deps, workerId, job, rfl⟩
    have honest : Honest {} [] := fun started => nomatch started
    exact Program.Ensures.mono (settles_runClaimedJob {} [] honest)
      (fun _ _ permitted => permitted) fun _ _ _ => trivial
  exact Pool.allowed_of_act safe run taken

/-- A step of a worker spares the runs that have ended if and only if it is harmless. -/
theorem step_spares_iff (run : workerSystem.Run labels pool) {thread : Nat}
    {request : WorkerRequest} {reply : request.Reply}
    (taken : workerSystem.step pool (.act thread request reply) next)
    : SparesTerminal pool.state next.state ↔ WriteHarmless pool.state request reply := by
  have permitted := updatesRun_of_step run taken
  cases taken with
  | act running answered =>
      cases request with
      | updateRun runId patch =>
          cases reply with
          | ok =>
              cases answered
              exact update_spares_iff permitted
          | error error =>
              cases answered
              exact iff_of_true (.refl _) trivial
      | handlePreparationFailure runId error =>
          exact iff_of_true (RecordsPreparationFailure.sparesTerminal answered) trivial
      | prepareWorktree | executeRun =>
          obtain ⟨-, same⟩ := answered
          exact iff_of_true (same ▸ .refl _) trivial
      | findRun runId =>
          cases reply with
          | ok found =>
              obtain ⟨-, same⟩ := answered
              exact iff_of_true (same ▸ .refl _) trivial
          | error error =>
              cases answered
              exact iff_of_true (.refl _) trivial
      | _ =>
          cases answered
          exact iff_of_true (.refl _) trivial

/-- From any state that is reached, the runs that have ended are spared as long as the updates
of the workers are harmless and the other actors spare them; a step of a worker spares them if
and only if it is harmless, and it changes a run only with evidence in its own exchanges.
-/
theorem worker_spares_terminal_runs (run : workerSystem.Run labels pool)
    : (∀ later reached, (workerSystem.restrict LeavesTerminal).Path pool later reached →
        SparesTerminal pool.state reached.state)
      ∧ ∀ thread request (reply : WorkerRequest.Reply request) after,
          workerSystem.step pool (.act thread request reply) after →
          (SparesTerminal pool.state after.state ↔ WriteHarmless pool.state request reply)
          ∧ UpdatesRun (ownLog thread labels) request := by
  refine ⟨fun later reached path => ?_, fun thread request reply after taken =>
    ⟨step_spares_iff run taken, updatesRun_of_step run taken⟩⟩
  induction path with
  | stay => exact .refl _
  | @next later middle last label earlier taken ih =>
      obtain ⟨leaves, taken⟩ := taken
      refine ih.trans ?_
      cases label with
      | event after =>
          cases taken with
          | event happened => exact happened ▸ leaves
      | start program =>
          cases taken
          exact .refl _
      | act thread request reply =>
          exact (step_spares_iff (run.append earlier.of_restrict) taken).mpr leaves

end Steps

-----------------------------------------------------------------------------------------
-- A run is aborted by its user just as it passes
-----------------------------------------------------------------------------------------

def workerTime : Date := ⟨7000, by decide⟩

def workedRun : Run :=
  createRun {
    uuid := "run"
    displayId := "run"
    repoId := "repo"
    issueNumber := 1
    startedAt := workerTime
  }

/-- The run after another actor marked it passed. -/
def passedRuns : RunTable :=
  (RunRepository.updateStatusByUuid ⟨[workedRun], by simp⟩ "run"
    { status := .passed, completedAt := workerTime }).2

def workedJob : Job :=
  {
    id := "job"
    runId := "run"
    repoId := "repo"
    issueNumber := 1
    status := .claimed
    priority := 0
    attempts := 1
    claimedBy := some "worker"
    claimToken := some "token"
    createdAt := workerTime
  }

/-- A worker that learns about an abort while the execution goes on. -/
def abortedWorker : Program WorkerRequest WorkerRequest.Reply WorkerEnding :=
  runClaimedJob { repoId := "repo", ttlMs := 1000, outerSignal := true, getAbortReason := true }
    "worker" workedJob {}

/-- Answers the calls of a worker whose execution ends after the user aborted it. -/
def abortHandler (runs : RunTable)
    : (request : WorkerRequest) → Option (request.Reply × RunTable)
  | .now => some (.ok workerTime, runs)
  | .getAbortReason => some (.ok (some .userCancelled), runs)
  | .outerAborted => some (.ok false, runs)
  | .acquireLease input =>
      some (.ok (WorkerLeaseRepository.leaseOf input workerTime "lease"), runs)
  | .prepareWorktree _ => some (.ok "/worktree", runs)
  | .findRun runId => some (.ok (RunRepository.findByUuid none runs runId), runs)
  | .executeRun _ =>
      some (.error (.error "heartbeat failed during job execution"), runs)
  | .updateRun runId patch => some (.ok (), RunRepository.update runs runId patch)
  | .markBusy _ _ | .markJobRunning _ _ => some (.ok (), runs)
  | _ => none

theorem abortHandler_answers (runs : RunTable) (request : WorkerRequest)
    (reply : request.Reply) (after : RunTable)
    (handled : abortHandler runs request = some (reply, after))
    : WorkerAnswers runs request reply after := by
  cases request with
  | executeRun input =>
      cases handled
      exact ⟨⟨.aborted (some "user_cancelled") (some (.ok (.outcome .completed))), rfl⟩, rfl⟩
  | prepareWorktree input =>
      cases handled
      exact ⟨⟨.settled (.ok "/worktree"), rfl⟩, rfl⟩
  | findRun runId =>
      cases handled
      exact ⟨⟨none, rfl⟩, rfl⟩
  | now | getAbortReason | outerAborted | acquireLease | updateRun | markBusy
    | markJobRunning =>
      cases handled
      rfl
  | _ => contradiction

def runsEvent (after : RunTable) (_ : RunTable) : Option (RunTable × RunTable) :=
  some (after, after)

theorem runsEvent_happens (call runs event after : RunTable)
    (performed : runsEvent call runs = some (event, after))
    : after = event := by
  cases performed
  rfl

/-- The worker waits for the execution, other actors leave the given tables, and then the
execution ends and the worker asks for the reason of the abort.
-/
def abortPlay (changes : List RunTable) : Option (List WorkerLabel × WorkerPool) :=
  Pool.play abortHandler runsEvent
    ([.start abortedWorker] ++ List.replicate 8 (.act 0) ++ changes.map .event
      ++ List.replicate 2 (.act 0))
    [] ⟨⟨[workedRun], by simp⟩, []⟩

theorem run_abortPlay {changes : List RunTable} {labels : List WorkerLabel}
    {pool : WorkerPool} (played : abortPlay changes = some (labels, pool))
    : workerSystem.Run labels pool := by
  refine Pool.run_of_play abortHandler_answers runsEvent_happens ?_ (.start ⟨trivial, rfl⟩)
    played
  intro program member
  simp only [List.mem_append, List.mem_map, List.mem_cons, List.mem_replicate,
    List.not_mem_nil, Move.start.injEq, reduceCtorEq, or_false, and_false, exists_false]
    at member
  exact ⟨_, _, _, member⟩

theorem step_of_abortMove {pool next : WorkerPool} {label : WorkerLabel}
    (moved : pool.move abortHandler runsEvent (.act 0) = some (label, next))
    : workerSystem.step pool label next :=
  Pool.step_of_move abortHandler_answers runsEvent_happens (fun _ same => by contradiction)
    moved

/-- The user aborts the job, and the execution has passed the run: the worker marks the passed
run cancelled.
-/
theorem worker_overwrites_passed_run
    : ¬∀ (labels : List WorkerLabel) (pool : WorkerPool), workerSystem.Run labels pool →
        ∀ thread request (reply : WorkerRequest.Reply request) next,
          workerSystem.step pool (.act thread request reply) next →
          SparesTerminal pool.state next.state := by
  intro claim
  let reached := (abortPlay [passedRuns]).get rfl
  have played : abortPlay [passedRuns] = some (reached.1, reached.2) := rfl
  let moved := (reached.2.move abortHandler runsEvent (.act 0)).get rfl
  have step : workerSystem.step reached.2 moved.1 moved.2 := step_of_abortMove rfl
  have spares : SparesTerminal reached.2.state moved.2.state :=
    claim _ _ (run_abortPlay played) _ _ _ _ step
  obtain ⟨kept, found, status, -⟩ := spares "run" _ rfl rfl
  cases found
  contradiction

/-- Without the other actor, the worker marks the running run cancelled and spares the runs
that have ended.
-/
theorem worker_spares_terminal_runs_aborted
    : let reached := (abortPlay []).get rfl
      let moved := (reached.2.move abortHandler runsEvent (.act 0)).get rfl
      SparesTerminal reached.2.state moved.2.state := by
  intro reached moved
  have played : abortPlay [] = some (reached.1, reached.2) := rfl
  have step : workerSystem.step reached.2 moved.1 moved.2 := step_of_abortMove rfl
  refine ((worker_spares_terminal_runs (run_abortPlay played)).2 _ _ _ _ step).1.mpr ?_
  intro row found ended
  cases found
  contradiction

end AiSdlc.Application
