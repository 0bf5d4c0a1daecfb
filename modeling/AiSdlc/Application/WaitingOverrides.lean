import Mathlib.Logic.Function.Basic
import AiSdlc.Application.SweepWaitingRuns

/-! The sweep over the waiting runs beside other actors, which may change the stored runs before
each of its calls. The update of a reactivation does not compare the stored status, so a run
that has changed since it was listed is spared only where the update comes to nothing.
-/

namespace AiSdlc.Application

open AiSdlc.Js
open AiSdlc.Domain
open AiSdlc.Async
open AiSdlc.Sqlite

/-- What is not to change of a run that another actor has taken over. -/
def outcome (run : Run) : RunStatus × Option Date × Option String :=
  (run.status, run.completedAt, run.failureReason)

/-- The stored runs, which of them `applyReactivation` was called for when they were no longer
waiting, and whether the sweep has changed the outcome of one of these.
-/
structure Sweeping where
  runs : RunTable
  stale : String → Bool
  overridden : Bool

/-- Whether a run is stored in another status than the one it was listed with. -/
def isStale (runs : RunTable) (uuid : String) : Bool :=
  (runs.find uuid).any (·.status ≠ .waiting)

/-- `applyReactivation` is called for a run. -/
def Sweeping.called (state : Sweeping) (uuid : String) : Sweeping :=
  { state with stale := Function.update state.stale uuid (isStale state.runs uuid) }

@[simp]
theorem Sweeping.called_stale (state : Sweeping) (uuid : String)
    : (state.called uuid).stale uuid = isStale state.runs uuid :=
  Function.update_self ..

/-- The sweep writes the row of a run. -/
def Sweeping.wrote (state : Sweeping) (uuid : String) (runs : RunTable) : Sweeping :=
  {
    state with
    runs
    overridden :=
      state.overridden
      || (state.stale uuid
        && (state.runs.find uuid).map outcome ≠ (runs.find uuid).map outcome)
  }

/-- The calls of `applyReactivation` on the stored runs; nothing comes between them. -/
def applies : Environment RunTable ApplyRequest ApplyRequest.Reply
  | runs, .updateRun uuid patch, .ok (), after => after = RunRepository.update runs uuid patch
  | runs, _, _, after => after = runs

/-- What a call of `applyReactivation` answers its caller. -/
def applied {α : Type} : Completion SweepError Empty α → Except SweepError α
  | .normal value => .ok value
  | .threw error => .error error

/-- The replies of the ports to the sweep. -/
def Sweeping.Replies (deps : SweepWaitingRunsDeps)
    : Environment Sweeping SweepRequest SweepRequest.Reply
  | state, .findActiveRuns, .ok active, after =>
      active.Perm (state.runs.rows.filter fun row => !row.status.isTerminal) ∧ after = state
  | state, .applyReactivation run decision, reply, after =>
      ∃ completion runs,
        (deps.applyReactivation run decision ()).Exec applies state.runs (completion, ()) runs
        ∧ applied completion = reply ∧ after = (state.called run.uuid).wrote run.uuid runs
  | state, .atomicUpdateRun uuid patch expected, .ok updated, after =>
      ∃ runs, RunRepository.atomicUpdateByUuid state.runs uuid patch expected = (updated, runs)
        ∧ after = state.wrote uuid runs
  | state, _, _, after => after = state

/-- Before each call other actors may have changed the stored runs in any way; the calls find
states as given.
-/
def Sweeping.Beside (deps : SweepWaitingRunsDeps) (finds : Sweeping → SweepRequest → Bool)
    : Environment Sweeping SweepRequest SweepRequest.Reply :=
  fun state request reply after =>
    ∃ runs, finds { state with runs } request = true
      ∧ Sweeping.Replies deps { state with runs } request reply after

/-- Whether a decision is written to the run's row: reactivating a run that was listed within a
phase throws before that.
-/
def SweepWaitingRunsDeps.writes (deps : SweepWaitingRunsDeps) (run : Run)
    (decision : ReactivationDecision)
    : Bool :=
  !deps.defers decision
  && match decision.action with
    | .reactivate => run.currentPhase.isNone
    | .timeout => true
    | .stayReady => false

/-- The calls that spare the runs of other actors: a decision is written to a run that is still
waiting, or makes a run running that is so already; and a run that was not waiting any more is
not running when the sweep comes to end it.
-/
def Sweeping.spares (deps : SweepWaitingRunsDeps) (state : Sweeping) : SweepRequest → Bool
  | .applyReactivation run decision =>
      !deps.writes run decision
      || (state.runs.find run.uuid).all fun row =>
        row.status = .waiting || (decision.action = .reactivate && row.status = .running)
  | .atomicUpdateRun uuid _ _ =>
      !state.stale uuid || (state.runs.find uuid).all (·.status ≠ .running)
  | _ => true

section Applying

variable {deps : SweepWaitingRunsDeps} {run : Run} {decision : ReactivationDecision}
  {runs : RunTable}

/-- What the row of a run may be after a decision was applied. -/
def Decided (deps : SweepWaitingRunsDeps) (run : Run) (decision : ReactivationDecision)
    (runs after : RunTable)
    : Prop :=
  after = runs
  ∨ deps.writes run decision = true
    ∧ ∃ patch, after = RunRepository.update runs run.uuid patch
      ∧ (decision.action = .reactivate → patch = { status := some .running })

/-- Statements of `applyReactivation` that leave the decision written or not. -/
abbrev Applying {α : Type} (deps : SweepWaitingRunsDeps) (run : Run)
    (decision : ReactivationDecision) (runs : RunTable) (before after : RunTable → Prop)
    (statements : ApplyStatements α)
    : Prop :=
  statements.Triple applies (fun _ _ => True) (fun _ => before) (fun _ => after)
    fun _ => Decided deps run decision runs

theorem decided_of_eq {after : RunTable} (same : after = runs)
    : Decided deps run decision runs after :=
  .inl same

theorem applying_call {request : ApplyRequest} {holds : RunTable → Prop}
    (reads : ∀ stored (reply : request.Reply) after, applies stored request reply after →
      after = stored)
    (decided : ∀ stored, holds stored → Decided deps run decision runs stored)
    : Applying deps run decision runs holds holds (ApplyReactivation.call request) := by
  intro _ stored before
  refine Block.ensures_call.mpr ⟨trivial, ?_, ?_⟩
  · intro answer after answered
    exact reads stored _ after answered ▸ before
  · intro error after answered
    exact decided after (reads stored _ after answered ▸ before)

theorem applying_publishDecision {level : EventLevel} {type reason : String}
    : Applying deps run decision runs (Decided deps run decision runs)
        (Decided deps run decision runs)
        (ApplyReactivation.publishDecision run level type reason) := by
  refine Block.triple_bind (applying_call ?_ fun _ decided => decided) fun timestamp => ?_
  · intro stored reply after answered
    cases reply <;> exact answered
  · refine applying_call ?_ fun _ decided => decided
    intro stored reply after answered
    cases reply <;> exact answered

theorem applying_update {patch : RunRepositoryUpdatePatch}
    (writes : deps.writes run decision = true)
    (reactivates : decision.action = .reactivate → patch = { status := some .running })
    : Applying deps run decision runs (· = runs) (Decided deps run decision runs)
        (ApplyReactivation.call (.updateRun run.uuid patch)) := by
  intro _ stored before
  cases before
  refine Block.ensures_call.mpr ⟨trivial, ?_, ?_⟩
  · intro answer after answered
    exact .inr ⟨writes, patch, answered, reactivates⟩
  · intro error after answered
    exact .inl answered

/-- A domain operation changes no run, and its value is the one that it computes. -/
theorem applying_check {α β : Type} {checked : Except String α} {after : RunTable → Prop}
    {next : α → ApplyStatements β}
    (rest : ∀ value, checked = .ok value →
      Applying deps run decision runs (· = runs) after (next value))
    : Applying deps run decision runs (· = runs) after
        (ApplyReactivation.check checked >>= next) := by
  cases checked with
  | ok value => exact rest value rfl
  | error message =>
      intro _ stored before
      exact .inl before

/-- A decision is written only where it may be, by cases on its action. -/
theorem applying_applyReactivation
    : Applying deps run decision runs (· = runs) (Decided deps run decision runs)
        (deps.applyReactivation run decision) := by
  unfold SweepWaitingRunsDeps.applyReactivation
  cases deferred : deps.defers decision with
  | true =>
      intro _ stored before
      exact .inl before
  | false =>
      refine Block.triple_bind ?_ fun _ => Block.keeps_pure
      unfold ApplyReactivation.applyReactivation
      cases action : decision.action with
      | stayReady =>
          intro _ stored before
          exact .inl before
      | reactivate =>
          refine applying_check fun next computed => ?_
          obtain ⟨outside, -, rfl⟩ := reactivate_eq_ok.mp computed
          have writes : deps.writes run decision = true := by
            simp [SweepWaitingRunsDeps.writes, deferred, action, outside]
          refine Block.triple_bind (applying_update writes fun _ => rfl) fun _ => ?_
          exact Block.triple_bind applying_publishDecision fun _ => Block.keeps_pure
      | timeout =>
          refine Block.triple_bind (applying_call ?_ fun _ => decided_of_eq) fun now => ?_
          · intro stored reply after answered
            cases reply <;> exact answered
          refine applying_check fun next computed => ?_
          have writes : deps.writes run decision = true := by
            simp [SweepWaitingRunsDeps.writes, deferred, action]
          have other : decision.action = .reactivate →
              ApplyReactivation.timeoutPatch next = { status := some .running } := by
            simp [action]
          refine Block.triple_bind (applying_update writes other) fun _ => ?_
          exact Block.triple_bind applying_publishDecision fun _ => Block.keeps_pure

/-- A call of `applyReactivation` writes the row of its run at most once. -/
theorem decided_of_exec {completion : Completion SweepError Empty Unit} {locals : Unit}
    {after : RunTable}
    (execution
      : (deps.applyReactivation run decision ()).Exec applies runs (completion, locals) after)
    : Decided deps run decision runs after := by
  have ended := Program.Ensures.of_exec (applying_applyReactivation () runs rfl) execution
  cases completion with
  | normal | threw => exact ended
  | returned result => exact result.elim

end Applying

/-- What the sweep asks for: it ends running runs only. -/
def Sweeps (_ : Sweeping) : SweepRequest → Prop
  | .atomicUpdateRun _ _ expected => expected = .running
  | _ => True

section Statements

open SweepWaitingRuns

variable {environment : Environment Sweeping SweepRequest SweepRequest.Reply}
  {deps : SweepWaitingRunsDeps} {run : Run}

/-- Statements that make only the calls of a sweep. -/
abbrev Sweeping.Makes {α : Type}
    (environment : Environment Sweeping SweepRequest SweepRequest.Reply)
    (statements : SweepStatements α)
    : Prop :=
  statements.Keeps environment Sweeps (fun _ _ => True) fun _ _ => True

theorem makes_call {request : SweepRequest} (sweeps : ∀ state, Sweeps state request)
    : Sweeping.Makes environment (SweepWaitingRuns.call request) := by
  intro _ state _
  exact Block.ensures_call.mpr ⟨sweeps state, fun _ _ _ => trivial, fun _ _ _ => trivial⟩

theorem makes_pushError {error : String} : Sweeping.Makes environment (pushError run error) :=
  Block.keeps_assign fun _ _ _ => trivial

theorem makes_attempt {α : Type} {statements : SweepStatements α}
    {recover : SweepError → SweepStatements α} (tried : Sweeping.Makes environment statements)
    (recovered : ∀ error, Sweeping.Makes environment (recover error))
    : Sweeping.Makes environment (Block.attempt statements recover) :=
  Block.keeps_attempt tried recovered fun _ _ _ => trivial

theorem makes_publishNow {level : EventLevel} {type message : String}
    {metadata : List (String × String)}
    : Sweeping.Makes environment (publishNow run level type message metadata) :=
  Block.keeps_bind (makes_call fun _ => trivial) fun _ => makes_call fun _ => trivial

theorem makes_lookUp {α : Type} {failed : String} {statements : SweepStatements α}
    (looks : Sweeping.Makes environment statements)
    : Sweeping.Makes environment (lookUp run failed statements) := by
  refine makes_attempt (Block.keeps_bind looks fun _ => Block.keeps_pure) fun error => ?_
  refine Block.keeps_bind makes_pushError fun _ => ?_
  exact Block.keeps_bind makes_publishNow fun _ => Block.keeps_pure

theorem makes_finishMerged : Sweeping.Makes environment (finishMerged deps run) := by
  refine makes_attempt ?_ fun error => makes_pushError
  refine Block.keeps_bind (makes_call fun _ => trivial) fun _ => ?_
  refine Block.keeps_bind (makes_call fun _ => trivial) fun mergedAt => ?_
  refine Block.keeps_bind (makes_call fun _ => rfl) fun updated => ?_
  refine Block.keeps_ifThen fun _ => ?_
  refine Block.keeps_bind (makes_call fun _ => trivial) fun _ => ?_
  refine Block.keeps_bind (Block.keeps_ifThen fun _ => ?_) fun _ => ?_
  · exact makes_attempt (makes_call fun _ => trivial) fun _ => Block.keeps_pure
  · exact Block.keeps_assign fun _ _ _ => trivial

theorem makes_finishClosed : Sweeping.Makes environment (finishClosed run) := by
  refine makes_attempt ?_ fun error => makes_pushError
  refine Block.keeps_bind (makes_call fun _ => trivial) fun _ => ?_
  refine Block.keeps_bind (makes_call fun _ => trivial) fun closedAt => ?_
  refine Block.keeps_bind (makes_call fun _ => rfl) fun updated => ?_
  refine Block.keeps_ifThen fun _ => ?_
  refine Block.keeps_bind (makes_call fun _ => trivial) fun _ => ?_
  exact Block.keeps_assign fun _ _ _ => trivial

theorem makes_applyDecision {decision : ReactivationDecision}
    : Sweeping.Makes environment (applyDecision run decision) := by
  refine makes_attempt ?_ fun error => ?_
  · refine Block.keeps_bind (makes_call fun _ => trivial) fun _ => ?_
    exact Block.keeps_assign fun _ _ _ => trivial
  · cases error with
    | runState | other => exact Block.keeps_bind makes_pushError fun _ => makes_publishNow

theorem makes_sweepPullRequest {context : PrContext}
    : Sweeping.Makes environment (sweepPullRequest deps run context) := by
  refine Block.keeps_bind (makes_lookUp (makes_call fun _ => trivial)) fun detail => ?_
  cases detail with
  | none => exact Block.keeps_pure
  | some state =>
      cases state with
      | merged => exact makes_finishMerged
      | closed => exact makes_finishClosed
      | open_ =>
          refine Block.keeps_bind (makes_lookUp (makes_call fun _ => trivial)) fun comments => ?_
          cases comments with
          | none => exact Block.keeps_pure
          | some comments =>
              refine Block.keeps_bind ?_ fun decision => makes_applyDecision
              refine Block.keeps_bind (makes_call fun _ => trivial) fun lastAttempt => ?_
              exact Block.keeps_bind (makes_call fun _ => trivial) fun _ => Block.keeps_pure

/-- The sweep asks only for what sweeps ask for, whatever is answered. -/
theorem makes_execute : Sweeping.Makes environment (SweepWaitingRuns.execute deps) := by
  refine Block.keeps_bind (makes_call fun _ => trivial) fun active => ?_
  refine Block.keeps_bind (Block.keeps_forEach fun run _ => ?_) fun _ => Block.keeps_locals
  refine Block.keeps_bind (Block.keeps_assign fun _ _ _ => trivial) fun _ => ?_
  refine makes_attempt (Block.keeps_bind (makes_call fun _ => trivial) fun context => ?_)
    fun error => Block.keeps_bind makes_pushError fun _ => makes_publishNow
  cases context with
  | none =>
      exact Block.keeps_bind (Block.keeps_assign fun _ _ _ => trivial) fun _ => makes_publishNow
  | some context => exact makes_sweepPullRequest

theorem execute_sweeps {state : Sweeping}
    : (SweepWaitingRuns.execute deps {}).Ensures environment Sweeps (fun _ _ => True) state :=
  Program.Ensures.mono (makes_execute {} state trivial) (fun _ _ sweeps => sweeps)
    fun _ _ _ => trivial

end Statements

section Steps

variable {deps : SweepWaitingRunsDeps} {state after : Sweeping}

theorem Sweeping.wrote_spares {uuid : String} {runs : RunTable}
    (spared : state.overridden = false)
    (same : state.stale uuid = true →
      (state.runs.find uuid).map outcome = (runs.find uuid).map outcome)
    : (state.wrote uuid runs).overridden = false := by
  cases stale : state.stale uuid with
  | false => simp [wrote, spared, stale]
  | true => simp [wrote, spared, same stale]

/-- A compare-and-set on another status leaves the run alone. -/
theorem find_of_other_status {runs next : RunTable} {uuid : String}
    {patch : RunRepositoryUpdatePatch} {expected : RunStatus} {updated : Bool}
    (swapped : RunRepository.atomicUpdateByUuid runs uuid patch expected = (updated, next))
    (other : ∀ row, runs.find uuid = some row → row.status ≠ expected)
    : next = runs := by
  cases updated with
  | false => exact RunRepository.atomicUpdateByUuid_false swapped
  | true =>
      obtain ⟨row, found, status, -⟩ := RunRepository.atomicUpdateByUuid_true swapped
      exact absurd status (other row found)

/-- A decision spares the run that it is applied to: it is not written, or the run is still
waiting, or it is running before and after.
-/
theorem outcome_of_decided {run : Run} {decision : ReactivationDecision} {runs : RunTable}
    (spares : state.spares deps (.applyReactivation run decision) = true)
    (decided : Decided deps run decision state.runs runs)
    (stale : isStale state.runs run.uuid = true)
    : (state.runs.find run.uuid).map outcome = (runs.find run.uuid).map outcome := by
  rcases decided with rfl | ⟨writes, patch, rfl, reactivates⟩
  · rfl
  · unfold isStale at stale
    rw [RunRepository.find_update, if_pos rfl]
    cases found : state.runs.find run.uuid with
    | none => rfl
    | some row =>
        have still : row.status = .waiting
            ∨ decision.action = .reactivate ∧ row.status = .running := by
          simpa [Sweeping.spares, writes, found] using spares
        rcases still with waiting | ⟨reactivate, running⟩
        · simp [found, waiting] at stale
        · rw [reactivates reactivate]
          simp [outcome, RunRepositoryUpdatePatch.patch, running]

/-- Every call that spares the runs of other actors keeps their outcomes, by cases on the
call.
-/
theorem Sweeping.Replies.spared {request : SweepRequest} {reply : request.Reply}
    (replied : Sweeping.Replies deps state request reply after) (sweeps : Sweeps state request)
    (spares : state.spares deps request = true) (untouched : state.overridden = false)
    : after.overridden = false := by
  cases request with
  | applyReactivation run decision =>
      obtain ⟨completion, runs, execution, -, rfl⟩ := replied
      refine Sweeping.wrote_spares untouched fun stale => ?_
      rw [Sweeping.called_stale] at stale
      exact outcome_of_decided spares (decided_of_exec execution) stale
  | atomicUpdateRun uuid patch expected =>
      cases reply with
      | error error => exact replied ▸ untouched
      | ok updated =>
          obtain ⟨runs, swapped, rfl⟩ := replied
          refine Sweeping.wrote_spares untouched fun stale => ?_
          have elsewhere (row : Run) (found : state.runs.find uuid = some row)
              : row.status ≠ .running := by
            simpa [Sweeping.spares, stale, found] using spares
          rw [find_of_other_status swapped (sweeps ▸ elsewhere)]
  | findActiveRuns =>
      cases reply with
      | error error => exact replied ▸ untouched
      | ok active => exact replied.2 ▸ untouched
  | now | resolvePrContext | getPr | listReviewComments | latestPollAttempt | publish | notify =>
      cases reply <;> exact replied ▸ untouched

end Steps

/-- Wherever a sweep is cut short, beside other actors that change the stored runs in any way
before each of its calls, it has changed no run that was not waiting any more when the decision
was applied to it, as long as its calls spare these runs.
-/
theorem sweep_spares_changed_runs {deps : SweepWaitingRunsDeps} {start final : Sweeping}
    (begins : start.overridden = false)
    (execution
      : (SweepWaitingRuns.execute deps {}).Cut
          (Sweeping.Beside deps (Sweeping.spares deps)) start final)
    : final.overridden = false := by
  have kept (state : Sweeping) (request : SweepRequest) (reply : request.Reply)
      (after : Sweeping) (untouched : state.overridden = false) (sweeps : Sweeps state request)
      (answered : Sweeping.Beside deps (Sweeping.spares deps) state request reply after)
      : after.overridden = false := by
    obtain ⟨runs, spares, replied⟩ := answered
    exact replied.spared (by cases request <;> exact sweeps) spares untouched
  have spared := Program.Ensures.invariant_of_cut execute_sweeps kept begins execution
  exact spared

-----------------------------------------------------------------------------------------
-- Sweeps of one waiting run
-----------------------------------------------------------------------------------------

def waitingRun : Run :=
  { createRun {
      uuid := "run"
      displayId := "run"
      repoId := "repo"
      issueNumber := 1
      startedAt := Date.epoch
    } with status := .waiting }

/-- The comment of a reviewer, and the time of the sweep. -/
def commentedAt : Date := .fiveSeconds

def waitingSweep : Sweeping :=
  { runs := ⟨[waitingRun], by simp⟩, stale := fun _ => false, overridden := false }

def sweepDeps : SweepWaitingRunsDeps :=
  { readyMaxDays := 7, runNotification := false, defersReactivation := false }

/-- Answers the calls of `applyReactivation`. -/
def applyHandler (runs : RunTable)
    : (request : ApplyRequest) → Option (request.Reply × RunTable)
  | .now => some (.ok commentedAt, runs)
  | .updateRun uuid patch => some (.ok (), RunRepository.update runs uuid patch)
  | .publish _ _ => some (.ok (), runs)

/-- Answers the calls of the sweep, in the state that the other actors have left. -/
def sweepReplies (state : Sweeping)
    : (request : SweepRequest) → Option (request.Reply × Sweeping)
  | .now => some (.ok commentedAt, state)
  | .findActiveRuns =>
      some (.ok (state.runs.rows.filter fun row => !row.status.isTerminal), state)
  | .resolvePrContext _ => some (.ok (some { repoFullName := "repo", prNumber := 1 }), state)
  | .getPr _ _ => some (.ok .open_, state)
  | .listReviewComments _ _ => some (.ok [commentedAt], state)
  | .latestPollAttempt _ => some (.ok none, state)
  | .applyReactivation run decision =>
      match (sweepDeps.applyReactivation run decision ()).run applyHandler state.runs with
      | some ((completion, _), runs) =>
          some (applied completion, (state.called run.uuid).wrote run.uuid runs)
      | none => none
  | .atomicUpdateRun uuid patch expected =>
      let (updated, runs) := RunRepository.atomicUpdateByUuid state.runs uuid patch expected
      some (.ok updated, state.wrote uuid runs)
  | .publish _ _ | .notify _ => some (.ok (), state)

/-- Answers the calls of the sweep, while they find what they are to find. -/
def sweepHandler (finds : Sweeping → SweepRequest → Bool)
    (others : SweepRequest → RunTable → RunTable) (state : Sweeping) (request : SweepRequest)
    : Option (request.Reply × Sweeping) :=
  if finds { state with runs := others request state.runs } request then
    sweepReplies { state with runs := others request state.runs } request
  else
    none

theorem applyHandler_answers (runs : RunTable) (request : ApplyRequest) (reply : request.Reply)
    (after : RunTable) (handled : applyHandler runs request = some (reply, after))
    : applies runs request reply after := by
  cases request with
  | now | updateRun | publish =>
      obtain ⟨rfl, rfl⟩ := Prod.mk.inj (Option.some.inj handled)
      rfl

theorem sweepReplies_answers (state : Sweeping) (request : SweepRequest)
    (reply : request.Reply) (after : Sweeping)
    (handled : sweepReplies state request = some (reply, after))
    : Sweeping.Replies sweepDeps state request reply after := by
  cases request with
  | applyReactivation run decision =>
      simp only [sweepReplies] at handled
      split at handled
      · rename_i completion locals runs ran
        obtain ⟨rfl, rfl⟩ := Prod.mk.inj (Option.some.inj handled)
        exact ⟨completion, runs, Program.exec_of_run applyHandler_answers ran, rfl, rfl⟩
      · contradiction
  | atomicUpdateRun uuid patch expected =>
      obtain ⟨rfl, rfl⟩ := Prod.mk.inj (Option.some.inj handled)
      exact ⟨_, rfl, rfl⟩
  | findActiveRuns =>
      obtain ⟨rfl, rfl⟩ := Prod.mk.inj (Option.some.inj handled)
      exact ⟨.rfl, rfl⟩
  | now | resolvePrContext | getPr | listReviewComments | latestPollAttempt | publish | notify =>
      obtain ⟨rfl, rfl⟩ := Prod.mk.inj (Option.some.inj handled)
      rfl

theorem sweepHandler_answers {finds : Sweeping → SweepRequest → Bool}
    {others : SweepRequest → RunTable → RunTable} (state : Sweeping) (request : SweepRequest)
    (reply : request.Reply) (after : Sweeping)
    (handled : sweepHandler finds others state request = some (reply, after))
    : Sweeping.Beside sweepDeps finds state request reply after := by
  unfold sweepHandler at handled
  split at handled
  · rename_i found
    exact ⟨_, found, sweepReplies_answers _ request reply after handled⟩
  · contradiction

/-- The sweep of a run that stays waiting reactivates it. -/
theorem sweep_spares_changed_runs_waiting
    : let swept := ((SweepWaitingRuns.execute sweepDeps {}).run
        (sweepHandler (Sweeping.spares sweepDeps) fun _ runs => runs) waitingSweep).get rfl
      (swept.2.runs.find "run").map (·.status) = some .running
      ∧ swept.2.overridden = false := by
  intro swept
  have ran : (SweepWaitingRuns.execute sweepDeps {}).run
      (sweepHandler (Sweeping.spares sweepDeps) fun _ runs => runs) waitingSweep
        = some (swept.1, swept.2) :=
    rfl
  exact ⟨rfl,
    sweep_spares_changed_runs rfl (Program.exec_of_run sweepHandler_answers ran).cut⟩

/-- While the pull request is looked up, the run is cancelled. -/
def cancelling : SweepRequest → RunTable → RunTable
  | .getPr _ _, runs =>
      (RunRepository.updateStatusByUuid runs "run"
        { status := .cancelled, completedAt := commentedAt }).2
  | _, runs => runs

/-- A run that is cancelled while its pull request is looked up is running again after the
sweep.
-/
theorem sweep_restarts_cancelled_run
    : ¬∀ deps start final, start.overridden = false →
        (SweepWaitingRuns.execute deps {}).Cut (Sweeping.Beside deps fun _ _ => true) start final →
        final.overridden = false := by
  intro claim
  let swept := ((SweepWaitingRuns.execute sweepDeps {}).run
    (sweepHandler (fun _ _ => true) cancelling) waitingSweep).get rfl
  have ran : (SweepWaitingRuns.execute sweepDeps {}).run
      (sweepHandler (fun _ _ => true) cancelling) waitingSweep = some (swept.1, swept.2) :=
    rfl
  have overridden : swept.2.overridden = true := rfl
  have spared := claim sweepDeps waitingSweep swept.2 rfl
    (Program.exec_of_run sweepHandler_answers ran).cut
  exact Bool.noConfusion (spared.symm.trans overridden)

end AiSdlc.Application
