import AiSdlc.Domain.Run
import AiSdlc.Js.Checked
import AiSdlc.Transition.System

/-! What the transitions of a run keep. A run that is over has no phase and tells when it ended,
and one that goes on tells neither an end nor a failure. Two transitions break this: a phase can be
started while the run waits, and a stopped run can be passed with its failure.
-/

namespace AiSdlc.Domain

open AiSdlc.Js
open AiSdlc.Transition

/-- A transition of a run with its arguments and, where it reads one, the clock. -/
inductive RunTransition
  | startPhase (phase : String)
  | completePhase (phase : String)
  | skipPhase (phase : String)
  | passRun (passedAt : Date)
  | failRun (reason : String) (failedAt : Date)
  | blockRun (reason : String) (blockedAt : Date)
  | markRunNeedsHumanReview (reason : String) (markedAt : Date)
  | cancelRun (reason : Option String) (cancelledAt : Date)
  | transitionToReady
  | reactivate
  | resumeRun (phase : Option String) (pinnedRuntime : Option PinnedRuntime)
  deriving DecidableEq, Repr

def RunTransition.apply (run : Run) : RunTransition → Except String Run
  | .startPhase phase => Domain.startPhase run phase
  | .completePhase phase => Domain.completePhase run phase
  | .skipPhase phase => Domain.skipPhase run phase
  | .passRun passedAt => Domain.passRun run passedAt
  | .failRun reason failedAt => Domain.failRun run reason failedAt
  | .blockRun reason blockedAt => Domain.blockRun run reason blockedAt
  | .markRunNeedsHumanReview reason markedAt =>
      Domain.markRunNeedsHumanReview run reason markedAt
  | .cancelRun reason cancelledAt => Domain.cancelRun run reason cancelledAt
  | .transitionToReady => Domain.transitionToReady run
  | .reactivate => Domain.reactivate run
  | .resumeRun phase pinnedRuntime => Domain.resumeRun run phase pinnedRuntime

/-- The runs that `createRun` makes, and the successful transitions of them. -/
def runSystem : System Run RunTransition :=
  System.ofChecked (fun run => ∃ input, run = createRun input) RunTransition.apply

/-- What the status of a run tells about its phase, its end and its failure. -/
structure Run.Consistent (run : Run) : Prop where
  terminal : run.status.isTerminal = true → run.currentPhase = none ∧ run.completedAt.isSome
  unfinished
    : run.status = .running ∨ run.status = .waiting →
      run.completedAt = none ∧ run.failureReason = none
  waiting : run.status = .waiting → run.currentPhase = none
  passed : run.status = .passed → run.failureReason = none

/-- A run that is over is left by `resumeRun` only, and never once it passed. -/
def Run.LeftByResumeOnly (run : Run) : Prop :=
  ∀ transition next, RunTransition.apply run transition = .ok next →
    run.status.isTerminal = true →
    (∃ phase pinnedRuntime, transition = .resumeRun phase pinnedRuntime) ∧ run.status ≠ .passed

/-- No phase is started while the run waits, and no stopped run is passed. -/
def RunTransition.Careful (run : Run) : RunTransition → Prop
  | .startPhase _ => run.status ≠ .waiting
  | .passRun _ => run.status ≠ .blocked ∧ run.status ≠ .needsHumanReview
  | _ => True

instance RunTransition.decidableCareful (run : Run) (transition : RunTransition)
    : Decidable (transition.Careful run) := by
  cases transition <;> unfold RunTransition.Careful <;> infer_instance

section Results

variable {run next : Run} {phase reason : String} {time : Date}

theorem startPhase_eq_ok
    : startPhase run phase = .ok next
      ↔ run.currentPhase = none ∧ run.status.isTerminal = false
        ∧ next = { run with currentPhase := some phase } := by
  unfold startPhase
  cases run.currentPhase with
  | some currentPhase => simp
  | none => simp [@eq_comm _ next]

theorem requireCurrentPhase_eq_ok {verb : String} {result : Unit}
    : run.requireCurrentPhase verb phase = .ok result ↔ run.currentPhase = some phase := by
  unfold Run.requireCurrentPhase
  cases run.currentPhase with
  | none => simp
  | some currentPhase => simp

theorem completePhase_eq_ok
    : completePhase run phase = .ok next
      ↔ run.currentPhase = some phase
        ∧ next = {
          run with currentPhase := none, completedPhases := run.completedPhases ++ [phase]
        } := by
  simp only [completePhase, checked_bind_eq_ok, checked_pure_eq_ok, requireCurrentPhase_eq_ok,
    @eq_comm _ next, exists_const]

theorem skipPhase_eq_ok
    : skipPhase run phase = .ok next
      ↔ run.currentPhase = some phase
        ∧ (phase ∉ run.completedPhases ∧ phase ∉ run.skippedPhases)
        ∧ next = {
          run with currentPhase := none, skippedPhases := run.skippedPhases ++ [phase]
        } := by
  simp only [skipPhase, checked_bind_eq_ok, checked_ite_eq_ok, checked_pure_eq_ok,
    requireCurrentPhase_eq_ok, @eq_comm _ next, exists_const, not_or]
  simp

theorem passRun_eq_ok
    : passRun run time = .ok next
      ↔ run.currentPhase = none ∧ run.status.isTerminal = false
        ∧ next = { run with status := .passed, completedAt := some time } := by
  unfold passRun
  cases run.currentPhase with
  | some currentPhase => simp
  | none => simp [@eq_comm _ next]

theorem stop_eq_ok {action : String} {status : RunStatus}
    : run.stop action status reason time = .ok next
      ↔ run.status.isTerminal = false
        ∧ next = {
          run with status, completedAt := some time, failureReason := some reason
        } := by
  simp [Run.stop, @eq_comm _ next]

theorem failRun_eq_ok
    : failRun run reason time = .ok next
      ↔ run.status.isTerminal = false
        ∧ next = {
          run with
          status := .failed
          completedAt := some time
          failureReason := some reason
          currentPhase := none
        } := by
  simp only [failRun, checked_bind_eq_ok, stop_eq_ok, checked_pure_eq_ok, and_assoc,
    exists_and_left, exists_eq_left, @eq_comm _ next]

theorem blockRun_eq_ok
    : blockRun run reason time = .ok next
      ↔ run.status.isTerminal = false
        ∧ next = {
          run with
          status := .blocked
          completedAt := some time
          failureReason := some reason
          currentPhase := none
        } := by
  simp only [blockRun, checked_bind_eq_ok, stop_eq_ok, checked_pure_eq_ok, and_assoc,
    exists_and_left, exists_eq_left, @eq_comm _ next]

theorem cancelRun_eq_ok {reason : Option String}
    : cancelRun run reason time = .ok next
      ↔ run.status.isTerminal = false
        ∧ next = {
          run with
          status := .cancelled
          completedAt := some time
          failureReason := truthy reason <|> run.failureReason
          currentPhase := none
        } := by
  simp [cancelRun, @eq_comm _ next]

theorem transitionToReady_eq_ok
    : transitionToReady run = .ok next
      ↔ run.currentPhase = none ∧ run.status = .running
        ∧ next = { run with status := .waiting } := by
  unfold transitionToReady
  cases run.currentPhase with
  | some currentPhase => simp
  | none =>
      by_cases running : run.status = .running
      · simp [running, RunStatus.isTerminal, @eq_comm _ next]
      · simp [running]

theorem resumeRun_eq_ok {phase : Option String} {pinnedRuntime : Option PinnedRuntime}
    : resumeRun run phase pinnedRuntime = .ok next
      ↔ run.canResume = true
        ∧ next = {
          run with
          status := .running
          currentPhase := phase
          completedAt := none
          failureReason := none
          pinnedRuntime := pinnedRuntime.or run.pinnedRuntime
        } := by
  simp [resumeRun, @eq_comm _ next]

end Results

section Invariants

variable {run next : Run} {transition : RunTransition}

/-- A run that was created is not queued any more, and a stopped one tells why. -/
structure Run.Explained (run : Run) : Prop where
  created : run.status ≠ .queued
  stopped : run.status = .blocked ∨ run.status = .needsHumanReview → run.failureReason.isSome

theorem consistent_createRun (input : CreateRunInput) : (createRun input).Consistent where
  terminal := by simp [createRun, RunStatus.isTerminal]
  unfinished := by simp [createRun]
  waiting := by simp [createRun]
  passed := by simp [createRun]

theorem Run.Consistent.of_sameStatus (consistent : run.Consistent)
    (status : next.status = run.status) (completedAt : next.completedAt = run.completedAt)
    (failureReason : next.failureReason = run.failureReason)
    (phase : run.status.isTerminal = true ∨ run.status = .waiting → next.currentPhase = none)
    : next.Consistent where
  terminal := by
    intro terminal
    rw [status] at terminal
    exact ⟨phase (.inl terminal), completedAt ▸ (consistent.terminal terminal).2⟩
  unfinished := by
    rw [status, completedAt, failureReason]
    exact consistent.unfinished
  waiting := by
    rw [status]
    exact fun waiting => phase (.inr waiting)
  passed := by
    rw [status, failureReason]
    exact consistent.passed

theorem Run.Consistent.of_stopped
    (status : next.status = .blocked ∨ next.status = .needsHumanReview
      ∨ (next.status = .failed ∨ next.status = .cancelled)
        ∧ next.currentPhase = none ∧ next.completedAt.isSome = true)
    : next.Consistent := by
  rcases status with status | status | ⟨status | status, ended⟩ <;>
    constructor <;> simp [status, RunStatus.isTerminal]
  all_goals simpa using ended

theorem Run.Consistent.of_unfinished
    (status : next.status = .running ∨ next.status = .waiting ∧ next.currentPhase = none)
    (unfinished : next.completedAt = none ∧ next.failureReason = none)
    : next.Consistent := by
  rcases status with status | ⟨status, absent⟩
  · constructor <;> simp [status, RunStatus.isTerminal, unfinished]
  · constructor <;> simp [status, RunStatus.isTerminal, unfinished, absent]

/-- A successful transition of a consistent run keeps it consistent just when it is careful, by
cases over the transitions.
-/
theorem Run.Consistent.apply_iff (consistent : run.Consistent) (explained : run.Explained)
    (taken : transition.apply run = .ok next)
    : next.Consistent ↔ transition.Careful run := by
  cases transition with
  | startPhase phase =>
      obtain ⟨absent, active, rfl⟩ := startPhase_eq_ok.mp taken
      constructor
      · intro kept waiting
        exact nomatch kept.waiting waiting
      · intro careful
        refine consistent.of_sameStatus rfl rfl rfl ?_
        rintro (terminal | waiting)
        · exact absurd terminal (by simp [active])
        · exact absurd waiting careful
  | completePhase phase =>
      obtain ⟨current, rfl⟩ := completePhase_eq_ok.mp taken
      exact iff_of_true (consistent.of_sameStatus rfl rfl rfl fun _ => rfl) trivial
  | skipPhase phase =>
      obtain ⟨current, fresh, rfl⟩ := skipPhase_eq_ok.mp taken
      exact iff_of_true (consistent.of_sameStatus rfl rfl rfl fun _ => rfl) trivial
  | passRun passedAt =>
      obtain ⟨absent, active, rfl⟩ := passRun_eq_ok.mp taken
      constructor
      · intro kept
        have unfailed : run.failureReason = none := kept.passed rfl
        rw [RunTransition.Careful, ← not_or]
        intro stopped
        simpa [unfailed] using explained.stopped stopped
      · intro careful
        refine ⟨fun _ => ⟨absent, rfl⟩, fun going => ?_, fun _ => absent, fun _ => ?_⟩
        · simp at going
        · cases status : run.status with
          | running | waiting => exact (consistent.unfinished (by simp [status])).2
          | queued => exact absurd status explained.created
          | passed | failed | cancelled => simp [status, RunStatus.isTerminal] at active
          | blocked => exact absurd status careful.1
          | needsHumanReview => exact absurd status careful.2
  | failRun reason failedAt =>
      obtain ⟨active, rfl⟩ := failRun_eq_ok.mp taken
      exact iff_of_true (.of_stopped (.inr (.inr ⟨.inl rfl, rfl, rfl⟩))) trivial
  | blockRun reason blockedAt =>
      obtain ⟨active, rfl⟩ := blockRun_eq_ok.mp taken
      exact iff_of_true (.of_stopped (.inl rfl)) trivial
  | markRunNeedsHumanReview reason markedAt =>
      obtain ⟨active, rfl⟩ := stop_eq_ok.mp taken
      exact iff_of_true (.of_stopped (.inr (.inl rfl))) trivial
  | cancelRun reason cancelledAt =>
      obtain ⟨active, rfl⟩ := cancelRun_eq_ok.mp taken
      exact iff_of_true (.of_stopped (.inr (.inr ⟨.inr rfl, rfl, rfl⟩))) trivial
  | transitionToReady =>
      obtain ⟨absent, running, rfl⟩ := transitionToReady_eq_ok.mp taken
      have unfinished := consistent.unfinished (.inl running)
      exact iff_of_true (.of_unfinished (.inr ⟨rfl, absent⟩) unfinished) trivial
  | reactivate =>
      obtain ⟨absent, waiting, rfl⟩ := reactivate_eq_ok.mp taken
      have unfinished := consistent.unfinished (.inr waiting)
      exact iff_of_true (.of_unfinished (.inl rfl) unfinished) trivial
  | resumeRun phase pinnedRuntime =>
      obtain ⟨resumable, rfl⟩ := resumeRun_eq_ok.mp taken
      exact iff_of_true (.of_unfinished (.inl rfl) ⟨rfl, rfl⟩) trivial

/-- Every successful transition leaves a run that is explained. -/
theorem Run.Explained.apply (explained : run.Explained)
    (taken : transition.apply run = .ok next)
    : next.Explained := by
  cases transition with
  | startPhase phase =>
      obtain ⟨absent, active, rfl⟩ := startPhase_eq_ok.mp taken
      exact ⟨explained.created, explained.stopped⟩
  | completePhase phase =>
      obtain ⟨current, rfl⟩ := completePhase_eq_ok.mp taken
      exact ⟨explained.created, explained.stopped⟩
  | skipPhase phase =>
      obtain ⟨current, fresh, rfl⟩ := skipPhase_eq_ok.mp taken
      exact ⟨explained.created, explained.stopped⟩
  | passRun passedAt =>
      obtain ⟨absent, active, rfl⟩ := passRun_eq_ok.mp taken
      constructor <;> simp
  | failRun reason failedAt =>
      obtain ⟨active, rfl⟩ := failRun_eq_ok.mp taken
      constructor <;> simp
  | blockRun reason blockedAt =>
      obtain ⟨active, rfl⟩ := blockRun_eq_ok.mp taken
      constructor <;> simp
  | markRunNeedsHumanReview reason markedAt =>
      obtain ⟨active, rfl⟩ := stop_eq_ok.mp taken
      constructor <;> simp
  | cancelRun reason cancelledAt =>
      obtain ⟨active, rfl⟩ := cancelRun_eq_ok.mp taken
      constructor <;> simp
  | transitionToReady =>
      obtain ⟨absent, running, rfl⟩ := transitionToReady_eq_ok.mp taken
      constructor <;> simp
  | reactivate =>
      obtain ⟨absent, waiting, rfl⟩ := reactivate_eq_ok.mp taken
      constructor <;> simp
  | resumeRun phase pinnedRuntime =>
      obtain ⟨resumable, rfl⟩ := resumeRun_eq_ok.mp taken
      constructor <;> simp

/-- A run that is over has no phase that could end, and no other transition leaves it. -/
theorem Run.Consistent.leftByResumeOnly (consistent : run.Consistent)
    : run.LeftByResumeOnly := by
  intro transition next taken terminal
  have absent := (consistent.terminal terminal).1
  cases transition with
  | startPhase phase =>
      obtain ⟨-, active, -⟩ := startPhase_eq_ok.mp taken
      exact nomatch active.symm.trans terminal
  | completePhase phase =>
      obtain ⟨current, -⟩ := completePhase_eq_ok.mp taken
      exact nomatch absent.symm.trans current
  | skipPhase phase =>
      obtain ⟨current, -⟩ := skipPhase_eq_ok.mp taken
      exact nomatch absent.symm.trans current
  | passRun passedAt =>
      obtain ⟨-, active, -⟩ := passRun_eq_ok.mp taken
      exact nomatch active.symm.trans terminal
  | failRun reason failedAt =>
      obtain ⟨active, -⟩ := failRun_eq_ok.mp taken
      exact nomatch active.symm.trans terminal
  | blockRun reason blockedAt =>
      obtain ⟨active, -⟩ := blockRun_eq_ok.mp taken
      exact nomatch active.symm.trans terminal
  | markRunNeedsHumanReview reason markedAt =>
      obtain ⟨active, -⟩ := stop_eq_ok.mp taken
      exact nomatch active.symm.trans terminal
  | cancelRun reason cancelledAt =>
      obtain ⟨active, -⟩ := cancelRun_eq_ok.mp taken
      exact nomatch active.symm.trans terminal
  | transitionToReady =>
      obtain ⟨-, running, -⟩ := transitionToReady_eq_ok.mp taken
      rw [running] at terminal
      exact nomatch terminal
  | reactivate =>
      obtain ⟨-, waiting, -⟩ := reactivate_eq_ok.mp taken
      rw [waiting] at terminal
      exact nomatch terminal
  | resumeRun phase pinnedRuntime =>
      obtain ⟨resumable, -⟩ := resumeRun_eq_ok.mp taken
      refine ⟨⟨phase, pinnedRuntime, rfl⟩, fun passed => ?_⟩
      rw [Run.canResume, passed] at resumable
      exact nomatch resumable

/-- The runs that careful transitions reach are consistent and explained, by the run invariant
rule.
-/
theorem consistent_of_run {transitions : List RunTransition}
    (history
      : (runSystem.restrict fun run transition => transition.Careful run).Run transitions run)
    : run.Consistent ∧ run.Explained := by
  refine history.invariant (fun _ run => run.Consistent ∧ run.Explained) ?_ ?_
  · rintro _ ⟨input, rfl⟩
    exact ⟨consistent_createRun input, by constructor <;> simp [createRun]⟩
  · rintro _ run transition next ⟨consistent, explained⟩ ⟨careful, taken⟩
    exact ⟨(consistent.apply_iff explained taken).mpr careful, explained.apply taken⟩

end Invariants

/-- Along every run of careful transitions the status tells about phase, end and failure, a run
that is over is only resumed, and the next transition keeps this just when it is careful.
-/
theorem run_consistent {transitions : List RunTransition} {run : Run}
    (history
      : (runSystem.restrict fun run transition => transition.Careful run).Run transitions run)
    : run.Consistent ∧ run.LeftByResumeOnly
      ∧ ∀ (transition : RunTransition) (next : Run), transition.apply run = .ok next →
          (next.Consistent ↔ transition.Careful run) := by
  obtain ⟨consistent, explained⟩ := consistent_of_run history
  refine ⟨consistent, consistent.leftByResumeOnly, fun transition next taken => ?_⟩
  exact consistent.apply_iff explained taken

/-- A run that has just been created. -/
def freshRun : Run :=
  createRun {
    uuid := "run"
    displayId := "r-1"
    repoId := "repo"
    issueNumber := 7
    startedAt := Date.epoch
  }

/-- A run that waited, was blocked and resumed, and has passed. -/
theorem run_consistent_resumed
    : ∃ run, run.status = .passed ∧ run.completedPhases = ["plan"] ∧ run.Consistent
        ∧ run.LeftByResumeOnly
        ∧ ∀ (transition : RunTransition) (next : Run), transition.apply run = .ok next →
            (next.Consistent ↔ transition.Careful run) := by
  have passes
      : (applyAll RunTransition.apply (fun run transition => transition.Careful run) freshRun
      [
        .passRun Date.epoch, .resumeRun none none, .blockRun "no credits" Date.epoch,
        .reactivate, .transitionToReady, .completePhase "plan", .startPhase "plan"
      ]).map (fun run => (run.status, run.completedPhases)) = some (.passed, ["plan"]) := by
    decide
  obtain ⟨run, taken, told⟩ := Option.map_eq_some_iff.mp passes
  obtain ⟨status, completed⟩ := Prod.mk.inj told
  exact ⟨run, status, completed, run_consistent (System.run_applyAll ⟨_, rfl⟩ taken)⟩

/-- A blocked run that is passed keeps its failure. -/
theorem blocked_run_passes_with_failure
    : ¬∀ (transitions : List RunTransition) (run : Run), runSystem.Run transitions run →
        run.Consistent ∧ run.LeftByResumeOnly := by
  intro claim
  have passes : (applyAll RunTransition.apply (fun _ _ => True) freshRun
      [.passRun Date.epoch, .blockRun "no credits" Date.epoch]).map
        (fun run => (run.status, run.failureReason)) = some (.passed, some "no credits") := by
    decide
  obtain ⟨run, taken, told⟩ := Option.map_eq_some_iff.mp passes
  obtain ⟨status, failed⟩ := Prod.mk.inj told
  have history : runSystem.Run _ run := (System.run_applyAll ⟨_, rfl⟩ taken).of_restrict
  exact nomatch failed.symm.trans ((claim _ run history).1.passed status)

end AiSdlc.Domain
