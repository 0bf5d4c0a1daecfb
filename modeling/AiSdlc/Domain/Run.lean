import AiSdlc.Domain.ReleaseBatch

/-! Runs, which work on one issue each. -/

namespace AiSdlc.Domain

open AiSdlc.Js

inductive ExecutionPolicy
  | legacy
  | standard
  | strict
  deriving DecidableEq, Repr

inductive PinnedRuntime
  | claudeCode
  | antigravity
  | codex
  | opencode
  deriving DecidableEq, Repr

inductive RunStatus
  | queued
  | running
  | waiting
  | passed
  | failed
  | cancelled
  | blocked
  | needsHumanReview
  deriving DecidableEq, Repr

def RunStatus.text : RunStatus → String
  | queued => "queued"
  | running => "running"
  | waiting => "waiting"
  | passed => "passed"
  | failed => "failed"
  | cancelled => "cancelled"
  | blocked => "blocked"
  | needsHumanReview => "needs_human_review"

instance : ToString RunStatus := ⟨RunStatus.text⟩

/-- `TERMINAL_STATUSES` of a run. -/
def RunStatus.isTerminal (status : RunStatus) : Bool :=
  status ∈ [.passed, .failed, .cancelled]

inductive RunType
  | issueToPr
  | prReview
  | consolidate
  deriving DecidableEq, Repr

/-- A run as the repository stores it, with the commit its work started from. -/
structure Run where
  uuid : String
  displayId : String
  repoId : RepositoryId
  issueNumber : Int
  type : RunType
  baseBranch : Option String := none
  executionPolicy : Option ExecutionPolicy := none
  pinnedRuntime : Option PinnedRuntime := none
  status : RunStatus
  currentPhase : Option String := none
  completedPhases : List String
  skippedPhases : List String
  startedAt : Date
  completedAt : Option Date := none
  failureReason : Option String := none
  startCommitSha : Option String := none
  deriving DecidableEq, Repr

structure CreateRunInput where
  uuid : String
  displayId : String
  repoId : RepositoryId
  issueNumber : Int
  startedAt : Date
  type : Option RunType := none
  baseBranch : Option String := none
  executionPolicy : Option ExecutionPolicy := none
  pinnedRuntime : Option PinnedRuntime := none
  deriving DecidableEq, Repr

/-- `createRun`: the type of runtimes leaves out the invalid ones. -/
def createRun (input : CreateRunInput) : Run :=
  {
    uuid := input.uuid
    displayId := input.displayId
    repoId := input.repoId
    issueNumber := input.issueNumber
    type := input.type.getD .issueToPr
    baseBranch := input.baseBranch
    executionPolicy := input.executionPolicy
    pinnedRuntime := input.pinnedRuntime
    status := .running
    completedPhases := []
    skippedPhases := []
    startedAt := input.startedAt
  }

def startPhase (run : Run) (phase : String) : Except String Run :=
  match run.currentPhase with
  | some currentPhase =>
      let started := s!"already has currentPhase '{currentPhase}' (call completePhase first)"
      .error s!"cannot start phase '{phase}': run {run.displayId} {started}"
  | none =>
      if run.status.isTerminal then
        .error s!"cannot start phase '{phase}': run {run.displayId} is already {run.status}"
      else
        .ok { run with currentPhase := some phase }

/-- The check that a phase is the current one. -/
def Run.requireCurrentPhase (run : Run) (verb phase : String) : Except String Unit :=
  match run.currentPhase with
  | none => .error s!"cannot {verb} phase '{phase}': run {run.displayId} has no currentPhase"
  | some currentPhase =>
      if currentPhase = phase then .ok ()
      else .error s!"cannot {verb} phase '{phase}': run {run.displayId} is on '{currentPhase}'"

def completePhase (run : Run) (phase : String) : Except String Run := do
  run.requireCurrentPhase "complete" phase
  pure { run with currentPhase := none, completedPhases := run.completedPhases ++ [phase] }

def skipPhase (run : Run) (phase : String) : Except String Run := do
  run.requireCurrentPhase "skip" phase
  if phase ∈ run.completedPhases ∨ phase ∈ run.skippedPhases then
    .error s!"cannot skip phase '{phase}': run {run.displayId} already recorded phase '{phase}'"
  else
    pure { run with currentPhase := none, skippedPhases := run.skippedPhases ++ [phase] }

def passRun (run : Run) (passedAt : Date) : Except String Run :=
  match run.currentPhase with
  | some currentPhase =>
      .error s!"cannot pass run {run.displayId}: currentPhase '{currentPhase}' is still set"
  | none =>
      if run.status.isTerminal then
        .error s!"cannot pass run {run.displayId}: already {run.status}"
      else
        .ok { run with status := .passed, completedAt := some passedAt }

/-- A run that is not yet over stops with a status and a reason. -/
def Run.stop (run : Run) (action : String) (status : RunStatus) (reason : String)
    (stoppedAt : Date)
    : Except String Run :=
  if run.status.isTerminal then
    .error s!"cannot {action} run {run.displayId}: already {run.status}"
  else
    .ok { run with status, completedAt := some stoppedAt, failureReason := some reason }

def failRun (run : Run) (reason : String) (failedAt : Date) : Except String Run := do
  let next ← run.stop "fail" .failed reason failedAt
  pure { next with currentPhase := none }

def blockRun (run : Run) (reason : String) (blockedAt : Date) : Except String Run := do
  let next ← run.stop "block" .blocked reason blockedAt
  pure { next with currentPhase := none }

/-- `markRunNeedsHumanReview`, which keeps the current phase. -/
def markRunNeedsHumanReview (run : Run) (reason : String) (markedAt : Date)
    : Except String Run :=
  run.stop "set needs_human_review on" .needsHumanReview reason markedAt

def transitionToReady (run : Run) : Except String Run :=
  match run.currentPhase with
  | some currentPhase =>
      .error
        s!"cannot transition {run.displayId} to ready: currentPhase '{currentPhase}' still set"
  | none =>
      if run.status.isTerminal then
        .error s!"cannot transition {run.displayId} to ready: run is {run.status}"
      else if run.status ≠ .running then
        let expected := s!"status is '{run.status}', expected 'running'"
        .error s!"cannot transition {run.displayId} to ready: {expected}"
      else
        .ok { run with status := .waiting }

def Run.canResume (run : Run) : Bool :=
  run.status ∈ [.failed, .blocked, .needsHumanReview, .cancelled]

/-- `resumeRun`: the type of runtimes leaves out the invalid ones. -/
def resumeRun (run : Run) (phase : Option String) (pinnedRuntime : Option PinnedRuntime)
    : Except String Run :=
  if run.canResume then
    .ok {
      run with
      status := .running
      currentPhase := phase
      completedAt := none
      failureReason := none
      pinnedRuntime := pinnedRuntime.or run.pinnedRuntime
    }
  else
    let expected := "'failed', 'blocked', 'needs_human_review', or 'cancelled'"
    .error
      s!"cannot resume run {run.displayId}: status is '{run.status}', expected {expected}"

def reactivate (run : Run) : Except String Run :=
  match run.currentPhase with
  | some currentPhase =>
      .error s!"cannot reactivate {run.displayId}: currentPhase '{currentPhase}' still set"
  | none =>
      if run.status = .waiting then
        .ok { run with status := .running }
      else
        .error
          s!"cannot reactivate {run.displayId}: status is '{run.status}', expected 'waiting'"

def cancelRun (run : Run) (reason : Option String) (cancelledAt : Date) : Except String Run :=
  if run.status.isTerminal then
    .error s!"cannot cancel run {run.displayId}: already {run.status}"
  else
    .ok {
      run with
      status := .cancelled
      completedAt := some cancelledAt
      failureReason := truthy reason <|> run.failureReason
      currentPhase := none
    }

theorem reactivate_eq_ok {run next : Run}
    : reactivate run = .ok next
      ↔ run.currentPhase = none ∧ run.status = .waiting
        ∧ next = { run with status := .running } := by
  unfold reactivate
  cases run.currentPhase with
  | some phase => simp
  | none =>
      by_cases waiting : run.status = .waiting <;> simp [waiting, eq_comm]

inductive PhaseStatus
  | pending
  | running
  | passed
  | failed
  | skipped
  | blocked
  | resting
  | needsHumanReview
  | deferred
  deriving DecidableEq, Repr

structure Phase where
  id : String
  runUuid : String
  name : String
  status : PhaseStatus
  attempt : Int
  startedAt : Option Date := none
  completedAt : Option Date := none
  deriving DecidableEq, Repr

inductive StepStatus
  | pending
  | running
  | success
  | failed
  | needsHumanReview
  deriving DecidableEq, Repr

/-- A step of a phase, with its revert counts by file. -/
structure Step where
  id : String
  runId : String
  phaseId : String
  index : Int
  title : String
  status : StepStatus
  startedAt : Option Date := none
  completedAt : Option Date := none
  initialPreStepHead : Option String := none
  revertCounts : List (String × Int)
  deriving DecidableEq, Repr

end AiSdlc.Domain
