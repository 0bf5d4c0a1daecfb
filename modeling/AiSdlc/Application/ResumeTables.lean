import AiSdlc.Application.ResumeRun
import AiSdlc.Async.Block
import AiSdlc.Sqlite.PhaseRepository
import AiSdlc.Sqlite.StepRepository

/-! The tables under a call of `ResumeRun` that nobody else interferes with: what its statements do
to them row by row, and what it means that a call which throws has changed nothing.
-/

namespace AiSdlc.Application

open AiSdlc.Js
open AiSdlc.Domain
open AiSdlc.Async
open AiSdlc.Sqlite

structure ResumeTables where
  repositories : List RegisteredRepository
  runs : RunTable
  steps : StepTable
  phases : PhaseTable
  jobs : JobTable

/-- The calls read and write the tables. The failures are those of the checks, of the first
compare-and-set, which may be lost, of the insertion of the phase and of the job; a constraint
that is broken fails as well. A lease may be refused or taken over.
-/
def ResumeTables.Answers : Environment ResumeTables ResumeRequest ResumeRequest.Reply
  | tables, .now, .ok _, after => after = tables
  | tables, .findRun runId, .ok run, after =>
      run = RunRepository.findByUuid none tables.runs runId ∧ after = tables
  | tables, .findRepository id, .ok repository, after =>
      repository = tables.repositories.find? (·.id = id) ∧ after = tables
  | tables, .listSteps runId, .ok steps, after =>
      StepRepository.ListsForRun tables.steps runId steps ∧ after = tables
  | tables, .listPhases runId, .ok phases, after =>
      PhaseRepository.ListsByRun tables.phases runId phases ∧ after = tables
  | tables, .findRun _, .error _, after | tables, .findRepository _, .error _, after
  | tables, .listSteps _, .error _, after | tables, .listPhases _, .error _, after
  | tables, .inspectWorktree _, _, after | tables, .acquireLease _, _, after
  | tables, .releaseLease _, .ok (), after
  | tables, .releaseLease _, .error (.lease (.ownershipLost _ _)), after =>
      after = tables
  | tables, .atomicUpdateRun uuid patch expected, .ok updated, after =>
      (∃ runs, RunRepository.atomicUpdateByUuid tables.runs uuid patch expected = (updated, runs)
        ∧ after = { tables with runs })
      ∨ (expected ≠ .running ∧ updated = false ∧ after = tables)
  | tables, .upsertStep step, .ok (), after =>
      ∃ steps, StepRepository.upsert tables.steps step = some steps
        ∧ after = { tables with steps }
  | tables, .upsertStep step, .error _, after =>
      StepRepository.upsert tables.steps step = none ∧ after = tables
  | tables, .insertPhase phase, .ok (), after | tables, .updatePhase phase, .ok (), after =>
      after = { tables with phases := PhaseRepository.upsert tables.phases phase }
  | tables, .insertPhase _, .error _, after | tables, .enqueueJob _, .error _, after =>
      after = tables
  | tables, .enqueueJob job, .ok (), after =>
      ∃ enabled jobs, JobQueueRepository.enqueue enabled tables.jobs job = .ok jobs
        ∧ after = { tables with jobs }
  | _, .now, .error _, _ | _, .releaseLease _, .error _, _ | _, .atomicUpdateRun _ _ _, .error _, _
  | _, .updatePhase _, .error _, _ => False

/-- A call that throws leaves the tables as it found them. -/
def FailsAtomically (deps : ResumeRunDeps) (input : ResumeRunInput) (tables : ResumeTables)
    : Prop :=
  ∀ error after, (ResumeRun.execute deps input ()).Exec ResumeTables.Answers tables
    (.threw error, ()) after → after = tables

/-- The checks let the run be resumed. -/
structure Resumable (tables : ResumeTables) (runId : RunId) (run : Run) : Prop where
  found : RunRepository.findByUuid none tables.runs runId = some run
  stopped : run.canResume = true
  repository : ∃ repository, tables.repositories.find? (·.id = run.repoId) = some repository
    ∧ repository.enabled = true

/-- The phase that the run is to start again from. -/
def resumedPhase (input : ResumeRunInput) (fromPhase : String) : Phase where
  id := s!"{input.runId}-{fromPhase}"
  runUuid := input.runId
  name := fromPhase
  status := .pending
  attempt := input.attempt.getD 1

/-- The steps of the phase that the run is to start again from. -/
def IsResumedStep (input : ResumeRunInput) (step : Step) : Prop :=
  step.runId = input.runId ∧ truthy input.fromPhase = some step.phaseId

/-- There is a row under the id of the phase, and it is the one that is read and written back, or
has nothing to be written back.
-/
def PhaseReversible (phases : PhaseTable) (phase : Phase) : Prop :=
  ∃ row ∈ phases.rows, row.id = phase.id
    ∧ (PhaseRepository.excluded phase row = row
      ∨ ∀ listed, PhaseRepository.ListsByRun phases phase.runUuid listed →
          listed.find? (·.name = phase.name) = some row)

/-- What can be undone of the changes to a run, its steps and its phases. -/
structure Reversible (tables : ResumeTables) (input : ResumeRunInput) (run : Run) : Prop where
  numbered : 0 < run.issueNumber
  phaseNamed : run.currentPhase ≠ some ""
  steps : ∀ row ∈ tables.steps.rows, IsResumedStep input row →
    StepRepository.rewritten row = row
  phase : ∀ fromPhase, truthy input.fromPhase = some fromPhase →
    PhaseReversible tables.phases (resumedPhase input fromPhase)

end AiSdlc.Application
