import AiSdlc.Application.ResumeRun
import AiSdlc.Async.Pool

/-! What a call of `ResumeRun` asks for, whatever the replies are: it tries to make the run
running once, writes steps, phases and jobs only after it has won, and rolls back at most once.
-/

namespace AiSdlc.Application

open AiSdlc.Js
open AiSdlc.Domain
open AiSdlc.Async
open AiSdlc.Sqlite

abbrev ResumeInteraction : Type := Interaction ResumeRequest ResumeRequest.Reply

/-- A compare-and-set that a call has made, and whether it took place. -/
structure Swap where
  uuid : String
  expected : RunStatus
  patch : RunRepositoryUpdatePatch
  swapped : Bool
  deriving DecidableEq, Repr

/-- The compare-and-set that makes the run running took place. -/
def Swap.won (swap : Swap) : Bool :=
  swap.swapped && swap.patch.status = some .running

def swap? : ResumeInteraction → Option Swap
  | ⟨.atomicUpdateRun uuid patch expected, .ok swapped⟩ =>
      some { uuid, expected, patch, swapped }
  | ⟨.atomicUpdateRun uuid patch expected, .error _⟩ =>
      some { uuid, expected, patch, swapped := false }
  | _ => none

/-- The compare-and-sets of a call, the latest one first. -/
def swaps (log : List ResumeInteraction) : List Swap :=
  log.filterMap swap?

def readRun? : ResumeInteraction → Option (RunId × Run)
  | ⟨.findRun runId, .ok (some run)⟩ => some (runId, run)
  | _ => none

/-- The runs that a call has found, the latest one first, with the ids it asked for. -/
def reads (log : List ResumeInteraction) : List (RunId × Run) :=
  log.filterMap readRun?

/-- The first compare-and-set of a call expects the status in which it has last read the run,
and makes the run running.
-/
structure Reactivates (log : List ResumeInteraction) (uuid : String)
    (patch : RunRepositoryUpdatePatch) (expected : RunStatus)
    : Prop where
  first : swaps log = []
  status : patch.status = some .running
  read : ∃ run, (reads log).head? = some (uuid, run) ∧ run.canResume = true
    ∧ expected = run.status

/-- The second compare-and-set of a call undoes the first one, after that one was won. -/
structure RollsBack (log : List ResumeInteraction) (uuid : String)
    (patch : RunRepositoryUpdatePatch) (expected : RunStatus)
    : Prop where
  running : expected = .running
  second : ∃ swap, swaps log = [swap] ∧ swap.uuid = uuid ∧ swap.won = true
    ∧ swap.expected ≠ .running ∧ patch.status = some swap.expected

/-- The call has made its run running. -/
def HasWon (log : List ResumeInteraction) : Prop :=
  ∃ swap ∈ swaps log, swap.won = true

/-- The job of a call is for its run, and for the repository of that run; the call has won and
has not rolled back.
-/
structure EnqueuesAfterWin (runId : RunId) (log : List ResumeInteraction) (job : Job)
    : Prop where
  won : ∃ swap, swaps log = [swap] ∧ swap.uuid = runId ∧ swap.won = true
  run : job.runId = runId
  queued : job.status = .queued
  repository : ∃ run, (runId, run) ∈ reads log ∧ job.repoId = run.repoId

/-- What a call that resumes a run may ask for after its own exchanges. -/
def ResumesOnce (runId : RunId) (log : List ResumeInteraction) : ResumeRequest → Prop
  | .findRun uuid => uuid = runId
  | .atomicUpdateRun uuid patch expected =>
      uuid = runId
        ∧ (Reactivates log uuid patch expected ∨ RollsBack log uuid patch expected)
  | .upsertStep _ | .insertPhase _ | .updatePhase _ => HasWon log
  | .enqueueJob job => EnqueuesAfterWin runId log job
  | _ => True

/-- The calls that neither read the run nor write to a store. -/
def ResumeRequest.isPlain : ResumeRequest → Bool
  | now | findRepository _ | inspectWorktree _ | acquireLease _ | releaseLease _ | listSteps _
  | listPhases _ => true
  | findRun _ | atomicUpdateRun _ _ _ | upsertStep _ | insertPhase _ | updatePhase _
  | enqueueJob _ => false

/-- What a call has read and swapped so far. -/
structure Progress (found : List (RunId × Run)) (done : List Swap)
    (log : List ResumeInteraction)
    : Prop where
  reads : reads log = found
  swaps : swaps log = done

theorem Progress.cons {found : List (RunId × Run)} {done : List Swap}
    {log : List ResumeInteraction} (progress : Progress found done log)
    {interaction : ResumeInteraction} (unread : readRun? interaction = none)
    (unswapped : swap? interaction = none)
    : Progress found done (interaction :: log) := by
  constructor
  · rw [← progress.reads]
    exact List.filterMap_cons_none unread
  · rw [← progress.swaps]
    exact List.filterMap_cons_none unswapped

theorem readRun?_of_isPlain {request : ResumeRequest} (plain : request.isPlain = true)
    (reply : request.Reply)
    : readRun? ⟨request, reply⟩ = none := by
  cases request <;> first | rfl | contradiction

theorem swap?_of_isPlain {request : ResumeRequest} (plain : request.isPlain = true)
    (reply : request.Reply)
    : swap? ⟨request, reply⟩ = none := by
  cases request <;> first | rfl | contradiction

theorem resumesOnce_of_isPlain {runId : RunId} {request : ResumeRequest}
    (plain : request.isPlain = true) (log : List ResumeInteraction)
    : ResumesOnce runId log request := by
  cases request <;> trivial

theorem HasWon.cons {log : List ResumeInteraction} (won : HasWon log)
    (interaction : ResumeInteraction)
    : HasWon (interaction :: log) := by
  obtain ⟨swap, member, holds⟩ := won
  obtain ⟨exchange, logged, swapped⟩ := List.mem_filterMap.mp member
  exact ⟨swap, List.mem_filterMap.mpr ⟨exchange, List.mem_cons_of_mem _ logged, swapped⟩, holds⟩

namespace ResumeRun

variable {deps : ResumeRunDeps} {runId : RunId} {found : List (RunId × Run)}
  {done : List Swap}

/-- Statements that leave what was read and swapped as it is, also where they throw. -/
abbrev KeepsProgress {α : Type} (runId : RunId) (found : List (RunId × Run))
    (done : List Swap) (statements : ResumeStatements α)
    : Prop :=
  statements.Keeps logged (ResumesOnce runId) (fun _ => Progress found done)
    (fun _ => Progress found done)

/-- Statements that may be run at any time. -/
abbrev Harmless {α : Type} (runId : RunId) (statements : ResumeStatements α)
    : Prop :=
  statements.Keeps logged (ResumesOnce runId) (fun _ _ => True) (fun _ _ => True)

/-- Where nothing is done after a failure, what it leaves does not matter. -/
theorem KeepsProgress.yields_or_fail {α : Type} {statements : ResumeStatements α}
    (keeps : KeepsProgress runId found done statements)
    : statements.Yields logged (ResumesOnce runId) (fun _ => Progress found done)
        (fun _ _ => Progress found done) (fun _ _ => True) :=
  keeps.yields.mono (fun _ _ progress => progress) (fun _ _ _ progress => progress)
    fun _ _ _ => trivial

theorem keeps_ask {request : ResumeRequest} (plain : request.isPlain = true)
    : KeepsProgress runId found done (ask request) := by
  intro locals log progress
  refine Block.ensures_call.mpr ⟨resumesOnce_of_isPlain plain log, ?_, ?_⟩
  · rintro answer after rfl
    exact progress.cons (readRun?_of_isPlain plain _) (swap?_of_isPlain plain _)
  · rintro error after rfl
    exact progress.cons (readRun?_of_isPlain plain _) (swap?_of_isPlain plain _)

theorem harmless_ask {request : ResumeRequest} (plain : request.isPlain = true)
    : Harmless runId (ask request) := by
  intro locals log _
  exact Block.ensures_call.mpr ⟨resumesOnce_of_isPlain plain log, fun _ _ _ => trivial,
    fun _ _ _ => trivial⟩

theorem keeps_check {α : Type} {checked : Except ResumeError α}
    : KeepsProgress runId found done (check checked) := by
  cases checked with
  | ok value => exact Block.keeps_pure
  | error error => exact Block.keeps_throw fun _ _ progress => progress

theorem yields_check {α : Type} {checked : Except ResumeError α}
    {before : List ResumeInteraction → Prop}
    : (check checked).Yields logged (ResumesOnce runId) (fun _ => before)
        (fun value _ log => before log ∧ checked = .ok value) (fun _ _ => True) := by
  cases checked with
  | ok value => exact Block.yields_pure fun _ _ holds => ⟨holds, rfl⟩
  | error error => exact Block.yields_throw fun _ _ _ => trivial

theorem keeps_getMeaningfulDirtyPaths {repoBasePath : String} {issueNumber : Int}
    : KeepsProgress runId found done
        (getMeaningfulDirtyPaths deps repoBasePath issueNumber) := by
  refine Block.keeps_ite (fun _ => ?_) fun _ => Block.keeps_pure
  refine Block.keeps_attempt (keeps_ask rfl) (fun error => ?_) fun _ _ progress => progress
  split
  · refine Block.keeps_ite (fun _ => Block.keeps_pure) fun _ => ?_
    exact Block.keeps_throw fun _ _ progress => progress
  · exact Block.keeps_throw fun _ _ progress => progress

theorem keeps_resolveEffectiveDisposition {repoBasePath : String} {run : Run}
    {requested : Option ResumeDisposition}
    : KeepsProgress runId found done
        (resolveEffectiveDisposition deps repoBasePath run requested) := by
  cases requested with
  | some disposition => exact Block.keeps_pure
  | none => exact Block.keeps_bind keeps_getMeaningfulDirtyPaths fun _ => keeps_check

theorem yields_findRun
    : (ask (.findRun runId)).Yields logged (ResumesOnce runId)
        (fun _ => Progress found done)
        (fun answer _ log => ∀ run, answer = some run →
          Progress ((runId, run) :: found) done log)
        (fun _ _ => True) := by
  refine Block.yields_call (fun _ _ _ => rfl) ?_ fun _ _ _ _ _ _ => trivial
  rintro locals log next answer progress rfl run rfl
  constructor
  · simpa [reads, readRun?] using progress.reads
  · exact (List.filterMap_cons_none rfl).trans progress.swaps

/-- The run that is to be resumed was just read, and its repository is the one found for it. -/
theorem yields_readResumable
    : (readResumable runId).Yields logged (ResumesOnce runId)
        (fun _ => Progress found done)
        (fun (run, repo) _ log => Progress ((runId, run) :: found) done log
          ∧ run.canResume = true ∧ repo.id = run.repoId)
        (fun _ _ => True) := by
  refine Block.yields_bind yields_findRun fun answer => ?_
  cases answer with
  | none => exact Block.yields_throw fun _ _ _ => trivial
  | some run =>
      refine Block.yields_ite (fun resumable => ?_) fun _ =>
        Block.yields_throw fun _ _ _ => trivial
      have kept : KeepsProgress runId ((runId, run) :: found) done
          (ask (.findRepository run.repoId)) :=
        keeps_ask rfl
      refine Block.yields_bind (kept.yields_or_fail.mono (fun _ _ read => read run rfl)
        (fun _ _ _ progress => progress) fun _ _ _ => trivial) fun repository => ?_
      cases repository with
      | none => exact Block.yields_throw fun _ _ _ => trivial
      | some repo =>
          refine Block.yields_ite (fun _ => Block.yields_throw fun _ _ _ => trivial)
            fun same => ?_
          refine Block.yields_ite (fun _ => ?_) fun _ =>
            Block.yields_throw fun _ _ _ => trivial
          exact Block.yields_pure fun _ _ progress =>
            ⟨progress, resumable, not_not.mp same⟩

/-- The calls that write steps and phases. -/
def writesRows : ResumeRequest → Bool
  | .upsertStep _ | .insertPhase _ | .updatePhase _ => true
  | _ => false

theorem resumesOnce_of_writesRows {request : ResumeRequest} (writes : writesRows request = true)
    {log : List ResumeInteraction} (won : HasWon log)
    : ResumesOnce runId log request := by
  cases request <;> first | exact won | contradiction

theorem readRun?_of_writesRows {request : ResumeRequest} (writes : writesRows request = true)
    (reply : request.Reply)
    : readRun? ⟨request, reply⟩ = none := by
  cases request <;> first | rfl | contradiction

theorem swap?_of_writesRows {request : ResumeRequest} (writes : writesRows request = true)
    (reply : request.Reply)
    : swap? ⟨request, reply⟩ = none := by
  cases request <;> first | rfl | contradiction

theorem keeps_write {request : ResumeRequest} (writes : writesRows request = true) {swap : Swap}
    (won : swap.won = true)
    : KeepsProgress runId found [swap] (ask request) := by
  intro locals log progress
  have hasWon : HasWon log := ⟨swap, by simp [progress.swaps], won⟩
  refine Block.ensures_call.mpr ⟨resumesOnce_of_writesRows writes hasWon, ?_, ?_⟩
  · rintro answer after rfl
    exact progress.cons (readRun?_of_writesRows writes _) (swap?_of_writesRows writes _)
  · rintro error after rfl
    exact progress.cons (readRun?_of_writesRows writes _) (swap?_of_writesRows writes _)

theorem keeps_resetPhase {input : ResumeRunInput} {savedSteps : List Step} {swap : Swap}
    (won : swap.won = true)
    : KeepsProgress runId found [swap] (resetPhase input savedSteps) := by
  unfold resetPhase
  split
  · exact Block.keeps_pure
  · refine Block.keeps_bind (Block.keeps_forEach fun step _ => ?_) fun _ => keeps_write rfl won
    exact Block.keeps_ifThen fun _ => keeps_write rfl won

/-- Once a call has won, it may write rows. -/
abbrev KeepsWin {α : Type} (runId : RunId) (statements : ResumeStatements α) : Prop :=
  statements.Keeps logged (ResumesOnce runId) (fun _ => HasWon) (fun _ _ => True)

theorem keepsWin_write {request : ResumeRequest} (writes : writesRows request = true)
    : KeepsWin runId (ask request) := by
  intro locals log won
  refine Block.ensures_call.mpr ⟨resumesOnce_of_writesRows writes won, ?_, fun _ _ _ => trivial⟩
  rintro answer after rfl
  exact won.cons _

/-- A call that has won and not rolled back may roll back. -/
theorem yields_rollback {saved : ResumeTransitionState}
    {pinnedRuntime : Option (Option PinnedRuntime)} {swap : Swap}
    (own : swap.uuid = runId) (won : swap.won = true) (stopped : swap.expected ≠ .running)
    (same : saved.savedStatus = swap.expected)
    : (rollback runId saved pinnedRuntime).Yields logged (ResumesOnce runId)
        (fun _ => Progress found [swap]) (fun _ _ _ => True) (fun _ _ => True) := by
  have swapping : (ask (.atomicUpdateRun runId (restoration saved pinnedRuntime) .running)).Yields
      logged (ResumesOnce runId) (fun _ => Progress found [swap]) (fun _ _ => HasWon)
      (fun _ _ => True) := by
    refine Block.yields_call ?_ ?_ fun _ _ _ _ _ _ => trivial
    · intro locals log progress
      exact ⟨rfl, .inr ⟨rfl, swap, progress.swaps, own, won, stopped, congrArg some same⟩⟩
    · rintro locals log next answer progress rfl
      have hasWon : HasWon log := ⟨swap, by simp [progress.swaps], won⟩
      exact hasWon.cons _
  refine Block.yields_bind swapping fun _ => Block.Triple.yields ?_
  refine Block.Triple.mono (?rows : KeepsWin runId _) (fun _ _ won => won)
    (fun _ _ _ => trivial) fun _ _ _ => trivial
  refine Block.keeps_bind (Block.keeps_forEach fun _ _ => keepsWin_write rfl) fun _ => ?_
  split
  · exact keepsWin_write rfl
  · exact Block.keeps_pure

/-- A call that has found some runs, and has made its run running, which was in the saved
status.
-/
structure Won (runId : RunId) (known : List (RunId × Run)) (savedStatus : RunStatus)
    (log : List ResumeInteraction)
    : Prop where
  stopped : savedStatus ≠ .running
  progress : ∃ swap found, swap.uuid = runId ∧ swap.won = true
    ∧ swap.expected = savedStatus ∧ known ⊆ found ∧ Progress found [swap] log

theorem status_ne_running_of_canResume {run : Run} (resumable : run.canResume = true)
    : run.status ≠ .running := by
  intro running
  simp [Run.canResume, running] at resumable

theorem status_of_resumeRun {run reactivated : Run} {phase : Option String}
    {pinnedRuntime : Option PinnedRuntime}
    (resumes : (resumeRun run phase pinnedRuntime).mapError ResumeError.message
      = .ok reactivated)
    : reactivated.status = .running := by
  unfold resumeRun at resumes
  split at resumes
  · cases resumes
    rfl
  · contradiction

theorem yields_of_won {α : Type} {known : List (RunId × Run)} {savedStatus : RunStatus}
    {after : α → List ResumeInteraction → Prop} {statements : ResumeStatements α}
    (yields : ∀ swap found, swap.uuid = runId → swap.won = true →
      swap.expected = savedStatus → savedStatus ≠ .running → known ⊆ found →
      statements.Yields logged (ResumesOnce runId) (fun _ => Progress found [swap])
        (fun value _ => after value) (fun _ _ => True))
    : statements.Yields logged (ResumesOnce runId) (fun _ => Won runId known savedStatus)
        (fun value _ => after value) (fun _ _ => True) := by
  rintro locals log ⟨stopped, swap, found, own, won, same, knows, progress⟩
  exact yields swap found own won same stopped knows locals log progress

theorem yields_orRollback {known : List (RunId × Run)} {saved : ResumeTransitionState}
    {pinnedRuntime : Option (Option PinnedRuntime)} {statements : ResumeStatements Unit}
    (keeps : ∀ (swap : Swap) found, swap.uuid = runId → swap.won = true → known ⊆ found →
      KeepsProgress runId found [swap] statements)
    : (Block.attempt statements fun error => do
        rollback runId saved pinnedRuntime
        Block.throw error).Yields logged (ResumesOnce runId)
        (fun _ => Won runId known saved.savedStatus)
        (fun _ _ => Won runId known saved.savedStatus) (fun _ _ => True) := by
  refine yields_of_won fun swap found own won same stopped knows => ?_
  refine Block.yields_attempt ((keeps swap found own won knows).yields.mono
    (fun _ _ progress => progress) ?_ fun _ _ progress => progress) (fun error => ?_)
    fun _ _ _ => trivial
  · exact fun _ _ _ progress => ⟨stopped, swap, found, own, won, same, knows, progress⟩
  · refine Block.yields_bind (yields_rollback own won (same ▸ stopped) same.symm) fun _ => ?_
    exact Block.yields_throw fun _ _ _ => trivial

theorem keeps_readPhase {input : ResumeRunInput}
    : KeepsProgress runId found done (readPhase input) := by
  unfold readPhase
  split
  · exact Block.keeps_pure
  · refine Block.keeps_bind (keeps_ask rfl) fun _ => ?_
    exact Block.keeps_bind (keeps_ask rfl) fun _ => Block.keeps_pure

/-- The compare-and-set of a call that has not swapped yet. -/
theorem yields_reactivate {run : Run} {patch : RunRepositoryUpdatePatch}
    (resumable : run.canResume = true) (running : patch.status = some .running)
    : (ask (.atomicUpdateRun runId patch run.status)).Yields logged (ResumesOnce runId)
        (fun _ => Progress ((runId, run) :: found) [])
        (fun updated _ log => updated = true →
          Won runId found run.status log)
        (fun _ _ => True) := by
  refine Block.yields_call ?_ ?_ fun _ _ _ _ _ _ => trivial
  · intro locals log progress
    have read : (reads log).head? = some (runId, run) := by rw [progress.reads, List.head?_cons]
    exact ⟨rfl, .inl ⟨progress.swaps, running, run, read, resumable, rfl⟩⟩
  · rintro locals log next answer progress rfl rfl
    refine ⟨status_ne_running_of_canResume resumable, ⟨runId, run.status, patch, true⟩,
      (runId, run) :: found, rfl, ?_, rfl, List.subset_cons_self _ _, ?_⟩
    · simp [Swap.won, running]
    · constructor
      · exact (List.filterMap_cons_none rfl).trans progress.reads
      · simpa [swaps, swap?] using progress.swaps

/-- A transition that completes has won, and one that fails is not used any more. -/
theorem yields_transition {input : ResumeRunInput} (target : input.runId = runId)
    : (transition deps input).Yields logged (ResumesOnce runId)
        (fun _ => Progress found [])
        (fun saved _ => Won runId found saved.savedStatus)
        (fun _ _ => True) := by
  subst target
  refine Block.yields_bind yields_readResumable fun (run, repo) => ?_
  refine Block.yields_of_fact fun ⟨resumable, _⟩ => ?_
  refine Block.yields_bind keeps_resolveEffectiveDisposition.yields_or_fail
    fun effectiveDisposition => ?_
  refine Block.yields_bind yields_check fun reactivated => ?_
  refine Block.yields_of_fact fun resumes => ?_
  have running : reactivated.status = .running := status_of_resumeRun resumes
  refine Block.yields_bind keeps_readPhase.yields_or_fail fun (savedSteps, savedPhase) => ?_
  refine Block.yields_bind (yields_reactivate resumable (congrArg some running)) fun updated => ?_
  cases updated with
  | false => exact Block.yields_throw fun _ _ _ => trivial
  | true =>
      refine Block.yields_bind ?_ fun _ => Block.yields_pure fun _ _ won => won
      exact Block.Yields.mono (yields_orRollback fun swap found _ won _ => keeps_resetPhase won)
        (fun _ _ won => won rfl) (fun _ _ _ won => won) fun _ _ _ => trivial

theorem yields_createResumeJob {input : ResumeRunInput} {run : Run} {repoId : RepositoryId}
    {resumeDisposition : ResumeDisposition}
    : (createResumeJob input run repoId resumeDisposition).Yields logged (ResumesOnce runId)
        (fun _ => Progress found done)
        (fun job _ log => Progress found done log ∧ job.runId = input.runId
          ∧ job.repoId = repoId ∧ job.status = .queued)
        (fun _ _ => True) := by
  refine Block.yields_bind (keeps_ask rfl).yields_or_fail fun named => ?_
  have checked : KeepsProgress runId found done
      (if run.issueNumber ≤ 0 then
        Block.throw (.message s!"IssueNumber must be a positive integer, got {run.issueNumber}")
      else
        pure () : ResumeStatements Unit) :=
    Block.keeps_ite (fun _ => Block.keeps_throw fun _ _ progress => progress)
      fun _ => Block.keeps_pure
  refine Block.yields_bind checked.yields_or_fail fun _ => ?_
  refine Block.yields_bind (keeps_ask rfl).yields_or_fail fun createdAt => ?_
  exact Block.yields_pure fun _ _ progress => ⟨progress, rfl, rfl, rfl⟩

theorem keeps_enqueue {job : Job} {run : Run} {swap : Swap} (own : swap.uuid = runId)
    (won : swap.won = true) (read : (runId, run) ∈ found) (same : job.runId = runId)
    (repository : job.repoId = run.repoId) (queued : job.status = .queued)
    : KeepsProgress runId found [swap] (ask (.enqueueJob job)) := by
  intro locals log progress
  refine Block.ensures_call.mpr ⟨?_, ?_, ?_⟩
  · exact ⟨⟨swap, progress.swaps, own, won⟩, same, queued, run, progress.reads ▸ read, repository⟩
  · rintro answer after rfl
    exact progress.cons rfl rfl
  · rintro error after rfl
    exact progress.cons rfl rfl

theorem yields_resume {input : ResumeRunInput} {run : Run} {repoId : RepositoryId}
    {effectiveDisposition : ResumeDisposition} (read : (input.runId, run) ∈ found)
    (same : repoId = run.repoId)
    : (resume deps input run repoId effectiveDisposition).Yields logged
        (ResumesOnce input.runId) (fun _ => Progress found []) (fun _ _ _ => True)
        (fun _ _ => True) := by
  refine Block.yields_bind (yields_transition rfl) fun saved => ?_
  have created : (createResumeJob input run repoId saved.effectiveDisposition).Yields logged
      (ResumesOnce input.runId) (fun _ => Won input.runId found saved.savedStatus)
      (fun job _ log => Won input.runId found saved.savedStatus log ∧ job.runId = input.runId
        ∧ job.repoId = repoId ∧ job.status = .queued)
      (fun _ _ => True) := by
    refine yields_of_won fun swap found own won expected stopped knows => ?_
    refine yields_createResumeJob.mono (fun _ _ progress => progress) ?_ fun _ _ _ => trivial
    exact fun _ _ _ ⟨progress, job⟩ =>
      ⟨⟨stopped, swap, found, own, won, expected, knows, progress⟩, job⟩
  refine Block.yields_bind created fun job => ?_
  refine Block.yields_of_fact fun ⟨sameRun, repository, queued⟩ => ?_
  refine Block.yields_bind (yields_orRollback fun swap found own won knows => ?_) fun _ =>
    Block.yields_pure fun _ _ _ => trivial
  exact keeps_enqueue own won (knows read) sameRun (repository.trans same) queued

theorem keeps_acquireLease {input : ResumeRunInput} {repoId : RepositoryId}
    : KeepsProgress runId found done (acquireLease input repoId) := by
  refine Block.keeps_attempt ?_ (fun error => ?_) fun _ _ progress => progress
  · refine Block.keeps_bind (keeps_ask rfl) fun now => ?_
    exact Block.keeps_bind (keeps_ask rfl) fun lease => Block.keeps_pure
  · split
    · exact Block.keeps_pure
    · exact Block.keeps_throw fun _ _ progress => progress

theorem harmless_releaseLease {input : ResumeRunInput} {repoId : RepositoryId}
    {acquiredLease : Option WorkerLease}
    : Harmless runId (releaseLease input repoId acquiredLease) := by
  cases acquiredLease with
  | none => exact Block.keeps_pure
  | some lease =>
      refine Block.keeps_attempt (harmless_ask rfl) (fun error => ?_) fun _ _ _ => trivial
      split
      · exact Block.keeps_pure
      · exact Block.keeps_throw fun _ _ _ => trivial

/-- Whatever its calls answer, a call of `ResumeRun` resumes its run once. -/
theorem execute_resumesOnce (deps : ResumeRunDeps) (input : ResumeRunInput)
    : (execute deps input).Ensures logged (ResumesOnce input.runId) (fun _ _ _ => True) () []
    := by
  have execution : (execute deps input).Yields logged (ResumesOnce input.runId)
      (fun _ => Progress [] []) (fun _ _ _ => True) (fun _ _ => True) := by
    refine Block.yields_bind yields_readResumable fun (run, repo) => ?_
    refine Block.yields_of_fact fun ⟨_, same⟩ => ?_
    refine Block.yields_bind keeps_resolveEffectiveDisposition.yields_or_fail
      fun effectiveDisposition => ?_
    refine Block.yields_bind keeps_acquireLease.yields_or_fail fun acquiredLease => ?_
    have resumed : (do
        let result ← resume deps input run repo.id effectiveDisposition
        releaseLease input repo.id acquiredLease
        pure result : ResumeStatements ResumeRunResult).Yields logged (ResumesOnce input.runId)
        (fun _ => Progress [(input.runId, run)] []) (fun _ _ _ => True) (fun _ _ => True) := by
      refine Block.yields_bind (yields_resume List.mem_cons_self same) fun result => ?_
      refine Block.yields_bind harmless_releaseLease.yields fun _ => ?_
      exact Block.yields_pure fun _ _ _ => trivial
    refine Block.yields_attempt resumed (fun error => ?_) fun _ _ _ => trivial
    refine Block.yields_bind harmless_releaseLease.yields fun _ => ?_
    exact Block.yields_throw fun _ _ _ => trivial
  refine (execution () [] ⟨rfl, rfl⟩).mono fun _ _ _ _ => trivial

end ResumeRun

end AiSdlc.Application
