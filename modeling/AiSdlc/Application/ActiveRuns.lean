import AiSdlc.Application.ResumeSystem

/-! Active runs: a new run starts only when none is active for its issue, and an old one is
made running by `ResumeRun` without that check.
-/

namespace AiSdlc.Application

open AiSdlc.Js
open AiSdlc.Domain
open AiSdlc.Async
open AiSdlc.Sqlite
open AiSdlc.Transition

/-- The writes of runs beside those of `ResumeRun`: a run starts, or runs are updated. -/
inductive RunWrite
  | insertIfNoActive (defaultExecutionPolicy : ExecutionPolicy) (run : Run)
  | update (uuid : String) (patch : RunRepositoryUpdatePatch)
  | updateStatusByUuid (uuid : String) (patch : RunStatusPatch)
  | updateStatusByIssueNumber (repoId : Option RepositoryId) (issueNumber : Int)
      (patch : RunStatusPatch)

/-- The runs that a write leaves; one that throws leaves them as they are. -/
def RunWrite.perform (runs : RunTable) : RunWrite → RunTable
  | insertIfNoActive defaultExecutionPolicy run =>
      match RunRepository.insertIfNoActive defaultExecutionPolicy runs run with
      | .ok next => next
      | .error _ => runs
  | update uuid patch => RunRepository.update runs uuid patch
  | updateStatusByUuid uuid patch => (RunRepository.updateStatusByUuid runs uuid patch).2
  | updateStatusByIssueNumber repoId issueNumber patch =>
      (RunRepository.updateStatusByIssueNumber runs repoId issueNumber patch).2

/-- An unguarded update sets no status, or that of a run which has ended. -/
def RunWrite.isGuarded : RunWrite → Bool
  | update _ patch => patch.status.all RunStatus.isTerminal
  | insertIfNoActive _ _ | updateStatusByUuid _ _ | updateStatusByIssueNumber _ _ _ => true

/-- What happens next to the calls of `ResumeRun`: runs are started, cancelled and ended, and
the other tables change.
-/
inductive RunEvent
  | write (write : RunWrite)
  | other

def runEvents (world : ResumeWorld) (event : RunEvent) (after : ResumeWorld) : Prop :=
  match event with
  | .write write =>
      write.isGuarded = true ∧ after = { world with runs := write.perform world.runs }
  | .other => after.runs = world.runs

def sameIssue (first second : Run) : Bool :=
  first.repoId = second.repoId && first.issueNumber = second.issueNumber

/-- At most one run of an issue in a repository is not passed, failed or cancelled. -/
def OneActivePerIssue (runs : RunTable) : Prop :=
  ∀ first ∈ runs.rows, ∀ second ∈ runs.rows, first.status.isTerminal = false →
    second.status.isTerminal = false → sameIssue first second = true → first = second

/-- No run of the same issue is active. -/
def Alone (runs : RunTable) (run : Run) : Prop :=
  ∀ other ∈ runs.rows, other.status.isTerminal = false → sameIssue other run = false

abbrev RunLabel : Type := ResumeLabel RunEvent

/-- The calls of `ResumeRun` next to the writes of runs. -/
abbrev runSystem : System ResumePool RunLabel :=
  resumeSystem (fun world => OneActivePerIssue world.runs) runEvents

/-- Where a compare-and-set makes a run running that has ended, no other run of its issue is
active.
-/
def ReactivatesAlone (pool : ResumePool) : RunLabel → Prop
  | .act _ (.atomicUpdateRun uuid patch expected) reply =>
      reply = .ok true → patch.status = some .running → expected.isTerminal = true →
        ∀ row, pool.state.runs.find uuid = some row → Alone pool.state.runs row
  | _ => True

section Writes

variable {runs next : RunTable} {patch : RunRepositoryUpdatePatch} {selected : Run → Bool}

theorem sameIssue_comm (first second : Run) : sameIssue first second = sameIssue second first := by
  simp only [sameIssue, eq_comm]

theorem sameIssue_updated (first second : Run)
    : sameIssue (if selected first then patch.patch first else first)
        (if selected second then patch.patch second else second) = sameIssue first second := by
  split <;> split <;> rfl

theorem OneActivePerIssue.of_quiet (one : OneActivePerIssue runs)
    (quiet : ∀ row ∈ runs.rows, selected row = true →
      (patch.patch row).status.isTerminal = false → row.status.isTerminal = false)
    : OneActivePerIssue (RunRepository.updateWhere runs patch selected).2 := by
  have before {row : Run} (member : row ∈ runs.rows)
      (active : (if selected row then patch.patch row else row).status.isTerminal = false)
      : row.status.isTerminal = false := by
    split at active
    · rename_i selects
      exact quiet row member selects active
    · exact active
  intro first firstMember second secondMember firstActive secondActive issue
  obtain ⟨left, leftMember, rfl⟩ := RunRepository.mem_updateWhere.mp firstMember
  obtain ⟨right, rightMember, rfl⟩ := RunRepository.mem_updateWhere.mp secondMember
  rw [sameIssue_updated] at issue
  rw [one left leftMember right rightMember (before leftMember firstActive)
    (before rightMember secondActive) issue]

theorem OneActivePerIssue.of_alone (one : OneActivePerIssue runs) {row : Run}
    (only : ∀ other ∈ runs.rows, selected other = true → other = row) (alone : Alone runs row)
    : OneActivePerIssue (RunRepository.updateWhere runs patch selected).2 := by
  intro first firstMember second secondMember firstActive secondActive issue
  obtain ⟨left, leftMember, rfl⟩ := RunRepository.mem_updateWhere.mp firstMember
  obtain ⟨right, rightMember, rfl⟩ := RunRepository.mem_updateWhere.mp secondMember
  rw [sameIssue_updated] at issue
  by_cases leftHit : selected left = true
  · by_cases rightHit : selected right = true
    · rw [only left leftMember leftHit, only right rightMember rightHit]
    · rw [if_neg rightHit] at secondActive
      have apart := alone right rightMember secondActive
      rw [← only left leftMember leftHit] at apart
      simp only [sameIssue, Bool.and_eq_true, decide_eq_true_eq] at issue apart
      simp [issue.1, issue.2] at apart
  · rw [if_neg leftHit] at firstActive
    by_cases rightHit : selected right = true
    · have apart := alone left leftMember firstActive
      rw [← only right rightMember rightHit, issue] at apart
      contradiction
    · rw [if_neg rightHit] at secondActive
      rw [one left leftMember right rightMember firstActive secondActive issue]

/-- A new run starts where no run of its issue is active. -/
theorem OneActivePerIssue.of_insert {defaultExecutionPolicy : ExecutionPolicy} {run : Run}
    (one : OneActivePerIssue runs)
    (inserted : RunRepository.insertIfNoActive defaultExecutionPolicy runs run = .ok next)
    : OneActivePerIssue next := by
  unfold RunRepository.insertIfNoActive at inserted
  split at inserted
  · contradiction
  rename_i free
  simp only [RunRepository.insert] at inserted
  split at inserted
  swap
  · contradiction
  rename_i table appended
  cases inserted
  obtain ⟨_, rows⟩ := Table.insert_eq_some.mp appended
  have alone (other : Run) (member : other ∈ runs.rows)
      (active : other.status.isTerminal = false)
      : sameIssue other run = false := by
    simp only [List.any_eq_true, not_exists, not_and, isActiveFor, Bool.and_eq_true,
      Bool.or_eq_true, decide_eq_true_eq, Bool.not_eq_true'] at free
    simp only [sameIssue, Bool.and_eq_false_iff, decide_eq_false_iff_not]
    by_contra both
    rw [not_or, not_not, not_not] at both
    exact free other member ⟨.inl both.1, both.2⟩ active
  intro first firstMember second secondMember firstActive secondActive issue
  rw [rows, List.mem_append, List.mem_singleton] at firstMember secondMember
  rcases firstMember with firstOld | rfl
  · rcases secondMember with secondOld | rfl
    · exact one first firstOld second secondOld firstActive secondActive issue
    · exact absurd issue (Bool.eq_false_iff.mp (alone first firstOld firstActive))
  · rcases secondMember with secondOld | rfl
    · rw [sameIssue_comm] at issue
      exact absurd issue (Bool.eq_false_iff.mp (alone second secondOld secondActive))
    · rfl

/-- The guarded writes keep the active runs apart, by cases on the write. -/
theorem OneActivePerIssue.of_write (one : OneActivePerIssue runs) {write : RunWrite}
    (guarded : write.isGuarded = true)
    : OneActivePerIssue (write.perform runs) := by
  cases write with
  | insertIfNoActive defaultExecutionPolicy run =>
      simp only [RunWrite.perform]
      split
      · rename_i inserted
        exact one.of_insert inserted
      · exact one
  | update uuid patch =>
      simp only [RunWrite.perform, RunRepository.update]
      split
      · exact one
      · refine one.of_quiet fun row _ _ active => ?_
        simp only [RunWrite.isGuarded] at guarded
        cases status : patch.status with
        | none => simpa [RunRepositoryUpdatePatch.patch, status] using active
        | some ended =>
            simp only [status, Option.all_some] at guarded
            simp [RunRepositoryUpdatePatch.patch, status, guarded] at active
  | updateStatusByUuid uuid patch =>
      refine one.of_quiet fun row _ selects _ => ?_
      simpa using (Bool.and_eq_true_iff.mp selects).2
  | updateStatusByIssueNumber repoId issueNumber patch =>
      refine one.of_quiet fun row _ selects _ => ?_
      simpa using (Bool.and_eq_true_iff.mp selects).2

end Writes

section Steps

variable {labels : List RunLabel} {pool next : ResumePool} {label : RunLabel}

theorem eq_of_selected {runs : RunTable} {uuid : String} {expected : RunStatus} {row : Run}
    (found : runs.find uuid = some row) (other : Run) (member : other ∈ runs.rows)
    (selects : (other.uuid = uuid && other.status = expected) = true)
    : other = row := by
  have target : other.uuid = uuid := by simpa using (Bool.and_eq_true_iff.mp selects).1
  have again : runs.find other.uuid = some other := Table.findKey_of_mem runSchema_keyed member
  rw [target, found] at again
  exact (Option.some.inj again).symm

theorem OneActivePerIssue.of_swap {runs after : RunTable} {uuid : String}
    {patch : RunRepositoryUpdatePatch} {expected : RunStatus} (one : OneActivePerIssue runs)
    (swapped : RunRepository.atomicUpdateByUuid runs uuid patch expected = (true, after))
    (safe : expected.isTerminal = false
      ∨ ∀ row, runs.find uuid = some row → Alone runs row)
    : OneActivePerIssue after := by
  obtain ⟨row, found, _⟩ := RunRepository.atomicUpdateByUuid_true swapped
  unfold RunRepository.atomicUpdateByUuid at swapped
  split at swapped
  · exact (Prod.mk.inj swapped).2 ▸ one
  rw [← (Prod.mk.inj swapped).2]
  rcases safe with active | alone
  · refine one.of_quiet fun other _ selects _ => ?_
    have status : other.status = expected := by simpa using (Bool.and_eq_true_iff.mp selects).2
    rw [status]
    exact active
  · exact one.of_alone (fun other => eq_of_selected found other) (alone row found)

/-- A step that meets the condition keeps the active runs apart. -/
theorem OneActivePerIssue.step (run : runSystem.Run labels pool)
    (one : OneActivePerIssue pool.state.runs) (taken : runSystem.step pool label next)
    (condition : ReactivatesAlone pool label)
    : OneActivePerIssue next.state.runs := by
  cases taken with
  | @event state after threads event happened =>
      cases event with
      | write write =>
          obtain ⟨guarded, rfl⟩ := happened
          exact one.of_write guarded
      | other =>
          rw [show after.runs = state.runs from happened]
          exact one
  | start permitted => exact one
  | @act state after threads thread request rest reply running answered =>
      cases resumeEffect_of_answer (resumesSome_of_run run running) answered with
      | quiet => exact one
      | wrote _ _ runs =>
          rw [runs]
          exact one
      | reactivated first swapped =>
          refine one.of_swap swapped ?_
          cases ended : RunStatus.isTerminal _ with
          | false => exact .inl rfl
          | true => exact .inr (condition rfl first.status ended)
      | rolledBack second swapped =>
          refine one.of_swap swapped (.inl ?_)
          rw [second.running]
          rfl

/-- Another active run of the same issue is still there after a run was made running. -/
theorem alone_of_reactivation {runs after : RunTable} {uuid : String}
    {patch : RunRepositoryUpdatePatch} {expected : RunStatus} {row : Run}
    (swapped : RunRepository.atomicUpdateByUuid runs uuid patch expected = (true, after))
    (running : patch.status = some .running) (ended : expected.isTerminal = true)
    (found : runs.find uuid = some row) (one : OneActivePerIssue after)
    : Alone runs row := by
  obtain ⟨stored, again, status, rows⟩ := RunRepository.atomicUpdateByUuid_true swapped
  obtain rfl := Option.some.inj (found.symm.trans again)
  intro other member active
  by_contra issue
  have stands : runs.find other.uuid = some other :=
    Table.findKey_of_mem runSchema_keyed member
  have apart : other.uuid ≠ uuid := by
    intro target
    rw [target, found] at stands
    rw [← Option.some.inj stands, status, ended] at active
    contradiction
  have otherAfter : after.find other.uuid = some other := by
    rw [rows, if_neg apart, stands]
  have rowAfter : after.find uuid = some (patch.patch row) := by
    rw [rows, if_pos rfl]
  have same : other = patch.patch row :=
    one other (Table.mem_of_findKey otherAfter) _ (Table.mem_of_findKey rowAfter) active
      (by simp [RunRepositoryUpdatePatch.patch, running, RunStatus.isTerminal])
      (Bool.eq_true_of_not_eq_false issue)
  exact apart ((congrArg Run.uuid same).trans (RunTable.uuid_of_find rowAfter))

/-- In every run in which ended runs are only made running while no other run of their issue is
active, each issue has at most one active run, and exactly the steps that go on so keep this.
-/
theorem one_active_run_per_issue
    (run : (runSystem.restrict ReactivatesAlone).Run labels pool)
    : OneActivePerIssue pool.state.runs
      ∧ ∀ label next, runSystem.step pool label next →
          (OneActivePerIssue next.state.runs ↔ ReactivatesAlone pool label) := by
  have one : OneActivePerIssue pool.state.runs := by
    induction run with
    | start initially => exact initially.1
    | next earlier taken ih => exact ih.step earlier.of_restrict taken.2 taken.1
  refine ⟨one, fun label next taken => ⟨fun kept => ?_, one.step run.of_restrict taken⟩⟩
  cases taken with
  | event | start => trivial
  | @act _ _ _ _ request _ reply running answered =>
      cases request with
      | atomicUpdateRun uuid patch expected =>
          intro swapped running ended row found
          subst swapped
          obtain ⟨runs, updated, rfl⟩ := answered
          exact alone_of_reactivation updated running ended found kept
      | now | findRun | findRepository | inspectWorktree | acquireLease | releaseLease
        | listSteps | listPhases | upsertStep | insertPhase | updatePhase | enqueueJob =>
          trivial

end Steps

-----------------------------------------------------------------------------------------
-- An old run is resumed after a new one has started
-----------------------------------------------------------------------------------------

/-- A second run of the issue of the failed one. -/
def secondRun : Run :=
  createRun {
    uuid := "run-2"
    displayId := "run-2"
    repoId := "repo"
    issueNumber := 1
    startedAt := resumeTime
  }

/-- The second run as it is stored. -/
def storedSecondRun : Run :=
  { secondRun with executionPolicy := some .standard }

def runEvent (event : RunWrite) (world : ResumeWorld) : Option (RunEvent × ResumeWorld) :=
  if event.isGuarded then
    some (.write event, { world with runs := event.perform world.runs })
  else
    none

theorem runEvent_happens (write : RunWrite) (world : ResumeWorld) (event : RunEvent)
    (after : ResumeWorld) (performed : runEvent write world = some (event, after))
    : runEvents world event after := by
  unfold runEvent at performed
  split at performed
  · rename_i guarded
    obtain ⟨rfl, rfl⟩ := Prod.mk.inj (Option.some.inj performed)
    exact ⟨guarded, rfl⟩
  · contradiction

/-- Some writes, and then a call of `ResumeRun` that makes some requests. -/
def activeSchedule (writes : List RunWrite) (requests : Nat)
    : List (Move RunWrite ResumeRequest ResumeRequest.Reply ResumeEnding) :=
  writes.map .event ++ [.start (resumeCall "worker")] ++ List.replicate requests (.act 0)

def activePlay (writes : List RunWrite) (requests : Nat)
    : Option (List RunLabel × ResumePool) :=
  Pool.play (resumeHandler true) runEvent (activeSchedule writes requests) []
    ⟨failedWorld, []⟩

theorem run_activePlay {writes : List RunWrite} {requests : Nat} {labels : List RunLabel}
    {pool : ResumePool} (played : activePlay writes requests = some (labels, pool))
    : runSystem.Run labels pool := by
  refine Pool.run_of_play resumeHandler_answers runEvent_happens ?_ (.start ⟨?_, rfl⟩) played
  · intro program member
    simp only [activeSchedule, List.mem_append, List.mem_map, List.mem_cons,
      List.mem_replicate, List.not_mem_nil, Move.start.injEq, reduceCtorEq, or_false,
      and_false, exists_false, false_or] at member
    exact ⟨{}, _, member⟩
  · simp [OneActivePerIssue, failedWorld]

/-- After the first run of an issue has failed, a second one starts, and then the first one is
resumed: both are active.
-/
theorem resume_makes_second_run_active
    : ¬∀ (labels : List RunLabel) (pool : ResumePool), runSystem.Run labels pool →
        OneActivePerIssue pool.state.runs := by
  intro claim
  let reached := (activePlay [.insertIfNoActive .standard secondRun] 7).get rfl
  have played : activePlay [.insertIfNoActive .standard secondRun] 7
      = some (reached.1, reached.2) :=
    rfl
  have one := claim _ _ (run_activePlay played)
  have both : reached.2.state.runs.rows = [restartedRun, storedSecondRun] := rfl
  have same : restartedRun = storedSecondRun :=
    one restartedRun (by simp [both]) storedSecondRun (by simp [both]) rfl rfl rfl
  contradiction

/-- A compare-and-set of a run. -/
def isSwap : RunLabel → Bool
  | .act _ (.atomicUpdateRun _ _ _) _ => true
  | _ => false

theorem reactivatesAlone_of_not_isSwap {pool : ResumePool} {label : RunLabel}
    (quiet : isSwap label = false)
    : ReactivatesAlone pool label := by
  cases label with
  | event | start => trivial
  | act thread request reply => cases request <;> trivial

theorem step_of_runMove {pool next : ResumePool} {label : RunLabel} (thread : Nat)
    (moved : pool.move (resumeHandler true) runEvent (.act thread) = some (label, next))
    : runSystem.step pool label next :=
  Pool.step_of_move resumeHandler_answers runEvent_happens (fun _ same => by contradiction)
    moved

/-- Without a second run, the failed run may be made running again. -/
theorem one_active_run_per_issue_resumed
    : let reached := (activePlay [] 6).get rfl
      let moved := (reached.2.move (resumeHandler true) runEvent (.act 0)).get rfl
      OneActivePerIssue moved.2.state.runs := by
  intro reached moved
  have played : activePlay [] 6 = some (reached.1, reached.2) := rfl
  have quiet : reached.1.all (!isSwap ·) = true := rfl
  have run : (runSystem.restrict ReactivatesAlone).Run reached.1 reached.2 := by
    refine (run_activePlay played).restrict fun label member pool => ?_
    exact reactivatesAlone_of_not_isSwap (by simpa using List.all_eq_true.mp quiet label member)
  have step : runSystem.step reached.2 moved.1 moved.2 := step_of_runMove 0 rfl
  refine ((one_active_run_per_issue run).2 _ _ step).mpr ?_
  intro _ _ _ row _ other member active
  have only : reached.2.state.runs.rows = [failedRun] := rfl
  rw [only, List.mem_singleton] at member
  rw [member] at active
  contradiction

end AiSdlc.Application
