import AiSdlc.Application.ValidateFixRuns

/-! What the validate-fix loop answers, and what its iterations leave behind: it ends in time and
tells the truth, but some of its exits keep the edits of a fix that resolved nothing.
-/

namespace AiSdlc.Application.ValidateFixLoop

open AiSdlc.Js
open AiSdlc.Domain
open AiSdlc.Transition

variable {deps : ValidateFixLoopDeps} {input : ValidateFixLoopInput}
  {result : ValidateFixLoopResult} {bound : Nat}

/-- The accounts of a run that has ended, with its final status. -/
structure Executed (deps : ValidateFixLoopDeps) (input : ValidateFixLoopInput)
    (result : ValidateFixLoopResult)
    : Prop where
  accounts : Accounts deps input result.loop result.calls
  final : result.loop.status ≠ .running
  converged
    : result.loop.status = .converged
      ↔ statusAfter deps input result.loop.iterations.length = .converged
  outcome : result.phaseOutcome = .passed ↔ result.loop.status = .converged

theorem statusAfter_cases (deps : ValidateFixLoopDeps) (input : ValidateFixLoopInput) (count : Nat)
    : statusAfter deps input count = .running ∨ statusAfter deps input count = .converged
      ∨ statusAfter deps input count = .failed := by
  unfold statusAfter
  split
  · exact .inl rfl
  · cases (exitAt deps input count).outcome <;> simp [LoopIterationOutcome.status]

theorem Paused.finish {state : ValidateFixState} (paused : Paused deps input state)
    : ∃ result, finish deps state = .ok result ∧ Executed deps input result := by
  unfold ValidateFixLoop.finish
  rcases statusAfter_cases deps input state.loop.iterations.length with running | converged | failed
  · have status := paused.status.trans running
    have ended : exhaust state.loop deps.exhaustedAt
        = .ok { state.loop with status := .exhausted, completedAt := some deps.exhaustedAt } :=
      exhaust_eq_ok.mpr ⟨status, rfl⟩
    rw [if_neg (by simp [status]), if_neg (by simp [status]), ended]
    refine ⟨_, rfl, ?_, by simp, by simp [running], by simp⟩
    have accounts := paused.accounts
    refine ⟨accounts.limit, accounts.limited, accounts.recorded, ?_, ?_, ?_, ?_,
      accounts.continued⟩
    · simp [ValidateFixState.emit, ValidateFixState.log, ValidateFixState.store, storedLoop,
        ValidateFixCall.stored?]
    · simpa [ValidateFixState.emit, ValidateFixState.log, ValidateFixState.store,
        ValidateFixCall.fix?] using accounts.fixes
    · simpa [ValidateFixState.emit, ValidateFixState.log, ValidateFixState.store,
        ValidateFixCall.rollback?] using accounts.rollbacks
    · simpa [ValidateFixState.emit, ValidateFixState.log, ValidateFixState.store,
        ValidateFixCall.revalidation?] using accounts.revalidations
  · have status := paused.status.trans converged
    rw [if_pos status]
    exact ⟨_, rfl, paused.accounts, by simp [status], by simp [status, converged], by simp [status]⟩
  · have status := paused.status.trans failed
    rw [if_neg (by simp [status]), if_pos status]
    exact ⟨_, rfl, paused.accounts, by simp [status], by simp [status, failed], by simp [status]⟩

/-- A loop that is accepted ends within its iterations. -/
theorem executeWithin_spec (accepted : 1 ≤ input.maxIterations)
    (enough : input.maxIterations.toNat ≤ bound)
    : ∃ result, executeWithin deps input bound = .ok (some result)
        ∧ Executed deps input result := by
  let creating : CreateLoopInput := {
    id := deps.loopId
    runId := input.runId
    phaseId := input.phaseId
    type := .validateFix
    maxIterations := input.maxIterations
    now := deps.createdAt
  }
  have created : createLoop creating = .ok _ := createLoop_eq_ok.mpr ⟨accepted, rfl⟩
  unfold executeWithin
  simp only [creating] at created
  rw [created]
  generalize entered : Loop.mk _ _ _ _ _ _ _ _ _ = loop
  have ongoing : Ongoing deps input { loop, calls := [.insert loop] } := by
    subst entered
    refine ⟨⟨⟨rfl, ?_, ?_, rfl, rfl, rfl, rfl, ?_⟩, rfl⟩, ?_⟩
    · simpa using (by omega : 0 ≤ input.maxIterations)
    · simp
    · simp
    · simp
  obtain ⟨final, ended, paused⟩ := loop_paused ongoing enough
  obtain ⟨result, finished, executed⟩ := paused.finish
  refine ⟨result, ?_, executed⟩
  simp only [bind, Except.bind, ended, finished]
  rfl

/-- The loop that a run starts with. -/
def creating (deps : ValidateFixLoopDeps) (input : ValidateFixLoopInput) : CreateLoopInput where
  id := deps.loopId
  runId := input.runId
  phaseId := input.phaseId
  type := .validateFix
  maxIterations := input.maxIterations
  now := deps.createdAt

theorem executeWithin_eq (deps : ValidateFixLoopDeps) (input : ValidateFixLoopInput) (bound : Nat)
    : executeWithin deps input bound = do
        let loop ← createLoop (creating deps input)
        match whileLoop (fun state => state.loop.canIterate) (iterate deps input) bound
            { loop, calls := [.insert loop] } with
        | none => return none
        | some (.error thrown) => throw thrown
        | some (.ok ended) =>
            let result ← ValidateFixLoop.finish deps ended
            return some result :=
  rfl

theorem executeWithin_mono {larger : Nat} (most : bound ≤ larger)
    (ran : executeWithin deps input bound = .ok (some result))
    : executeWithin deps input larger = .ok (some result) := by
  rw [executeWithin_eq] at ran ⊢
  cases created : createLoop (creating deps input) with
  | error thrown =>
      rw [created] at ran
      exact nomatch ran
  | ok loop =>
      rw [created] at ran
      change (match whileLoop _ _ _ _ with
        | none => Except.ok none
        | some (.error thrown) => throw thrown
        | some (.ok ended) => do
            let result ← ValidateFixLoop.finish deps ended
            return some result) = _ at ran ⊢
      cases ended : whileLoop (fun state => state.loop.canIterate) (iterate deps input) bound
          { loop, calls := [.insert loop] } with
      | none =>
          rw [ended] at ran
          exact nomatch ran
      | some final =>
          rw [ended] at ran
          rw [whileLoop_mono ended most]
          exact ran

theorem executed_of_executeWithin
    (ran : executeWithin deps input bound = .ok (some result))
    : Executed deps input result := by
  have accepted : 1 ≤ input.maxIterations := by
    rw [executeWithin_eq, checked_bind_eq_ok] at ran
    obtain ⟨loop, created, _⟩ := ran
    exact (createLoop_eq_ok.mp created).1
  obtain ⟨other, same, executed⟩ :=
    @executeWithin_spec deps input (max bound input.maxIterations.toNat) accepted (by omega)
  rw [executeWithin_mono (le_max_left _ _) ran] at same
  obtain rfl : result = other := by simpa using same
  exact executed

-----------------------------------------------------------------------------------------
-- The outcome
-----------------------------------------------------------------------------------------

/-- A run that was told truthfully: it ends in time, passes exactly where its last iteration was
revalidated within the boundaries, and the loop is stored closed, with a final status.
-/
structure EndsTruthfully (deps : ValidateFixLoopDeps) (input : ValidateFixLoopInput)
    (result : ValidateFixLoopResult)
    : Prop where
  fixes : (result.calls.filterMap (·.fix?)).length ≤ input.maxIterations
  started : (result.calls.filterMap (·.fix?)).length = result.loop.iterations.length
  passed
    : result.phaseOutcome = .passed
      ↔ .runRevalidation (context deps input result.loop.iterations.length) ∈ result.calls
        ∧ (deps.iteration result.loop.iterations.length).runRevalidation.passed = true
        ∧ boundaryFailure deps input (deps.iteration result.loop.iterations.length) = none
  closed
    : ∀ iteration ∈ result.loop.iterations,
        iteration.completedAt.isSome = true ∧ iteration.outcome.isSome = true
  stored : storedLoop result.calls = some result.loop
  final : result.loop.status ≠ .running
  consistent : result.phaseOutcome = .passed ↔ result.loop.status = .converged

theorem runRevalidation_mem_iff {calls : List ValidateFixCall} {ctx : ValidateFixStepContext}
    : .runRevalidation ctx ∈ calls ↔ ctx ∈ calls.filterMap (·.revalidation?) := by
  rw [List.mem_filterMap]
  constructor
  · intro member
    exact ⟨_, member, rfl⟩
  · rintro ⟨call, member, told⟩
    cases call <;> simp [ValidateFixCall.revalidation?] at told
    rwa [← told]

theorem rollbackFix_mem_iff {calls : List ValidateFixCall} {ctx : ValidateFixStepContext}
    {targetSha : String}
    : .rollbackFix ctx targetSha ∈ calls ↔ (ctx, targetSha) ∈ calls.filterMap (·.rollback?) := by
  rw [List.mem_filterMap]
  constructor
  · intro member
    exact ⟨_, member, rfl⟩
  · rintro ⟨call, member, told⟩
    cases call <;> simp [ValidateFixCall.rollback?] at told
    rwa [← told.1, ← told.2]

theorem context_inj {first second : Nat}
    (same : context deps input first = context deps input second)
    : first = second :=
  congrArg ValidateFixStepContext.iterationIndex same

theorem outcome_resolved_iff (replies : IterationReplies)
    : (exitOf deps input replies).outcome = .resolved
      ↔ (exitOf deps input replies).revalidates = true ∧ replies.runRevalidation.passed = true
        ∧ boundaryFailure deps input replies = none := by
  have leads := @leadsTo_exitOf deps input replies
  generalize exitOf deps input replies = exit at leads
  cases leads <;> simp_all [IterationExit.outcome, IterationExit.revalidates]

theorem statusAfter_converged_iff {count : Nat}
    : statusAfter deps input count = .converged
      ↔ count ≠ 0 ∧ (exitAt deps input count).outcome = .resolved := by
  unfold statusAfter
  by_cases zero : count = 0
  · simp [zero]
  · rw [if_neg zero]
    cases (exitAt deps input count).outcome <;> simp [zero, LoopIterationOutcome.status]

theorem Executed.revalidation_mem_iff (executed : Executed deps input result) {count : Nat}
    : .runRevalidation (context deps input count) ∈ result.calls
      ↔ count ≠ 0 ∧ count ≤ result.loop.iterations.length
        ∧ (exitAt deps input count).revalidates = true := by
  rw [runRevalidation_mem_iff, executed.accounts.revalidations, revalidationsOf, List.mem_flatMap]
  constructor
  · rintro ⟨position, member, listed⟩
    have within_ := List.mem_range.mp member
    split at listed
    · rename_i revalidates
      obtain rfl := context_inj (List.mem_singleton.mp listed)
      exact ⟨by omega, within_, revalidates⟩
    · cases listed
  · rintro ⟨positive, within_, revalidates⟩
    obtain ⟨position, rfl⟩ : ∃ position, count = position + 1 := ⟨count - 1, by omega⟩
    refine ⟨position, List.mem_range.mpr within_, ?_⟩
    rw [if_pos revalidates]
    exact List.mem_singleton_self _

theorem Executed.endsTruthfully (executed : Executed deps input result)
    : EndsTruthfully deps input result := by
  have accounts := executed.accounts
  have started : (result.calls.filterMap (·.fix?)).length = result.loop.iterations.length := by
    rw [accounts.fixes, List.length_map, List.length_range]
  refine ⟨?_, started, ?_, ?_, accounts.stored, executed.final, executed.outcome⟩
  · rw [started]
    exact accounts.limited
  · rw [executed.outcome, executed.converged, statusAfter_converged_iff,
      executed.revalidation_mem_iff]
    unfold exitAt
    rw [outcome_resolved_iff]
    constructor
    · rintro ⟨some_, revalidates, passed, within_⟩
      exact ⟨⟨some_, le_rfl, revalidates⟩, passed, within_⟩
    · rintro ⟨⟨some_, -, revalidates⟩, passed, within_⟩
      exact ⟨some_, revalidates, passed, within_⟩
  · intro iteration member
    obtain ⟨position, listed⟩ := List.mem_iff_getElem?.mp member
    obtain ⟨outcome, complete⟩ := accounts.recorded position iteration listed
    exact ⟨complete, by simp [outcome]⟩

/-- An accepted loop ends truthfully, whatever its ports answer. -/
theorem execute_endsTruthfully (deps : ValidateFixLoopDeps) (input : ValidateFixLoopInput)
    (accepted : 1 ≤ input.maxIterations)
    : ∃ result, EndsTruthfully deps input result
        ∧ ∀ bound, input.maxIterations.toNat ≤ bound →
            executeWithin deps input bound = .ok (some result) := by
  obtain ⟨result, ran, executed⟩ := @executeWithin_spec deps input _ accepted le_rfl
  exact ⟨result, executed.endsTruthfully, fun bound enough => executeWithin_mono enough ran⟩

/-- An agent that commits, and then cannot fix what the validation found. -/
def stubbornReplies : IterationReplies where
  fix := {
    invocationId := "fix"
    agentOutcome := .success
    verdict := some .cannotFix
    headBeforeFix := some "abc123"
  }
  headCommitSha := .ok "def456"
  changedFiles := .ok []
  status := .ok ""
  newId := "id"
  rollbackFix := true
  runRevalidation := { validationRunId := "validation", passed := false }
  startedAt := Date.epoch
  completedAt := Date.epoch

def stubbornDeps : ValidateFixLoopDeps where
  loopId := "loop"
  createdAt := Date.epoch
  exhaustedAt := Date.epoch
  loadManifest := .missing "task-manifest.json not found"
  hasGit := false
  hasRollbackFix := true
  iteration := fun _ => stubbornReplies
  decode := fun _ => ""
  localeCompare := fun _ _ => 0

def twoIterations : ValidateFixLoopInput where
  runId := "run"
  phaseId := "validate"
  repoId := "repo"
  cwd := "/repo"
  maxIterations := 2
  fixProfile := "fixer"

theorem stubborn_endsTruthfully
    : ∃ result, EndsTruthfully stubbornDeps twoIterations result
        ∧ ∀ bound, twoIterations.maxIterations.toNat ≤ bound →
            executeWithin stubbornDeps twoIterations bound = .ok (some result) :=
  execute_endsTruthfully stubbornDeps twoIterations (by decide)

-----------------------------------------------------------------------------------------
-- Rollbacks
-----------------------------------------------------------------------------------------

/-- Where an iteration that began at a head resolves nothing, it is rolled back to that head, and
the next one only starts where that succeeded.
-/
def RestoresEach (deps : ValidateFixLoopDeps) (input : ValidateFixLoopInput)
    (result : ValidateFixLoopResult)
    : Prop :=
  ∀ position iteration head, result.loop.iterations[position]? = some iteration →
    truthy (deps.iteration (position + 1)).fix.headBeforeFix = some head →
    iteration.outcome ≠ some .resolved →
    .rollbackFix (context deps input (position + 1)) head ∈ result.calls
      ∧ (position + 1 < result.loop.iterations.length →
          (deps.iteration (position + 1)).rollbackFix = true)

/-- A fix within the boundaries that ends without a verdict, cannot fix, or sees nothing to fix
where the validation fails.
-/
def KeepsEdits (deps : ValidateFixLoopDeps) (input : ValidateFixLoopInput)
    (replies : IterationReplies)
    : Prop :=
  replies.fix.agentOutcome = .success
  ∧ (truthy replies.fix.headBeforeFix).isSome = true
  ∧ boundaryFailure deps input replies = none
  ∧ (replies.fix.verdict = none ∨ replies.fix.verdict = some .cannotFix
    ∨ replies.fix.verdict = some .noFixesNeeded ∧ replies.runRevalidation.passed = false)

theorem keepsEdits_iff (replies : IterationReplies)
    : KeepsEdits deps input replies
      ↔ (truthy replies.fix.headBeforeFix).isSome = true
        ∧ (exitOf deps input replies).outcome ≠ .resolved
        ∧ (exitOf deps input replies).rollsBack = false := by
  have leads := @leadsTo_exitOf deps input replies
  generalize exitOf deps input replies = exit at leads
  unfold KeepsEdits
  cases leads <;> simp_all [IterationExit.outcome, IterationExit.rollsBack]

theorem rollbackFix_of_goOn {replies : IterationReplies}
    (goesOn : (exitOf deps input replies).flow = .goOn)
    (rollsBack : (exitOf deps input replies).rollsBack = true)
    : replies.rollbackFix = true := by
  have leads := @leadsTo_exitOf deps input replies
  generalize exitOf deps input replies = exit at leads goesOn rollsBack
  cases leads <;> simp_all [IterationExit.flow, IterationExit.rollsBack]

theorem Executed.rollback_mem_iff (executed : Executed deps input result) {position : Nat}
    (within_ : position < result.loop.iterations.length) {head : String}
    : .rollbackFix (context deps input (position + 1)) head ∈ result.calls
      ↔ (exitAt deps input (position + 1)).rollsBack = true
        ∧ restorable deps (deps.iteration (position + 1)) = some head := by
  rw [rollbackFix_mem_iff, executed.accounts.rollbacks, rollbacksOf, List.mem_flatMap]
  constructor
  · rintro ⟨other, -, listed⟩
    split at listed
    · rename_i rollsBack
      rw [rollbackOf, Option.mem_toList, Option.map_eq_some_iff] at listed
      obtain ⟨found, reported, same⟩ := listed
      obtain ⟨ctx, rfl⟩ := Prod.mk.inj same
      obtain rfl : other = position := by
        have := context_inj ctx
        omega
      exact ⟨rollsBack, reported⟩
    · cases listed
  · rintro ⟨rollsBack, reported⟩
    refine ⟨position, List.mem_range.mpr within_, ?_⟩
    rw [if_pos rollsBack, rollbackOf, Option.mem_toList, reported]
    rfl

/-- With rollbacks configured, each iteration of a run is restored unless one kept edits. -/
theorem restoresEach_iff (deps : ValidateFixLoopDeps) (input : ValidateFixLoopInput)
    (bound : Nat) (result : ValidateFixLoopResult) (configured : deps.hasRollbackFix = true)
    (ran : executeWithin deps input bound = .ok (some result))
    : RestoresEach deps input result
      ↔ ∀ position < result.loop.iterations.length,
          ¬KeepsEdits deps input (deps.iteration (position + 1)) := by
  have executed := executed_of_executeWithin ran
  have restorable_eq (replies : IterationReplies)
      : restorable deps replies = truthy replies.fix.headBeforeFix := if_pos configured
  constructor
  · intro restores position within_ keeps
    obtain ⟨reported, unresolved, keeps⟩ := (keepsEdits_iff _).mp keeps
    obtain ⟨head, found⟩ := Option.isSome_iff_exists.mp reported
    have listed := List.getElem?_eq_getElem within_
    obtain ⟨outcome, -⟩ := executed.accounts.recorded _ _ listed
    have restored := (restores _ _ head listed found (by simpa [outcome] using unresolved)).1
    have rollsBack := ((executed.rollback_mem_iff within_).mp restored).1
    exact nomatch keeps.symm.trans rollsBack
  · intro none_ position iteration head listed found unresolved
    obtain ⟨within_, -⟩ := List.getElem?_eq_some_iff.mp listed
    obtain ⟨outcome, -⟩ := executed.accounts.recorded _ _ listed
    have rollsBack : (exitAt deps input (position + 1)).rollsBack = true := by
      by_contra left
      refine none_ position within_ ((keepsEdits_iff _).mpr ⟨by simp [found], ?_, ?_⟩)
      · simpa [outcome] using unresolved
      · simpa using left
    refine ⟨(executed.rollback_mem_iff within_).mpr ⟨rollsBack, ?_⟩, ?_⟩
    · rw [restorable_eq, found]
    · exact fun later => rollbackFix_of_goOn (executed.accounts.continued position later) rollsBack

/-- The outcomes of the iterations of a loop, with its rollbacks. -/
def outcomesOf
    : Except String (Option ValidateFixLoopResult)
      → Option (List (Option LoopIterationOutcome) × List (ValidateFixStepContext × String))
  | .ok (some result) =>
      some (result.loop.iterations.map (·.outcome), result.calls.filterMap (·.rollback?))
  | _ => none

theorem exists_of_outcomesOf {ran : Except String (Option ValidateFixLoopResult)}
    {outcomes : List (Option LoopIterationOutcome)}
    {rollbacks : List (ValidateFixStepContext × String)}
    (told : outcomesOf ran = some (outcomes, rollbacks))
    : ∃ result, ran = .ok (some result) ∧ result.loop.iterations.map (·.outcome) = outcomes
        ∧ result.calls.filterMap (·.rollback?) = rollbacks := by
  unfold outcomesOf at told
  split at told
  next result => exact ⟨result, rfl, Prod.mk.inj (Option.some.inj told)⟩
  next => contradiction

/-- An agent whose first fix fails the validation, and whose second one passes it. -/
def persistentDeps : ValidateFixLoopDeps :=
  {
    stubbornDeps with
    iteration := fun iterationIndex =>
      {
        stubbornReplies with
        fix := { stubbornReplies.fix with verdict := some .fixed }
        runRevalidation := { validationRunId := "validation", passed := 2 ≤ iterationIndex }
      }
  }

/-- The first fix is rolled back before the second one starts. -/
theorem persistent_restoresEach
    : ∃ result, executeWithin persistentDeps twoIterations 2 = .ok (some result)
        ∧ result.loop.iterations.map (·.outcome) = [some .revalidationFailed, some .resolved]
        ∧ result.calls.filterMap (·.rollback?)
          = [(context persistentDeps twoIterations 1, "abc123")]
        ∧ RestoresEach persistentDeps twoIterations result := by
  have told : outcomesOf (executeWithin persistentDeps twoIterations 2)
      = some ([some .revalidationFailed, some .resolved],
        [(context persistentDeps twoIterations 1, "abc123")]) := by
    decide +kernel
  obtain ⟨result, ran, outcomes, rollbacks⟩ := exists_of_outcomesOf told
  refine ⟨result, ran, outcomes, rollbacks, ?_⟩
  refine (restoresEach_iff persistentDeps twoIterations 2 result rfl ran).mpr ?_
  intro position _ keeps
  have fixed : (persistentDeps.iteration (position + 1)).fix.verdict = some .fixed := rfl
  obtain ⟨-, -, -, ends⟩ := keeps
  rw [fixed] at ends
  simp at ends

/-- The stubborn agent's two fixes, neither of which is rolled back. -/
theorem stubborn_executes
    : ∃ result, executeWithin stubbornDeps twoIterations 2 = .ok (some result)
        ∧ result.loop.iterations.map (·.outcome) = [some .fixFailed, some .fixFailed]
        ∧ result.calls.filterMap (·.rollback?) = [] := by
  refine exists_of_outcomesOf ?_
  decide +kernel

/-- A second fix starts from what the first one left behind. -/
theorem stubborn_not_restored
    : ¬∀ (deps : ValidateFixLoopDeps) (input : ValidateFixLoopInput) (bound : Nat)
        (result : ValidateFixLoopResult), deps.hasRollbackFix = true →
        executeWithin deps input bound = .ok (some result) → RestoresEach deps input result := by
  intro claim
  obtain ⟨result, ran, outcomes, none_⟩ := stubborn_executes
  obtain ⟨first, rest, split⟩ : ∃ first rest, result.loop.iterations = first :: rest := by
    cases iterations : result.loop.iterations with
    | nil => simp [iterations] at outcomes
    | cons first rest => exact ⟨first, rest, rfl⟩
  have outcome : first.outcome = some .fixFailed := by
    rw [split] at outcomes
    exact (List.cons.inj outcomes).1
  have restored := claim _ _ _ result rfl ran 0 first "abc123" (by rw [split]; rfl) rfl
    (by simp [outcome])
  have called := rollbackFix_mem_iff.mp restored.1
  rw [none_] at called
  exact nomatch called

end AiSdlc.Application.ValidateFixLoop
