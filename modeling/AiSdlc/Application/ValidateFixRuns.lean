import AiSdlc.Application.ValidateFixLoop

/-! The runs of the validate-fix loop: every exit of an iteration closes it with an outcome, goes
on or leaves the loop, and rolls back or does not. A run is told by the exits of its iterations.
-/

namespace AiSdlc.Application.ValidateFixLoop

open AiSdlc.Js
open AiSdlc.Domain
open AiSdlc.Transition

/-- The ways in which an iteration ends. -/
inductive IterationExit
  | agentFailed
  | boundaryStuck
  | boundaryUnrestorable
  | boundaryRestored
  | noFixesConfirmed
  | noFixesRefuted
  | verdictMissing
  | cannotFix
  | revalidated
  | rollbackStuck
  | unrestorable
  | restored
  deriving DecidableEq, Repr

namespace IterationExit

def outcome : IterationExit → LoopIterationOutcome
  | agentFailed | boundaryStuck | verdictMissing | rollbackStuck => .failed
  | boundaryUnrestorable | boundaryRestored | unrestorable | restored => .revalidationFailed
  | noFixesConfirmed | revalidated => .resolved
  | noFixesRefuted => .unresolved
  | cannotFix => .fixFailed

def flow : IterationExit → Flow
  | boundaryRestored | noFixesRefuted | cannotFix | restored => .goOn
  | _ => .leave

/-- Whether a rollback is made, where one can be. -/
def rollsBack : IterationExit → Bool
  | noFixesConfirmed | noFixesRefuted | verdictMissing | cannotFix | revalidated => false
  | _ => true

def revalidates : IterationExit → Bool
  | noFixesConfirmed | noFixesRefuted | revalidated | rollbackStuck | unrestorable | restored =>
      true
  | _ => false

end IterationExit

section Exits

variable (deps : ValidateFixLoopDeps) (input : ValidateFixLoopInput)

/-- The exit after a failure that can be rolled back, or not. -/
def restoreExit (stuck left undone : IterationExit) (replies : IterationReplies)
    : IterationExit :=
  if rollbackFailed deps replies then stuck
  else if (restorable deps replies).isNone then left
  else undone

/-- The exit that the answers of an iteration lead to. -/
def exitOf (replies : IterationReplies) : IterationExit :=
  if replies.fix.agentOutcome ≠ .success then .agentFailed
  else if (boundaryFailure deps input replies).isSome then
    restoreExit deps .boundaryStuck .boundaryUnrestorable .boundaryRestored replies
  else
    match replies.fix.verdict with
    | some .noFixesNeeded =>
        if replies.runRevalidation.passed then .noFixesConfirmed else .noFixesRefuted
    | none => .verdictMissing
    | some .cannotFix => .cannotFix
    | some .fixed =>
        if replies.runRevalidation.passed then .revalidated
        else restoreExit deps .rollbackStuck .unrestorable .restored replies

/-- The exit of an iteration by its number. -/
abbrev exitAt (iterationIndex : Nat) : IterationExit :=
  exitOf deps input (deps.iteration iterationIndex)

end Exits

section Exits

variable {deps : ValidateFixLoopDeps} {input : ValidateFixLoopInput}

/-- What the answers are like that lead to an exit. -/
inductive LeadsTo (deps : ValidateFixLoopDeps) (input : ValidateFixLoopInput)
    (replies : IterationReplies)
    : IterationExit → Prop
  | agentFailed (failed : replies.fix.agentOutcome ≠ .success) : LeadsTo _ _ _ .agentFailed
  | boundaryStuck (succeeded : replies.fix.agentOutcome = .success)
      (violated : boundaryFailure deps input replies ≠ none)
      (stuck : rollbackFailed deps replies = true)
      : LeadsTo _ _ _ .boundaryStuck
  | boundaryUnrestorable (succeeded : replies.fix.agentOutcome = .success)
      (violated : boundaryFailure deps input replies ≠ none)
      (left : restorable deps replies = none)
      : LeadsTo _ _ _ .boundaryUnrestorable
  | boundaryRestored (succeeded : replies.fix.agentOutcome = .success)
      (violated : boundaryFailure deps input replies ≠ none)
      (undone : replies.rollbackFix = true)
      : LeadsTo _ _ _ .boundaryRestored
  | noFixesConfirmed (succeeded : replies.fix.agentOutcome = .success)
      (respected : boundaryFailure deps input replies = none)
      (verdict : replies.fix.verdict = some .noFixesNeeded)
      (passed : replies.runRevalidation.passed = true)
      : LeadsTo _ _ _ .noFixesConfirmed
  | noFixesRefuted (succeeded : replies.fix.agentOutcome = .success)
      (respected : boundaryFailure deps input replies = none)
      (verdict : replies.fix.verdict = some .noFixesNeeded)
      (refuted : replies.runRevalidation.passed = false)
      : LeadsTo _ _ _ .noFixesRefuted
  | verdictMissing (succeeded : replies.fix.agentOutcome = .success)
      (respected : boundaryFailure deps input replies = none)
      (verdict : replies.fix.verdict = none)
      : LeadsTo _ _ _ .verdictMissing
  | cannotFix (succeeded : replies.fix.agentOutcome = .success)
      (respected : boundaryFailure deps input replies = none)
      (verdict : replies.fix.verdict = some .cannotFix)
      : LeadsTo _ _ _ .cannotFix
  | revalidated (succeeded : replies.fix.agentOutcome = .success)
      (respected : boundaryFailure deps input replies = none)
      (verdict : replies.fix.verdict = some .fixed)
      (passed : replies.runRevalidation.passed = true)
      : LeadsTo _ _ _ .revalidated
  | rollbackStuck (succeeded : replies.fix.agentOutcome = .success)
      (respected : boundaryFailure deps input replies = none)
      (verdict : replies.fix.verdict = some .fixed)
      (refuted : replies.runRevalidation.passed = false)
      (stuck : rollbackFailed deps replies = true)
      : LeadsTo _ _ _ .rollbackStuck
  | unrestorable (succeeded : replies.fix.agentOutcome = .success)
      (respected : boundaryFailure deps input replies = none)
      (verdict : replies.fix.verdict = some .fixed)
      (refuted : replies.runRevalidation.passed = false)
      (left : restorable deps replies = none)
      : LeadsTo _ _ _ .unrestorable
  | restored (succeeded : replies.fix.agentOutcome = .success)
      (respected : boundaryFailure deps input replies = none)
      (verdict : replies.fix.verdict = some .fixed)
      (refuted : replies.runRevalidation.passed = false)
      (undone : replies.rollbackFix = true)
      : LeadsTo _ _ _ .restored

theorem restoreExit_cases (stuck left undone : IterationExit) (replies : IterationReplies)
    : restoreExit deps stuck left undone replies = stuck ∧ rollbackFailed deps replies = true
      ∨ restoreExit deps stuck left undone replies = left ∧ restorable deps replies = none
      ∨ restoreExit deps stuck left undone replies = undone ∧ replies.rollbackFix = true := by
  unfold restoreExit
  by_cases failed : rollbackFailed deps replies = true
  · exact .inl ⟨if_pos failed, failed⟩
  · rw [if_neg failed]
    cases found : restorable deps replies with
    | none => exact .inr (.inl ⟨if_pos rfl, rfl⟩)
    | some head =>
        refine .inr (.inr ⟨if_neg (by simp), ?_⟩)
        simpa [rollbackFailed, found] using failed

/-- An exit is reached by the answers that lead to it, by cases along the source. -/
theorem leadsTo_exitOf (replies : IterationReplies)
    : LeadsTo deps input replies (exitOf deps input replies) := by
  unfold exitOf
  by_cases succeeded : replies.fix.agentOutcome = .success
  case neg =>
    rw [if_pos succeeded]
    exact .agentFailed succeeded
  case pos =>
    rw [if_neg (by simpa using succeeded)]
    by_cases respected : boundaryFailure deps input replies = none
    case neg =>
      rw [if_pos (Option.isSome_iff_ne_none.mpr respected)]
      rcases restoreExit_cases .boundaryStuck .boundaryUnrestorable .boundaryRestored replies with
        ⟨same, stuck⟩ | ⟨same, left⟩ | ⟨same, undone⟩
      · rw [same]
        exact .boundaryStuck succeeded respected stuck
      · rw [same]
        exact .boundaryUnrestorable succeeded respected left
      · rw [same]
        exact .boundaryRestored succeeded respected undone
    case pos =>
      rw [if_neg (by simp [respected])]
      cases verdict : replies.fix.verdict with
      | none => exact .verdictMissing succeeded respected verdict
      | some given =>
          cases given with
          | cannotFix => exact .cannotFix succeeded respected verdict
          | noFixesNeeded =>
              cases passed : replies.runRevalidation.passed with
              | true => exact .noFixesConfirmed succeeded respected verdict passed
              | false => exact .noFixesRefuted succeeded respected verdict passed
          | fixed =>
              cases passed : replies.runRevalidation.passed with
              | true => exact .revalidated succeeded respected verdict passed
              | false =>
                  rw [if_neg (by simp)]
                  rcases restoreExit_cases .rollbackStuck .unrestorable .restored replies with
                    ⟨same, stuck⟩ | ⟨same, left⟩ | ⟨same, undone⟩
                  · rw [same]
                    exact .rollbackStuck succeeded respected verdict passed stuck
                  · rw [same]
                    exact .unrestorable succeeded respected verdict passed left
                  · rw [same]
                    exact .restored succeeded respected verdict passed undone

end Exits

-----------------------------------------------------------------------------------------
-- The calls of a round
-----------------------------------------------------------------------------------------

end AiSdlc.Application.ValidateFixLoop

namespace AiSdlc.Application.ValidateFixCall

open AiSdlc.Domain

def fix? : ValidateFixCall → Option ValidateFixStepContext
  | runFix ctx _ => some ctx
  | _ => none

def rollback? : ValidateFixCall → Option (ValidateFixStepContext × String)
  | rollbackFix ctx targetSha => some (ctx, targetSha)
  | _ => none

def revalidation? : ValidateFixCall → Option ValidateFixStepContext
  | runRevalidation ctx => some ctx
  | _ => none

def stored? : ValidateFixCall → Option Loop
  | insert loop => some loop
  | update loop => some loop
  | _ => none

end AiSdlc.Application.ValidateFixCall

namespace AiSdlc.Application.ValidateFixLoop

open AiSdlc.Js
open AiSdlc.Domain
open AiSdlc.Transition

/-- The loop as it is stored last. -/
def storedLoop (calls : List ValidateFixCall) : Option Loop :=
  (calls.filterMap (·.stored?)).getLast?

/-- More calls were made, with these among them. -/
structure Adds (before after : List ValidateFixCall) (fixes : List ValidateFixStepContext)
    (rollbacks : List (ValidateFixStepContext × String))
    (revalidations : List ValidateFixStepContext)
    : Prop where
  fixes : after.filterMap (·.fix?) = before.filterMap (·.fix?) ++ fixes
  rollbacks : after.filterMap (·.rollback?) = before.filterMap (·.rollback?) ++ rollbacks
  revalidations
    : after.filterMap (·.revalidation?) = before.filterMap (·.revalidation?) ++ revalidations

section Adds

variable {before middle after : List ValidateFixCall} {fixes more : List ValidateFixStepContext}
  {rollbacks further : List (ValidateFixStepContext × String)}
  {revalidations again : List ValidateFixStepContext}

theorem Adds.trans (first : Adds before middle fixes rollbacks revalidations)
    (second : Adds middle after more further again)
    : Adds before after (fixes ++ more) (rollbacks ++ further) (revalidations ++ again) where
  fixes := by rw [second.fixes, first.fixes, List.append_assoc]
  rollbacks := by rw [second.rollbacks, first.rollbacks, List.append_assoc]
  revalidations := by rw [second.revalidations, first.revalidations, List.append_assoc]

end Adds

section Rounds

variable {deps : ValidateFixLoopDeps} {input : ValidateFixLoopInput}

/-- The rollback of an iteration, where one can be made. -/
def rollbackOf (deps : ValidateFixLoopDeps) (input : ValidateFixLoopInput) (iterationIndex : Nat)
    (replies : IterationReplies)
    : List (ValidateFixStepContext × String) :=
  ((restorable deps replies).map fun head => (context deps input iterationIndex, head)).toList

/-- The iteration is open, and these calls were made since the loop was as before. -/
structure Opened (deps : ValidateFixLoopDeps) (input : ValidateFixLoopInput) (iterationIndex : Nat)
    (before state : ValidateFixState) (rollbacks : List (ValidateFixStepContext × String))
    (revalidations : List ValidateFixStepContext)
    : Prop where
  loop
    : ∃ iteration : LoopIteration, iteration.completedAt = none
      ∧ state.loop = { before.loop with iterations := before.loop.iterations ++ [iteration] }
  adds
    : Adds before.calls state.calls [context deps input iterationIndex] rollbacks revalidations

/-- The iteration is closed with an outcome. -/
structure Closed (deps : ValidateFixLoopDeps) (input : ValidateFixLoopInput) (iterationIndex : Nat)
    (before : ValidateFixState) (outcome : LoopIterationOutcome)
    (rollbacks : List (ValidateFixStepContext × String))
    (revalidations : List ValidateFixStepContext) (loop : Loop) (calls : List ValidateFixCall)
    : Prop where
  iterations
    : ∃ iteration : LoopIteration, iteration.outcome = some outcome
      ∧ iteration.completedAt.isSome = true
      ∧ loop.iterations = before.loop.iterations ++ [iteration]
  status : loop.status = outcome.status
  limit : loop.maxIterations = before.loop.maxIterations
  stored : storedLoop calls = some loop
  adds : Adds before.calls calls [context deps input iterationIndex] rollbacks revalidations

variable {iterationIndex : Nat} {before state : ValidateFixState} {replies : IterationReplies}
  {rollbacks : List (ValidateFixStepContext × String)}
  {revalidations : List ValidateFixStepContext}

theorem Opened.log (opened : Opened deps input iterationIndex before state rollbacks revalidations)
    (calls : List ValidateFixCall) (none_ : calls.filterMap (·.fix?) = [])
    : Opened deps input iterationIndex before (state.log calls)
        (rollbacks ++ calls.filterMap (·.rollback?))
        (revalidations ++ calls.filterMap (·.revalidation?)) where
  loop := opened.loop
  adds := by
    have added : Adds state.calls (state.log calls).calls [] (calls.filterMap (·.rollback?))
        (calls.filterMap (·.revalidation?)) := by
      constructor <;> simp [ValidateFixState.log, none_]
    simpa using opened.adds.trans added

theorem Opened.emit (opened : Opened deps input iterationIndex before state rollbacks revalidations)
    (type : String) (level : EventLevel) (message : String)
    : Opened deps input iterationIndex before (state.emit type level message) rollbacks
        revalidations := by
  unfold ValidateFixState.emit
  simpa [ValidateFixCall.rollback?, ValidateFixCall.revalidation?]
    using opened.log [.publish { level, type, message }] rfl

theorem Opened.revalidate
    (opened : Opened deps input iterationIndex before state rollbacks [])
    : Opened deps input iterationIndex before
        (state.log [.runRevalidation (context deps input iterationIndex)]) rollbacks
        [context deps input iterationIndex] := by
  simpa [ValidateFixCall.rollback?, ValidateFixCall.revalidation?]
    using opened.log [.runRevalidation (context deps input iterationIndex)] rfl

theorem Opened.rollBack (opened : Opened deps input iterationIndex before state [] revalidations)
    (replies : IterationReplies)
    : Opened deps input iterationIndex before (rollBack deps input iterationIndex replies state)
        (rollbackOf deps input iterationIndex replies) revalidations := by
  unfold ValidateFixLoop.rollBack rollbackOf
  cases restorable deps replies with
  | none => exact opened
  | some head =>
      simpa [ValidateFixCall.rollback?, ValidateFixCall.revalidation?]
        using opened.log [.rollbackFix (context deps input iterationIndex) head] rfl

/-- An open iteration is closed with any outcome. -/
theorem Opened.close
    (opened : Opened deps input iterationIndex before state rollbacks revalidations)
    (replies : IterationReplies) (outcome : LoopIterationOutcome)
    (revalidationId : Option String)
    : ∃ closed, close iterationIndex replies outcome revalidationId state = .ok closed
        ∧ Closed deps input iterationIndex before outcome rollbacks revalidations closed.loop
            closed.calls := by
  obtain ⟨iteration, incomplete, grown⟩ := opened.loop
  have found : state.loop.openIteration = some iteration :=
    openIteration_eq_some.mpr ⟨before.loop.iterations, by rw [grown], incomplete⟩
  let completing : CompleteIterationInput := {
    outcome
    fixInvocationId := some replies.fix.invocationId
    revalidationId
    now := replies.completedAt
  }
  obtain ⟨updated, completed⟩
      : ∃ updated, completeIteration state.loop completing = .ok updated :=
    ⟨_, completeIteration_eq_ok.mpr ⟨iteration, found, rfl⟩⟩
  let told := outcomeText outcome
  refine ⟨(state.store updated).emit "loop.iteration.completed" .info
    s!"iteration {iterationIndex} completed: {told}", ?_, ?_⟩
  · unfold ValidateFixLoop.close
    rw [completed]
    rfl
  · obtain ⟨_, same, shape⟩ := completeIteration_eq_ok.mp completed
    have earlier : state.loop.iterations.dropLast = before.loop.iterations := by simp [grown]
    constructor
    · exact ⟨_, rfl, rfl, by rw [← earlier]; exact congrArg Loop.iterations shape⟩
    · exact congrArg Loop.status shape
    · have kept : updated.maxIterations = state.loop.maxIterations := by rw [shape]
      exact kept.trans (by rw [grown])
    · simp [ValidateFixState.emit, ValidateFixState.log, ValidateFixState.store, storedLoop,
        ValidateFixCall.stored?]
    · have added : Adds state.calls ((state.store updated).emit "loop.iteration.completed" .info
          s!"iteration {iterationIndex} completed: {told}").calls [] [] [] := by
        constructor <;>
          simp [ValidateFixState.emit, ValidateFixState.log, ValidateFixState.store,
            ValidateFixCall.fix?, ValidateFixCall.rollback?, ValidateFixCall.revalidation?]
      simpa using opened.adds.trans added

theorem startFix_spec (closed : before.loop.openIteration = none)
    (goes : before.loop.canIterate = true)
    : ∃ started, startFix deps input iterationIndex replies before = .ok started
        ∧ Opened deps input iterationIndex before started [] [] := by
  have running : before.loop.status = .running
      ∧ before.loop.iterations.length < before.loop.maxIterations := by
    simpa [Loop.canIterate] using goes
  let starting : StartIterationInput :=
    .review replies.fix.invocationId replies.startedAt
  have starts : startIteration before.loop starting = .ok _ :=
    startIteration_eq_ok.mpr ⟨running.1, closed, running.2, rfl⟩
  unfold startFix
  simp only [starting] at starts
  rw [starts]
  refine ⟨_, rfl, ⟨⟨_, rfl, rfl⟩, ?_⟩⟩
  cases input.fixFallbackProfile with
  | none =>
      constructor <;>
        simp [ValidateFixState.emit, ValidateFixState.log, ValidateFixState.store,
          ValidateFixCall.fix?, ValidateFixCall.rollback?, ValidateFixCall.revalidation?]
  | some toProfile =>
      by_cases fallback : 2 ≤ before.consecutiveFixFailures <;>
        constructor <;>
        simp [fallback, ValidateFixState.emit, ValidateFixState.log, ValidateFixState.store,
          ValidateFixCall.fix?, ValidateFixCall.rollback?, ValidateFixCall.revalidation?]

/-- A round does what its exit says. -/
def Iterated (deps : ValidateFixLoopDeps) (input : ValidateFixLoopInput) (iterationIndex : Nat)
    (replies : IterationReplies) (before : ValidateFixState) (exit : IterationExit)
    (round : Except String (Flow × ValidateFixState))
    : Prop :=
  ∃ after, round = .ok (exit.flow, after)
    ∧ Closed deps input iterationIndex before exit.outcome
        (if exit.rollsBack then rollbackOf deps input iterationIndex replies else [])
        (if exit.revalidates then [context deps input iterationIndex] else [])
        after.loop after.calls

theorem afterBoundaryFailure_spec (failure : BoundaryFailure)
    (opened : Opened deps input iterationIndex before state [] [])
    : Iterated deps input iterationIndex replies before
        (restoreExit deps .boundaryStuck .boundaryUnrestorable .boundaryRestored replies)
        (afterBoundaryFailure deps input iterationIndex replies failure state) := by
  have told
      : Opened deps input iterationIndex before (emitBoundaryFailure failure state) [] [] := by
    unfold emitBoundaryFailure
    cases failure.files with
    | none => exact opened.emit _ _ _
    | some files => exact opened.emit _ _ _
  have rolledBack := told.rollBack replies
  unfold restoreExit afterBoundaryFailure
  by_cases failed : rollbackFailed deps replies = true
  case pos =>
    obtain ⟨closed, completed, facts⟩ := (rolledBack.emit "loop.rollback.failed" .error
      s!"rollback failed on iteration {iterationIndex}, breaking loop").close replies .failed none
    rw [if_pos failed]
    refine ⟨closed, ?_, facts⟩
    simp only [emitRollbackFailed, if_pos failed, completed]
    rfl
  case neg =>
    obtain ⟨closed, completed, facts⟩ :=
      rolledBack.close replies .revalidationFailed (some replies.newId)
    rw [if_neg failed]
    by_cases left : (restorable deps replies).isNone = true
    case pos =>
      rw [if_pos left]
      refine ⟨closed, ?_, facts⟩
      simp only [if_neg failed, completed, if_pos left]
      rfl
    case neg =>
      rw [if_neg left]
      refine ⟨{
        closed with
        consecutiveFixFailures := 0
        nextDeterministicDiagnostic := some failure.message
      }, ?_, facts⟩
      simp only [if_neg failed, completed, if_neg left]
      rfl

theorem afterNoFixesNeeded_spec
    (opened : Opened deps input iterationIndex before state [] [])
    : Iterated deps input iterationIndex replies before
        (if replies.runRevalidation.passed then .noFixesConfirmed else .noFixesRefuted)
        (afterNoFixesNeeded deps input iterationIndex replies state) := by
  have revalidated := opened.revalidate
  unfold afterNoFixesNeeded
  by_cases passed : replies.runRevalidation.passed = true
  case pos =>
    obtain ⟨closed, completed, facts⟩ := revalidated.close replies .resolved
      (some replies.runRevalidation.validationRunId)
    rw [if_pos passed]
    refine ⟨closed, ?_, facts⟩
    simp only [if_pos passed, completed]
    rfl
  case neg =>
    obtain ⟨closed, completed, facts⟩ := revalidated.close replies .unresolved none
    rw [if_neg passed]
    refine ⟨closed, ?_, facts⟩
    simp only [if_neg passed, completed]
    rfl

theorem afterFixed_spec (opened : Opened deps input iterationIndex before state [] [])
    : Iterated deps input iterationIndex replies before
        (if replies.runRevalidation.passed then .revalidated
        else restoreExit deps .rollbackStuck .unrestorable .restored replies)
        (afterFixed deps input iterationIndex replies state) := by
  have reset : Opened deps input iterationIndex before
      { state with consecutiveFixFailures := 0 } [] [] :=
    ⟨opened.loop, opened.adds⟩
  have revalidated := reset.revalidate
  unfold afterFixed
  by_cases passed : replies.runRevalidation.passed = true
  case pos =>
    obtain ⟨closed, completed, facts⟩ := revalidated.close replies .resolved
      (some replies.runRevalidation.validationRunId)
    rw [if_pos passed]
    refine ⟨closed, ?_, facts⟩
    simp only [if_pos passed, completed]
    rfl
  case neg =>
    rw [if_neg passed]
    simp only [if_neg passed]
    generalize mentioned : (if (truthy replies.fix.headBeforeFix).isNone && deps.hasRollbackFix then
        _ else _) = told
    have opened' : Opened deps input iterationIndex before told []
        [context deps input iterationIndex] := by
      rw [← mentioned]
      split
      · exact revalidated.emit _ _ _
      · exact revalidated
    have rolledBack := opened'.rollBack replies
    unfold restoreExit
    by_cases failed : rollbackFailed deps replies = true
    case pos =>
      obtain ⟨closed, completed, facts⟩ := (rolledBack.emit "loop.rollback.failed" .error
        s!"rollback failed on iteration {iterationIndex}, breaking loop").close replies .failed none
      rw [if_pos failed]
      refine ⟨closed, ?_, facts⟩
      simp only [emitRollbackFailed, if_pos failed, completed]
      rfl
    case neg =>
      obtain ⟨closed, completed, facts⟩ := rolledBack.close replies .revalidationFailed
        (some replies.runRevalidation.validationRunId)
      rw [if_neg failed]
      by_cases left : (restorable deps replies).isNone = true
      case pos =>
        rw [if_pos left]
        refine ⟨closed, ?_, facts⟩
        simp only [if_neg failed, completed, if_pos left]
        rfl
      case neg =>
        rw [if_neg left]
        refine ⟨closed, ?_, facts⟩
        simp only [if_neg failed, completed, if_neg left]
        rfl

theorem afterVerdict_spec (opened : Opened deps input iterationIndex before state [] [])
    (succeeded : replies.fix.agentOutcome = .success)
    (within_ : boundaryFailure deps input replies = none)
    : Iterated deps input iterationIndex replies before (exitOf deps input replies)
        (afterVerdict deps input iterationIndex replies state) := by
  unfold exitOf
  rw [if_neg (by simpa using succeeded), if_neg (by simp [within_])]
  unfold afterVerdict
  cases replies.fix.verdict with
  | none =>
      obtain ⟨closed, completed, facts⟩ := (opened.emit "loop.verdict_missing" .warn
        s!"fix agent returned undefined verdict on iteration {iterationIndex}, breaking loop").close
        replies .failed none
      refine ⟨closed, ?_, facts⟩
      simp only [completed]
      rfl
  | some verdict =>
      cases verdict with
      | fixed => exact afterFixed_spec opened
      | noFixesNeeded => exact afterNoFixesNeeded_spec opened
      | cannotFix =>
          have counted : Opened deps input iterationIndex before
              { state with consecutiveFixFailures := state.consecutiveFixFailures + 1 } [] [] :=
            ⟨opened.loop, opened.adds⟩
          obtain ⟨closed, completed, facts⟩ := counted.close replies .fixFailed none
          refine ⟨closed, ?_, facts⟩
          simp only [completed]
          rfl

/-- The body of the loop ends with the exit that the answers lead to. -/
theorem iterate_spec (closed : before.loop.openIteration = none)
    (goes : before.loop.canIterate = true)
    : Iterated deps input (before.loop.iterations.length + 1)
        (deps.iteration (before.loop.iterations.length + 1)) before
        (exitAt deps input (before.loop.iterations.length + 1)) (iterate deps input before) := by
  unfold exitAt
  generalize asked : before.loop.iterations.length + 1 = iterationIndex
  obtain ⟨started, starts, opened⟩ :=
    @startFix_spec deps input iterationIndex before (deps.iteration iterationIndex) closed goes
  unfold iterate
  rw [asked]
  simp only [starts]
  change Iterated deps input iterationIndex (deps.iteration iterationIndex) before _
    (if _ then _ else _)
  by_cases succeeded : (deps.iteration iterationIndex).fix.agentOutcome = .success
  case neg =>
    obtain ⟨closed, completed, facts⟩ :=
      (opened.rollBack (deps.iteration iterationIndex)).close (deps.iteration iterationIndex)
        .failed none
    unfold exitOf
    rw [if_pos succeeded, if_pos succeeded]
    refine ⟨closed, ?_, facts⟩
    simp only [completed]
    rfl
  case pos =>
    rw [if_neg (by simpa using succeeded)]
    cases failure : boundaryFailure deps input (deps.iteration iterationIndex) with
    | none => exact afterVerdict_spec opened succeeded failure
    | some failure' =>
        unfold exitOf
        rw [if_neg (by simpa using succeeded), if_pos (by simp [failure])]
        exact afterBoundaryFailure_spec failure' opened

end Rounds

section Runs

variable {deps : ValidateFixLoopDeps} {input : ValidateFixLoopInput}

/-- The calls of the iterations up to a number, told by their exits. -/
def rollbacksOf (deps : ValidateFixLoopDeps) (input : ValidateFixLoopInput) (count : Nat)
    : List (ValidateFixStepContext × String) :=
  (List.range count).flatMap fun position =>
    if (exitAt deps input (position + 1)).rollsBack then
      rollbackOf deps input (position + 1) (deps.iteration (position + 1))
    else []

def revalidationsOf (deps : ValidateFixLoopDeps) (input : ValidateFixLoopInput) (count : Nat)
    : List ValidateFixStepContext :=
  (List.range count).flatMap fun position =>
    if (exitAt deps input (position + 1)).revalidates then
      [context deps input (position + 1)]
    else []

/-- The iterations and the calls are those of the exits so far. -/
structure Accounts (deps : ValidateFixLoopDeps) (input : ValidateFixLoopInput) (loop : Loop)
    (calls : List ValidateFixCall)
    : Prop where
  limit : loop.maxIterations = input.maxIterations
  limited : loop.iterations.length ≤ input.maxIterations
  recorded
    : ∀ position iteration, loop.iterations[position]? = some iteration →
      iteration.outcome = some (exitAt deps input (position + 1)).outcome
        ∧ iteration.completedAt.isSome = true
  stored : storedLoop calls = some loop
  fixes
    : calls.filterMap (·.fix?)
      = (List.range loop.iterations.length).map fun position => context deps input (position + 1)
  rollbacks : calls.filterMap (·.rollback?) = rollbacksOf deps input loop.iterations.length
  revalidations
    : calls.filterMap (·.revalidation?) = revalidationsOf deps input loop.iterations.length
  continued
    : ∀ position, position + 1 < loop.iterations.length →
      (exitAt deps input (position + 1)).flow = .goOn

/-- The status of the loop after so many iterations. -/
def statusAfter (deps : ValidateFixLoopDeps) (input : ValidateFixLoopInput) (count : Nat)
    : LoopStatus :=
  if count = 0 then .running else (exitAt deps input count).outcome.status

/-- The loop has left its last iteration, or goes on. -/
structure Paused (deps : ValidateFixLoopDeps) (input : ValidateFixLoopInput)
    (state : ValidateFixState)
    : Prop where
  accounts : Accounts deps input state.loop state.calls
  status : state.loop.status = statusAfter deps input state.loop.iterations.length

/-- The last iteration goes on as well. -/
structure Ongoing (deps : ValidateFixLoopDeps) (input : ValidateFixLoopInput)
    (state : ValidateFixState)
    : Prop extends Paused deps input state where
  goesOn
    : state.loop.iterations.length ≠ 0 →
      (exitAt deps input state.loop.iterations.length).flow = .goOn

theorem Accounts.openIteration {loop : Loop} {calls : List ValidateFixCall}
    (accounts : Accounts deps input loop calls)
    : loop.openIteration = none := by
  cases opened : loop.openIteration with
  | none => rfl
  | some iteration =>
      obtain ⟨earlier, split, incomplete⟩ := openIteration_eq_some.mp opened
      have listed : loop.iterations[earlier.length]? = some iteration := by simp [split]
      have complete := (accounts.recorded _ _ listed).2
      simp [incomplete] at complete

/-- A round keeps the accounts, with one more iteration in them. -/
theorem Ongoing.round {state after : ValidateFixState} (ongoing : Ongoing deps input state)
    (below : state.loop.iterations.length < input.maxIterations)
    (closed
      : Closed deps input (state.loop.iterations.length + 1) state
          (exitAt deps input (state.loop.iterations.length + 1)).outcome
          (if (exitAt deps input (state.loop.iterations.length + 1)).rollsBack then
            rollbackOf deps input (state.loop.iterations.length + 1)
              (deps.iteration (state.loop.iterations.length + 1))
          else [])
          (if (exitAt deps input (state.loop.iterations.length + 1)).revalidates then
            [context deps input (state.loop.iterations.length + 1)]
          else [])
          after.loop after.calls)
    : Paused deps input after := by
  obtain ⟨iteration, outcome, complete, grown⟩ := closed.iterations
  have accounts := ongoing.accounts
  have length : after.loop.iterations.length = state.loop.iterations.length + 1 := by simp [grown]
  refine ⟨⟨?_, ?_, ?_, closed.stored, ?_, ?_, ?_, ?_⟩, ?_⟩
  · rw [closed.limit, accounts.limit]
  · rw [length]
    push_cast
    omega
  · intro position found listed
    rw [grown] at listed
    by_cases before : position < state.loop.iterations.length
    · rw [List.getElem?_append_left before] at listed
      exact accounts.recorded position found listed
    · rw [List.getElem?_append_right (by omega), List.getElem?_singleton] at listed
      by_cases here : position - state.loop.iterations.length = 0
      · rw [if_pos here] at listed
        obtain rfl := Option.some.inj listed
        obtain rfl : position = state.loop.iterations.length := by omega
        exact ⟨outcome, complete⟩
      · simp [here] at listed
  · rw [closed.adds.fixes, accounts.fixes, length, List.range_succ, List.map_append]
    rfl
  · rw [closed.adds.rollbacks, accounts.rollbacks, length, rollbacksOf, rollbacksOf,
      List.range_succ, List.flatMap_append]
    simp
  · rw [closed.adds.revalidations, accounts.revalidations, length, revalidationsOf,
      revalidationsOf, List.range_succ, List.flatMap_append]
    simp
  · intro position earlier
    by_cases last : position + 1 < state.loop.iterations.length
    · exact accounts.continued position last
    · obtain same : position + 1 = state.loop.iterations.length := by omega
      rw [same]
      exact ongoing.goesOn (by omega)
  · rw [closed.status, length]
    rfl

/-- The loop ends after enough rounds with its accounts kept, by the total rule of loops. -/
theorem loop_paused {state : ValidateFixState} (ongoing : Ongoing deps input state) {bound : Nat}
    (enough : input.maxIterations.toNat ≤ bound)
    : ∃ final, whileLoop (fun state => state.loop.canIterate) (iterate deps input) bound state
          = some (.ok final)
        ∧ Paused deps input final := by
  have rounds (state : ValidateFixState) (ongoing : Ongoing deps input state)
      (goes : state.loop.canIterate = true)
      : ∃ flow after, iterate deps input state = .ok (flow, after)
        ∧ flow.Keeps (Ongoing deps input) (Paused deps input)
            (fun state => input.maxIterations.toNat - state.loop.iterations.length)
            state after := by
    have below : state.loop.iterations.length < input.maxIterations := by
      have limit := ongoing.accounts.limit
      have bounded : state.loop.status = .running
          ∧ state.loop.iterations.length < state.loop.maxIterations := by
        simpa [Loop.canIterate] using goes
      omega
    obtain ⟨after, ran, closed⟩ :=
      @iterate_spec deps input state ongoing.accounts.openIteration goes
    have paused := ongoing.round below closed
    refine ⟨_, after, ran, ?_⟩
    obtain ⟨iteration, -, -, grown⟩ := closed.iterations
    have length : after.loop.iterations.length = state.loop.iterations.length + 1 := by
      simp [grown]
    cases flow : (exitAt deps input (state.loop.iterations.length + 1)).flow with
    | leave => exact paused
    | goOn =>
        refine ⟨⟨paused, fun _ => by rw [length]; exact flow⟩, ?_⟩
        beta_reduce
        rw [length]
        omega
  apply whileLoop_ensures rounds
  · intro state ongoing goes
    have limit := ongoing.accounts.limit
    have bounded : state.loop.status = .running
        ∧ state.loop.iterations.length < state.loop.maxIterations := by
      simpa [Loop.canIterate] using goes
    omega
  · exact fun state ongoing _ => ongoing.toPaused
  · exact ongoing
  · omega

end Runs

end AiSdlc.Application.ValidateFixLoop
