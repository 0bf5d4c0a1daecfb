import AiSdlc.Application.AgentRuntimeRouter
import AiSdlc.Application.GitStatus
import AiSdlc.Application.TaskFileBoundaries
import AiSdlc.Domain.Loop
import AiSdlc.Transition.While

/-! The loop that has an agent fix what a validation found. Every round runs the fix, checks the
boundaries of the changes, validates them again, and closes its iteration one way or another.
-/

namespace AiSdlc.Application

open AiSdlc.Js
open AiSdlc.Domain
open AiSdlc.Transition

structure TaskFileSets where
  writableSet : List String
  referenceSet : List String
  deriving DecidableEq, Repr

def getManifestBoundaries (manifest : Option ManifestRecord) : TaskFileSets :=
  let scopes := ((manifest.bind (·.tasks)).getD []).map resolveEffectiveTaskScope
  {
    writableSet :=
      normalizedPaths (scopes.flatMap fun scope => scope.requiredFiles ++ scope.mayExtendFiles)
    referenceSet := normalizedPaths (scopes.flatMap (·.referenceFiles))
  }

def classifyUndeclaredFiles (committedFiles writableFiles referenceFiles exemptFiles : List String)
    : TaskBoundaryClassification :=
  let undeclared := sortTexts ((normalizedPaths committedFiles).filter fun file =>
    file ∉ writableFiles && file ∉ exemptFiles && !isOrchestratorArtifactPattern file)
  {
    modifiedReferenceFiles := undeclared.filter (· ∈ referenceFiles)
    undeclaredFiles := undeclared.filter (· ∉ referenceFiles)
  }

inductive ManifestLoadResult
  | found (manifest : Option ManifestRecord)
  | missing (message : String)
  | malformed (message error : String)
  deriving DecidableEq, Repr

structure RevalidationResult where
  validationRunId : String
  passed : Bool
  category : Option String := none
  failureDetail : Option String := none
  deriving DecidableEq, Repr

structure FixStepOptions where
  useFallback : Bool
  deterministicDiagnostic : Option String := none
  allowedFiles : Option (List String) := none
  deriving DecidableEq, Repr

structure ValidateFixStepContext where
  loopId : String
  runId : RunId
  phaseId : PhaseName
  repoId : String
  cwd : String
  iterationIndex : Nat
  deriving DecidableEq, Repr

inductive FixVerdict
  | fixed
  | cannotFix
  | noFixesNeeded
  deriving DecidableEq, Repr

structure ValidateFixAgentResult where
  invocationId : String
  agentOutcome : AgentInvocationOutcome
  verdict : Option FixVerdict := none
  headBeforeFix : Option String := none
  deriving DecidableEq, Repr

structure ValidateFixLoopInput where
  runId : RunId
  phaseId : PhaseName
  repoId : String
  cwd : String
  maxIterations : Int
  fixProfile : String
  fixFallbackProfile : Option String := none
  scopeContractEnforcement : Option Bool := none
  deriving DecidableEq, Repr

/-- What the ports answer in one iteration, which makes each of these calls at most once; those
of the git port may throw.
-/
structure IterationReplies where
  fix : ValidateFixAgentResult
  headCommitSha : Except String String
  changedFiles : Except String (List String)
  status : Except String String
  newId : String
  rollbackFix : Bool
  runRevalidation : RevalidationResult
  startedAt : Date
  completedAt : Date

/-- The ports with their answers, by the number of the iteration; the git port and `rollbackFix`
may be missing.
-/
structure ValidateFixLoopDeps where
  loopId : String
  createdAt : Date
  exhaustedAt : Date
  loadManifest : ManifestLoadResult
  hasGit : Bool
  hasRollbackFix : Bool
  iteration : Nat → IterationReplies
  -- `decode` is that of a `TextDecoder` for UTF-8.
  decode : List Nat → String
  localeCompare : String → String → Int

structure ValidateFixEvent where
  level : EventLevel
  type : String
  message : String
  deriving DecidableEq, Repr

/-- The calls of the ports that change something. -/
inductive ValidateFixCall
  | insert (loop : Loop)
  | update (loop : Loop)
  | publish (event : ValidateFixEvent)
  | runFix (ctx : ValidateFixStepContext) (opts : FixStepOptions)
  | rollbackFix (ctx : ValidateFixStepContext) (targetSha : String)
  | runRevalidation (ctx : ValidateFixStepContext)
  deriving DecidableEq, Repr

/-- The variables of the loop, with the calls that were made. -/
structure ValidateFixState where
  loop : Loop
  consecutiveFixFailures : Nat := 0
  nextDeterministicDiagnostic : Option String := none
  calls : List ValidateFixCall
  deriving DecidableEq, Repr

inductive ValidateFixPhaseOutcome
  | passed
  | failed
  deriving DecidableEq, Repr

structure ValidateFixLoopResult where
  loop : Loop
  phaseOutcome : ValidateFixPhaseOutcome
  calls : List ValidateFixCall
  deriving DecidableEq, Repr

namespace ValidateFixState

def log (state : ValidateFixState) (calls : List ValidateFixCall) : ValidateFixState :=
  { state with calls := state.calls ++ calls }

def emit (state : ValidateFixState) (type : String) (level : EventLevel) (message : String)
    : ValidateFixState :=
  state.log [.publish { level, type, message }]

/-- `deps.loops.update(loop)`. -/
def store (state : ValidateFixState) (loop : Loop) : ValidateFixState :=
  { state with loop, calls := state.calls ++ [.update loop] }

end ValidateFixState

def outcomeText : LoopIterationOutcome → String
  | .resolved => "resolved"
  | .fixed => "fixed"
  | .unresolved => "unresolved"
  | .failed => "failed"
  | .fixFailed => "fix_failed"
  | .revalidationFailed => "revalidation_failed"

namespace ValidateFixLoop

variable (deps : ValidateFixLoopDeps) (input : ValidateFixLoopInput)

/-- The declared files, where a manifest was found that declares any. -/
def allowedFiles : Option (List String) :=
  match deps.loadManifest with
  | .found manifest =>
      let boundaries := getManifestBoundaries manifest
      if boundaries.writableSet.length > 0 then some (sortTexts boundaries.writableSet) else none
  | _ => none

def context (iterationIndex : Nat) : ValidateFixStepContext where
  loopId := deps.loopId
  runId := input.runId
  phaseId := input.phaseId
  repoId := input.repoId
  cwd := input.cwd
  iterationIndex := iterationIndex

-----------------------------------------------------------------------------------------
-- The boundaries of a fix
-----------------------------------------------------------------------------------------

/-- The files that were committed since the fix began, or are not committed. -/
def changedFilesSince (replies : IterationReplies) (headBeforeFix : String)
    : Except String (List String) := do
  let currentHead ← replies.headCommitSha
  let committedFiles ←
    if currentHead ≠ headBeforeFix then replies.changedFiles else Except.ok []
  let statusOutput ← replies.status
  pure (committedFiles ++ uncommittedSourcePaths deps.decode statusOutput).eraseDups

/-- Changed files are classified by the contracts of the tasks, unless these are not enforced. -/
def classification (manifest : Option ManifestRecord) (changedFiles : List String)
    : TaskBoundaryClassification :=
  if input.scopeContractEnforcement.getD true then
    checkTaskBoundaries deps.localeCompare changedFiles manifest []
  else
    let boundaries := getManifestBoundaries manifest
    classifyUndeclaredFiles changedFiles boundaries.writableSet boundaries.referenceSet []

structure BoundaryFailure where
  files : Option (List String) := none
  message : String
  deriving DecidableEq, Repr

def checkFailed (errorMsg : String) : BoundaryFailure where
  message := s!"task boundary check failed: {errorMsg}"

/-- What is wrong with the files that were changed. -/
def boundaryFailureOf (changedFiles : List String) : Option BoundaryFailure :=
  if changedFiles.length > 0 then
    match deps.loadManifest with
    | .missing _ => some (checkFailed "task-manifest.json not found")
    | .malformed message _ => some (checkFailed message)
    | .found manifest =>
        let classified := classification deps input manifest changedFiles
        let violatingFiles := classified.modifiedReferenceFiles ++ classified.undeclaredFiles
        if violatingFiles.length > 0 then
          let told := joinTexts ", " violatingFiles
          some {
            files := some violatingFiles
            message := s!"{input.phaseId} modified undeclared files: {told}"
          }
        else none
  else none

/-- `boundaryFailure`, which is only looked for with a git port and a reported head. -/
def boundaryFailure (replies : IterationReplies) : Option BoundaryFailure :=
  match truthy replies.fix.headBeforeFix with
  | some headBeforeFix =>
      if deps.hasGit then
        match changedFilesSince deps replies headBeforeFix with
        | .ok changedFiles => boundaryFailureOf deps input changedFiles
        | .error errorMsg => some (checkFailed errorMsg)
      else none
  | none => none

/-- The event of a boundary failure: files were named, or the check failed. -/
def emitBoundaryFailure (failure : BoundaryFailure) (state : ValidateFixState)
    : ValidateFixState :=
  match failure.files with
  | some _ => state.emit "task_boundary.violated" .warn failure.message
  | none => state.emit "task_boundary.check_failed" .warn failure.message

-----------------------------------------------------------------------------------------
-- An iteration
-----------------------------------------------------------------------------------------

/-- The iteration is completed, stored and told. -/
def close (iterationIndex : Nat) (replies : IterationReplies) (outcome : LoopIterationOutcome)
    (revalidationId : Option String) (state : ValidateFixState)
    : Except String ValidateFixState := do
  let loop ← completeIteration state.loop {
    outcome
    fixInvocationId := some replies.fix.invocationId
    revalidationId
    now := replies.completedAt
  }
  let told := outcomeText outcome
  pure ((state.store loop).emit "loop.iteration.completed" .info
    s!"iteration {iterationIndex} completed: {told}")

/-- The head to roll back to: `fix.headBeforeFix && deps.rollbackFix`. -/
def restorable (replies : IterationReplies) : Option String :=
  if deps.hasRollbackFix then truthy replies.fix.headBeforeFix else none

/-- `if (fix.headBeforeFix && deps.rollbackFix) await deps.rollbackFix(…)`. -/
def rollBack (iterationIndex : Nat) (replies : IterationReplies) (state : ValidateFixState)
    : ValidateFixState :=
  match restorable deps replies with
  | some headBeforeFix =>
      state.log [.rollbackFix (context deps input iterationIndex) headBeforeFix]
  | none => state

/-- A rollback was made, and did not succeed. -/
def rollbackFailed (replies : IterationReplies) : Bool :=
  (restorable deps replies).isSome && !replies.rollbackFix

def emitRollbackFailed (iterationIndex : Nat) (state : ValidateFixState) : ValidateFixState :=
  state.emit "loop.rollback.failed" .error
    s!"rollback failed on iteration {iterationIndex}, breaking loop"

/-- The event before the fix, and the fix itself, which starts the iteration. -/
def startFix (iterationIndex : Nat) (replies : IterationReplies) (state : ValidateFixState)
    : Except String ValidateFixState := do
  let started := state.emit "loop.iteration.started" .info
    s!"validate-fix iteration {iterationIndex} started"
  let useFallback := 2 ≤ state.consecutiveFixFailures && input.fixFallbackProfile.isSome
  let escalated :=
    match input.fixFallbackProfile with
    | some toProfile =>
        if useFallback then
          started.emit "phase.fallback.escalated" .warn s!"escalating fix to {toProfile}"
        else started
    | none => started
  let fixOpts : FixStepOptions := {
    useFallback
    deterministicDiagnostic := truthy state.nextDeterministicDiagnostic
    allowedFiles := allowedFiles deps
  }
  let fixed := escalated.log [.runFix (context deps input iterationIndex) fixOpts]
  let loop ← startIteration state.loop (.review replies.fix.invocationId replies.startedAt)
  pure ({ fixed with nextDeterministicDiagnostic := none }.store loop)

/-- A boundary failure is a failed revalidation: it is rolled back, and told to the next fix. -/
def afterBoundaryFailure (iterationIndex : Nat) (replies : IterationReplies)
    (failure : BoundaryFailure) (state : ValidateFixState)
    : Except String (Flow × ValidateFixState) := do
  let told := emitBoundaryFailure failure state
  let rolledBack := rollBack deps input iterationIndex replies told
  if rollbackFailed deps replies then
    let closed ← close iterationIndex replies .failed none
      (emitRollbackFailed iterationIndex rolledBack)
    return (.leave, closed)
  else
    let closed ← close iterationIndex replies .revalidationFailed (some replies.newId) rolledBack
    if (restorable deps replies).isNone then
      return (.leave, closed)
    else
      return (.goOn, {
        closed with
        consecutiveFixFailures := 0
        nextDeterministicDiagnostic := some failure.message
      })

/-- The agent found nothing to fix: the validation decides. -/
def afterNoFixesNeeded (iterationIndex : Nat) (replies : IterationReplies)
    (state : ValidateFixState)
    : Except String (Flow × ValidateFixState) := do
  let revalidated := state.log [.runRevalidation (context deps input iterationIndex)]
  let reval := replies.runRevalidation
  if reval.passed then
    let closed ← close iterationIndex replies .resolved (some reval.validationRunId) revalidated
    return (.leave, closed)
  else
    let closed ← close iterationIndex replies .unresolved none revalidated
    return (.goOn, closed)

/-- The agent fixed something, which is rolled back where the validation fails. -/
def afterFixed (iterationIndex : Nat) (replies : IterationReplies) (state : ValidateFixState)
    : Except String (Flow × ValidateFixState) := do
  let revalidated := { state with consecutiveFixFailures := 0 }.log
    [.runRevalidation (context deps input iterationIndex)]
  let reval := replies.runRevalidation
  if reval.passed then
    let closed ← close iterationIndex replies .resolved (some reval.validationRunId) revalidated
    return (.leave, closed)
  else
    let told :=
      if (truthy replies.fix.headBeforeFix).isNone && deps.hasRollbackFix then
        revalidated.emit "loop.rollback.unavailable" .error
          (s!"revalidation failed on iteration {iterationIndex} but headBeforeFix not set"
            ++ " — cannot roll back")
      else revalidated
    let rolledBack := rollBack deps input iterationIndex replies told
    if rollbackFailed deps replies then
      let closed ← close iterationIndex replies .failed none
        (emitRollbackFailed iterationIndex rolledBack)
      return (.leave, closed)
    else
      let closed ← close iterationIndex replies .revalidationFailed (some reval.validationRunId)
        rolledBack
      return (if (restorable deps replies).isNone then .leave else .goOn, closed)

/-- The verdicts of an agent whose changes stay within the boundaries. -/
def afterVerdict (iterationIndex : Nat) (replies : IterationReplies) (state : ValidateFixState)
    : Except String (Flow × ValidateFixState) := do
  match replies.fix.verdict with
  | some .noFixesNeeded => afterNoFixesNeeded deps input iterationIndex replies state
  | none =>
      let told := state.emit "loop.verdict_missing" .warn
        s!"fix agent returned undefined verdict on iteration {iterationIndex}, breaking loop"
      let closed ← close iterationIndex replies .failed none told
      return (.leave, closed)
  | some .cannotFix =>
      let counted :=
        { state with consecutiveFixFailures := state.consecutiveFixFailures + 1 }
      let closed ← close iterationIndex replies .fixFailed none counted
      return (.goOn, closed)
  | some .fixed => afterFixed deps input iterationIndex replies state

/-- The body of the loop. -/
def iterate (state : ValidateFixState) : Except String (Flow × ValidateFixState) := do
  let iterationIndex := state.loop.iterations.length + 1
  let replies := deps.iteration iterationIndex
  let started ← startFix deps input iterationIndex replies state
  if replies.fix.agentOutcome ≠ .success then
    let rolledBack := rollBack deps input iterationIndex replies started
    let closed ← close iterationIndex replies .failed none rolledBack
    return (.leave, closed)
  else
    match boundaryFailure deps input replies with
    | some failure => afterBoundaryFailure deps input iterationIndex replies failure started
    | none => afterVerdict deps input iterationIndex replies started

/-- The loop is exhausted where it neither converged nor failed. -/
def finish (state : ValidateFixState) : Except String ValidateFixLoopResult := do
  if state.loop.status = .converged then
    return { loop := state.loop, phaseOutcome := .passed, calls := state.calls }
  else if state.loop.status = .failed then
    return { loop := state.loop, phaseOutcome := .failed, calls := state.calls }
  else
    let loop ← exhaust state.loop deps.exhaustedAt
    let count := loop.iterations.length
    let exhausted := (state.store loop).emit "loop.exhausted" .error
      s!"validate-fix loop exhausted after {count} iterations"
    return { loop, phaseOutcome := .failed, calls := exhausted.calls }

/-- `execute` with at most so many iterations; there is no result where they do not suffice. -/
def executeWithin (bound : Nat) : Except String (Option ValidateFixLoopResult) := do
  let loop ← createLoop {
    id := deps.loopId
    runId := input.runId
    phaseId := input.phaseId
    type := .validateFix
    maxIterations := input.maxIterations
    now := deps.createdAt
  }
  let state : ValidateFixState := { loop, calls := [.insert loop] }
  match whileLoop (fun state => state.loop.canIterate) (iterate deps input) bound state with
  | none => return none
  | some (.error thrown) => throw thrown
  | some (.ok ended) =>
      let result ← finish deps ended
      return some result

end ValidateFixLoop

end AiSdlc.Application
