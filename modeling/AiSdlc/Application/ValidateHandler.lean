import AiSdlc.Application.GitStatus
import AiSdlc.Application.PhaseHandler
import AiSdlc.Application.RevalidationPlan

/-! The choice of the validation commands: the planner narrows them where the changes since the
start commit are known, and everything else runs the full set.
-/

namespace AiSdlc.Application

open AiSdlc.Js
open AiSdlc.Async

/-- A byte that ends a path in the output of `git diff -z`. -/
def nul : Char :=
  Char.ofNat 0

/-- `changedFiles`, from the output of `git diff -z --name-only`. -/
def changedFiles (output : String) : List String :=
  sortTexts (((output.toList.splitOn nul).map fun path =>
    String.ofList (posixChars (trim (.ofList path)))).filter (· ≠ ""))

/-- `review-convergence.json`: an iteration, or anything else. -/
inductive ConvergenceText
  | iteration (iteration : Int)
  | other
  deriving DecidableEq, Repr

inductive ValidateWorkspaceDiscoveryResult
  | success (descriptors : List WorkspacePackageDescriptor)
  | failure (reason : String)
  deriving DecidableEq, Repr

/-- The calls that the choice of the commands makes. -/
inductive PlanRequest
  | headCommitSha
  | changedFiles (base head : String)
  | readConvergence
  | discoverWorkspacePackages
  | now
  | publish (runUuid : String) (event : EventPayload)

abbrev PlanRequest.Answer : PlanRequest → Type
  | headCommitSha => String
  | changedFiles _ _ => List String
  | readConvergence => ConvergenceText
  | discoverWorkspacePackages => ValidateWorkspaceDiscoveryResult
  | now => Date
  | publish _ _ => Unit

abbrev PlanRequest.Reply (request : PlanRequest) : Type :=
  Except HandlerError request.Answer

abbrev PlanStatements (α : Type) : Type :=
  Block PlanRequest.Answer Unit HandlerError Empty α

structure ValidateHandlerOpts where
  commands : List String
  tiers : Option (List (List String)) := none
  commandScopes : List (String × List String) := []
  discoversWorkspacePackages : Bool := true
  deriving DecidableEq, Repr

/-- The commands to run, with the packages of a narrowed plan, which its event tells. -/
structure PlannedCommands where
  commands : List ValidationCommand
  tiers : Option (List (List String))
  narrowedPackages : Option (List String)
  deriving DecidableEq, Repr

namespace ValidateHandler

def call (request : PlanRequest) : PlanStatements request.Answer :=
  Block.call request

section Plan

variable (localeCompare : String → String → Int) (decode : List Nat → String)
  (opts : ValidateHandlerOpts) (ctx : PhaseHandlerContext)

def emit (type : String) (level : EventLevel) (message : String) : PlanStatements Unit := do
  let publishedAt ← call .now
  call (.publish ctx.runUuid
    { runId := ctx.runId, level, type, message, timestamp := Date.toISOString publishedAt })

def fullCommands : PlannedCommands :=
  {
    commands := opts.commands.map .text
    tiers := opts.tiers
    narrowedPackages := none
  }

/-- The iteration of the review loop; the first one where it is not known. -/
def readIteration : PlanStatements Int :=
  Block.attempt
    (do
      let raw ← call .readConvergence
      match raw with
      | .iteration iteration => pure iteration
      | .other => pure 1)
    fun _ => pure 1

/-- `Array.from(new Set([...committed, ...uncommitted]))`. -/
def changedPaths (committed : List String) (statusOutput : String) : List String :=
  (committed ++ uncommittedSourcePaths decode statusOutput).eraseDups

/-- What the planner is asked. -/
def planInput (changedPaths : List String) (iterationIndex : Int)
    (descriptors : List WorkspacePackageDescriptor)
    : PlanRevalidationInput :=
  {
    changedPaths
    iterationIndex
    hasStepBaseline := true
    descriptors
    commands := opts.commands.map .text
    tiers := opts.tiers
    commandScopes := opts.commandScopes
  }

/-- The commands of a plan. -/
def plannedOf : RevalidationPlan → PlannedCommands
  | .full _ commands tiers => { commands, tiers, narrowedPackages := none }
  | .narrow _ narrowedPackages commands tiers =>
      { commands, tiers, narrowedPackages := some narrowedPackages }

/-- `plan.mode`. -/
def planMode : RevalidationPlan → String
  | .full _ _ _ => "full"
  | .narrow _ _ _ _ => "narrow"

/-- The part of `planCommands` that may fail. -/
def narrowCommands (startCommitSha statusOutput : String) : PlanStatements PlannedCommands := do
  let headSha ← call .headCommitSha
  let committed ← call (.changedFiles startCommitSha headSha)
  let iterationIndex ← readIteration
  let discovery ← call .discoverWorkspacePackages
  match discovery with
  | .failure _ => do
      emit ctx "validate.narrowing_skipped" .info "workspace package discovery failed"
      pure (fullCommands opts)
  | .success descriptors => do
      let plan := planRevalidation localeCompare
        (planInput opts (changedPaths decode committed statusOutput) iterationIndex descriptors)
      emit ctx "validate.scope_planned" .info s!"validation scope: {planMode plan}"
      pure (plannedOf plan)

def planCommands (statusOutput : String) : PlanStatements PlannedCommands :=
  match opts.discoversWorkspacePackages, truthy ctx.startCommitSha with
  | true, some startCommitSha =>
      Block.attempt (narrowCommands localeCompare decode opts ctx startCommitSha statusOutput)
        fun _ => do
          emit ctx "validate.narrowing_skipped" .info "falling back to full validation"
          pure (fullCommands opts)
  | _, _ => pure (fullCommands opts)

end Plan

end ValidateHandler

end AiSdlc.Application
