import AiSdlc.Application.Ports
import AiSdlc.Js.TextOperations

/-! The sweep over the waiting runs: it lists them once and then looks up the pull request of
each one, which ends, reactivates or times out the run. The decision is applied to the run that
was listed, and written to the row that is stored by then.
-/

namespace AiSdlc.Application

open AiSdlc.Js
open AiSdlc.Domain
open AiSdlc.Async
open AiSdlc.Sqlite

/-- What the sweep catches: a `RunStateError`, or another value with its message and its
text.
-/
inductive SweepError
  | runState (message : String)
  | other (message text : String)
  deriving DecidableEq, Repr

/-- `err instanceof Error ? err.message : String(err)`. -/
def SweepError.message : SweepError → String
  | runState message => message
  | other message _ => message

/-- `String(err)`. -/
def SweepError.text : SweepError → String
  | runState message => s!"RunStateError: {message}"
  | other _ text => text

/-- An event of a run with its metadata. -/
structure ReactivationEvent where
  runId : String
  phase : String
  level : EventLevel
  type : String
  message : String
  timestamp : String
  metadata : List (String × String)
  deriving DecidableEq, Repr

inductive ReactivationAction
  | reactivate
  | stayReady
  | timeout
  deriving DecidableEq, Repr

structure ReactivationDecision where
  action : ReactivationAction
  reason : String
  deriving DecidableEq, Repr

structure ReactivationDecisionInput where
  readyAt : Date
  now : Date
  readyMaxDays : Int
  lastSeenActivityAt : Date
  newestCommentAt : Date

/-- `decideReactivation`: new activity wins over the deadline. -/
def decideReactivation (input : ReactivationDecisionInput) : ReactivationDecision :=
  if input.lastSeenActivityAt < input.newestCommentAt then
    { action := .reactivate, reason := "new review activity since READY" }
  else if input.readyAt.ms + input.readyMaxDays * 24 * 60 * 60 * 1000 < input.now.ms then
    { action := .timeout, reason := s!"readyMaxDays ({input.readyMaxDays}) exceeded" }
  else
    { action := .stayReady, reason := "no new activity, within deadline" }

/-- The calls of `applyReactivation`. -/
inductive ApplyRequest
  | now
  | updateRun (uuid : String) (patch : RunRepositoryUpdatePatch)
  | publish (runUuid : String) (event : ReactivationEvent)

abbrev ApplyRequest.Answer : ApplyRequest → Type
  | now => Date
  | updateRun _ _ => Unit
  | publish _ _ => Unit

abbrev ApplyRequest.Reply (request : ApplyRequest) : Type :=
  Except SweepError request.Answer

/-- The statements of `applyReactivation`, which awaits nothing. -/
abbrev ApplyStatements (α : Type) : Type :=
  Block ApplyRequest.Answer Unit SweepError Empty α

namespace ApplyReactivation

def call (request : ApplyRequest) : ApplyStatements request.Answer :=
  Block.call request

/-- A domain operation, which throws a `RunStateError`. -/
def check {α : Type} (checked : Except String α) : ApplyStatements α :=
  match checked with
  | .ok value => pure value
  | .error message => Block.throw (.runState message)

/-- The event of a decision that was written. -/
def publishDecision (run : Run) (level : EventLevel) (type reason : String)
    : ApplyStatements Unit := do
  let timestamp ← call .now
  call (.publish run.uuid {
    runId := run.uuid
    phase := "post-pr-review"
    level
    type
    message := reason
    timestamp := Date.toISOString timestamp
    metadata := [("reason", reason)]
  })

/-- The columns that a timeout writes. -/
def timeoutPatch (next : Run) : RunRepositoryUpdatePatch :=
  {
    status := some next.status
    completedAt := next.completedAt.map some
    failureReason := (truthy next.failureReason).map some
  }

def applyReactivation (run : Run) (decision : ReactivationDecision) : ApplyStatements Run :=
  match decision.action with
  | .reactivate => do
      let next ← check (reactivate run)
      call (.updateRun run.uuid { status := some (Run.status next) })
      publishDecision run .info "post-pr-review.run.reactivated" decision.reason
      pure next
  | .timeout => do
      let now ← call .now
      let next ← check (cancelRun run (some decision.reason) now)
      call (.updateRun run.uuid (timeoutPatch next))
      publishDecision run .warn "post-pr-review.run.timed_out" decision.reason
      pure next
  | .stayReady => pure run

end ApplyReactivation

structure PrContext where
  repoFullName : String
  prNumber : Int
  deriving DecidableEq, Repr

/-- The calls of the sweep. The comments of a pull request are answered by the times at which
they were created, and the latest poll attempt by the time at which it started.
-/
inductive SweepRequest
  | now
  | findActiveRuns
  | resolvePrContext (run : Run)
  | getPr (repoFullName : String) (prNumber : Int)
  | listReviewComments (repoFullName : String) (prNumber : Int)
  | latestPollAttempt (runUuid : String)
  | applyReactivation (run : Run) (decision : ReactivationDecision)
  | atomicUpdateRun (uuid : String) (patch : RunRepositoryUpdatePatch)
      (expectedStatus : RunStatus)
  | publish (runUuid : String) (event : ReactivationEvent)
  | notify (event : RunTerminalNotification)

abbrev SweepRequest.Answer : SweepRequest → Type
  | now => Date
  | findActiveRuns => List Run
  | resolvePrContext _ => Option PrContext
  | getPr _ _ => PrState
  | listReviewComments _ _ => List Date
  | latestPollAttempt _ => Option Date
  | applyReactivation _ _ => Unit
  | atomicUpdateRun _ _ _ => Bool
  | publish _ _ => Unit
  | notify _ => Unit

abbrev SweepRequest.Reply (request : SweepRequest) : Type :=
  Except SweepError request.Answer

/-- The settings of the sweep. The composition root either applies every decision, or leaves
reactivations for new review activity to the job that is enqueued afterwards.
-/
structure SweepWaitingRunsDeps where
  readyMaxDays : Int
  runNotification : Bool
  defersReactivation : Bool
  deriving DecidableEq, Repr

def ReactivationDecision.isFinalization (decision : ReactivationDecision) : Bool :=
  decision.action = .reactivate
  && (includes decision.reason "PR merged" || includes decision.reason "PR closed")

/-- `isGenuineReactivation`, where the composition root defers it. -/
def SweepWaitingRunsDeps.defers (deps : SweepWaitingRunsDeps) (decision : ReactivationDecision)
    : Bool :=
  deps.defersReactivation && decision.action = .reactivate && !decision.isFinalization

/-- `deps.applyReactivation`, as the composition root wires it. -/
def SweepWaitingRunsDeps.applyReactivation (deps : SweepWaitingRunsDeps) (run : Run)
    (decision : ReactivationDecision)
    : ApplyStatements Unit :=
  if deps.defers decision then
    pure ()
  else do
    let _ ← ApplyReactivation.applyReactivation run decision
    pure ()

structure ReactivatedRun where
  run : Run
  reason : String
  deriving DecidableEq, Repr

structure RunSweepError where
  runId : String
  error : String
  deriving DecidableEq, Repr

structure SweepWaitingRunsResult where
  scanned : Nat := 0
  reactivated : Nat := 0
  reactivatedRuns : List ReactivatedRun := []
  timedOut : Nat := 0
  passedOnMergedPr : Nat := 0
  cancelledOnClosedPr : Nat := 0
  stayedReady : Nat := 0
  skipped : Nat := 0
  errors : List RunSweepError := []
  deriving DecidableEq, Repr

/-- The statements of the sweep, which share its result. -/
abbrev SweepStatements (α : Type) : Type :=
  Block SweepRequest.Answer SweepWaitingRunsResult SweepError SweepWaitingRunsResult α

namespace SweepWaitingRuns

variable (deps : SweepWaitingRunsDeps)

def call (request : SweepRequest) : SweepStatements request.Answer :=
  Block.call request

/-- `result.errors.push(…)`. -/
def pushError (run : Run) (error : String) : SweepStatements Unit :=
  Block.assign fun result =>
    { result with errors := result.errors ++ [{ runId := run.uuid, error }] }

/-- An event of the sweep, at the time that is given. -/
def publishAt (run : Run) (level : EventLevel) (type message : String) (publishedAt : Date)
    (metadata : List (String × String))
    : SweepStatements Unit :=
  call (.publish run.uuid {
    runId := run.uuid
    phase := "post-pr-review"
    level
    type
    message
    timestamp := Date.toISOString publishedAt
    metadata
  })

/-- An event of the sweep, at the current time. -/
def publishNow (run : Run) (level : EventLevel) (type message : String)
    (metadata : List (String × String))
    : SweepStatements Unit := do
  let publishedAt ← call .now
  publishAt run level type message publishedAt metadata

/-- The event of an error of the sweep. -/
def publishError (run : Run) (message : String) (error : SweepError) : SweepStatements Unit :=
  publishNow run .error "post-pr-review.sweep.error" message [("error", error.text)]

/-- `safeDispatchRunNotification`, which does not throw. -/
def safeDispatchRunNotification (event : RunTerminalNotification) : SweepStatements Unit :=
  Block.attempt (call (.notify event)) fun _ => pure ()

/-- A call that the sweep reports when it fails, and then goes on with the next run. -/
def lookUp {α : Type} (run : Run) (failed : String) (statements : SweepStatements α)
    : SweepStatements (Option α) :=
  Block.attempt
    (do
      let value ← statements
      pure (some value))
    fun error => do
      pushError run s!"{failed}: {error.message}"
      publishError run s!"sweep error: {failed}" error
      pure none

/-- The first branch of the sweep. -/
def finishMerged (run : Run) : SweepStatements Unit :=
  Block.attempt
    (do
      call (.applyReactivation run
        { action := .reactivate, reason := "PR merged — finalizing run" })
      let mergedAt ← call .now
      let updated ← call (.atomicUpdateRun run.uuid
        { status := some .passed, completedAt := some (some mergedAt) } .running)
      Block.ifThen updated do
        publishAt run .info "post-pr-review.run.passed" "PR merged — run passed" mergedAt
          [("reason", "pr_merged")]
        Block.ifThen deps.runNotification
          (safeDispatchRunNotification {
            status := .passed
            repoId := run.repoId
            issueNumber := run.issueNumber
            displayId := run.displayId
          })
        Block.assign fun result =>
          { result with passedOnMergedPr := result.passedOnMergedPr + 1 })
    fun error => pushError run s!"merge handling failed: {error.message}"

/-- The second branch of the sweep. -/
def finishClosed (run : Run) : SweepStatements Unit :=
  Block.attempt
    (do
      call (.applyReactivation run
        { action := .reactivate, reason := "PR closed — finalizing run" })
      let closedAt ← call .now
      let updated ← call (.atomicUpdateRun run.uuid
        {
          status := some .cancelled
          completedAt := some (some closedAt)
          failureReason := some (some "PR closed")
        } .running)
      Block.ifThen updated do
        publishAt run .warn "post-pr-review.run.cancelled" "PR closed — run cancelled" closedAt
          [("reason", "pr_closed")]
        Block.assign fun result =>
          { result with cancelledOnClosedPr := result.cancelledOnClosedPr + 1 })
    fun error => pushError run s!"close handling failed: {error.message}"

/-- The newest of the comments and the time that the search starts from. -/
def newestCommentAt (readyAt : Date) (comments : List Date) : Date :=
  comments.foldl (fun newest createdAt => if newest < createdAt then createdAt else newest)
    readyAt

/-- What the result counts for a decision that was applied. -/
def countDecision (run : Run) (decision : ReactivationDecision) (result : SweepWaitingRunsResult)
    : SweepWaitingRunsResult :=
  match decision.action with
  | .reactivate =>
      {
        result with
        reactivated := result.reactivated + 1
        reactivatedRuns := result.reactivatedRuns ++ [{ run, reason := decision.reason }]
      }
  | .timeout => { result with timedOut := result.timedOut + 1 }
  | .stayReady => { result with stayedReady := result.stayedReady + 1 }

/-- The last branch of the sweep, for a pull request that is open. -/
def applyDecision (run : Run) (decision : ReactivationDecision) : SweepStatements Unit :=
  Block.attempt
    (do
      call (.applyReactivation run decision)
      Block.assign (countDecision run decision))
    fun
      | .runState message => do
          pushError run s!"concurrent_status_change: {message}"
          publishNow run .warn "post-pr-review.sweep.skipped"
            "sweep skipped: concurrent status change" [("reason", "concurrent_status_change")]
      | error => do
          pushError run s!"applyReactivation failed: {error.message}"
          publishError run "sweep error: applyReactivation failed" error

/-- The decision for a run whose pull request is open. -/
def decide (run : Run) (comments : List Date) : SweepStatements ReactivationDecision := do
  let readyAt := run.completedAt.getD run.startedAt
  let lastAttempt ← call (.latestPollAttempt run.uuid)
  let now ← call .now
  pure (decideReactivation {
    readyAt
    now
    readyMaxDays := deps.readyMaxDays
    lastSeenActivityAt := Option.getD lastAttempt run.startedAt
    newestCommentAt := newestCommentAt readyAt comments
  })

/-- The sweep of a run whose pull request is known. -/
def sweepPullRequest (run : Run) (context : PrContext) : SweepStatements Unit := do
  let detail ←
    lookUp run "github.getPr failed" (call (.getPr context.repoFullName context.prNumber))
  match detail with
  | none => pure ()
  | some .merged => finishMerged deps run
  | some .closed => finishClosed run
  | some .open_ => do
      let comments ← lookUp run "listReviewComments failed"
        (call (.listReviewComments context.repoFullName context.prNumber))
      match comments with
      | none => pure ()
      | some comments => do
          let decision ← decide deps run comments
          applyDecision run decision

/-- The body of the loop over the waiting runs. -/
def sweepRun (run : Run) : SweepStatements Unit := do
  Block.assign fun result => { result with scanned := result.scanned + 1 }
  Block.attempt
    (do
      let context ← call (.resolvePrContext run)
      match context with
      | none => do
          Block.assign fun result => { result with skipped := result.skipped + 1 }
          publishNow run .warn "post-pr-review.sweep.skipped"
            "sweep skipped: PR context unresolved" [("reason", "pr_context_unresolved")]
      | some context => sweepPullRequest deps run context)
    fun error => do
      pushError run error.message
      publishError run "sweep error: unexpected" error

/-- `SweepWaitingRuns.execute`. -/
def execute : SweepStatements SweepWaitingRunsResult := do
  let active ← call .findActiveRuns
  let waiting := List.filter (fun run : Run => run.status = .waiting) active
  Block.forEach waiting (sweepRun deps)
  Block.locals

end SweepWaitingRuns

end AiSdlc.Application
