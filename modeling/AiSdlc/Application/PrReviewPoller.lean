import AiSdlc.Application.Ports
import AiSdlc.Domain.PrReviewComment

/-! The poller of review comments: it makes passes over the comments of a pull request until they
are resolved, blocked, polled often enough or overdue. A pass that failed or was limited by rate
does not count, but is followed by a pause.
-/

namespace AiSdlc.Application

open AiSdlc.Js
open AiSdlc.Domain
open AiSdlc.Async

inductive PollStatus
  | running
  | completed
  | failed
  | rateLimited
  deriving DecidableEq, Repr

structure PollAttempt where
  id : String
  pollNumber : Int
  status : PollStatus
  startedAt : Date
  deriving DecidableEq, Repr

structure PollPassResult where
  outcome : String
  processed : Int
  blocked : Int
  allResolved : Bool
  rateLimited : Bool
  deriving DecidableEq, Repr

inductive PollerTerminalState
  | allResolved
  | maxPollsReached
  | blocked
  | timedOut
  | cancelled
  deriving DecidableEq, Repr

/-- What `recordTerminalState` is called with: a state, with the time of the next poll of a run
that goes on, where that is a valid date.
-/
inductive RecordedState
  | running (nextPollAt : Option Date)
  | terminal (state : PollerTerminalState)
  deriving DecidableEq, Repr

structure PrReviewPollerResult where
  terminalState : PollerTerminalState
  pollsRun : Int
  deriving DecidableEq, Repr

/-- The settings of the poller. -/
structure PrReviewPollerDeps where
  maxPolls : Int
  pollIntervalMs : Int
  readyMaxDays : Int
  phaseStartedAt : Date
  quietPollsThreshold : Option Int := none
  firstReviewGraceWindowMs : Option Int := none
  hasOnAllResolved : Bool := false
  maxReactivations : Option Int := none
  hasRevertRunStatus : Bool := false

/-- The calls of the poller, for one run. -/
inductive PollerRequest
  | now
  | listPollAttempts
  | listComments
  | processOnePass (pollNumber : Int)
  | sleep (ms : Int)
  | recordTerminalState (attempt : Option PollAttempt) (state : RecordedState)
  | onAllResolved
  | revertRunStatus
  | publish (type : String) (level : EventLevel) (timestamp : Date)

inductive ReadyAction
  | reactivate
  | stayReady
  | timeout
  deriving DecidableEq, Repr

def ReadyAction.text : ReadyAction → String
  | reactivate => "reactivate"
  | stayReady => "stay_ready"
  | timeout => "timeout"

abbrev PollerRequest.Answer : PollerRequest → Type
  | now => Date
  | listPollAttempts => List PollAttempt
  | listComments => List PrReviewComment
  | processOnePass _ => PollPassResult × Option PollAttempt
  | onAllResolved => ReadyAction
  | sleep _ | recordTerminalState _ _ | revertRunStatus | publish _ _ _ => Unit

/-- What a call throws; a run that has used up its rounds stalls. -/
inductive PollerError
  | thrown (message : String)
  | stalled
  deriving DecidableEq, Repr

abbrev PollerRequest.Reply (request : PollerRequest) : Type :=
  Except PollerError request.Answer

structure PollerLocals where
  pollNumber : Int := 0
  pollsRun : Int := 0
  lastAttempt : Option PollAttempt := none
  consecutiveFailures : Nat := 0
  allResolvedEmitted : Bool := false
  consecutiveQuietPolls : Nat := 0
  deriving DecidableEq, Repr

abbrev PollerBlock (α : Type) : Type :=
  Block PollerRequest.Answer PollerLocals PollerError PrReviewPollerResult α

/-- `RATE_LIMIT_BACKOFF_MS`. -/
def rateLimitBackoffMs : Int := 60000

/-- `MAX_EXCEPTION_RETRIES`. -/
def maxExceptionRetries : Nat := 3

namespace PrReviewPollerDeps

/-- `new Date(phaseStartedAt.getTime() + readyMaxDays * DAY_MS)`, where it is a valid date. -/
def deadline (deps : PrReviewPollerDeps) : Option Date :=
  deps.phaseStartedAt.plus? (deps.readyMaxDays * (24 * 60 * 60 * 1000))

/-- The end of the grace window, where it is a valid date. -/
def firstReviewDeadline (deps : PrReviewPollerDeps) : Option Date :=
  deps.phaseStartedAt.plus? (deps.firstReviewGraceWindowMs.getD (1800 * 1000))

/-- `Math.max(1, quietPollsThreshold ?? 3)`. -/
def threshold (deps : PrReviewPollerDeps) : Int :=
  max 1 (deps.quietPollsThreshold.getD 3)

end PrReviewPollerDeps

/-- `now >= date`, which an invalid date never is. -/
def reaches (now : Date) (date : Option Date) : Bool :=
  date.any fun date => date.ms ≤ now.ms

namespace PrReviewPoller

variable (deps : PrReviewPollerDeps)

def call (request : PollerRequest) : PollerBlock request.Answer :=
  Block.call request

def emit (type : String) (level : EventLevel) : PollerBlock Unit := do
  let timestamp ← call .now
  call (.publish type level timestamp)

/-- `cappedSleep`; where the deadline is invalid, so is the number of milliseconds. -/
def cappedSleep (requestedMs : Int) : PollerBlock Unit := do
  let now ← call .now
  match deps.deadline with
  | none => pure ()
  | some deadline =>
      let ms := max 0 (min requestedMs (deadline.ms - now.ms))
      (call (.sleep ms)).ifThen (0 < ms)

/-- Records a terminal state and returns it. -/
def conclude (terminalState : PollerTerminalState) : PollerBlock Unit := do
  let locals ← Block.locals
  call (.recordTerminalState locals.lastAttempt (.terminal terminalState))
  Block.leave fun locals => { terminalState, pollsRun := locals.pollsRun }

def timeOut : PollerBlock Unit := do
  emit "post-pr-review.poll.timed_out" .warn
  conclude .timedOut

/-- The handler of a pass that threw: after too many of them it returns. -/
def failedPass : PollerBlock Unit := do
  Block.assign fun locals => { locals with consecutiveFailures := locals.consecutiveFailures + 1 }
  emit "post-pr-review.poll.failed" .warn
  let locals ← Block.locals
  if maxExceptionRetries ≤ locals.consecutiveFailures then do
    emit "post-pr-review.poll.max_retries_reached" .warn
    let now ← call .now
    if reaches now deps.deadline then timeOut else conclude .maxPollsReached
  else do
    cappedSleep deps rateLimitBackoffMs
    Block.assign fun locals => { locals with pollNumber := locals.pollNumber - 1 }

def rateLimitedPass : PollerBlock Unit := do
  emit "post-pr-review.poll.rate_limited" .warn
  cappedSleep deps rateLimitBackoffMs
  Block.assign fun locals => { locals with pollNumber := locals.pollNumber - 1 }

def revert : PollerBlock Unit :=
  (call .revertRunStatus).ifThen deps.hasRevertRunStatus

/-- The pass after a reactivation, which ends the loop in each case. -/
def reactivated : PollerBlock Unit := do
  let answered ←
    Block.attempt (some <$> call (.processOnePass (deps.maxPolls + 1))) fun _ => do
      emit "post-pr-review.ready.process_failed" .warn
      revert deps
      conclude .allResolved
      pure none
  match answered with
  | none => pure ()
  | some (pass, attempt) => do
      Block.assign fun locals => {
        locals with
        lastAttempt := attempt.or locals.lastAttempt
        pollsRun := locals.pollsRun + 1
      }
      revert deps
      if pass.allResolved then conclude .allResolved else conclude .maxPollsReached

/-- `enterReadyLoop`: each path through its loop returns or breaks in the first round. -/
def enterReadyLoop : PollerBlock Unit :=
  if deps.hasOnAllResolved && 1 ≤ deps.maxReactivations.getD 0 then do
    let action ← call .onAllResolved
    emit ("post-pr-review.ready." ++ action.text) .info
    match action with
    | .timeout => conclude .cancelled
    | .stayReady => conclude .allResolved
    | .reactivate => reactivated deps
  else conclude .allResolved

/-- The number of consecutive polls that found everything resolved. -/
def countQuietPoll (pass : PollPassResult) : PollerBlock Unit := do
  if pass.allResolved then do
    let comments ← call .listComments
    let now ← call .now
    if comments.isEmpty && !reaches now deps.firstReviewDeadline then pure ()
    else do
      let locals ← Block.locals
      (do
        Block.assign fun locals => { locals with allResolvedEmitted := true }
        emit "post-pr-review.poll.all_resolved" .info : PollerBlock Unit).ifThen
        !locals.allResolvedEmitted
      Block.assign fun locals =>
        { locals with consecutiveQuietPolls := locals.consecutiveQuietPolls + 1 }
  else Block.assign fun locals => { locals with consecutiveQuietPolls := 0 }
  (Block.assign fun locals => { locals with consecutiveQuietPolls := 0 }).ifThen
    (0 < pass.processed)

/-- Comments that are worked on: a poll that finds none of them and some that are blocked ends the
polling.
-/
def readyIfBlocked (pass : PollPassResult) : PollerBlock Unit :=
  if !pass.allResolved && 0 < pass.blocked && pass.processed = 0 then do
    let comments ← call .listComments
    if comments.any fun comment => comment.state = .replied || comment.state = .pending then pure ()
    else do
      emit "post-pr-review.poll.blocked" .warn
      enterReadyLoop deps
  else pure ()

/-- The pause before the next poll, which is recorded. -/
def awaitNextPoll : PollerBlock Unit := do
  let first ← call .now
  let second ← call .now
  let cappedMs := deps.deadline.map fun deadline =>
    max 0 (min deps.pollIntervalMs (deadline.ms - first.ms))
  let locals ← Block.locals
  call (.recordTerminalState locals.lastAttempt (.running (cappedMs.bind second.plus?)))
  cappedSleep deps deps.pollIntervalMs

/-- A pass that counts. -/
def countedPass (effectiveMaxPolls : Int) (pass : PollPassResult) : PollerBlock Unit := do
  Block.assign fun locals => { locals with pollsRun := locals.pollsRun + 1 }
  emit "post-pr-review.poll.completed" .info
  countQuietPoll deps pass
  let locals ← Block.locals
  if deps.threshold ≤ locals.consecutiveQuietPolls then do
    emit "post-pr-review.poll.terminal" .info
    enterReadyLoop deps
  else do
    readyIfBlocked deps pass
    (awaitNextPoll deps).ifThen (locals.pollNumber < effectiveMaxPolls)

/-- A round of the loop. -/
def pollOnce (effectiveMaxPolls : Int) : PollerBlock Unit := do
  let now ← call .now
  if reaches now deps.deadline then timeOut
  else do
    emit "post-pr-review.poll.started" .info
    let locals ← Block.locals
    let answered ←
      Block.attempt (some <$> call (.processOnePass locals.pollNumber)) fun _ => do
        failedPass deps
        pure none
    match answered with
    | none => pure ()
    | some (pass, attempt) => do
        Block.assign fun locals => {
          locals with
          lastAttempt := attempt.or locals.lastAttempt
          consecutiveFailures := 0
        }
        if pass.rateLimited then rateLimitedPass deps else countedPass deps effectiveMaxPolls pass

/-- The loop over the polls, for so many rounds at most. -/
def pollLoop (effectiveMaxPolls : Int) : Nat → PollerBlock Unit
  | 0 => Block.throw .stalled
  | rounds + 1 => do
      let locals ← Block.locals
      if locals.pollNumber ≤ effectiveMaxPolls then do
        pollOnce deps effectiveMaxPolls
        Block.assign fun locals => { locals with pollNumber := locals.pollNumber + 1 }
        pollLoop effectiveMaxPolls rounds
      else pure ()

/-- What follows the last poll. -/
def afterPolls : PollerBlock Unit := do
  let now ← call .now
  if reaches now deps.deadline then timeOut
  else do
    let comments ← call .listComments
    if comments.any fun comment => comment.state = .blocked then do
      emit "post-pr-review.poll.blocked_and_ready" .warn
      enterReadyLoop deps
    else do
      emit "post-pr-review.poll.max_polls_reached" .info
      conclude .maxPollsReached

/-- `run`, for so many rounds of its loop at most. -/
def run (rounds : Nat) : PollerBlock Unit := do
  let existingAttempts ← call .listPollAttempts
  let meaningfulAttempts := existingAttempts.filter fun attempt => attempt.status ≠ .rateLimited
  let earlier : Int := meaningfulAttempts.length
  Block.assign fun _ =>
    { pollNumber := earlier + 1, pollsRun := earlier, lastAttempt := meaningfulAttempts.getLast? }
  pollLoop deps (max deps.maxPolls (earlier + 1)) rounds
  afterPolls deps

end PrReviewPoller

end AiSdlc.Application
