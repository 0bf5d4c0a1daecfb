import AiSdlc.Application.Ports
import AiSdlc.Js.TextOperations

/-! What the handlers of the phases share: the context that they run in, their results, and what
their ports throw.
-/

namespace AiSdlc.Application

open AiSdlc.Js
open AiSdlc.Domain

inductive FailureKind
  | commandFailed
  | timeout
  | missingArtifact
  | invalidResult
  | agentBlocked
  | agentIncomplete
  | agentContractViolation
  | branchChanged
  | validationFailed
  | githubFailed
  | gitFailed
  | pollingFailed
  | handlerNotWired
  | setupFailed
  | needsHumanReview
  | phaseBoundaryViolation
  | unknown
  deriving DecidableEq, Repr

structure Failure where
  runUuid : String
  phase : Option String := none
  kind : FailureKind
  message : String
  canRetry : Bool
  suggestedAction : String
  artifacts : List String := []
  detectedAt : Date
  deriving DecidableEq, Repr

inductive PhaseResult
  | passed
  | resting
  | skipped
  | deferred
  | failed (failure : Failure)
  | blocked (failure : Failure)
  | needsHumanReview (failure : Failure)
  deriving DecidableEq, Repr

/-- What a call of a handler throws: an `ArtifactNotFoundError`, a
`PinnedRuntimeResolutionError`, or another error with its message.
-/
inductive HandlerError
  | artifactNotFound (message : String)
  | pinnedRuntimeResolution (message : String)
  | error (message : String)
  deriving DecidableEq, Repr

/-- `e instanceof Error ? e.message : String(e)`. -/
def HandlerError.message : HandlerError → String
  | artifactNotFound message => message
  | pinnedRuntimeResolution message => message
  | error message => message

/-- The data of a `PhaseHandlerContext`, with which of its optional functions are there. -/
structure PhaseHandlerContext where
  runId : String
  runUuid : String
  issueNumber : Int
  cwd : String
  promptsRoot : Option String := none
  startCommitSha : Option String := none
  expectedBranch : Option String := none
  baseBranch : Option String := none
  resolvesProfiles : Bool := true
  deriving Repr

end AiSdlc.Application
