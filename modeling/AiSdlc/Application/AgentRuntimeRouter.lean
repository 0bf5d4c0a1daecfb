import AiSdlc.Application.AgentConfig
import AiSdlc.Application.Ports
import AiSdlc.Js.TextOperations

/-! The agent router: an invocation is recorded before its adapter is called and again when the
adapter has answered, and an outcome that triggers the phase's fallback escalates once to the
fallback profile. A semantic retry whose identity is recorded already is suppressed.
-/

namespace AiSdlc.Application

open AiSdlc.Js
open AiSdlc.Domain
open AiSdlc.Async

inductive AgentInvocationOutcome
  | success
  | failed
  | timeout
  | contractViolation
  | duplicateRetrySuppressed
  deriving DecidableEq, Repr

/-- A value of an invocation's metadata: a text, the usage source paths, or any other value by
its JSON text and whether it is truthy.
-/
inductive MetadataValue
  | text (value : String)
  | paths (values : List String)
  | other (isTruthy : Bool) (json : String)
  deriving DecidableEq, Repr

/-- `Record<string, unknown>`, as a list of its entries. -/
abbrev Metadata : Type := List (String × MetadataValue)

/-- `metadata[key] = value`. -/
def Metadata.put (metadata : Metadata) (key : String) (value : MetadataValue) : Metadata :=
  metadata.filter (·.1 ≠ key) ++ [(key, value)]

/-- `{ ...metadata, ...more }`. -/
def Metadata.merge (metadata more : Metadata) : Metadata :=
  more.foldl (fun merged entry => merged.put entry.1 entry.2) metadata

def MetadataValue.isTruthy : MetadataValue → Bool
  | text value => value ≠ ""
  | paths _ => true
  | other truthy _ => truthy

def readRetryIdentity (metadata : Metadata) : Option String :=
  let read (key : String) : Option String :=
    match List.lookup key metadata with
    | some (.text value) => truthy value
    | _ => none
  read "retryIdentity" <|> read "retry_identity"

inductive SemanticRetryClassification
  | semantic
  | deterministicGate
  deriving DecidableEq, Repr

def SemanticRetryClassification.text : SemanticRetryClassification → String
  | semantic => "semantic"
  | deterministicGate => "deterministic_gate"

structure SemanticRetryIntent where
  normalizedPhase : String
  classification : SemanticRetryClassification
  relevantArtifactPaths : List String
  deriving DecidableEq, Repr

/-- The signals that may abort an invocation: the caller's, the timeout of the profile, or the
first of several.
-/
inductive AbortSignal
  | caller (id : Nat)
  | timeout (ms : Rat)
  | any (signals : List AbortSignal)
  deriving Repr

/-- `signal.reason` of an aborted signal: a `TimeoutError`, or not. -/
inductive AbortCause
  | timeout
  | cancelled
  deriving DecidableEq, Repr

structure RuntimeHints where
  contextLimitTokens : Option Int
  outputBudgetTokens : Option Int
  deriving DecidableEq, Repr

structure AgentInvocationRequest where
  profile : String
  promptPath : String
  expectedArtifacts : List String
  preserveExpectedArtifacts : List String := []
  cwd : String
  runId : String
  phaseId : String
  stepId : Option String := none
  startCommitSha : String
  abortSignal : Option AbortSignal := none
  provider : Option String := none
  model : Option String := none
  variant : Option String := none
  promptBudgetTokens : Option Int := none
  runtimeHints : Option RuntimeHints := none
  fallbackOfInvocationId : Option String := none
  fallbackReason : Option String := none
  timeoutMs : Option Rat := none
  id : Option String := none
  metadata : Metadata := []
  retryIntent : Option SemanticRetryIntent := none
  deriving Repr

structure TokenUsage where
  inputTokens : Int
  outputTokens : Int
  reasoningTokens : Option Int := none
  cachedTokens : Option Int := none
  deriving DecidableEq, Repr

structure AgentInvocationResult where
  runtime : AgentRuntimeKind
  provider : String
  model : String
  exitCode : Int
  durationMs : Int
  stdoutPath : String
  stderrPath : String
  resultJsonPath : Option String := none
  contractViolations : List String
  outcome : AgentInvocationOutcome
  invocationId : Option String := none
  endCommitSha : Option String := none
  usage : Option TokenUsage := none
  usageSourcePaths : Option (List String) := none
  deriving DecidableEq, Repr

/-- An invocation as the repository stores it. -/
structure AgentInvocation where
  id : String
  runId : String
  phaseId : String
  stepId : Option String := none
  profile : String
  runtime : AgentRuntimeKind
  provider : String
  model : String
  promptPath : String
  promptChars : Nat
  stdoutPath : String := ""
  stderrPath : String := ""
  startedAt : Date
  endedAt : Option Date := none
  startCommitSha : String
  endCommitSha : Option String := none
  exitCode : Option Int := none
  durationMs : Option Int := none
  timeoutMs : Rat
  outcome : Option AgentInvocationOutcome := none
  contractViolations : List String := []
  resultJsonPath : Option String := none
  fallbackOfInvocationId : Option String := none
  promptHash : Option String := none
  metadata : Metadata := []
  deriving DecidableEq, Repr

/-- The fields to change; metadata is merged into the stored one. -/
structure AgentInvocationUpdatePatch where
  endedAt : Option Date := none
  endCommitSha : Option String := none
  exitCode : Option Int := none
  durationMs : Option Int := none
  outcome : Option AgentInvocationOutcome := none
  contractViolations : Option (List String) := none
  resultJsonPath : Option String := none
  stdoutPath : Option String := none
  stderrPath : Option String := none
  metadata : Option Metadata := none
  deriving DecidableEq, Repr

/-- What is persisted of an invocation's token usage; none of it may be known. -/
structure AgentUsage where
  invocationId : String
  runId : String
  phaseId : String
  profile : String
  provider : String
  model : String
  recordedAt : Date
  measured : Option TokenUsage
  deriving DecidableEq, Repr

structure RetryIdentityInput where
  normalizedPhase : String
  profile : String
  promptHash : String
  startCommitSha : String
  relevantArtifactPaths : List String
  classification : String
  cwd : String
  deriving DecidableEq, Repr

/-- What the router throws: a `ConfigError`, or another error with its message. -/
inductive RouterError
  | config (message : String)
  | error (message : String)
  deriving DecidableEq, Repr

def RouterError.message : RouterError → String
  | config message => message
  | error message => message

/-- The calls of the router. An adapter is called and its result awaited; the call names the
retry identity that it executes, which the adapter is not told.
-/
inductive RouterRequest
  | now
  | newId
  | findById (id : String)
  | listByRun (runId : String)
  | insert (invocation : AgentInvocation)
  | update (id : String) (patch : AgentInvocationUpdatePatch)
  | countConsecutiveProviderFailures (profile : String)
  | insertUsage (usage : AgentUsage)
  | publish (runId : String) (event : EventPayload)
  | emitWarning (message : String)
  | readPromptContent (path : String)
  | generateRetryIdentity (input : RetryIdentityInput)
  | removeArtifact (path : String)
  | callAdapter (retryIdentity : Option String) (runtime : AgentRuntimeKind)
      (request : AgentInvocationRequest)
  | awaitAdapter
  | callerAborted (signal : AbortSignal)
  | profileTimedOut
  | readStderr (path : String)
  | readFile (path : String)
  | writeFile (path content : String)

/-- The type of a call's answer; an error log that cannot be read is none. -/
abbrev RouterRequest.Answer : RouterRequest → Type
  | now => Date
  | newId => String
  | findById _ => Option AgentInvocation
  | listByRun _ => List AgentInvocation
  | insert _ => Unit
  | update _ _ => Unit
  | countConsecutiveProviderFailures _ => Nat
  | insertUsage _ => Unit
  | publish _ _ => Unit
  | emitWarning _ => Unit
  | readPromptContent _ => String
  | generateRetryIdentity _ => String
  | removeArtifact _ => Unit
  | callAdapter _ _ _ => Unit
  | awaitAdapter => AgentInvocationResult
  | callerAborted _ => Option AbortCause
  | profileTimedOut => Bool
  | readStderr _ => Option String
  | readFile _ => String
  | writeFile _ _ => Unit

abbrev RouterRequest.Reply (request : RouterRequest) : Type :=
  Except RouterError request.Answer

/-- The calls that the router awaits; the others answer at once. -/
def RouterRequest.awaits : RouterRequest → Bool
  | awaitAdapter | readFile _ | writeFile _ _ => true
  | _ => false

/-- Whether a call is that of an adapter. -/
def RouterRequest.callsAdapter : RouterRequest → Bool
  | callAdapter _ _ _ => true
  | _ => false

/-- The functions that the router takes from its libraries: paths, digests, and the patterns
that tell what an error log shows.
-/
structure RouterLibrary where
  join : String → String → String
  relative : String → String → String
  isAbsolute : String → Bool
  sha256 : String → String
  testTokenLimitPatterns : String → Option String
  testQuotaPatterns : String → Option String
  testProviderErrorPatterns : String → Option String
  tryParseOpenCodeError : String → Option String

/-- The configuration of the router, with the environment variables that it reads. -/
structure AgentRuntimeRouterOptions where
  agent : AgentConfig
  adapters : List AgentRuntimeKind
  eventBus : Bool := false
  usageRepository : Bool := false
  aiAgentModel : Option String := none
  aiAgentProvider : Option String := none

/-- The statements of the router. -/
abbrev RouterStatements (α : Type) : Type :=
  Block RouterRequest.Answer Unit RouterError Empty α

namespace AgentRuntimeRouter

def providerErrorCode : String := "provider_error"

def cancelledByOrchestrator : String := "cancelled_by_orchestrator"

def promptBudgetExceeded : String := "prompt_budget_exceeded"

def missingRequiredArtifact : String := "missing_required_artifact"

def invalidResultJson : String := "invalid_result_json"

def noOutput : String := "no_output"

/-- `phaseId.replace(/(-task)?-\d+$/, '')`. -/
def withoutInvocationSuffix (phaseId : String) : String :=
  let reversed := phaseId.toList.reverse
  let number := reversed.takeWhile fun char => (digitValue char).isSome
  match number, reversed.drop number.length with
  | _ :: _, '-' :: rest =>
      let task := "ksat-".toList
      .ofList (if task.isPrefixOf rest then rest.drop task.length else rest).reverse
  | _, _ => phaseId

def normalizeRoutingPhase (phaseId : String) : String :=
  let normalized := withoutInvocationSuffix phaseId
  if normalized = "implement-final-review-arbiter" || normalized = "plan-review-arbiter" then
    "arbiter"
  else
    normalized

example : normalizeRoutingPhase "quality-review-task-12" = "quality-review" := by
  decide

/-- The entry of the phase that an invocation is routed by. -/
def routingEntry (agent : AgentConfig) (phaseId : String) : Option PhaseProfileEntry :=
  let routingPhase := normalizeRoutingPhase phaseId
  let phaseEntry := resolvePhaseProfileEntry agent.phaseProfiles routingPhase
  if routingPhase = "arbiter" then
    phaseEntry <|> agent.phaseProfiles.lookup "plan-design"
      <|> agent.phaseProfiles.lookup "fix-review"
  else
    phaseEntry

/-- The triggers of a phase without configured ones. -/
def defaultFallbackTriggers : List FallbackTrigger :=
  [.timeout, .contractViolation, .runtimeError, .tokenLimitExceeded, .quotaExceeded,
    .providerError]

def isSerializationContractOutcome (result : AgentInvocationResult) : Bool :=
  result.outcome = .contractViolation
  && (missingRequiredArtifact ∈ result.contractViolations
    || invalidResultJson ∈ result.contractViolations
    || noOutput ∈ result.contractViolations)

section Fallback

variable (library : RouterLibrary) (result : AgentInvocationResult) (stderr : Option String)

/-- Whether a trigger fires, given the content of the error log. -/
def fires : FallbackTrigger → Bool
  | .timeout => result.outcome = .timeout
  | .contractViolation => result.outcome = .contractViolation
  | .missingRequiredArtifact =>
      result.outcome = .contractViolation && missingRequiredArtifact ∈ result.contractViolations
  | .promptBudgetExceeded =>
      result.outcome = .contractViolation && promptBudgetExceeded ∈ result.contractViolations
  | .invalidResultJson =>
      result.outcome = .contractViolation && invalidResultJson ∈ result.contractViolations
  | .runtimeError => result.outcome = .failed
  | .tokenLimitExceeded =>
      result.outcome = .failed && (stderr.bind library.testTokenLimitPatterns).isSome
  | .quotaExceeded =>
      result.outcome = .failed && (stderr.bind library.testQuotaPatterns).isSome
  | .providerError =>
      result.outcome = .failed
      && (providerErrorCode ∈ result.contractViolations
        || (stderr.bind library.testProviderErrorPatterns).isSome)
  | .noOutput | .synthesizedFromTranscript => false

def shouldFallback (agent : AgentConfig) (phaseId : String) (allowSerializationFallback : Bool)
    : Bool :=
  (!isSerializationContractOutcome result || allowSerializationFallback)
  && (((routingEntry agent phaseId).bind (·.fallbackTriggers)).getD defaultFallbackTriggers).any
    (fires library result stderr)

structure TriggerClassification where
  reason : String
  detail : Option String := none
  shortDetail : Option String := none
  deriving DecidableEq, Repr

/-- `truncate`, to 200 code units. -/
def truncate (text : String) : String :=
  if 200 < textLength text then sliceTo text 200 ++ "…" else text

def determineTriggerReason : TriggerClassification :=
  let classified (reason detail : String) : TriggerClassification :=
    {
      reason
      detail := some (truncate detail)
      shortDetail := truthy (library.tryParseOpenCodeError detail)
    }
  match result.outcome with
  | .timeout => { reason := "timeout" }
  | .contractViolation =>
      if promptBudgetExceeded ∈ result.contractViolations then
        { reason := "prompt_budget_exceeded" }
      else
        { reason := "contract_violation" }
  | .failed =>
      match stderr.bind library.testTokenLimitPatterns with
      | some tokenDetail => classified "token_limit_exceeded" tokenDetail
      | none =>
          match stderr.bind library.testQuotaPatterns with
          | some quotaDetail => classified "quota_exceeded" quotaDetail
          | none =>
              match stderr.bind library.testProviderErrorPatterns with
              | some "" => { reason := "provider_error" }
              | some providerDetail => classified "provider_error" providerDetail
              | none =>
                  if providerErrorCode ∈ result.contractViolations then
                    { reason := "provider_error" }
                  else
                    { reason := "runtime_error" }
  | .success | .duplicateRetrySuppressed => { reason := "unknown" }

end Fallback

/-- `effectiveProfile`: the environment overrides the provider and the model. -/
def effectiveProfile (opts : AgentRuntimeRouterOptions) (profile : AgentProfile)
    : String × String :=
  let envModel := truthy (opts.aiAgentModel.map trim)
  let model :=
    match envModel, truthy profile.variant with
    | some model, _ => model
    | none, some variant => s!"{profile.model}-{variant}"
    | none, none => profile.model
  ((truthy (opts.aiAgentProvider.map trim)).getD profile.provider, model)

/-- The profile and the adapter that a phase's outcomes escalate to, where both exist. -/
def fallbackTarget (opts : AgentRuntimeRouterOptions) (phaseId : String)
    : Option (String × AgentProfile) := do
  let phaseEntry ← routingEntry opts.agent phaseId
  let fallbackProfileName ← truthy phaseEntry.fallbackProfile
  let fallbackProfile ← opts.agent.profiles.lookup fallbackProfileName
  if fallbackProfile.runtime ∈ opts.adapters then
    some (fallbackProfileName, fallbackProfile)
  else
    none

/-- `generateRetryIdentity`, from the contents of the files that can be read. -/
def generateRetryIdentity (library : RouterLibrary) (localeCompare : String → String → Int)
    (stringify : RetryIdentityInput → List (String × String) → String)
    (files : String → Option String) (input : RetryIdentityInput)
    : String :=
  let pairs := input.relevantArtifactPaths.map fun artPath =>
    let absolutePath := library.join input.cwd artPath
    let normalizedPath := String.ofList (posixChars (library.relative input.cwd absolutePath))
    (normalizedPath, ((files absolutePath).map library.sha256).getD "missing")
  let sorted := pairs.insertionSort fun a b => localeCompare a.1 b.1 ≤ 0
  library.sha256 (stringify input sorted)

/-- An artifact path that leads out of the working directory, or nowhere. -/
def isTraversal (library : RouterLibrary) (cwd artifact : String) : Bool :=
  let rel := library.relative cwd (library.join cwd artifact)
  rel = "" || rel = "." || startsWith rel ".." || library.isAbsolute rel
  || library.isAbsolute artifact

/-- `(consecutive failures: …)`, at the end of the first line. -/
def annotateFailures (content : String) (count : Nat) : String :=
  let note := s!" (consecutive failures: {count})"
  let chars := content.toList
  let firstLine := chars.takeWhile (· ≠ '\n')
  match chars.drop firstLine.length with
  | [] => content ++ note
  | _ :: rest =>
      if firstLine.getLast? = some '\r' then
        .ofList firstLine.dropLast ++ note ++ "\r\n" ++ .ofList rest
      else
        .ofList firstLine ++ note ++ "\n" ++ .ofList rest

/-- The outcome of a cancellation that a timeout has caused is a timeout. -/
def reclassify (result : AgentInvocationResult) (timedOut : Bool) : AgentInvocationResult :=
  if result.outcome = .failed && cancelledByOrchestrator ∈ result.contractViolations && timedOut
  then
    { result with outcome := .timeout, contractViolations := [] }
  else
    result

/-- The metadata of an invocation, with its type. -/
def invocationMetadata (request : AgentInvocationRequest) : Metadata :=
  if (List.lookup "invocation_type" request.metadata).any MetadataValue.isTruthy then
    request.metadata
  else
    request.metadata.put "invocation_type"
      (.text (if isSet request.fallbackOfInvocationId then "fallback" else "initial"))

/-- The retry intent of an invocation that is a semantic retry. -/
def semanticRetry (request : AgentInvocationRequest) : Option SemanticRetryIntent :=
  let invocationType := List.lookup "invocation_type" (invocationMetadata request)
  request.retryIntent.filter fun intent =>
    intent.classification = .semantic && invocationType ≠ some (.text "serialization_repair")
    && invocationType ≠ some (.text "deterministic_fix")

/-- What is known of an invocation before its adapter is called. -/
structure Started where
  profile : AgentProfile
  provider : String
  model : String
  timeoutMs : Rat
  retryIdentity : Option String
  invocation : AgentInvocation

section Statements

variable (library : RouterLibrary) (opts : AgentRuntimeRouterOptions)

def call (request : RouterRequest) : RouterStatements request.Answer :=
  Block.call request

/-- `this.opts.eventBus.publish(…)`. -/
def publish (runId : String) (level : EventLevel) (type message : String) (publishedAt : Date)
    : RouterStatements Unit :=
  call (.publish runId
    { runId, level, type, message, timestamp := Date.toISOString publishedAt })

/-- What the retry identity of a semantic retry is generated from. -/
def identityInput (request : AgentInvocationRequest) (intent : SemanticRetryIntent)
    (promptContent : String)
    : RetryIdentityInput :=
  {
    normalizedPhase := intent.normalizedPhase
    profile := request.profile
    promptHash := library.sha256 promptContent
    startCommitSha := request.startCommitSha
    relevantArtifactPaths := intent.relevantArtifactPaths
    classification := intent.classification.text
    cwd := request.cwd
  }

/-- The retry identity of a semantic retry. -/
def generateIdentity (request : AgentInvocationRequest) (promptContent : String)
    : RouterStatements (Option String) :=
  match semanticRetry request with
  | none => pure none
  | some intent => do
      let identity ←
        call (.generateRetryIdentity (identityInput library request intent promptContent))
      pure (some identity)

/-- The metadata of an invocation, with its retry identity under both spellings. -/
def identifiedMetadata (request : AgentInvocationRequest) (retryIdentity : Option String)
    : Metadata :=
  match retryIdentity with
  | none => invocationMetadata request
  | some identity =>
      ((invocationMetadata request).put "retryIdentity" (.text identity)).put "retry_identity"
        (.text identity)

/-- The invocation that is recorded before the adapter is called. -/
def startedInvocation (request : AgentInvocationRequest) (profile : AgentProfile) (id : String)
    (startedAt : Date) (promptContent : String) (retryIdentity : Option String)
    : AgentInvocation :=
  {
    id
    runId := request.runId
    phaseId := request.phaseId
    stepId := truthy request.stepId
    profile := request.profile
    runtime := profile.runtime
    provider := (effectiveProfile opts profile).1
    model := (effectiveProfile opts profile).2
    promptPath := request.promptPath
    promptChars := textLength promptContent
    startedAt
    startCommitSha := request.startCommitSha
    timeoutMs := request.timeoutMs.getD (profile.timeoutMinutes * 60000)
    fallbackOfInvocationId := truthy request.fallbackOfInvocationId
    promptHash := some (library.sha256 promptContent)
    metadata := identifiedMetadata request retryIdentity
  }

/-- The part of `dispatch` before the retry identity is looked up. -/
def prepare (request : AgentInvocationRequest) : RouterStatements Started :=
  match opts.agent.profiles.lookup request.profile with
  | none => Block.throw (.config s!"unknown profile '{request.profile}'")
  | some profile =>
      if profile.runtime ∈ opts.adapters then do
        let id ← (match request.id with
          | some id => pure id
          | none => call .newId : RouterStatements String)
        let startedAt ← call .now
        let promptContent ← call (.readPromptContent request.promptPath)
        let retryIdentity ← generateIdentity library request promptContent
        pure {
          profile
          provider := (effectiveProfile opts profile).1
          model := (effectiveProfile opts profile).2
          timeoutMs := request.timeoutMs.getD (profile.timeoutMinutes * 60000)
          retryIdentity := truthy retryIdentity
          invocation :=
            startedInvocation library opts request profile id startedAt promptContent
              retryIdentity
        }
      else
        Block.throw (.config s!"no adapter registered for runtime '{profile.runtime}'")

/-- Whether the retry identity is recorded already; a first retry is announced. -/
def isDuplicate (request : AgentInvocationRequest) (started : Started)
    : RouterStatements Bool :=
  match started.retryIdentity with
  | none => pure false
  | some identity => do
      let priorInvocations ← call (.listByRun request.runId)
      if List.any priorInvocations fun invocation : AgentInvocation =>
          readRetryIdentity invocation.metadata = some identity
      then
        pure true
      else do
        Block.ifThen opts.eventBus do
          let publishedAt ← call .now
          let detected := s!"Semantic retry detected for phase {request.phaseId}"
          publish request.runId .info "semantic_retry" s!"{detected} with identity {identity}"
            publishedAt
        pure false

/-- Records a suppressed retry, which calls no adapter. -/
def suppress (started : Started) : RouterStatements AgentInvocationResult := do
  call (.insert started.invocation)
  let endedAt ← call .now
  call (.update started.invocation.id {
    endedAt := some endedAt
    outcome := some .duplicateRetrySuppressed
    exitCode := some 0
    durationMs := some 0
    stdoutPath := some ""
    stderrPath := some ""
    contractViolations := some []
  })
  pure {
    runtime := started.profile.runtime
    provider := started.provider
    model := started.model
    exitCode := 0
    durationMs := 0
    stdoutPath := ""
    stderrPath := ""
    contractViolations := []
    outcome := .duplicateRetrySuppressed
    invocationId := some started.invocation.id
  }

/-- Removes the expected artifacts that an earlier run has left. -/
def clearArtifacts (request : AgentInvocationRequest) : RouterStatements Unit :=
  Block.forEach request.expectedArtifacts fun artifact =>
    if isTraversal library request.cwd artifact then
      Block.throw (.error s!"Invalid artifact path (traversal detected): {artifact}")
    else if artifact ∈ request.preserveExpectedArtifacts then
      pure ()
    else
      call (.removeArtifact (library.join request.cwd artifact))

def composedSignal (request : AgentInvocationRequest) (timeoutMs : Rat) : Option AbortSignal :=
  if 0 < timeoutMs then
    match request.abortSignal with
    | some signal => some (.any [.timeout timeoutMs, signal])
    | none => some (.timeout timeoutMs)
  else
    request.abortSignal

/-- `enrichedRequest`. -/
def enrich (request : AgentInvocationRequest) (started : Started) : AgentInvocationRequest :=
  let profile := started.profile
  let hints : RuntimeHints := {
    contextLimitTokens := profile.contextLimitTokens
    outputBudgetTokens := profile.outputBudgetTokens
  }
  {
    request with
    abortSignal := composedSignal request started.timeoutMs
    provider := some started.provider
    model := some started.model
    variant := request.variant <|> profile.variant
    timeoutMs := some started.timeoutMs
    promptBudgetTokens := profile.promptBudgetTokens <|> request.promptBudgetTokens
    runtimeHints :=
      if hints.contextLimitTokens.isSome || hints.outputBudgetTokens.isSome then some hints
      else request.runtimeHints
  }

/-- Calls the adapter and awaits its result; an error is recorded and thrown on. -/
def runAdapter (request : AgentInvocationRequest) (started : Started)
    : RouterStatements AgentInvocationResult :=
  Block.attempt
    (do
      call (.callAdapter started.retryIdentity started.profile.runtime (enrich request started))
      call .awaitAdapter)
    fun error => do
      let endedAt ← call .now
      call (.update started.invocation.id
        { endedAt := some endedAt, outcome := some .failed, contractViolations := some [] })
      Block.throw error

/-- Whether the profile's timeout or the one of the caller has aborted the invocation. -/
def timedOut (request : AgentInvocationRequest) (started : Started) : RouterStatements Bool := do
  let callerTimedOut ← (match request.abortSignal with
    | none => pure false
    | some signal => do
        let cause ← call (.callerAborted signal)
        pure (cause = some AbortCause.timeout) : RouterStatements Bool)
  let profileTimedOut ← (if 0 < started.timeoutMs then call .profileTimedOut else pure false
    : RouterStatements Bool)
  pure (profileTimedOut || callerTimedOut)

/-- Notes the consecutive failures of a provider in the error log, if that can be done. -/
def noteProviderFailures (request : AgentInvocationRequest) (result : AgentInvocationResult)
    : RouterStatements Unit :=
  Block.ifThen (result.outcome = .failed && providerErrorCode ∈ result.contractViolations)
    (Block.attempt
      (do
        let priorCount ← call (.countConsecutiveProviderFailures request.profile)
        Block.ifThen (result.stderrPath ≠ "") do
          let content ← call (.readFile result.stderrPath)
          call (.writeFile result.stderrPath (annotateFailures content (priorCount + 1))))
      fun _ => pure ())

/-- The columns that a result sets. -/
def resultPatch (result : AgentInvocationResult) (endedAt : Date)
    : AgentInvocationUpdatePatch :=
  {
    endedAt := some endedAt
    exitCode := some result.exitCode
    durationMs := some result.durationMs
    outcome := some result.outcome
    contractViolations := some result.contractViolations
    stdoutPath := some result.stdoutPath
    stderrPath := some result.stderrPath
    resultJsonPath := truthy result.resultJsonPath
    endCommitSha := truthy result.endCommitSha
    metadata := result.usageSourcePaths.map fun paths => [("usageSourcePaths", .paths paths)]
  }

/-- A warning, as an event where there is an event bus. -/
def warn (runId type message : String) (warnedAt : Date) : RouterStatements Unit :=
  if opts.eventBus then publish runId .warn type message warnedAt
  else call (.emitWarning message)

/-- Statements that may fail without consequence. -/
def contained (statements : RouterStatements Unit) : RouterStatements Unit :=
  Block.attempt statements fun _ => pure ()

/-- Persists the token usage, or that it is unknown. -/
def recordUsage (request : AgentInvocationRequest) (started : Started)
    (result : AgentInvocationResult) (endedAt : Date)
    : RouterStatements Unit :=
  Block.ifThen opts.usageRepository
    (Block.attempt
      (call (.insertUsage {
        invocationId := started.invocation.id
        runId := request.runId
        phaseId := request.phaseId
        profile := request.profile
        provider := started.provider
        model := started.model
        recordedAt := endedAt
        measured := result.usage
      }))
      fun error =>
        let failed := s!"Usage persistence failed for invocation {started.invocation.id}"
        contained (warn opts request.runId "agent.usage.failed" s!"{failed}: {error.message}"
          endedAt))

/-- `usage` as an event's message. -/
def usageMessage (phaseId : String) (usage : TokenUsage) : String :=
  let cachedTokens := usage.cachedTokens.getD 0
  let cachedSuffix := if 0 < cachedTokens then s!" (+{cachedTokens} cached)" else ""
  s!"{phaseId}: {usage.inputTokens} in{cachedSuffix} / {usage.outputTokens} out tokens"

/-- Publishes the token usage, or that it is unknown. -/
def publishUsage (request : AgentInvocationRequest) (started : Started)
    (result : AgentInvocationResult) (endedAt : Date)
    : RouterStatements Unit :=
  match result.usage with
  | some usage =>
      contained (Block.ifThen opts.eventBus
        (publish request.runId .info "agent.usage" (usageMessage request.phaseId usage) endedAt))
  | none =>
      contained (warn opts request.runId "agent.usage.unknown"
        s!"Usage data unavailable for invocation {started.invocation.id}" endedAt)

/-- The part of `dispatch` from the adapter's result to the question of a fallback. -/
def recordResult (request : AgentInvocationRequest) (started : Started)
    (answered : AgentInvocationResult)
    : RouterStatements AgentInvocationResult := do
  let timedOut ← timedOut request started
  let result := reclassify answered timedOut
  noteProviderFailures request result
  let endedAt ← call .now
  call (.update started.invocation.id (resultPatch result endedAt))
  recordUsage opts request started result endedAt
  publishUsage opts request started result endedAt
  pure result

/-- The result of an invocation that did not escalate. -/
def finish (started : Started) (result : AgentInvocationResult) : AgentInvocationResult :=
  {
    result with
    invocationId := some started.invocation.id
    provider := started.provider
    model := started.model
  }

/-- `dispatch`, with what follows when the adapter has answered. -/
def dispatchThen (request : AgentInvocationRequest)
    (settle : Started → AgentInvocationResult → RouterStatements AgentInvocationResult)
    : RouterStatements AgentInvocationResult := do
  let started ← prepare library opts request
  let hasDuplicate ← isDuplicate opts request started
  if hasDuplicate then
    suppress started
  else do
    call (.insert started.invocation)
    clearArtifacts library request
    let answered ← runAdapter request started
    let result ← recordResult opts request started answered
    settle started result

def emitFallbackEvent (runId fromProfile toProfile : String) (trigger : TriggerClassification)
    (triggerOwner : String)
    : RouterStatements Unit :=
  Block.ifThen opts.eventBus do
    let publishedAt ← call .now
    let quoted := (truthy trigger.detail).map fun detail => s!"\"{detail}\""
    let readableDetail := truthy (trigger.shortDetail <|> quoted)
    let detailMsg := (readableDetail.map fun detail => s!" — {detail}").getD ""
    let escalated := s!"Fallback from '{fromProfile}' to '{toProfile}'"
    publish runId .warn "phase.fallback.escalated"
      s!"{escalated} (reason: {trigger.reason}{detailMsg}, owner: {triggerOwner})" publishedAt

/-- The request to the fallback profile, which the caller's signal does not abort. -/
def fallbackRequest (request : AgentInvocationRequest) (id fallbackProfile reason : String)
    (fallbackOf : String)
    : AgentInvocationRequest :=
  {
    request with
    abortSignal := none
    id := some id
    profile := fallbackProfile
    fallbackOfInvocationId := some fallbackOf
    fallbackReason := some reason
  }

/-- The escalation of an outcome to the phase's fallback profile, which does not escalate
again.
-/
def escalate (request : AgentInvocationRequest) (allowSerializationFallback : Bool)
    (started : Started) (result : AgentInvocationResult)
    : RouterStatements AgentInvocationResult := do
  let stderr ← call (.readStderr result.stderrPath)
  if shouldFallback library result stderr opts.agent request.phaseId allowSerializationFallback
  then
    match fallbackTarget opts request.phaseId with
    | none => pure (finish started result)
    | some (fallbackProfileName, fallbackProfile) => do
        let trigger := determineTriggerReason library result stderr
        let fallbackId ← call .newId
        emitFallbackEvent opts request.runId request.profile fallbackProfileName trigger "router"
        let fallbackResult ← dispatchThen library opts
          (fallbackRequest request fallbackId fallbackProfileName trigger.reason
            started.invocation.id)
          fun started result => pure (finish started result)
        pure {
          fallbackResult with
          invocationId :=
            AgentInvocationResult.invocationId fallbackResult <|> some started.invocation.id
          provider := (effectiveProfile opts fallbackProfile).1
          model := (effectiveProfile opts fallbackProfile).2
        }
  else
    pure (finish started result)

def dispatch (request : AgentInvocationRequest)
    (isFallbackOrCallerSignalled allowSerializationFallback : Bool)
    : RouterStatements AgentInvocationResult :=
  dispatchThen library opts request
    (if isFallbackOrCallerSignalled then fun started result => pure (finish started result)
    else escalate library opts request allowSerializationFallback)

/-- The invocation that a request is chained to, after the event of a chained request. -/
def readPrevious (request : AgentInvocationRequest)
    : RouterStatements (Option AgentInvocation) :=
  match truthy request.fallbackOfInvocationId with
  | none => pure none
  | some fallbackOf => do
      let previous ← call (.findById fallbackOf)
      let fromProfile := (Option.map AgentInvocation.profile previous).getD "unknown"
      emitFallbackEvent opts request.runId fromProfile request.profile
        { reason := sliceTo (request.fallbackReason.getD "unknown") 64 } "use_case"
      pure previous

/-- `AgentRuntimeRouter.invoke`: a chained request for the same profile may still escalate. -/
def invoke (request : AgentInvocationRequest) : RouterStatements AgentInvocationResult := do
  let previous ← readPrevious opts request
  let hasFallbackChain := isSet request.fallbackOfInvocationId
  let isSameProfileChainedRetry :=
    Option.any (fun invocation : AgentInvocation => invocation.profile = request.profile) previous
  dispatch library opts request (hasFallbackChain && !isSameProfileChainedRetry)
    isSameProfileChainedRetry

end Statements

end AgentRuntimeRouter

end AiSdlc.Application
