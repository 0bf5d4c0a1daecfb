import AiSdlc.Application.RetryIdentities

/-! Any number of invocations side by side: along every run no retry identity is executed twice,
and a request whose identity is recorded by then is suppressed in its first turn.
-/

namespace AiSdlc.Application

open AiSdlc.Js
open AiSdlc.Domain
open AiSdlc.Async
open AiSdlc.Transition
open AgentRuntimeRouter

section Invocations

variable {format : IdentityFormat} {stored : List AgentInvocation}
  {opts : AgentRuntimeRouterOptions} {request : AgentInvocationRequest}

theorem steady_escalate {allowSerializationFallback : Bool} {started : Started}
    {result : AgentInvocationResult}
    : Steady format stored (Unrepeated stored)
        (escalate format.library opts request allowSerializationFallback started result) := by
  refine Block.yields_bind (turning_read rfl unrepeated_self) fun stderr => ?_
  refine Block.yields_ite (fun _ => ?_) fun _ => Block.yields_pure fun _ _ before => before
  cases fallbackTarget opts request.phaseId with
  | none => exact Block.yields_pure fun _ _ before => before
  | some target =>
      refine Block.yields_bind (turning_read rfl unrepeated_self) fun fallbackId => ?_
      refine Block.yields_bind (steady_emitFallbackEvent unrepeated_self) fun _ => ?_
      refine Block.yields_bind (steady_dispatchThen fun _ _ => ?_) fun fallbackResult => ?_
      · exact Block.yields_pure fun _ _ before => before
      · exact Block.yields_pure fun _ _ before => before

/-- An invocation and its fallback repeat no identity, beside any others. -/
theorem steady_invoke
    : Steady format stored (Unrepeated stored) (invoke format.library opts request) := by
  have previous : Steady format stored (Unrepeated stored) (readPrevious opts request) := by
    unfold readPrevious
    cases truthy request.fallbackOfInvocationId with
    | none => exact Block.yields_pure fun _ _ before => before
    | some fallbackOf =>
        refine Block.yields_bind (turning_read rfl unrepeated_self) fun _ => ?_
        refine Block.yields_bind (steady_emitFallbackEvent unrepeated_self) fun _ => ?_
        exact Block.yields_pure fun _ _ before => before
  refine Block.yields_bind previous fun previous => steady_dispatchThen fun started result => ?_
  split
  · exact Block.yields_pure fun _ _ before => before
  · exact steady_escalate

end Invocations

abbrev RouterEnding : Type :=
  Completion RouterError Empty AgentInvocationResult × Unit

abbrev RouterProgram : Type :=
  Program RouterRequest RouterRequest.Reply RouterEnding

def isInvocation (format : IdentityFormat) (program : RouterProgram) : Prop :=
  ∃ opts request, program = invoke format.library opts request ()

/-- What happens besides: the files change, and the repository is used by others, which keep
the identities that are recorded.
-/
def besideInvocations (store : RouterStore) (_ : Unit) (after : RouterStore) : Prop :=
  after.executed = store.executed
  ∧ ∀ runId identity, Recorded store.rows runId identity → Recorded after.rows runId identity

/-- Any number of invocations of any requests, which switch where they await; the repository
holds the given rows at the start.
-/
def routerSystem (format : IdentityFormat) (stored : List AgentInvocation)
    : System (Pool RouterStore RouterRequest RouterRequest.Reply RouterEnding)
        (PoolLabel Unit RouterRequest RouterRequest.Reply RouterEnding) :=
  turnSystem RouterRequest.awaits (fun store => store.rows = stored ∧ store.executed = [])
    (RouterStore.Answers format) besideInvocations (isInvocation format)

theorem unrepeated_of_run {format : IdentityFormat} {stored : List AgentInvocation}
    {labels : List (PoolLabel Unit RouterRequest RouterRequest.Reply RouterEnding)}
    {pool : Pool RouterStore RouterRequest RouterRequest.Reply RouterEnding}
    (run : (routerSystem format stored).Run labels pool)
    : Unrepeated stored pool.state.rows pool.state.executed := by
  have safe (program : RouterProgram) (store : RouterStore) (invokes : isInvocation format program)
      (unrepeated : Unrepeated stored store.rows store.executed)
      : program.Cooperates RouterRequest.awaits
          (fun store => Unrepeated stored store.rows store.executed)
          (RouterStore.Answers format) store := by
    obtain ⟨opts, request, rfl⟩ := invokes
    refine Program.Ensures.mono (steady_invoke () store unrepeated) (fun _ _ holds => holds) ?_
    rintro ⟨completion, locals⟩ reached ended
    cases completion <;> exact ended
  have begins (store : RouterStore) (initially : store.rows = stored ∧ store.executed = [])
      : Unrepeated stored store.rows store.executed := by
    rw [initially.1, initially.2]
    exact {
      recorded := fun _ _ member => absurd member List.not_mem_nil
      once := List.nodup_nil
      kept := fun _ _ there => there
      spared := fun _ _ _ => List.not_mem_nil
    }
  have keeps (store : RouterStore) (event : Unit) (after : RouterStore)
      (unrepeated : Unrepeated stored store.rows store.executed)
      (happened : besideInvocations store event after)
      : Unrepeated stored after.rows after.executed :=
    happened.1 ▸ unrepeated.of_kept happened.2
  exact (cooperates_of_run safe begins keeps run).1

/-- The retry identity that a request has, as the files are. -/
def identityOf (format : IdentityFormat) (files : String → Option String)
    (request : AgentInvocationRequest)
    : Option String :=
  truthy ((semanticRetry request).map fun intent =>
    format.generate files
      (identityInput format.library request intent ((files request.promptPath).getD "")))

/-- Statements that await nothing and call no adapter, and return that the retry was
suppressed, unless a call throws.
-/
def Suppresses (format : IdentityFormat) (store : RouterStore)
    (statements : RouterStatements AgentInvocationResult)
    : Prop :=
  Program.Ensures (RouterStore.Answers format)
    (fun _ asked => asked.awaits = false ∧ asked.callsAdapter = false)
    (fun ended _ => ∀ result, ended.1 = .normal result →
      result.outcome = .duplicateRetrySuppressed)
    (statements ()) store

section Suppression

variable {format : IdentityFormat} {store : RouterStore} {opts : AgentRuntimeRouterOptions}
  {request : AgentInvocationRequest} {own : String}

/-- Statements that leave the store as it is, with what is known about their value; they await
nothing and call no adapter.
-/
abbrev Still {α : Type} (format : IdentityFormat) (store : RouterStore) (after : α → Prop)
    (statements : RouterStatements α)
    : Prop :=
  statements.Yields (RouterStore.Answers format)
    (fun _ asked => asked.awaits = false ∧ asked.callsAdapter = false)
    (fun _ => (· = store)) (fun value _ reached => reached = store ∧ after value) fun _ _ => True

theorem still_pure {α : Type} {value : α} {after : α → Prop} (holds : after value)
    : Still format store after (pure value) :=
  Block.yields_pure fun _ _ same => ⟨same, holds⟩

theorem still_bind {α β : Type} {middle : α → Prop} {after : β → Prop}
    {first : RouterStatements α} {next : α → RouterStatements β}
    (still : Still format store middle first)
    (rest : ∀ value, middle value → Still format store after (next value))
    : Still format store after (first >>= next) :=
  Block.yields_bind still fun value => Block.yields_of_fact (rest value)

theorem still_call {asked : RouterRequest} {after : asked.Answer → Prop}
    (atOnce : asked.awaits = false ∧ asked.callsAdapter = false)
    (told : ∀ answer reached, RouterStore.Answers format store asked (.ok answer) reached →
      reached = store ∧ after answer)
    : Still format store after (AgentRuntimeRouter.call asked) := by
  refine Block.yields_call (fun _ _ _ => atOnce) ?_ fun _ _ _ _ _ _ => trivial
  rintro _ _ reached answer rfl answered
  exact told answer reached answered

theorem still_emitFallbackEvent {runId fromProfile toProfile owner : String}
    {trigger : TriggerClassification}
    : Still format store (fun _ => True)
        (emitFallbackEvent opts runId fromProfile toProfile trigger owner) := by
  unfold emitFallbackEvent
  cases opts.eventBus with
  | false => exact still_pure trivial
  | true =>
      have now : Still format store (fun _ => True) (AgentRuntimeRouter.call .now) :=
        still_call ⟨rfl, rfl⟩ fun _ _ answered => ⟨answered, trivial⟩
      exact still_bind now fun _ _ => still_call ⟨rfl, rfl⟩ fun _ _ answered => ⟨answered, trivial⟩

/-- A prepared invocation has the identity of its request. -/
theorem still_prepare (identity : identityOf format store.files request = some own)
    : Still format store (fun started => started.retryIdentity = some own)
        (prepare format.library opts request) := by
  unfold prepare
  cases opts.agent.profiles.lookup request.profile with
  | none => exact Block.yields_throw fun _ _ _ => trivial
  | some profile =>
      refine Block.yields_ite (fun _ => ?_) fun _ => Block.yields_throw fun _ _ _ => trivial
      have now : Still format store (fun _ => True) (AgentRuntimeRouter.call .now) :=
        still_call ⟨rfl, rfl⟩ fun _ _ answered => ⟨answered, trivial⟩
      have prompt : Still format store (· = (store.files request.promptPath).getD "")
          (AgentRuntimeRouter.call (.readPromptContent request.promptPath)) :=
        still_call ⟨rfl, rfl⟩ fun _ _ answered => ⟨answered.2, answered.1⟩
      refine still_bind (?id : Still format store (fun _ => True) _) fun id _ =>
        still_bind now fun startedAt _ => ?_
      case id =>
        cases request.id with
        | some id => exact still_pure trivial
        | none => exact still_call ⟨rfl, rfl⟩ fun _ _ answered => ⟨answered, trivial⟩
      refine still_bind prompt fun promptContent read => ?_
      have generated : Still format store (fun identity => truthy identity = some own)
          (generateIdentity format.library request promptContent) := by
        unfold generateIdentity
        unfold identityOf at identity
        rw [← read] at identity
        cases intends : semanticRetry request with
        | none => simp [intends, truthy] at identity
        | some intent =>
            have generates : Still format store
                (· = format.generate store.files
                  (identityInput format.library request intent promptContent))
                (AgentRuntimeRouter.call (.generateRetryIdentity
                  (identityInput format.library request intent promptContent))) :=
              still_call ⟨rfl, rfl⟩ fun _ _ answered => ⟨answered.2, answered.1⟩
            refine still_bind generates fun value same => still_pure ?_
            simpa [intends, same] using identity
      exact still_bind generated fun retryIdentity same => still_pure same

theorem still_isDuplicate {started : Started} (has : started.retryIdentity = some own)
    (recorded : Recorded store.rows request.runId own)
    : Still format store (· = true) (isDuplicate opts request started) := by
  unfold isDuplicate
  rw [has]
  have listed : Still format store
      (fun prior => prior.Perm (store.rows.filter (·.runId = request.runId)))
      (AgentRuntimeRouter.call (.listByRun request.runId)) :=
    still_call ⟨rfl, rfl⟩ fun _ _ answered => ⟨answered.2, answered.1⟩
  refine still_bind listed fun prior same => ?_
  refine Block.yields_ite (fun _ => still_pure rfl) fun missed => absurd ?_ missed
  obtain ⟨row, member, run, told⟩ := recorded
  refine List.any_eq_true.mpr ⟨row, same.mem_iff.mpr ?_, by simpa using told⟩
  exact List.mem_filter.mpr ⟨member, by simpa using run⟩

/-- A request whose identity is recorded is suppressed, whatever would follow. -/
theorem suppressed_dispatchThen
    {settle : Started → AgentInvocationResult → RouterStatements AgentInvocationResult}
    (identity : identityOf format store.files request = some own)
    (recorded : Recorded store.rows request.runId own)
    : (dispatchThen format.library opts request settle).Yields (RouterStore.Answers format)
        (fun _ asked => asked.awaits = false ∧ asked.callsAdapter = false)
        (fun _ => (· = store))
        (fun result _ _ => result.outcome = .duplicateRetrySuppressed) fun _ _ => True := by
  refine Block.yields_bind (still_prepare identity) fun started =>
    Block.yields_of_fact fun has => ?_
  refine Block.yields_bind (still_isDuplicate has recorded) fun hasDuplicate =>
    Block.yields_of_fact fun duplicate => ?_
  refine Block.yields_ite (fun _ => ?_) fun missed => absurd duplicate missed
  have anywhere {asked : RouterRequest} (atOnce : asked.awaits = false ∧ asked.callsAdapter = false)
      : (AgentRuntimeRouter.call asked).Yields (RouterStore.Answers format)
          (fun _ asked => asked.awaits = false ∧ asked.callsAdapter = false)
          (fun _ _ => True) (fun _ _ _ => True) fun _ _ => True :=
    Block.yields_call (fun _ _ _ => atOnce) (fun _ _ _ _ _ _ => trivial)
      fun _ _ _ _ _ _ => trivial
  have suppresses : (suppress started).Yields (RouterStore.Answers format)
      (fun _ asked => asked.awaits = false ∧ asked.callsAdapter = false) (fun _ _ => True)
      (fun result _ _ => result.outcome = .duplicateRetrySuppressed) fun _ _ => True := by
    refine Block.yields_bind (anywhere ⟨rfl, rfl⟩) fun _ => ?_
    refine Block.yields_bind (anywhere ⟨rfl, rfl⟩) fun _ => ?_
    refine Block.yields_bind (anywhere ⟨rfl, rfl⟩) fun _ => ?_
    exact Block.yields_pure fun _ _ _ => rfl
  exact suppresses.mono (fun _ _ _ => trivial) (fun _ _ _ holds => holds) fun _ _ holds => holds

theorem Suppresses.of_yields {statements : RouterStatements AgentInvocationResult}
    (yields : statements.Yields (RouterStore.Answers format)
      (fun _ asked => asked.awaits = false ∧ asked.callsAdapter = false) (fun _ => (· = store))
      (fun result _ _ => result.outcome = .duplicateRetrySuppressed) fun _ _ => True)
    : Suppresses format store statements := by
  refine Program.Ensures.mono (yields () store rfl) (fun _ _ atOnce => atOnce) ?_
  rintro ⟨completion, locals⟩ reached ended result rfl
  exact ended

theorem still_readPrevious : Still format store (fun _ => True) (readPrevious opts request) := by
  unfold readPrevious
  cases truthy request.fallbackOfInvocationId with
  | none => exact still_pure trivial
  | some fallbackOf =>
      have found : Still format store (fun _ => True)
          (AgentRuntimeRouter.call (.findById fallbackOf)) :=
        still_call ⟨rfl, rfl⟩ fun _ _ answered => ⟨answered.2, trivial⟩
      exact still_bind found fun _ _ => still_bind still_emitFallbackEvent fun _ _ =>
        still_pure trivial

theorem suppresses_dispatch {isFallbackOrCallerSignalled allowSerializationFallback : Bool}
    (identity : identityOf format store.files request = some own)
    (recorded : Recorded store.rows request.runId own)
    : Suppresses format store
        (dispatch format.library opts request isFallbackOrCallerSignalled
          allowSerializationFallback) :=
  .of_yields (suppressed_dispatchThen identity recorded)

theorem suppresses_invoke (identity : identityOf format store.files request = some own)
    (recorded : Recorded store.rows request.runId own)
    : Suppresses format store (invoke format.library opts request) := by
  refine .of_yields (Block.yields_bind still_readPrevious fun _ => ?_)
  refine Block.yields_of_fact fun _ => ?_
  exact suppressed_dispatchThen identity recorded

end Suppression

/-- However many invocations run side by side, and whatever was stored before: no identity is
executed twice, nor one that was stored; and once an identity is stored, recorded or executed,
every further invocation of a request that has it is suppressed in its first turn.
-/
theorem retry_identities_execute_once {format : IdentityFormat} {stored : List AgentInvocation}
    {labels : List (PoolLabel Unit RouterRequest RouterRequest.Reply RouterEnding)}
    {pool : Pool RouterStore RouterRequest RouterRequest.Reply RouterEnding}
    (run : (routerSystem format stored).Run labels pool)
    : pool.state.executed.Nodup
      ∧ (∀ runId identity, Recorded stored runId identity →
        (runId, identity) ∉ pool.state.executed)
      ∧ ∀ opts request identity, identityOf format pool.state.files request = some identity →
        (Recorded stored request.runId identity ∨ Recorded pool.state.rows request.runId identity
          ∨ (request.runId, identity) ∈ pool.state.executed) →
        Suppresses format pool.state (invoke format.library opts request)
        ∧ ∀ isFallbackOrCallerSignalled allowSerializationFallback,
          Suppresses format pool.state
            (dispatch format.library opts request isFallbackOrCallerSignalled
              allowSerializationFallback) := by
  have unrepeated := unrepeated_of_run run
  refine ⟨unrepeated.once, unrepeated.spared, fun opts request own identity known => ?_⟩
  have recorded : Recorded pool.state.rows request.runId own := by
    rcases known with before | now | executed
    · exact unrepeated.kept request.runId own before
    · exact now
    · exact unrepeated.recorded request.runId own executed
  exact ⟨suppresses_invoke identity recorded, fun _ _ => suppresses_dispatch identity recorded⟩

-----------------------------------------------------------------------------------------
-- An invocation that repeats a stored one
-----------------------------------------------------------------------------------------

/-- Identities that are the content of the prompt. -/
def promptFormat : IdentityFormat :=
  {
    library := {
      join := fun cwd path => cwd ++ "/" ++ path
      relative := fun _ path => path
      isAbsolute := fun path => startsWith path "/"
      sha256 := id
      testTokenLimitPatterns := fun _ => none
      testQuotaPatterns := fun _ => none
      testProviderErrorPatterns := fun _ => none
      tryParseOpenCodeError := fun _ => none
    }
    localeCompare := fun _ _ => 0
    stringify := fun input _ => input.promptHash
  }

def repairRequest : AgentInvocationRequest :=
  {
    profile := "writer"
    promptPath := "prompt.md"
    expectedArtifacts := []
    cwd := "worktree"
    runId := "run"
    phaseId := "repair"
    startCommitSha := "sha"
    retryIntent := some {
      normalizedPhase := "repair"
      classification := .semantic
      relevantArtifactPaths := []
    }
  }

def storedRepair : AgentInvocation :=
  {
    id := "earlier"
    runId := "run"
    phaseId := "repair"
    profile := "writer"
    runtime := .codex
    provider := "provider"
    model := "model"
    promptPath := "prompt.md"
    promptChars := 7
    startedAt := Date.epoch
    startCommitSha := "sha"
    timeoutMs := 60000
    metadata := [("retry_identity", .text "Repair.")]
  }

/-- The store before the run: the earlier repair is recorded, its prompt can be read. -/
def repairStore : RouterStore :=
  {
    rows := [storedRepair]
    files := fun path => if path = "prompt.md" then some "Repair." else none
    executed := []
  }

def repairRouter : AgentRuntimeRouterOptions :=
  {
    agent := {
      profiles := [("writer",
        { runtime := .codex, provider := "provider", model := "model", timeoutMinutes := 1 })]
      phaseProfiles := []
    }
    adapters := [.codex]
  }

theorem run_repair
    : (routerSystem promptFormat [storedRepair]).Run
        [.start (invoke promptFormat.library repairRouter repairRequest ())]
        ⟨repairStore, [invoke promptFormat.library repairRouter repairRequest ()]⟩ := by
  have begins : (routerSystem promptFormat [storedRepair]).Run [] ⟨repairStore, []⟩ :=
    .start ⟨⟨rfl, rfl⟩, rfl⟩
  have rests : Pool.RestsBut RouterRequest.awaits none
      (⟨repairStore, []⟩ : Pool RouterStore RouterRequest RouterRequest.Reply RouterEnding) := by
    intro thread program found
    contradiction
  exact .next begins ⟨rests, Pool.Step.start ⟨repairRouter, repairRequest, rfl⟩⟩

theorem identityOf_repair
    : identityOf promptFormat repairStore.files repairRequest = some "Repair." := by
  decide

/-- The identity of the stored repair suppresses another one. -/
theorem retry_identities_execute_once_repair
    : repairStore.executed.Nodup
      ∧ ("run", "Repair.") ∉ repairStore.executed
      ∧ Suppresses promptFormat repairStore
          (invoke promptFormat.library repairRouter repairRequest) := by
  have recorded : Recorded [storedRepair] "run" "Repair." := by
    refine ⟨storedRepair, List.mem_cons_self, rfl, ?_⟩
    decide
  obtain ⟨once, spared, suppresses⟩ := retry_identities_execute_once run_repair
  exact ⟨once, spared _ _ recorded,
    (suppresses repairRouter repairRequest _ identityOf_repair (.inl recorded)).1⟩

end AiSdlc.Application
