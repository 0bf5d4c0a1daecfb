import AiSdlc.Application.AgentRuntimeRouter

/-! Which adapters one invocation of the router calls: the one of the requested profile, and
after an outcome that escalates the one of the phase's fallback profile.
-/

namespace AiSdlc.Application

open AiSdlc.Js
open AiSdlc.Domain
open AiSdlc.Async
open AgentRuntimeRouter

/-- What one invocation is answered about its primary adapter: the invocation that it is chained
to, the adapter's result, why the caller's signal was aborted by then, whether the profile's
timeout was, and the error log.
-/
structure PrimaryAnswers where
  previous : Option AgentInvocation
  result : AgentInvocationResult
  callerAborted : Option AbortCause
  profileTimedOut : Bool
  stderr : Option String

/-- What a call is answered, when the adapters of these runtimes have been called; the other
answers are free. A smooth invocation finds no retry recorded.
-/
def PrimaryAnswers.Tells (answers : PrimaryAnswers) (smooth : Prop)
    (called : List AgentRuntimeKind)
    : (request : RouterRequest) → request.Answer → Prop
  | .findById _, previous => previous = answers.previous
  | .listByRun _, prior => smooth → prior = []
  | .awaitAdapter, result => called.length = 1 → result = answers.result
  | .callerAborted _, cause => called.length = 1 → cause = answers.callerAborted
  | .profileTimedOut, timedOut => called.length = 1 → timedOut = answers.profileTimedOut
  | .readStderr _, stderr => called.length = 1 → stderr = answers.stderr
  | _, _ => True

/-- The replies to one invocation, with the runtimes of the adapters that it has called, the
latest one first. In a smooth invocation no call throws.
-/
def PrimaryAnswers.replies (answers : PrimaryAnswers) (smooth : Prop)
    : Environment (List AgentRuntimeKind) RouterRequest RouterRequest.Reply
  | called, .callAdapter _ runtime _, reply, after =>
      (smooth → reply = .ok ()) ∧ after = runtime :: called
  | called, _, .error _, after => ¬smooth ∧ after = called
  | called, request, .ok answer, after =>
      answers.Tells smooth called request answer ∧ after = called

section Escalation

variable (library : RouterLibrary) (opts : AgentRuntimeRouterOptions)
  (request : AgentInvocationRequest) (answers : PrimaryAnswers)

/-- The profile that a request calls an adapter for. -/
def calledProfile : Option AgentProfile := do
  let profile ← opts.agent.profiles.lookup request.profile
  if profile.runtime ∈ opts.adapters
      && !request.expectedArtifacts.any (isTraversal library request.cwd) then
    some profile
  else
    none

/-- Whether the timeout of the profile or of the caller has aborted the primary adapter. -/
def PrimaryAnswers.timedOut (profile : AgentProfile) : Bool :=
  (0 < request.timeoutMs.getD (profile.timeoutMinutes * 60000) && answers.profileTimedOut)
  || (request.abortSignal.isSome && answers.callerAborted = some .timeout)

/-- `isSameProfileChainedRetry`. -/
def PrimaryAnswers.sameProfile : Bool :=
  isSet request.fallbackOfInvocationId && answers.previous.any (·.profile = request.profile)

/-- The profile that the invocation escalates to, if it does: it is not itself a fallback, its
outcome fires a trigger of the phase, and the phase has a fallback profile with an adapter.
-/
def PrimaryAnswers.escalation (profile : AgentProfile) : Option AgentProfile :=
  let result := reclassify answers.result (answers.timedOut request profile)
  let same := answers.sameProfile request
  if (!isSet request.fallbackOfInvocationId || same)
      && shouldFallback library result answers.stderr opts.agent request.phaseId same then
    (fallbackTarget opts request.phaseId).map (·.2)
  else
    none

/-- The runtimes of the adapters that a smooth invocation calls, the latest one first. -/
def PrimaryAnswers.calls : List AgentRuntimeKind :=
  match calledProfile library opts request with
  | none => []
  | some profile =>
      match answers.escalation library opts request profile with
      | none => [profile.runtime]
      | some fallbackProfile => [fallbackProfile.runtime, profile.runtime]

end Escalation

/-- An adapter is called as the next one of those that are to be called. -/
def CallsOf (final called : List AgentRuntimeKind) : RouterRequest → Prop
  | .callAdapter _ runtime _ => runtime :: called <:+ final
  | _ => True

section Statements

variable {library : RouterLibrary} {opts : AgentRuntimeRouterOptions}
  {request : AgentInvocationRequest} {answers : PrimaryAnswers} {smooth : Prop}
  {final called : List AgentRuntimeKind}

/-- Statements that call the adapters in their order, and all of them where they end a smooth
invocation early.
-/
abbrev Calling {α : Type} (answers : PrimaryAnswers) (smooth : Prop)
    (final : List AgentRuntimeKind) (before : List AgentRuntimeKind → Prop)
    (after : α → List AgentRuntimeKind → Prop) (statements : RouterStatements α)
    : Prop :=
  statements.Yields (answers.replies smooth) (CallsOf final) (fun _ => before)
    (fun value _ => after value) fun _ reached => smooth → reached = final

/-- Statements that call no adapter, with what is known about their value; they throw only
where the invocation is not a smooth one.
-/
abbrev Asking {α : Type} (answers : PrimaryAnswers) (smooth : Prop)
    (final called : List AgentRuntimeKind) (after : α → Prop) (statements : RouterStatements α)
    : Prop :=
  statements.Yields (answers.replies smooth) (CallsOf final) (fun _ => (· = called))
    (fun value _ reached => reached = called ∧ after value)
    fun _ reached => reached = called ∧ ¬smooth

theorem asking_call {asked : RouterRequest}
    (plain : asked.callsAdapter = false)
    : Asking answers smooth final called (answers.Tells smooth called asked) (call asked) := by
  refine Block.yields_call ?_ ?_ ?_
  · intro _ reached _
    cases asked <;> trivial
  · intro _ reached next answer same replied
    cases same
    cases asked <;> first | exact replied.symm | exact Bool.noConfusion plain
  · intro _ reached next error same replied
    cases same
    cases asked <;> first | exact replied.symm | exact Bool.noConfusion plain

theorem asking_pure {α : Type} {value : α} {after : α → Prop} (holds : after value)
    : Asking answers smooth final called after (pure value) :=
  Block.yields_pure fun _ _ same => ⟨same, holds⟩

theorem asking_bind {α β : Type} {middle : α → Prop} {after : β → Prop}
    {first : RouterStatements α} {next : α → RouterStatements β}
    (asking : Asking answers smooth final called middle first)
    (rest : ∀ value, middle value → Asking answers smooth final called after (next value))
    : Asking answers smooth final called after (first >>= next) :=
  Block.yields_bind asking fun value => Block.yields_of_fact (rest value)

theorem asking_trivially {α : Type} {after : α → Prop} {statements : RouterStatements α}
    (asking : Asking answers smooth final called after statements)
    : Asking answers smooth final called (fun _ => True) statements :=
  asking.mono (fun _ _ same => same) (fun _ _ _ ended => ⟨ended.1, trivial⟩)
    fun _ _ ended => ended

theorem asking_any {asked : RouterRequest}
    (plain : asked.callsAdapter = false)
    : Asking answers smooth final called (fun _ => True) (call asked) :=
  asking_trivially (asking_call plain)

theorem asking_ifThen {condition : Bool} {statements : RouterStatements Unit}
    (asking : Asking answers smooth final called (fun _ => True) statements)
    : Asking answers smooth final called (fun _ => True)
        (Block.ifThen condition statements) := by
  cases condition with
  | true => exact asking
  | false => exact asking_pure trivial

theorem asking_attempt {α : Type} {after : α → Prop} {statements : RouterStatements α}
    {recover : RouterError → RouterStatements α}
    (tried : Asking answers smooth final called after statements)
    (recovered : ∀ error, Asking answers smooth final called after (recover error))
    : Asking answers smooth final called after (Block.attempt statements recover) := by
  refine Block.yields_attempt tried (fun error => ?_) fun _ _ ended => ended
  exact (recovered error).mono (fun _ _ ended => ended.1) (fun _ _ _ ended => ended)
    fun _ _ ended => ended

theorem asking_contained {statements : RouterStatements Unit}
    (asking : Asking answers smooth final called (fun _ => True) statements)
    : Asking answers smooth final called (fun _ => True) (contained statements) :=
  asking_attempt asking fun _ => asking_pure trivial

theorem calling_bind {α β : Type} {middle : α → Prop} {after : β → List AgentRuntimeKind → Prop}
    {first : RouterStatements α} {next : α → RouterStatements β}
    (asking : Asking answers smooth final called middle first)
    (rest : ∀ value, middle value →
      Calling answers smooth final (· = called) after (next value))
    : Calling answers smooth final (· = called) after (first >>= next) := by
  refine Block.yields_bind (asking.mono (fun _ _ same => same) (fun _ _ _ ended => ended) ?_)
    fun value => Block.yields_of_fact (rest value)
  exact fun _ _ ended smoothly => absurd smoothly ended.2

theorem asking_publish {runId type message : String} {level : EventLevel} {publishedAt : Date}
    : Asking answers smooth final called (fun _ => True)
        (publish runId level type message publishedAt) :=
  asking_any rfl

theorem asking_warn {runId type message : String} {warnedAt : Date}
    : Asking answers smooth final called (fun _ => True)
        (warn opts runId type message warnedAt) := by
  unfold warn
  split
  · exact asking_publish
  · exact asking_any rfl

theorem asking_emitFallbackEvent {runId fromProfile toProfile owner : String}
    {trigger : TriggerClassification}
    : Asking answers smooth final called (fun _ => True)
        (emitFallbackEvent opts runId fromProfile toProfile trigger owner) :=
  asking_ifThen (asking_bind (asking_any rfl) fun _ _ => asking_publish)

theorem asking_generateIdentity {promptContent : String}
    : Asking answers smooth final called (fun _ => True)
        (generateIdentity library request promptContent) := by
  unfold generateIdentity
  cases semanticRetry request with
  | none => exact asking_pure trivial
  | some intent =>
      exact asking_bind (asking_any rfl) fun _ _ => asking_pure trivial

theorem asking_isDuplicate {started : Started}
    : Asking answers smooth final called (fun hasDuplicate => smooth → hasDuplicate = false)
        (isDuplicate opts request started) := by
  unfold isDuplicate
  cases started.retryIdentity with
  | none => exact asking_pure fun _ => rfl
  | some identity =>
      refine asking_bind (asking_call rfl) fun prior told => ?_
      split
      · rename_i recorded
        refine asking_pure fun smoothly => ?_
        rw [told smoothly] at recorded
        contradiction
      · refine asking_bind (asking_ifThen ?_) fun _ _ => asking_pure fun _ => rfl
        exact asking_bind (asking_any rfl) fun _ _ => asking_publish

theorem asking_suppress {started : Started}
    : Asking answers smooth final called (fun _ => True) (suppress started) := by
  refine asking_bind (asking_any rfl) fun _ _ => ?_
  refine asking_bind (asking_any rfl) fun _ _ => ?_
  refine asking_bind (asking_any rfl) fun _ _ => ?_
  exact asking_pure trivial

/-- Whether the invocation has timed out, as far as the primary adapter is concerned. -/
theorem asking_timedOut {started : Started}
    (timeout : started.timeoutMs = request.timeoutMs.getD (started.profile.timeoutMinutes * 60000))
    : Asking answers smooth final called
        (fun timedOut => called.length = 1 →
          timedOut = answers.timedOut request started.profile)
        (AgentRuntimeRouter.timedOut request started) := by
  have profileTimedOut : Asking answers smooth final called
      (fun timedOut => called.length = 1 →
        timedOut = (decide (0 < started.timeoutMs) && answers.profileTimedOut))
      (if 0 < started.timeoutMs then call .profileTimedOut else pure false
        : RouterStatements Bool) := by
    split
    · rename_i limited
      refine (asking_call rfl).mono (fun _ _ same => same) ?_ fun _ _ ended => ended
      intro timedOut _ _ ended
      refine ⟨ended.1, fun primary => ?_⟩
      simpa [limited] using ended.2 primary
    · rename_i unlimited
      exact asking_pure fun _ => by simp [unlimited]
  refine asking_bind (?caller : Asking answers smooth final called
    (fun timedOut => called.length = 1 →
      timedOut = (request.abortSignal.isSome && answers.callerAborted = some .timeout)) _)
    fun caller callers => ?_
  case caller =>
    cases request.abortSignal with
    | none => exact asking_pure fun _ => rfl
    | some signal =>
        refine asking_bind (asking_call rfl) fun cause told => ?_
        refine asking_pure fun primary => ?_
        rw [told primary]
        rfl
  refine asking_bind profileTimedOut fun profile profiles => ?_
  refine asking_pure fun primary => ?_
  rw [callers primary, profiles primary, timeout]
  rfl

theorem asking_noteProviderFailures {result : AgentInvocationResult}
    : Asking answers smooth final called (fun _ => True)
        (noteProviderFailures request result) := by
  refine asking_ifThen (asking_attempt ?_ fun _ => asking_pure trivial)
  refine asking_bind (asking_any rfl) fun _ _ => asking_ifThen ?_
  exact asking_bind (asking_any rfl) fun _ _ => asking_any rfl

theorem asking_recordUsage {started : Started} {result : AgentInvocationResult} {endedAt : Date}
    : Asking answers smooth final called (fun _ => True)
        (recordUsage opts request started result endedAt) :=
  asking_ifThen (asking_attempt (asking_any rfl) fun _ =>
    asking_contained asking_warn)

theorem asking_publishUsage {started : Started} {result : AgentInvocationResult}
    {endedAt : Date}
    : Asking answers smooth final called (fun _ => True)
        (publishUsage opts request started result endedAt) := by
  unfold publishUsage
  cases result.usage with
  | some usage => exact asking_contained (asking_ifThen asking_publish)
  | none => exact asking_contained asking_warn

theorem asking_recordResult {started : Started} {answered : AgentInvocationResult}
    (timeout : started.timeoutMs = request.timeoutMs.getD (started.profile.timeoutMinutes * 60000))
    : Asking answers smooth final called
        (fun result => called.length = 1 →
          result = reclassify answered (answers.timedOut request started.profile))
        (recordResult opts request started answered) := by
  refine asking_bind (asking_timedOut timeout) fun timedOut told => ?_
  refine asking_bind asking_noteProviderFailures fun _ _ => ?_
  refine asking_bind (asking_any rfl) fun endedAt _ => ?_
  refine asking_bind (asking_any rfl) fun _ _ => ?_
  refine asking_bind asking_recordUsage fun _ _ => ?_
  refine asking_bind asking_publishUsage fun _ _ => ?_
  exact asking_pure fun primary => by rw [told primary]

/-- What the router has prepared an invocation with. -/
structure Prepared (opts : AgentRuntimeRouterOptions) (request : AgentInvocationRequest)
    (started : Started)
    : Prop where
  found : opts.agent.profiles.lookup request.profile = some started.profile
  registered : started.profile.runtime ∈ opts.adapters
  timeoutMs : started.timeoutMs = request.timeoutMs.getD (started.profile.timeoutMinutes * 60000)

theorem calling_prepare (unprepared : calledProfile library opts request = none → called = final)
    : Calling answers smooth final (· = called)
        (fun started reached => reached = called ∧ Prepared opts request started)
        (prepare library opts request) := by
  unfold prepare
  cases found : opts.agent.profiles.lookup request.profile with
  | none =>
      refine Block.yields_throw fun _ _ same _ => ?_
      exact same.trans (unprepared (by simp [calledProfile, found]))
  | some profile =>
      refine Block.yields_ite (fun registered => ?_) fun missing => ?_
      · refine calling_bind (?id : Asking answers smooth final called (fun _ => True) _)
          fun id _ => ?_
        case id =>
          cases request.id with
          | some id => exact asking_pure trivial
          | none => exact asking_any rfl
        refine calling_bind (asking_any rfl) fun startedAt _ => ?_
        refine calling_bind (asking_any rfl) fun promptContent _ => ?_
        refine calling_bind asking_generateIdentity fun retryIdentity _ => ?_
        exact Block.yields_pure fun _ _ same => ⟨same, found, registered, rfl⟩
      · refine Block.yields_throw fun _ _ same _ => ?_
        exact same.trans (unprepared (by simp [calledProfile, found, missing]))

/-- Clearing the artifacts throws at a path that leads out of the working directory. -/
theorem calling_clearArtifacts
    (unprepared : request.expectedArtifacts.any (isTraversal library request.cwd) = true →
      called = final)
    : Calling answers smooth final (· = called)
        (fun _ reached => reached = called
          ∧ request.expectedArtifacts.any (isTraversal library request.cwd) = false)
        (clearArtifacts library request) := by
  unfold clearArtifacts
  generalize request.expectedArtifacts = artifacts at unprepared ⊢
  induction artifacts with
  | nil => exact Block.yields_pure fun _ _ same => ⟨same, rfl⟩
  | cons artifact rest ih =>
      cases leads : isTraversal library request.cwd artifact with
      | true =>
          rw [Block.forEach, if_pos leads]
          intro _ reached same _
          exact same.trans (unprepared (by simp [leads]))
      | false =>
          have cleared : Asking answers smooth final called (fun _ => True)
              (if isTraversal library request.cwd artifact then
                Block.throw (.error s!"Invalid artifact path (traversal detected): {artifact}")
              else if artifact ∈ request.preserveExpectedArtifacts then
                pure ()
              else
                call (.removeArtifact (library.join request.cwd artifact))
                : RouterStatements Unit) := by
            rw [leads]
            refine Block.yields_ite Bool.false_ne_true.elim fun _ => ?_
            exact Block.yields_ite (fun _ => asking_pure trivial) fun _ => asking_any rfl
          refine calling_bind cleared fun _ _ => ?_
          simpa [leads] using ih fun outside => unprepared (by simp [outside])

/-- The call of an adapter, whose result is the primary one if it is called first. -/
theorem calling_runAdapter {started : Started}
    (permitted : started.profile.runtime :: called <:+ final)
    : Calling answers smooth final (· = called)
        (fun result reached => reached = started.profile.runtime :: called
          ∧ (called = [] → result = answers.result))
        (runAdapter request started) := by
  have tried : (do
        call (.callAdapter started.retryIdentity started.profile.runtime (enrich request started))
        call .awaitAdapter : RouterStatements AgentInvocationResult).Yields
      (answers.replies smooth) (CallsOf final) (fun _ => (· = called))
      (fun result _ reached => reached = started.profile.runtime :: called
        ∧ (called = [] → result = answers.result))
      fun _ reached => reached = started.profile.runtime :: called ∧ ¬smooth := by
    have launched : (call (.callAdapter started.retryIdentity started.profile.runtime
          (enrich request started))).Yields
        (answers.replies smooth) (CallsOf final) (fun _ => (· = called))
        (fun _ _ => (· = started.profile.runtime :: called))
        fun _ reached => reached = started.profile.runtime :: called ∧ ¬smooth := by
      refine Block.yields_call ?_ ?_ ?_
      · exact fun _ _ same => same ▸ permitted
      · exact fun _ _ _ _ same replied => same ▸ replied.2
      · intro _ reached next error same replied
        exact ⟨same ▸ replied.2, fun smoothly => nomatch replied.1 smoothly⟩
    refine Block.yields_bind launched fun _ => ?_
    refine (asking_call rfl).mono (fun _ _ same => same) ?_ fun _ _ ended => ended
    rintro result _ _ ⟨same, told⟩
    exact ⟨same, fun first => told (by simp [first])⟩
  refine Block.yields_attempt tried (fun error => ?_)
    fun _ _ ended smoothly => absurd smoothly ended.2
  refine Block.yields_of_fact fun rough => ?_
  refine calling_bind (asking_any rfl) fun endedAt _ => ?_
  refine calling_bind (asking_any rfl) fun _ _ => ?_
  exact Block.yields_throw fun _ _ _ smoothly => absurd smoothly rough

/-- Where the adapter of a request has answered, the settling goes on. -/
theorem calling_dispatchThen
    {settle : Started → AgentInvocationResult → RouterStatements AgentInvocationResult}
    (unprepared : calledProfile library opts request = none → called = final)
    (permitted : ∀ profile, calledProfile library opts request = some profile →
      profile.runtime :: called <:+ final)
    (settles : ∀ started result,
      calledProfile library opts request = some started.profile →
      (called = [] →
        result = reclassify answers.result (answers.timedOut request started.profile)) →
      Calling answers smooth final (· = started.profile.runtime :: called)
        (fun _ reached => smooth → reached = final) (settle started result))
    : Calling answers smooth final (· = called) (fun _ reached => smooth → reached = final)
        (dispatchThen library opts request settle) := by
  refine Block.yields_bind (calling_prepare unprepared) fun started =>
    Block.yields_of_fact fun prepared => ?_
  refine calling_bind asking_isDuplicate fun hasDuplicate unrecorded => ?_
  refine Block.yields_ite (fun duplicate => ?_) fun _ => ?_
  · have rough (smoothly : smooth) : False :=
      Bool.noConfusion (duplicate.symm.trans (unrecorded smoothly))
    exact asking_suppress.mono (fun _ _ same => same)
      (fun _ _ _ _ smoothly => (rough smoothly).elim)
      fun _ _ ended smoothly => absurd smoothly ended.2
  refine calling_bind (asking_any rfl) fun _ _ => ?_
  refine Block.yields_bind (calling_clearArtifacts fun outside => unprepared ?_) fun _ =>
    Block.yields_of_fact fun inside => ?_
  · simp [calledProfile, prepared.found, outside]
  have adapter : calledProfile library opts request = some started.profile := by
    simp [calledProfile, prepared.found, prepared.registered, inside]
  refine Block.yields_bind (calling_runAdapter (permitted _ adapter)) fun answered =>
    Block.yields_of_fact fun told => ?_
  refine calling_bind (asking_recordResult prepared.timeoutMs) fun result recorded => ?_
  refine settles started result adapter fun first => ?_
  rw [recorded (by simp [first]), told first]

theorem calledProfile_fallback {profile fallbackProfile : AgentProfile}
    {name id reason fallbackOf : String}
    (target : fallbackTarget opts request.phaseId = some (name, fallbackProfile))
    (primary : calledProfile library opts request = some profile)
    : calledProfile library opts (fallbackRequest request id name reason fallbackOf)
      = some fallbackProfile := by
  have inside : request.expectedArtifacts.any (isTraversal library request.cwd) = false := by
    simp only [calledProfile, Option.bind_eq_bind, Option.bind_eq_some_iff] at primary
    obtain ⟨found, -, chosen⟩ := primary
    split at chosen
    · rename_i holds
      simpa using (Bool.and_eq_true_iff.mp holds).2
    · contradiction
  simp only [fallbackTarget, Option.bind_eq_bind, Option.bind_eq_some_iff] at target
  obtain ⟨entry, -, fallbackName, -, found, looked, chosen⟩ := target
  split at chosen
  · rename_i registered
    obtain ⟨rfl, rfl⟩ := Prod.mk.inj (Option.some.inj chosen)
    simp [calledProfile, fallbackRequest, looked, registered, inside]
  · contradiction

theorem calling_pure {value : AgentInvocationResult} (whole : called = final)
    : Calling answers smooth final (· = called) (fun _ reached => smooth → reached = final)
        (pure value) :=
  Block.yields_pure fun _ _ same _ => same.trans whole

/-- An outcome escalates to the profile that the answers tell. -/
theorem calling_escalate {started : Started} {result : AgentInvocationResult}
    (primary : calledProfile library opts request = some started.profile)
    (recorded : result = reclassify answers.result (answers.timedOut request started.profile))
    (unchained : (!isSet request.fallbackOfInvocationId || answers.sameProfile request) = true)
    : Calling answers smooth (answers.calls library opts request)
        (· = [started.profile.runtime])
        (fun _ reached => smooth → reached = answers.calls library opts request)
        (escalate library opts request (answers.sameProfile request) started result) := by
  refine calling_bind (asking_call rfl) fun stderr told => ?_
  have log : stderr = answers.stderr := told rfl
  subst log
  have escalation : answers.escalation library opts request started.profile
      = if shouldFallback library result answers.stderr opts.agent request.phaseId
          (answers.sameProfile request) then
        (fallbackTarget opts request.phaseId).map (·.2)
      else none := by
    simp only [PrimaryAnswers.escalation, unchained, Bool.true_and, recorded]
  refine Block.yields_ite (fun fires => ?_) fun stays => ?_
  · rw [if_pos fires] at escalation
    cases target : fallbackTarget opts request.phaseId with
    | none =>
        simp only [target, Option.map_none] at escalation
        exact calling_pure (by simp [PrimaryAnswers.calls, primary, escalation])
    | some chosen =>
        obtain ⟨name, fallbackProfile⟩ := chosen
        simp only [target, Option.map_some] at escalation
        have calls : answers.calls library opts request
            = [fallbackProfile.runtime, started.profile.runtime] := by
          simp [PrimaryAnswers.calls, primary, escalation]
        refine calling_bind (asking_any rfl) fun fallbackId _ => ?_
        refine calling_bind asking_emitFallbackEvent fun _ _ => ?_
        have next : calledProfile library opts (fallbackRequest request fallbackId name
            (determineTriggerReason library result answers.stderr).reason started.invocation.id)
              = some fallbackProfile :=
          calledProfile_fallback target primary
        refine Block.yields_bind (calling_dispatchThen ?_ ?_ ?_) fun fallbackResult => ?_
        · exact fun missing => nomatch missing.symm.trans next
        · intro profile called
          cases called.symm.trans next
          rw [calls]
        · intro fallback result called _
          cases called.symm.trans next
          exact calling_pure calls.symm
        · exact Block.yields_pure fun _ _ whole => whole
  · rw [if_neg stays] at escalation
    exact calling_pure (by simp [PrimaryAnswers.calls, primary, escalation])

/-- Whether a chained request repeats the profile of the invocation that it is chained to. -/
theorem asking_readPrevious
    : Asking answers smooth final called
        (fun previous => Option.any (fun invocation : AgentInvocation =>
          invocation.profile = request.profile) previous = answers.sameProfile request)
        (readPrevious opts request) := by
  unfold readPrevious PrimaryAnswers.sameProfile
  cases chained : truthy request.fallbackOfInvocationId with
  | none =>
      have unset : isSet request.fallbackOfInvocationId = false := by
        refine Bool.eq_false_iff.mpr fun set => ?_
        obtain ⟨text, given, nonempty⟩ := isSet_iff.mp set
        simp [given, truthy, nonempty] at chained
      exact asking_pure (by simp [unset])
  | some fallbackOf =>
      have set : isSet request.fallbackOfInvocationId = true :=
        isSet_iff.mpr ⟨fallbackOf, truthy_eq_some.mp chained⟩
      refine asking_bind (asking_call rfl) fun previous told => ?_
      refine asking_bind asking_emitFallbackEvent fun _ _ => ?_
      exact asking_pure (by rw [set, Bool.true_and, show previous = answers.previous from told])

/-- An invocation calls the adapters that the answers about the primary one tell. -/
theorem calling_invoke
    : Calling answers smooth (answers.calls library opts request) (· = [])
        (fun _ reached => smooth → reached = answers.calls library opts request)
        (invoke library opts request) := by
  refine calling_bind asking_readPrevious fun previous same => ?_
  rw [same]
  refine calling_dispatchThen ?_ ?_ ?_
  · intro missing
    simp [PrimaryAnswers.calls, missing]
  · intro profile primary
    simp only [PrimaryAnswers.calls, primary]
    split
    · exact List.suffix_rfl
    · exact List.suffix_cons ..
  · intro started result primary recorded
    cases chained : isSet request.fallbackOfInvocationId && !answers.sameProfile request with
    | true =>
        refine calling_pure ?_
        have stays : answers.escalation library opts request started.profile = none := by
          obtain ⟨set, other⟩ := Bool.and_eq_true_iff.mp chained
          simp [PrimaryAnswers.escalation, set, Bool.not_eq_true' _ ▸ other]
        simp [PrimaryAnswers.calls, primary, stays]
    | false =>
        refine calling_escalate primary (recorded rfl) ?_
        cases set : isSet request.fallbackOfInvocationId with
        | true => simpa [set] using chained
        | false => rfl

end Statements

end AiSdlc.Application
