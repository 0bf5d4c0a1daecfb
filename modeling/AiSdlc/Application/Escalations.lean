import AiSdlc.Application.AdapterCalls

/-! What an escalation does to a cancelled invocation and to a pinned one: the router does not
ask whether the caller has cancelled the primary adapter, or which runtime the run is pinned to.
-/

namespace AiSdlc.Application

open AiSdlc.Js
open AiSdlc.Domain
open AiSdlc.Async
open AgentRuntimeRouter

section Escalation

variable {library : RouterLibrary} {opts : AgentRuntimeRouterOptions}
  {request : AgentInvocationRequest} {answers : PrimaryAnswers}

theorem invoke_ensures {smooth : Prop}
    : Program.Ensures (answers.replies smooth) (CallsOf (answers.calls library opts request))
        (fun _ reached => smooth → reached = answers.calls library opts request)
        (invoke library opts request ()) [] := by
  refine Program.Ensures.mono (calling_invoke () [] rfl) (fun _ _ calls => calls) ?_
  rintro ⟨completion, locals⟩ reached ended
  cases completion <;> exact ended

/-- Wherever an invocation is cut short, it has called the first of the adapters that it is to
call.
-/
theorem suffix_of_cut {final : List AgentRuntimeKind}
    (execution
      : (invoke library opts request ()).Cut (answers.replies False) [] final)
    : final <:+ answers.calls library opts request := by
  have kept (called : List AgentRuntimeKind) (asked : RouterRequest) (reply : asked.Reply)
      (after : List AgentRuntimeKind) (_ : called <:+ answers.calls library opts request)
      (allowed : CallsOf (answers.calls library opts request) called asked)
      (replied : answers.replies False called asked reply after)
      : after <:+ answers.calls library opts request := by
    cases asked with
    | callAdapter => exact replied.2 ▸ allowed
    | _ => cases reply <;> exact replied.2 ▸ ‹_›
  have called := Program.Ensures.invariant_of_cut invoke_ensures kept List.nil_suffix execution
  exact called

/-- Every call gets a reply in a smooth invocation. -/
theorem exists_reply (called : List AgentRuntimeKind) (asked : RouterRequest)
    : ∃ reply after, answers.replies True called asked reply after := by
  cases asked with
  | now => exact ⟨.ok Date.epoch, called, trivial, rfl⟩
  | newId | readPromptContent | generateRetryIdentity | readFile =>
      exact ⟨.ok "", called, trivial, rfl⟩
  | findById => exact ⟨.ok answers.previous, called, rfl, rfl⟩
  | listByRun => exact ⟨.ok [], called, fun _ => rfl, rfl⟩
  | countConsecutiveProviderFailures => exact ⟨.ok 0, called, trivial, rfl⟩
  | callAdapter identity runtime => exact ⟨.ok (), runtime :: called, fun _ => rfl, rfl⟩
  | awaitAdapter => exact ⟨.ok answers.result, called, fun _ => rfl, rfl⟩
  | callerAborted => exact ⟨.ok answers.callerAborted, called, fun _ => rfl, rfl⟩
  | profileTimedOut => exact ⟨.ok answers.profileTimedOut, called, fun _ => rfl, rfl⟩
  | readStderr => exact ⟨.ok answers.stderr, called, fun _ => rfl, rfl⟩
  | insert | update | insertUsage | publish | emitWarning | removeArtifact | writeFile =>
      exact ⟨.ok (), called, trivial, rfl⟩

theorem replies_of_smooth {called after : List AgentRuntimeKind} {asked : RouterRequest}
    {reply : asked.Reply} (replied : answers.replies True called asked reply after)
    : answers.replies False called asked reply after := by
  cases asked with
  | callAdapter => exact ⟨nofun, replied.2⟩
  | listByRun =>
      cases reply with
      | ok prior => exact ⟨nofun, replied.2⟩
      | error error => exact absurd trivial replied.1
  | _ =>
      cases reply with
      | ok answer => exact replied
      | error error => exact absurd trivial replied.1

theorem cut_calls
    : (invoke library opts request ()).Cut (answers.replies False) []
        (answers.calls library opts request) := by
  obtain ⟨ended, final, execution⟩ :=
    Program.exists_exec exists_reply (invoke library opts request ()) []
  have whole : final = answers.calls library opts request :=
    Program.Ensures.of_exec invoke_ensures execution trivial
  exact whole ▸ execution.cut.mono fun _ _ _ _ => replies_of_smooth

/-- An invocation calls at most one adapter exactly where it does not escalate. -/
theorem length_calls
    : (answers.calls library opts request).length ≤ 1
      ↔ ∀ profile, calledProfile library opts request = some profile →
        answers.escalation library opts request profile = none := by
  unfold PrimaryAnswers.calls
  cases calledProfile library opts request with
  | none => simp
  | some profile =>
      cases escalation : answers.escalation library opts request profile with
      | none => simp [escalation]
      | some fallbackProfile => simp [escalation]

/-- Where the profile of the request has a runtime, all adapters that an invocation calls have
it exactly where the profile has it that the invocation escalates to.
-/
theorem runtimes_calls {runtime : AgentRuntimeKind}
    (primary : ∀ profile, calledProfile library opts request = some profile →
      profile.runtime = runtime)
    : (∀ called ∈ answers.calls library opts request, called = runtime)
      ↔ ∀ profile, calledProfile library opts request = some profile →
        ∀ fallbackProfile,
          answers.escalation library opts request profile = some fallbackProfile →
          fallbackProfile.runtime = runtime := by
  unfold PrimaryAnswers.calls
  cases called : calledProfile library opts request with
  | none => simp
  | some profile =>
      cases escalation : answers.escalation library opts request profile with
      | none => simp [escalation, primary profile called]
      | some fallbackProfile => simp [escalation, primary profile called]

/-- After the caller has cancelled the primary adapter no other one is called, exactly where the
adapter's outcome does not escalate: it fires no trigger of the phase, or the phase has no
fallback profile with an adapter, or the request is itself one for a fallback profile.
-/
theorem cancelled_invocation_calls_once
    : (∀ final,
        (invoke library opts request ()).Cut
          (PrimaryAnswers.replies { answers with callerAborted := some .cancelled } False) []
          final →
        final.length ≤ 1)
      ↔ ∀ profile, calledProfile library opts request = some profile →
        PrimaryAnswers.escalation library opts request
          { answers with callerAborted := some .cancelled } profile = none := by
  rw [← length_calls]
  constructor
  · exact fun once => once _ cut_calls
  · exact fun once final execution => (suffix_of_cut execution).length_le.trans once

/-- The requests of a run with a pinned runtime call adapters of this runtime only, exactly
where the profile has this runtime that they escalate to.
-/
theorem pinned_invocation_keeps_runtime {pinnedRuntime : PinnedRuntime} {phaseName : String}
    (pinned : resolvePinnedProfileForPhase pinnedRuntime phaseName opts.agent
      = .ok request.profile)
    : (∀ final,
        (invoke library opts request ()).Cut (answers.replies False) [] final →
        ∀ runtime ∈ final, runtime = runtimeOf pinnedRuntime)
      ↔ ∀ profile, calledProfile library opts request = some profile →
        ∀ fallbackProfile,
          answers.escalation library opts request profile = some fallbackProfile →
          fallbackProfile.runtime = runtimeOf pinnedRuntime := by
  obtain ⟨profile, found, same⟩ := runtime_of_resolvePinnedProfileForPhase pinned
  have primary (called : AgentProfile) (calls : calledProfile library opts request = some called)
      : called.runtime = runtimeOf pinnedRuntime := by
    simp only [calledProfile, found, Option.bind_eq_bind, Option.bind_some] at calls
    split at calls
    · exact Option.some.inj calls ▸ same
    · contradiction
  rw [← runtimes_calls primary]
  constructor
  · exact fun keeps => keeps _ cut_calls
  · exact fun keeps final execution runtime member =>
      keeps runtime ((suffix_of_cut execution).mem member)

end Escalation

-----------------------------------------------------------------------------------------
-- Invocations of a phase with a fallback profile
-----------------------------------------------------------------------------------------

def codexWriter : AgentProfile :=
  { runtime := .codex, provider := "provider", model := "model", timeoutMinutes := 30 }

/-- The router of one phase, with a fallback profile of the given runtime. -/
def routerFor (runtime : AgentRuntimeKind) : AgentRuntimeRouterOptions :=
  {
    agent := {
      profiles := [("codex-writer", codexWriter), ("spare", { codexWriter with runtime })]
      phaseProfiles :=
        [("implement", { profile := some "codex-writer", fallbackProfile := some "spare" })]
    }
    adapters := [.codex, .opencode]
  }

def plainLibrary : RouterLibrary :=
  {
    join := fun cwd path => cwd ++ "/" ++ path
    relative := fun _ path => path
    isAbsolute := fun path => startsWith path "/"
    sha256 := id
    testTokenLimitPatterns := fun _ => none
    testQuotaPatterns := fun _ => none
    testProviderErrorPatterns := fun _ => none
    tryParseOpenCodeError := fun _ => none
  }

def implementRequest : AgentInvocationRequest :=
  {
    profile := "codex-writer"
    promptPath := "prompt.md"
    expectedArtifacts := []
    cwd := "worktree"
    runId := "run"
    phaseId := "implement"
    startCommitSha := "sha"
    abortSignal := some (.caller 0)
  }

/-- The adapter reports that it was cancelled, and the caller's signal was aborted by hand. -/
def cancelledAnswers : PrimaryAnswers :=
  {
    previous := none
    result := {
      runtime := .codex
      provider := "provider"
      model := "model"
      exitCode := 130
      durationMs := 10
      stdoutPath := "stdout"
      stderrPath := "stderr"
      contractViolations := [cancelledByOrchestrator]
      outcome := .failed
    }
    callerAborted := some .cancelled
    profileTimedOut := false
    stderr := none
  }

theorem calledProfile_routerFor (runtime : AgentRuntimeKind)
    : calledProfile plainLibrary (routerFor runtime) implementRequest = some codexWriter := by
  cases runtime <;> decide +kernel

theorem escalation_routerFor_codex
    : cancelledAnswers.escalation plainLibrary (routerFor .codex) implementRequest codexWriter
      = some codexWriter := by
  decide +kernel

/-- The cancelled outcome of the primary adapter calls the fallback adapter. -/
theorem cut_routerFor_opencode
    : (invoke plainLibrary (routerFor .opencode) implementRequest ()).Cut
        (cancelledAnswers.replies False) [] [.opencode, .codex] := by
  have calls : cancelledAnswers.calls plainLibrary (routerFor .opencode) implementRequest
      = [.opencode, .codex] := by
    decide +kernel
  exact calls ▸ cut_calls

/-- The cancelled outcome of the primary adapter is a runtime error to the default triggers, so
the fallback adapter is called after the caller's cancellation.
-/
theorem cancelled_invocation_falls_back
    : ¬∀ library opts request (answers : PrimaryAnswers) final,
        answers.callerAborted = some .cancelled →
        (invoke library opts request ()).Cut (answers.replies False) [] final →
        final.length ≤ 1 := by
  intro claim
  have once := claim _ _ _ cancelledAnswers _ rfl cut_routerFor_opencode
  contradiction

/-- A run that is pinned to Codex calls an OpenCode adapter after a failure. -/
theorem pinned_invocation_leaves_runtime
    : ¬∀ library opts request (answers : PrimaryAnswers) final pinnedRuntime phaseName,
        resolvePinnedProfileForPhase pinnedRuntime phaseName opts.agent = .ok request.profile →
        (invoke library opts request ()).Cut (answers.replies False) [] final →
        ∀ runtime ∈ final, runtime = runtimeOf pinnedRuntime := by
  intro claim
  have pinned : resolvePinnedProfileForPhase .codex "implement" (routerFor .opencode).agent
      = .ok implementRequest.profile := by
    decide +kernel
  have keeps := claim _ _ _ _ _ .codex "implement" pinned cut_routerFor_opencode .opencode
    List.mem_cons_self
  contradiction

/-- With a fallback profile of the pinned runtime every call keeps it. -/
theorem pinned_invocation_keeps_runtime_codex
    : resolvePinnedProfileForPhase .codex "implement" (routerFor .codex).agent
        = .ok implementRequest.profile
      ∧ ∀ final,
          (invoke plainLibrary (routerFor .codex) implementRequest ()).Cut
            (cancelledAnswers.replies False) [] final →
          ∀ runtime ∈ final, runtime = runtimeOf .codex := by
  have pinned : resolvePinnedProfileForPhase .codex "implement" (routerFor .codex).agent
      = .ok implementRequest.profile := by
    decide +kernel
  refine ⟨pinned, (pinned_invocation_keeps_runtime pinned).mpr ?_⟩
  intro profile called fallbackProfile escalates
  cases (calledProfile_routerFor .codex).symm.trans called
  cases escalation_routerFor_codex.symm.trans escalates
  rfl

end AiSdlc.Application
