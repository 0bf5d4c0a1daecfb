import AiSdlc.Domain.Run

/-! The agent configuration: profiles, the phases that use them, and the profiles that a run
with a pinned runtime uses instead.
-/

namespace AiSdlc.Application

open AiSdlc.Js
open AiSdlc.Domain

inductive AgentRuntimeKind
  | opencode
  | pi
  | antigravity
  | claudeCode
  | codex
  deriving DecidableEq, Repr

def AgentRuntimeKind.text : AgentRuntimeKind → String
  | opencode => "opencode"
  | pi => "pi"
  | antigravity => "antigravity"
  | claudeCode => "claude-code"
  | codex => "codex"

instance : ToString AgentRuntimeKind := ⟨AgentRuntimeKind.text⟩

/-- The runtime that a run is pinned to. -/
def runtimeOf : PinnedRuntime → AgentRuntimeKind
  | .claudeCode => .claudeCode
  | .antigravity => .antigravity
  | .codex => .codex
  | .opencode => .opencode

structure AgentProfile where
  runtime : AgentRuntimeKind
  provider : String
  model : String
  variant : Option String := none
  contextLimitTokens : Option Int := none
  promptBudgetTokens : Option Int := none
  outputBudgetTokens : Option Int := none
  timeoutMinutes : Rat
  deriving DecidableEq, Repr

inductive FallbackTrigger
  | timeout
  | contractViolation
  | missingRequiredArtifact
  | promptBudgetExceeded
  | invalidResultJson
  | runtimeError
  | tokenLimitExceeded
  | quotaExceeded
  | providerError
  | noOutput
  | synthesizedFromTranscript
  deriving DecidableEq, Repr

structure PhaseProfileEntry where
  profile : Option String := none
  fallbackProfile : Option String := none
  fallbackTriggers : Option (List FallbackTrigger) := none
  role : Option String := none
  deriving DecidableEq, Repr

/-- The configuration of the agents; a record is a list of its entries. -/
structure AgentConfig where
  profiles : List (String × AgentProfile)
  phaseProfiles : List (String × PhaseProfileEntry)
  pinnedRuntimeProfiles : Option (List (String × List (String × String))) := none
  deriving DecidableEq, Repr

/-- `PHASE_FALLBACKS`. -/
def phaseFallbacks : List (String × String) :=
  [("whole-pr-fix-review", "fix-review"), ("verify-pr-review", "post-pr-review")]

/-- `LEGACY_PHASE_PROFILE_PREFERENCE`. -/
def legacyPhaseProfilePreference : List (String × String) :=
  [("quality-review", "post-implementation-quality-review"),
    ("spec-review", "post-implementation-spec-review")]

/-- `resolvePhaseProfileEntry`: the legacy key comes first where it is configured. -/
def resolvePhaseProfileEntry (phaseProfiles : List (String × PhaseProfileEntry))
    (phaseId : String)
    : Option PhaseProfileEntry :=
  match legacyPhaseProfilePreference.lookup phaseId with
  | some legacyKey => phaseProfiles.lookup legacyKey <|> phaseProfiles.lookup phaseId
  | none => phaseProfiles.lookup phaseId

/-- `DEFAULT_PHASE_ROLE_MAPPING`. -/
def defaultPhaseRoleMapping : List (String × String) :=
  [("plan-design", "planner"), ("architecture-review", "pr-reviewer"),
    ("architecture-fix", "planner"), ("implement", "implementer"),
    ("quality-review", "critic"), ("spec-review", "critic"),
    ("post-implementation-spec-review", "critic"),
    ("post-implementation-quality-review", "critic"), ("follow-up-review", "critic"),
    ("fix-review", "fixer"), ("fix-validate", "fixer"), ("whole-pr-fix-review", "fixer"),
    ("compound", "task-agent"), ("create-pr", "task-agent"), ("result-writer", "critic")]

/-- `DEFAULT_PINNED_RUNTIME_PROFILES`. -/
def defaultPinnedRuntimeProfiles : PinnedRuntime → List (String × String)
  | .claudeCode =>
      [("planner", "claude"), ("pr-reviewer", "claude"), ("implementer", "claude-sonnet"),
        ("fixer", "claude-sonnet"), ("critic", "claude-sonnet"), ("task-agent", "claude-haiku")]
  | .antigravity =>
      [("planner", "gemini"), ("pr-reviewer", "reviewer"), ("implementer", "gemini"),
        ("fixer", "gemini"), ("critic", "task-reviewer"), ("task-agent", "task-reviewer")]
  | .codex =>
      [("planner", "codex-writer"), ("pr-reviewer", "codex-reviewer"),
        ("implementer", "codex-writer"), ("fixer", "codex-writer"), ("critic", "codex-reviewer"),
        ("task-agent", "codex-writer")]
  | .opencode =>
      [("planner", "architect"), ("pr-reviewer", "senior"), ("implementer", "qwen"),
        ("fixer", "builder"), ("critic", "junior"), ("task-agent", "junior")]

/-- The profile name of a role under a pinned runtime, before it is checked. -/
def pinnedProfileName (pinnedRuntime : PinnedRuntime) (role : String) (config : AgentConfig)
    : Option String :=
  let configured := do
    let runtimes ← config.pinnedRuntimeProfiles
    let roles ← runtimes.lookup (runtimeOf pinnedRuntime).text
    roles.lookup role
  let profileName :=
    truthy configured <|> (defaultPinnedRuntimeProfiles pinnedRuntime).lookup role
  profileName.map fun name =>
    -- Claude's variants may be left out of the configuration
    if (config.profiles.lookup name).isNone && pinnedRuntime = .claudeCode
        && (config.profiles.lookup "claude").isSome then
      "claude"
    else
      name

/-- `resolvePinnedProfile`, which throws a `PinnedRuntimeResolutionError`. -/
def resolvePinnedProfile (pinnedRuntime : PinnedRuntime) (role : String) (config : AgentConfig)
    : Except String String :=
  let pinned := (runtimeOf pinnedRuntime).text
  match pinnedProfileName pinnedRuntime role config with
  | none => .error s!"Pinned runtime '{pinned}' has no mapped profile for role '{role}'."
  | some profileName =>
      match config.profiles.lookup profileName with
      | none =>
          let missing := s!"but profile '{profileName}' is not defined in agent.profiles."
          .error
            s!"Pinned runtime '{pinned}' maps role '{role}' to profile '{profileName}', {missing}"
      | some profile =>
          if profile.runtime = runtimeOf pinnedRuntime then
            .ok profileName
          else
            let other := s!"but that profile has runtime '{profile.runtime}'."
            .error
              s!"Pinned runtime '{pinned}' mapped role '{role}' to profile '{profileName}', {other}"

/-- The role of a phase: as configured, as configured for the phase that stands in for it, or
the default one.
-/
def phaseRole (phaseName : String) (config : AgentConfig) : Option String :=
  let entry := resolvePhaseProfileEntry config.phaseProfiles phaseName
  let alias? := phaseFallbacks.lookup phaseName
  let standIn := alias?.bind fun phase => config.phaseProfiles.lookup phase
  truthy (entry.bind (·.role)) <|> truthy (standIn.bind (·.role))
    <|> defaultPhaseRoleMapping.lookup phaseName
    <|> alias?.bind fun phase => defaultPhaseRoleMapping.lookup phase

def resolvePinnedProfileForPhase (pinnedRuntime : PinnedRuntime) (phaseName : String)
    (config : AgentConfig)
    : Except String String :=
  match phaseRole phaseName config with
  | some role => resolvePinnedProfile pinnedRuntime role config
  | none =>
      let pinned := (runtimeOf pinnedRuntime).text
      let missing := "phase has no configured or default role."
      .error s!"Pinned runtime '{pinned}' cannot resolve phase '{phaseName}': {missing}"

theorem runtime_of_resolvePinnedProfile {pinnedRuntime : PinnedRuntime} {role name : String}
    {config : AgentConfig} (resolved : resolvePinnedProfile pinnedRuntime role config = .ok name)
    : ∃ profile, config.profiles.lookup name = some profile
        ∧ profile.runtime = runtimeOf pinnedRuntime := by
  unfold resolvePinnedProfile at resolved
  cases mapped : pinnedProfileName pinnedRuntime role config with
  | none => simp [mapped] at resolved
  | some profileName =>
      cases found : config.profiles.lookup profileName with
      | none => simp [mapped, found] at resolved
      | some profile =>
          by_cases same : profile.runtime = runtimeOf pinnedRuntime
          · simp only [mapped, found, if_pos same, Except.ok.injEq] at resolved
            exact ⟨profile, resolved ▸ found, same⟩
          · simp [mapped, found, same] at resolved

theorem runtime_of_resolvePinnedProfileForPhase {pinnedRuntime : PinnedRuntime}
    {phaseName name : String} {config : AgentConfig}
    (resolved : resolvePinnedProfileForPhase pinnedRuntime phaseName config = .ok name)
    : ∃ profile, config.profiles.lookup name = some profile
        ∧ profile.runtime = runtimeOf pinnedRuntime := by
  unfold resolvePinnedProfileForPhase at resolved
  cases found : phaseRole phaseName config with
  | none => simp [found] at resolved
  | some role =>
      rw [found] at resolved
      exact runtime_of_resolvePinnedProfile resolved

end AiSdlc.Application
