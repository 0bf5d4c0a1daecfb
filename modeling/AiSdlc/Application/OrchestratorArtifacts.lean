import AiSdlc.Js.TextOperations

/-! The files that the orchestrator itself writes into a worktree. -/

namespace AiSdlc.Application

open AiSdlc.Js

/-- `ORCHESTRATOR_ARTIFACT_PATHS`. -/
def orchestratorArtifactPaths : List String :=
  [
    "validation.headsha",
    "validation.fingerprint",
    "review-fix-plan.json",
    "review-task-manifest.json",
    "review-triage.md",
    "code-review.md",
    "review.md",
    "task-manifest.json",
    "implementation-log.md",
    "arbiter-result.json",
    "review-loop-history.json",
    "implement-step-history-*.json",
    "compound-draft.md",
    "compound.md",
    "validation.result",
    "result.json",
    "scratch-files.json",
    ".ai-tmp/scratch-files.json",
    "fix-validate-done.marker",
    "plan-review-passed.marker",
    "pr-summary.md",
    "pr-url.txt",
    "finding-ledger.json",
    "review-convergence.json",
    "review-head-sha.txt",
    "spec-review-head-sha.txt",
    "quality-review-head-sha.txt",
    "whole-change-review.json",
    "follow-up-review.json",
    "spec-review.json",
    "spec-review.md",
    "spec-requirements-ledger.json",
    "quality-review.json",
    "quality-review.md",
    "architecture-review.json",
    "architecture-review.md",
    "architecture-requirements.json",
    "validate/critical-files.json"
  ]

/-- `ORCHESTRATOR_PATCH_EXCLUDE`. -/
def orchestratorPatchExclude : String :=
  "*.patch"

/-- `ORCHESTRATOR_DIFF_EXCLUDES`. -/
def orchestratorDiffExcludes : List String :=
  ["*.diff", "*-diff.txt", "diff.txt"]

/-- `PROMPT_ORCHESTRATOR_ARTIFACT_PATHS`. -/
def promptOrchestratorArtifactPaths : List String :=
  [
    "issue.md",
    "issue-comments.md",
    "design.md",
    "plan.md",
    "task-context-step-*.md",
    "plan-review-findings.md",
    "plan-fix-result.json",
    "quality-review-result*.json",
    "spec-review-result*.json",
    "fix-result*.json",
    "follow-up-review-result*.json",
    "fix-review-result*.json",
    "fix-validate-result*.json",
    "prompt.md",
    "implementation-log*.md"
  ]

def orchestratorExcludePatterns : List String :=
  orchestratorArtifactPaths ++ [orchestratorPatchExclude] ++ orchestratorDiffExcludes
    ++ promptOrchestratorArtifactPaths

/-- `[^/]*` followed by the rest of a pattern. -/
def matchesStar (rest : List Char → Bool) : List Char → Bool
  | [] => rest []
  | char :: text => rest (char :: text) || (char ≠ '/' && matchesStar rest text)

/-- `patternToRegExp(pattern).test(text)`: a star stands for characters other than slashes. -/
def matchesPattern : List Char → List Char → Bool
  | [], text => text = []
  | '*' :: pattern, text => matchesStar (matchesPattern pattern) text
  | _ :: _, [] => false
  | expected :: pattern, char :: text => expected = char && matchesPattern pattern text

/-- `path.replace(/^(\\.\\/|\\/)+/, '')`. -/
def dropLeadingSlashes : List Char → List Char
  | '.' :: '/' :: rest => dropLeadingSlashes rest
  | '/' :: rest => dropLeadingSlashes rest
  | chars => chars

/-- `path.replace(/\\r$/, '')`. -/
def dropCarriageReturn (chars : List Char) : List Char :=
  if chars.getLast? = some '\r' then chars.dropLast else chars

def isOrchestratorArtifactPattern (path : String) : Bool :=
  let normalized := dropLeadingSlashes (dropCarriageReturn path.toList)
  normalized ≠ []
  && (".ai/".toList.isPrefixOf normalized
    || orchestratorExcludePatterns.any fun pattern => matchesPattern pattern.toList normalized)

end AiSdlc.Application
