import AiSdlc.Application.FindingLedger
import AiSdlc.Application.OrchestratorArtifacts
import AiSdlc.Application.PhaseHandler

/-! The follow-up review: a reviewer evaluates the findings of the ledger and reports new ones,
and its verdict stands only where the updated ledger has no open finding.
-/

namespace AiSdlc.Application

open AiSdlc.Js
open AiSdlc.Domain
open AiSdlc.Async

/-- The verdicts that the result's schema admits. -/
inductive ReviewVerdict
  | APPROVE
  | REQUEST_CHANGES
  | approve
  | request_changes
  | PASS
  | FAIL
  | pass
  | fail
  deriving DecidableEq, Repr

def ReviewVerdict.text : ReviewVerdict → String
  | APPROVE => "APPROVE"
  | REQUEST_CHANGES => "REQUEST_CHANGES"
  | approve => "approve"
  | request_changes => "request_changes"
  | PASS => "PASS"
  | FAIL => "FAIL"
  | pass => "pass"
  | fail => "fail"

/-- A finding of the result. -/
structure WholeChangeReviewFinding where
  severity : String
  files : List String := []
  evidence : String
  rationale : String
  minimalCorrection : String
  blocking : Option Bool := none
  deriving DecidableEq, Repr

/-- What the ledger records of a finding. -/
def WholeChangeReviewFinding.reviewFinding (finding : WholeChangeReviewFinding)
    : ReviewFinding :=
  {
    severity := some finding.severity
    files := some finding.files
    evidence := some finding.evidence
    rationale := some finding.rationale
    minimalCorrection := some finding.minimalCorrection
  }

/-- An evaluation of the result. -/
structure ReviewEvaluation extends FollowUpFindingEvaluation where
  rationale : Option String := none
  deriving DecidableEq, Repr

structure FollowUpReviewResult where
  verdict : ReviewVerdict
  evaluations : List ReviewEvaluation := []
  newFindings : List WholeChangeReviewFinding := []
  summary : Option String := none
  reviewMd : Option String := none
  deriving DecidableEq, Repr

/-- The evaluations, as the ledger uses them. -/
def FollowUpReviewResult.ledgerEvaluations (result : FollowUpReviewResult)
    : List FollowUpFindingEvaluation :=
  result.evaluations.map (·.toFollowUpFindingEvaluation)

/-- The new findings, as the ledger records them. -/
def FollowUpReviewResult.ledgerFindings (result : FollowUpReviewResult)
    : List ReviewFinding :=
  result.newFindings.map (·.reviewFinding)

/-- The content of the stored ledger: a ledger's JSON text, or one that cannot be parsed. -/
inductive LedgerText
  | json (ledger : FindingLedger)
  | malformed
  deriving DecidableEq, Repr

structure ValidationFreshnessResult where
  fresh : Bool
  reason : Option String := none
  expectedFingerprint : Option String := none
  deriving DecidableEq, Repr

structure ValidationCriticalFile where
  path : String
  beforeHash : String
  afterHash : String
  diagnostic : String
  recordedAtIteration : Option Int := none
  deriving DecidableEq, Repr

/-- The content of the stored list of critical files: a list's JSON text, or another text. -/
inductive CriticalFilesText
  | json (files : List ValidationCriticalFile)
  | other
  deriving DecidableEq, Repr

/-- The configuration of a single-shot agent phase. -/
structure SingleShotConfig where
  profile : String
  template : Option String
  vars : List (String × String)
  deriving DecidableEq, Repr

/-- The end of a single-shot agent phase. -/
inductive SingleShotResult
  | passed (result : FollowUpReviewResult)
  | notPassed (result : PhaseResult)
  deriving DecidableEq, Repr

/-- The calls of the follow-up review. -/
inductive FollowUpRequest
  | publish (runUuid : String) (event : EventPayload)
  | now
  | readLedger
  | readArtifact (path : String)
  | readCriticalFiles
  | diff (base : String)
  | verifyValidationFreshness
  | resolveProfile (phase : String)
  | loadPromptTemplate (promptsRoot : String)
  | listOrchestratorOwnedUntrackedPaths
  | runSingleShotAgentPhase (config : SingleShotConfig)
  | headCommitSha
  | writeArtifact (path contents : String)
  | writeReview (review : FollowUpReviewResult)
  | writeLedger (ledger : FindingLedger)

abbrev FollowUpRequest.Answer : FollowUpRequest → Type
  | publish _ _ => Unit
  | now => Date
  | readLedger => LedgerText
  | readArtifact _ => String
  | readCriticalFiles => CriticalFilesText
  | diff _ => String
  | verifyValidationFreshness => ValidationFreshnessResult
  | resolveProfile _ => String
  | loadPromptTemplate _ => String
  | listOrchestratorOwnedUntrackedPaths => List String
  | runSingleShotAgentPhase _ => SingleShotResult
  | headCommitSha => String
  | writeArtifact _ _ => Unit
  | writeReview _ => Unit
  | writeLedger _ => Unit

abbrev FollowUpRequest.Reply (request : FollowUpRequest) : Type :=
  Except HandlerError request.Answer

/-- The statements of the follow-up review. -/
abbrev FollowUpStatements (α : Type) : Type :=
  Block FollowUpRequest.Answer Unit HandlerError Empty α

structure FollowUpReviewHandlerOpts where
  profileName : Option String := none
  iterationIndex : Option Int := none
  deriving DecidableEq, Repr

/-- The functions that the handler takes from its libraries. -/
structure FollowUpLibrary extends LedgerLibrary where
  toLocaleString : Nat → String

section Prompt

/-- `DEFAULT_DIFF_CHAR_BUDGET`. -/
def defaultDiffCharBudget : Nat :=
  250000

/-- `capDiffForPrompt(diff).text`. -/
def capDiffForPrompt (library : FollowUpLibrary) (diff : String) : String :=
  let originalChars := textLength diff
  if originalChars ≤ defaultDiffCharBudget then
    diff
  else
    let chars := library.toLocaleString originalChars
    let budget := library.toLocaleString defaultDiffCharBudget
    let exceeds := s!"{chars} characters exceeds the {budget}-character prompt budget"
    let advice := "Rely on the finding ledger and the since-last-review diff for the"
      ++ " authoritative record of what changed and what remains unresolved."
    let marker := s!"\n\n... [diff truncated: {exceeds}; showing the first and last portions. "
      ++ s!"{advice}] ...\n\n"
    let remaining := defaultDiffCharBudget - textLength marker
    let headChars := (remaining + 1) / 2
    let tailChars := remaining / 2
    sliceTo diff headChars ++ marker ++ sliceFrom diff (originalChars - tailChars)

def formatOrchestratorOwnedUntrackedPathsForPrompt (paths : List String) : String :=
  if paths = [] then
    "(none currently untracked in this worktree)"
  else
    let list := joinTexts "\n" (paths.map fun path => s!"- `{path}`")
    s!"Orchestrator-owned untracked paths for this run:\n{list}\n\n"
      ++ "Ignore these exact untracked paths only. This exemption does not apply to tracked files "
      ++ "with the same names, branch-diff changes, `.gitignore`/`.prettierignore` modifications, "
      ++ "or any other file merely matching a similar name or pattern."

def formatValidationCriticalFilesWarning (files : List ValidationCriticalFile) : String :=
  if files = [] then
    ""
  else
    let listed := files.map fun file =>
      let diagnostic := if file.diagnostic = "" then "" else s!" ({file.diagnostic})"
      s!"- `{file.path}`{diagnostic}"
    let satisfied := "The following file(s) were modified to satisfy a validation command that was"
      ++ " previously failing on their prior content:"
    let advice := "Do not instruct reverting or restoring them to prior states. If you believe a"
      ++ " change is unnecessary or wrong, you must say so explicitly and note that reverting"
      ++ " requires re-running the command to confirm it still passes — do not silently recommend"
      ++ " restoring the file to its prior state."
    joinTexts "\n"
      (["### Validation-Critical Files (Do Not Revert)", "", satisfied] ++ listed ++ ["", advice])

/-- The lines about an evaluation. -/
def evaluationLines (evaluation : ReviewEvaluation) : List String :=
  let state := if evaluation.resolved then "RESOLVED" else "UNRESOLVED"
  [s!"### [{state}] {evaluation.findingId}", s!"- **Evidence:** {evaluation.evidence}"]
  ++ ((truthy evaluation.rationale).map fun rationale => s!"- **Rationale:** {rationale}").toList
  ++ [""]

/-- The lines about a new finding. -/
def newFindingLines (library : FollowUpLibrary) (finding : WholeChangeReviewFinding)
    : List String :=
  let files := joinTexts ", " finding.files
  [s!"### [{library.toUpperCase finding.severity}] New Finding"]
  ++ (if finding.files = [] then [] else [s!"- **Files:** {files}"])
  ++ [
    s!"- **Evidence:** {finding.evidence}",
    s!"- **Rationale:** {finding.rationale}",
    s!"- **Minimal Correction:** {finding.minimalCorrection}",
    ""
  ]

def formatFollowUpMarkdown (library : FollowUpLibrary) (review : FollowUpReviewResult) : String :=
  joinTexts "\n"
    (["# Follow-Up Review", "", s!"**Verdict:** {review.verdict.text}"]
    ++ (match truthy review.summary with
      | some summary => [s!"**Summary:** {summary}", ""]
      | none => [""])
    ++ ["## Prior Findings Evaluations", ""]
    ++ (if review.evaluations = [] then ["No prior evaluations recorded."]
      else review.evaluations.flatMap evaluationLines)
    ++ ["## New Findings / Regressions", ""]
    ++ (if review.newFindings = [] then ["No new findings or regressions detected."]
      else review.newFindings.flatMap (newFindingLines library)))

end Prompt

/-- The ledger that is assumed where none can be read. -/
def emptyLedger : FindingLedger :=
  { iterationCount := 0, entries := [] }

namespace FollowUpReviewHandler

section Statements

variable (library : FollowUpLibrary) (opts : FollowUpReviewHandlerOpts)
  (ctx : PhaseHandlerContext)

def call (request : FollowUpRequest) : FollowUpStatements request.Answer :=
  Block.call request

def emit (type : String) (level : EventLevel) (message : String) : FollowUpStatements Unit := do
  let publishedAt ← call .now
  call (.publish ctx.runUuid
    { runId := ctx.runId, level, type, message, timestamp := Date.toISOString publishedAt })

/-- `this.fail(…)`. -/
def fail (kind : FailureKind) (message : String) (suggestedAction : String)
    : FollowUpStatements PhaseResult := do
  let detectedAt ← call .now
  emit ctx "follow_up_review.failed" .error message
  pure (.failed {
    runUuid := ctx.runUuid
    phase := some "follow-up-review"
    kind
    message
    canRetry := kind ≠ .invalidResult
    suggestedAction
    detectedAt
  })

/-- What `fail` suggests where nothing else is given. -/
def inspectLogs : String :=
  "Inspect follow-up review logs and retry."

/-- The stored ledger; an empty one where it cannot be read or parsed. -/
def loadLedger : FollowUpStatements FindingLedger :=
  Block.attempt
    (do
      let ledgerRaw ← call .readLedger
      match ledgerRaw with
      | .json ledger => pure ledger
      | .malformed => Block.throw (.error "SyntaxError"))
    fun _ => pure emptyLedger

/-- The message where the issue cannot be read. -/
def readIssue : FollowUpStatements (Option String) :=
  Block.attempt
    (do
      let _ ← call (.readArtifact "issue.md")
      pure none)
    fun
      | .artifactNotFound _ => pure (some "issue.md not found in artifact store")
      | error => pure (some s!"Failed to read issue.md: {error.message}")

/-- `baseBranch`. -/
def comparedBranch : String :=
  (ctx.expectedBranch <|> ctx.baseBranch).getD "main"

/-- The diff of the branch, and the one since the last review. -/
def collectDiffs : FollowUpStatements (String × String) :=
  Block.attempt
    (do
      let completeDiff ← call (.diff (ctx.startCommitSha.getD (comparedBranch ctx)))
      let priorHeadSha ← Block.attempt (some <$> call (.readArtifact "review-head-sha.txt"))
        fun _ => pure none
      match truthy (Option.map trim priorHeadSha) with
      | some headSha => do
          let fixDiff ← call (.diff headSha)
          pure (completeDiff, fixDiff)
      | none => pure (completeDiff, completeDiff))
    fun _ => pure ("", "")

/-- `resolve`: only a pinned runtime's error is not swallowed. -/
def resolve (phase : String) : FollowUpStatements (Option String) :=
  Block.attempt (some <$> call (.resolveProfile phase))
    fun
      | .pinnedRuntimeResolution message => Block.throw (.pinnedRuntimeResolution message)
      | _ => pure none

/-- The profile of the first phase that has one. -/
def resolveFirst : List String → FollowUpStatements String
  | [] => pure (opts.profileName.getD "opencode-frontier")
  | phase :: rest => do
      let profile ← resolve phase
      match profile with
      | some profile => pure profile
      | none => resolveFirst rest

def loadTemplate : FollowUpStatements (Option String) :=
  match truthy ctx.promptsRoot with
  | none => pure none
  | some promptsRoot =>
      Block.attempt (some <$> call (.loadPromptTemplate promptsRoot)) fun _ => pure none

def loadCriticalFiles : FollowUpStatements (List ValidationCriticalFile) :=
  Block.attempt
    (do
      let raw ← call .readCriticalFiles
      match raw with
      | .json files => pure files
      | .other => pure [])
    fun _ => pure []

/-- The variables of the reviewer's prompt. -/
def promptVars (ledger : FindingLedger) (freshness : ValidationFreshnessResult)
    (completeDiff fixDiff : String) (criticalFiles : List ValidationCriticalFile)
    (ownedPaths : List String)
    : List (String × String) :=
  let fingerprint := (freshness.expectedFingerprint.map (sliceTo · 12)).getD "verified"
  [
    ("issue_number", s!"{ctx.issueNumber}"),
    ("cwd", ctx.cwd),
    ("finding_ledger", formatLedgerForPrompt library.toLedgerLibrary ledger),
    ("validation_evidence", s!"Validation result: passed (fingerprint: {fingerprint})"),
    ("complete_diff", orElse (some (capDiffForPrompt library completeDiff)) "(no diff)"),
    ("fix_diff", orElse (some (capDiffForPrompt library fixDiff)) "(no diff)"),
    ("validation_critical_files", formatValidationCriticalFilesWarning criticalFiles),
    ("orchestrator_bookkeeping_files",
      formatOrchestratorOwnedUntrackedPathsForPrompt ownedPaths)
  ]

/-- Whether a diff is cut for the prompt. -/
def exceedsBudget (diff : String) : Bool :=
  defaultDiffCharBudget < textLength diff

/-- The ledger after the review. -/
def updatedLedger (ledger : FindingLedger) (result : FollowUpReviewResult)
    (currentIteration : Int)
    : FindingLedger :=
  updateFindingLedger library.toLedgerLibrary ledger result.ledgerEvaluations result.ledgerFindings
    currentIteration .specReview

/-- `verdictUpper === 'APPROVE' || verdictUpper === 'PASS'`. -/
def FollowUpReviewResult.approves (result : FollowUpReviewResult) : Bool :=
  toUpperCase result.verdict.text = "APPROVE" || toUpperCase result.verdict.text = "PASS"

/-- `effectiveVerdict`: an approval stands where no finding is open. -/
def effectiveVerdict (result : FollowUpReviewResult) (updated : FindingLedger)
    : ReviewVerdict :=
  if FollowUpReviewResult.approves result && !hasUnresolvedBlockingFindings updated then .APPROVE
  else .REQUEST_CHANGES

/-- `getStaleRepeatedFindings` as a failure. -/
def staleMessage (staleRepeats : List FindingLedgerEntry) : String :=
  let ids := joinTexts ", " (staleRepeats.map (·.id))
  "Follow-up review has re-asserted an identical unresolved verdict for "
    ++ s!"{staleRepeats.length} finding(s) ({ids}) across {staleRepeatThreshold}+ consecutive "
    ++ "iterations without the evidence text changing. This looks like a stalled reviewer "
    ++ "re-asserting a stale verdict rather than a persistent defect; a human should verify the "
    ++ "underlying code directly before overriding the ledger."

def staleAction : String :=
  "Read the current code for the cited finding(s) and verify directly whether they are actually "
    ++ "resolved, then override the finding ledger entry/entries accordingly before resuming."

/-- Writes the review, the ledger, and the reviewed commit. -/
def persist (review : FollowUpReviewResult) (updated : FindingLedger)
    : FollowUpStatements Unit := do
  call (.writeArtifact "code-review.md" (formatFollowUpMarkdown library review))
  call (.writeReview review)
  call (.writeLedger updated)
  let currentHeadSha ← Block.attempt (some <$> call .headCommitSha) fun _ => pure none
  match truthy (Option.map trim currentHeadSha) with
  | some headSha => call (.writeArtifact "review-head-sha.txt" headSha)
  | none => pure ()

/-- The error that the artifacts cannot be written with. -/
def tryPersist (review : FollowUpReviewResult) (updated : FindingLedger)
    : FollowUpStatements (Option HandlerError) :=
  Block.attempt
    (do
      persist library review updated
      pure none)
    fun error => pure (some error)

/-- The end of the review, after its artifacts are written. -/
def conclude (review : FollowUpReviewResult) (updated : FindingLedger)
    : FollowUpStatements PhaseResult := do
  let staleRepeats := getStaleRepeatedFindings updated
  if staleRepeats ≠ [] then do
    let detectedAt ← call .now
    let message := staleMessage staleRepeats
    emit ctx "follow_up_review.stale_repeat_detected" .error message
    pure (.needsHumanReview {
      runUuid := ctx.runUuid
      phase := some "follow-up-review"
      kind := .needsHumanReview
      message
      canRetry := false
      suggestedAction := staleAction
      detectedAt
    })
  else if review.verdict = .APPROVE then do
    emit ctx "follow_up_review.completed" .info "follow-up review approved"
    pure .passed
  else do
    emit ctx "follow_up_review.changes_requested" .warn "follow-up review requested changes"
    emit ctx "follow_up_review.completed" .info
      "follow-up review completed with changes requested"
    pure .passed

/-- What is persisted of a result. -/
def recordReview (ledger : FindingLedger) (result : FollowUpReviewResult)
    (currentIteration : Int)
    : FollowUpStatements PhaseResult := do
  let updated := updatedLedger library ledger result currentIteration
  let review := { result with verdict := effectiveVerdict result updated }
  let failure ← tryPersist library review updated
  match failure with
  | some error =>
      fail ctx .commandFailed
        s!"Failed to persist follow-up review artifacts: {HandlerError.message error}"
        "Ensure artifact storage directory is writable."
  | none => conclude ctx review updated

/-- The part of `run` after the validation evidence: the reviewer is asked, and its result is
recorded.
-/
def review (ledger : FindingLedger) (currentIteration : Int) (completeDiff fixDiff : String)
    (freshness : ValidationFreshnessResult)
    : FollowUpStatements PhaseResult := do
  if !ctx.resolvesProfiles then
    fail ctx .commandFailed "resolveProfile not available on context" inspectLogs
  else do
    let profile ← resolveFirst opts
      ["follow-up-review", "spec-review", "quality-review", "pr-reviewer", "implement"]
    let template ← loadTemplate ctx
    let ownedPaths ← call .listOrchestratorOwnedUntrackedPaths
    let criticalFiles ← loadCriticalFiles
    Block.ifThen (exceedsBudget completeDiff || exceedsBudget fixDiff)
      (emit ctx "follow_up_review.diff_truncated" .warn
        "diff text truncated to fit prompt budget")
    let runResult ← call (.runSingleShotAgentPhase {
      profile
      template := truthy template
      vars := promptVars library ctx ledger freshness completeDiff fixDiff criticalFiles
        ownedPaths
    })
    match runResult with
    | .notPassed result => do
        emit ctx "follow_up_review.failed" .error "follow-up reviewer invocation failed"
        pure result
    | .passed result => recordReview library ctx ledger result currentIteration

/-- `FollowUpReviewHandler.run`. -/
def run : FollowUpStatements PhaseResult := do
  emit ctx "follow_up_review.started" .info "follow-up review started"
  let ledger ← loadLedger
  let currentIteration := opts.iterationIndex.getD (FindingLedger.iterationCount ledger) + 1
  let missingIssue ← readIssue
  match missingIssue with
  | some message => fail ctx .missingArtifact message inspectLogs
  | none => do
      let diffs ← collectDiffs ctx
      let freshness ← call .verifyValidationFreshness
      if !freshness.fresh then
        let reason := freshness.reason.getD "unknown reason"
        let blocked := "deterministic validation has not passed or is stale"
        fail ctx .validationFailed s!"Follow-up review blocked: {blocked} ({reason})"
          "Run deterministic validation before executing follow-up review."
      else
        review library opts ctx ledger currentIteration diffs.1 diffs.2 freshness

end Statements

end FollowUpReviewHandler

end AiSdlc.Application
