import AiSdlc.Application.CriticalFiles

/-! The targeted fix after a review: an agent edits the worktree, and guards look at what it
changed. The pass stands where no protected file of the baseline was touched, no governance file
was edited, and no file that the validation depends on is back in its state before the fix.
-/

namespace AiSdlc.Application

open AiSdlc.Js
open AiSdlc.Domain
open AiSdlc.Async

/-- The result that the fixer reports. -/
inductive FixReviewResult
  | doneWithFixes
  | cannotFix (reason : Option String)
  | doneNoFixesNeeded (rebuttal : String)
  deriving DecidableEq, Repr

/-- The end of the fixer's phase: its result, or a phase result that is not `passed`. -/
inductive FixRunResult
  | passed (result : FixReviewResult)
  | notPassed (result : PhaseResult) (other : result ≠ .passed)

/-- When the handler asks git: before the fix, for one of the guards, or for a critical file. -/
inductive Occasion
  | beforeFix
  | baseline
  | governance
  | critical (critical : ValidationCriticalFile)
  deriving DecidableEq, Repr

/-- The calls of the targeted fix. A call of git is told apart by when it is made. -/
inductive FixReviewRequest
  | publish (runUuid : String) (event : EventPayload)
  | now
  | readLedger
  | readArtifact (path : String)
  | readCriticalFiles
  | resolveProfile (phase : String)
  | loadPromptTemplate (promptsRoot : String)
  | runSingleShotAgentPhase (config : SingleShotConfig)
  | status (occasion : Occasion)
  | listFilesAtCommit (commitSha : String)
  | worktreeFileContent (occasion : Occasion) (path : String)
  | fileContent (occasion : Occasion) (ref path : String)
  | writeArtifact (path contents : String)
  deriving DecidableEq, Repr

abbrev FixReviewRequest.Answer : FixReviewRequest → Type
  | publish _ _ => Unit
  | now => Date
  | readLedger => LedgerText
  | readArtifact _ => String
  | readCriticalFiles => CriticalFilesText
  | resolveProfile _ => String
  | loadPromptTemplate _ => String
  | runSingleShotAgentPhase _ => FixRunResult
  | status _ => String
  | listFilesAtCommit _ => List String
  | worktreeFileContent _ _ => Option String
  | fileContent _ _ _ => String
  | writeArtifact _ _ => Unit

abbrev FixReviewRequest.Reply (request : FixReviewRequest) : Type :=
  Except HandlerError request.Answer

/-- The statements of the targeted fix, which may return a result early. -/
abbrev FixStatements (α : Type) : Type :=
  Block FixReviewRequest.Answer Unit HandlerError PhaseResult α

structure FixReviewHandlerOpts where
  profileName : Option String := none
  selfVerifyCommands : Option (List String) := none
  governanceProtectedPaths : Option (List String) := none
  deriving DecidableEq, Repr

/-- The context of the phase, with the data that only this handler reads. -/
structure FixReviewContext extends PhaseHandlerContext where
  hasGit : Bool := true
  selfVerifyCommands : Option (List String) := none
  governanceProtectedPaths : Option (List String) := none
  deriving Repr

/-- The functions that the handler takes from its libraries: those of the ledger, and `decode` of a
`TextDecoder`.
-/
structure FixReviewLibrary extends LedgerLibrary where
  decode : List Nat → String

/-- `DEFAULT_SELF_VERIFY_INSTRUCTIONS`. -/
def defaultSelfVerifyInstructions : String :=
  "Limit your own verification to: typecheck and lint for the files you changed, plus only the"
    ++ " specific unit test(s) that directly cover them."

def formatSelfVerifyInstructions (commands : Option (List String)) : String :=
  match commands.getD [] with
  | [] => defaultSelfVerifyInstructions
  | commands =>
      let formattedList := joinTexts "\n" (commands.map fun command => s!"- `{command}`")
      s!"Limit your own verification to:\n{formattedList}\n"
        ++ "plus only the specific unit test(s) that directly cover your changes."

namespace FixReviewHandler

section Statements

variable (library : FixReviewLibrary) (opts : FixReviewHandlerOpts) (ctx : FixReviewContext)
  {α : Type}

def call (request : FixReviewRequest) : FixStatements request.Answer :=
  Block.call request

def emit (type : String) (level : EventLevel) (message : String) : FixStatements Unit := do
  let publishedAt ← call .now
  call (.publish ctx.runUuid
    { runId := ctx.runId, level, type, message, timestamp := Date.toISOString publishedAt })

/-- The artifacts of the findings. -/
def findingArtifacts : List String :=
  ["code-review.md", "finding-ledger.json"]

/-- The pass is handed to a human. -/
def needsHumanReview (message : String) (canRetry : Bool) (suggestedAction : String)
    (artifacts : List String)
    : FixStatements α := do
  emit ctx "fix_review.failed" .error message
  let detectedAt ← call .now
  Block.leave fun _ => .needsHumanReview {
    runUuid := ctx.runUuid
    phase := some "fix-review"
    kind := .needsHumanReview
    message
    canRetry
    suggestedAction
    artifacts
    detectedAt
  }

/-- A protected file of the baseline was touched, or nothing is known about it. -/
def protectedArtifactCollision (message suggestedAction : String) : FixStatements α := do
  emit ctx "fix_review.protected_artifact_collision" .error message
  needsHumanReview ctx message false suggestedAction findingArtifacts

/-- The findings of the ledger, else the review, else a text that points at it. -/
def formatFindings : FixStatements String :=
  Block.attempt
    (do
      let ledgerRaw ← call .readLedger
      match ledgerRaw with
      | .json ledger => pure (formatLedgerForFixPrompt library.toLedgerLibrary ledger)
      | .malformed => Block.throw (.error "SyntaxError"))
    fun _ => Block.attempt (call (.readArtifact "code-review.md")) fun _ =>
      pure "Fix all review findings reported in code-review.md."

def resolveFixProfile : FixStatements String :=
  if ctx.resolvesProfiles then call (.resolveProfile "fix-review")
  else pure (opts.profileName.getD "opencode-frontier")

def loadTemplate : FixStatements (Option String) :=
  match truthy ctx.promptsRoot with
  | none => pure none
  | some promptsRoot =>
      Block.attempt (some <$> call (.loadPromptTemplate promptsRoot)) fun _ => pure none

def loadCriticalFiles : FixStatements (List ValidationCriticalFile) :=
  Block.attempt
    (do
      let raw ← call .readCriticalFiles
      match raw with
      | .json files => pure files
      | .other => pure [])
    fun _ => pure []

/-- The check of the safety of the baseline failed. -/
def safetyCheckFailed (errorMsg suggestedAction : String) : FixStatements α :=
  protectedArtifactCollision ctx
    s!"Protected pre-existing repository file safety check failed: {errorMsg}." suggestedAction

/-- The baseline commit, where git can be asked about it. -/
def requireBaseline : FixStatements String :=
  match ctx.startCommitSha.filter (!isBlank ·) with
  | none =>
      safetyCheckFailed ctx "missing startCommitSha baseline commit"
        ("Ensure the run baseline commit (startCommitSha) is provided to protect pre-existing"
          ++ " repository files.")
  | some startCommitSha =>
      if ctx.hasGit then pure startCommitSha
      else
        safetyCheckFailed ctx "git port is unavailable"
          "Ensure git port is available to verify pre-existing repository files."

/-- `git.status(cwd)`, or nothing where it throws. -/
def readStatus (occasion : Occasion) : FixStatements String :=
  Block.attempt (call (.status occasion)) fun _ => pure ""

/-- The configuration of the fixer. -/
def fixConfig (profile : String) (template : Option String) (formattedFindings : String)
    (criticalFiles : List ValidationCriticalFile)
    : SingleShotConfig :=
  {
    profile
    template := truthy template
    vars := [
      ("issue_number", s!"{ctx.issueNumber}"),
      ("cwd", ctx.cwd),
      ("review_findings", formattedFindings),
      ("validation_critical_files", formatValidationCriticalFilesWarning criticalFiles),
      ("SELF_VERIFY_INSTRUCTIONS",
        formatSelfVerifyInstructions (opts.selfVerifyCommands <|> ctx.selfVerifyCommands))
    ]
  }

/-- The fixer has run, and did not give up. -/
def runFixer (config : SingleShotConfig) : FixStatements Unit := do
  let fixRunResult ← call (.runSingleShotAgentPhase config)
  match fixRunResult with
  | .notPassed result _ => do
      emit ctx "fix_review.failed" .error "targeted fix agent failed"
      Block.leave fun _ => result
  | .passed (.cannotFix reason) =>
      let told := ((truthy (reason.map trim)).map fun reason => s!": {reason}").getD ""
      needsHumanReview ctx s!"targeted fixer reported it cannot fix the review findings{told}" true
        "Review the findings and intervene manually." findingArtifacts
  | .passed _ => pure ()

-----------------------------------------------------------------------------------------
-- Protected files of the baseline
-----------------------------------------------------------------------------------------

/-- What is suggested where a protected file cannot be read. -/
def inspectRepository : String :=
  "Inspect git repository state and verify pre-existing source files were not corrupted or"
    ++ " deleted."

/-- A protected file was deleted or modified. -/
def isViolated (startCommitSha path : String) : FixStatements Bool := do
  let currentContent ← Block.attempt (call (.worktreeFileContent .baseline path)) fun error =>
    protectedArtifactCollision ctx
      s!"Failed to inspect worktree content for protected file {path}: {HandlerError.message error}"
      inspectRepository
  match currentContent with
  | none => pure true
  | some currentContent => do
      let baselineContent ← Block.attempt (call (.fileContent .baseline startCommitSha path))
        fun error =>
          let read := s!"baseline content for protected file {path} at {startCommitSha}"
          protectedArtifactCollision ctx s!"Failed to read {read}: {HandlerError.message error}"
            inspectRepository
      pure (decide (currentContent ≠ baselineContent))

/-- The loop over the protected files. -/
def collectViolated (startCommitSha : String) : List String → FixStatements (List String)
  | [] => pure []
  | path :: rest => do
      let violated ← isViolated ctx startCommitSha path
      let others ← collectViolated startCommitSha rest
      pure (if violated then path :: others else others)

def guardBaseline (startCommitSha : String) : FixStatements Unit := do
  let baselineFiles ← Block.attempt (call (.listFilesAtCommit startCommitSha)) fun error =>
    protectedArtifactCollision ctx
      s!"Failed to enumerate baseline files at {startCommitSha}: {HandlerError.message error}"
      "Inspect git repository state and verify baseline commit is valid."
  let violatedPaths ← collectViolated ctx startCommitSha
    (baselineFiles.filter isProtectedArtifactCandidate)
  let listed := joinTexts ", " violatedPaths
  Block.ifThen (violatedPaths ≠ [])
    (protectedArtifactCollision ctx
      ("Protected pre-existing repository file(s) matching orchestrator artifact pattern were"
        ++ s!" deleted or modified during review fix: {listed}. Automated fixers must not delete or"
        ++ " modify pre-existing repository files.")
      ("Review the modified or deleted protected repository files and restore pre-existing source"
        ++ " files."))

-----------------------------------------------------------------------------------------
-- Governance files
-----------------------------------------------------------------------------------------

/-- A path that was listed before as well is modified where it differs from HEAD. -/
def isModified (pathsBefore : List String) (path : String) : FixStatements Bool :=
  if path ∉ pathsBefore then pure true
  else
    Block.attempt
      (do
        let currentContent ← call (.worktreeFileContent .governance path)
        let headContent ← Block.attempt (some <$> call (.fileContent .governance "HEAD" path))
          fun _ => pure none
        pure (decide (currentContent ≠ headContent)))
      fun _ => pure true

/-- The loop over the governance files. -/
def collectModified (pathsBefore : List String) : List String → FixStatements (List String)
  | [] => pure []
  | path :: rest => do
      let modified ← isModified pathsBefore path
      let others ← collectModified pathsBefore rest
      pure (if modified then path :: others else others)

/-- The paths that the repository declares as protected. -/
def customProtected : List String :=
  (opts.governanceProtectedPaths <|> ctx.governanceProtectedPaths).getD []

def guardGovernance (statusBefore : String) : FixStatements Unit := do
  let statusAfter ← readStatus .governance
  let pathsBefore := parseStatusPaths library.decode statusBefore ctx.cwd
  let pathsAfter := parseStatusPaths library.decode statusAfter ctx.cwd
  let modifiedGovernanceFiles ← collectModified pathsBefore
    (pathsAfter.filter (isGovernanceFilePath · (customProtected opts ctx)))
  let listed := joinTexts ", " modifiedGovernanceFiles
  Block.ifThen (modifiedGovernanceFiles ≠ []) do
    let message := s!"Governance-sensitive file(s) modified during review fix: {listed}. Automated"
      ++ " fixers must not edit compliance or license registries."
    emit ctx "fix_review.governance_file_modified" .error message
    needsHumanReview ctx message false
      "Review the modified governance registry files and revert unauthorized compliance changes."
      findingArtifacts

-----------------------------------------------------------------------------------------
-- Validation-critical files
-----------------------------------------------------------------------------------------

/-- Why an absent file may be there after all, if it is not known to be absent. -/
def confirmAbsence (critical : ValidationCriticalFile) (readFailure : Option HandlerError)
    : FixStatements (Option String) :=
  Block.attempt
    (do
      let statusOutput ← call (.status (.critical critical))
      match matchingLine library.decode statusOutput critical.path with
      | some line =>
          let statusXY := trim (.ofList (line.take 2))
          pure (if reportsDeleted line then none
            else some
              s!"file is reported present in git status ({statusXY}) but could not be read")
      | none =>
          Block.attempt
            (do
              let _ ← call (.fileContent (.critical critical) "HEAD" critical.path)
              pure (some "file is present in HEAD and clean in worktree but could not be read"))
            fun _ => pure none)
    fun _ => pure (readFailure.map HandlerError.message)

/-- The content of a critical file, or the error that it cannot be read with. -/
def readCritical (critical : ValidationCriticalFile)
    : FixStatements (Except HandlerError (Option String)) :=
  Block.attempt (.ok <$> call (.worktreeFileContent (.critical critical) critical.path))
    fun error => pure (.error error)

/-- The content that was read, and none after an error. -/
def contentRead : Except HandlerError (Option String) → Option String
  | .ok content => content
  | .error _ => none

/-- The error of a read. -/
def readFailure : Except HandlerError (Option String) → Option HandlerError
  | .ok _ => none
  | .error error => some error

/-- A critical file must not be back in its state before the fix. -/
def guardCritical (critical : ValidationCriticalFile) : FixStatements Unit := do
  let outcome ← readCritical critical
  let currentContent := contentRead outcome
  let unconfirmed ←
    (if currentContent = none ∧ critical.beforeHash = deletedSentinel then
      confirmAbsence library critical (readFailure outcome)
    else pure none : FixStatements (Option String))
  match unconfirmed with
  | some error =>
      emit ctx "review_fix.validation_critical_file_read_failed" .warn
        s!"could not read validation-critical file \"{critical.path}\": {error}"
  | none =>
      Block.ifThen (wasRevertedToBeforeState (hashContent library.sha256 currentContent) critical)
        do
          let reverted := s!"file \"{critical.path}\" was reverted to pre-fix state"
          emit ctx "review_fix.validation_critical_file_reverted" .error
            s!"validation-critical {reverted}: {critical.diagnostic}"
          needsHumanReview ctx
            (s!"Validation-critical {reverted} where validation previously failed: "
              ++ critical.diagnostic)
            true
            ("Review the reverted validation-critical file and ensure validation fixes are"
              ++ " preserved.")
            (findingArtifacts ++ ["validate/critical-files.json"])

def invalidateValidationEvidence : FixStatements Unit :=
  Block.attempt
    (do
      call (.writeArtifact "validation.result" "invalidated\n")
      call (.writeArtifact "validation.fingerprint" ""))
    fun _ => pure ()

/-- `FixReviewHandler.run`. -/
def run : FixStatements Unit := do
  emit ctx "fix_review.started" .info "starting targeted review-fix pass"
  let formattedFindings ← formatFindings library
  let profile ← resolveFixProfile opts ctx
  let template ← loadTemplate ctx
  let criticalFiles ← loadCriticalFiles
  let _ ← requireBaseline ctx
  let statusBefore ← readStatus .beforeFix
  runFixer ctx (fixConfig opts ctx profile template formattedFindings criticalFiles)
  let startCommitSha ← requireBaseline ctx
  guardBaseline ctx startCommitSha
  guardGovernance library opts ctx statusBefore
  Block.forEach criticalFiles (guardCritical library ctx)
  invalidateValidationEvidence
  emit ctx "fix_review.completed" .info "targeted review-fix pass completed"
  Block.leave fun _ => .passed

end Statements

end FixReviewHandler

end AiSdlc.Application
