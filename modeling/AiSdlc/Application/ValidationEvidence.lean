import AiSdlc.Async.Block
import AiSdlc.Application.FollowUpReview
import AiSdlc.Application.GitStatus

/-! The evidence of a validation: a fingerprint of HEAD and the uncommitted sources, which is
written beside the result, taken back by a later phase, and compared with the worktree before the
validation is trusted.
-/

namespace AiSdlc.Application

open AiSdlc.Js
open AiSdlc.Async

def validationResultArtifact : String :=
  "validation.result"

def validationHeadshaArtifact : String :=
  "validation.headsha"

def validationFingerprintArtifact : String :=
  "validation.fingerprint"

/-- The calls of the git port, and of the artifact store of one run. -/
inductive EvidenceRequest
  | headCommitSha
  | status
  | worktreeFileContent (relPath : String)
  | writeArtifact (phaseId relativePath contents : String)
  | readArtifact (relativePath : String)
  deriving DecidableEq, Repr

abbrev EvidenceRequest.Answer : EvidenceRequest → Type
  | headCommitSha => String
  | status => String
  | worktreeFileContent _ => Option String
  | writeArtifact _ _ _ => Unit
  | readArtifact _ => String

/-- Whatever is thrown counts by its message. -/
abbrev EvidenceRequest.Reply (request : EvidenceRequest) : Type :=
  Except String request.Answer

/-- The statements of the functions, which share the source entries of a fingerprint. -/
abbrev EvidenceStatements (α : Type) : Type :=
  Block EvidenceRequest.Answer (List String) String Empty α

/-- The result of a verification, with the fingerprint of the worktree as it is. -/
structure VerifiedFreshness extends ValidationFreshnessResult where
  currentFingerprint : Option String := none
  deriving DecidableEq, Repr

namespace ValidationEvidence

-- `decode` is that of a `TextDecoder` for UTF-8, and `sha256` gives hexadecimal digits.
variable (decode : List Nat → String) (sha256 : String → String)

def call (request : EvidenceRequest) : EvidenceStatements request.Answer :=
  Block.call request

/-- The message for a path whose content cannot be read. -/
def unreadable (relPath : String) : String :=
  s!"Failed to read worktree file content for uncommitted path '{relPath}'"

/-- `sourceEntries.push(…)`. -/
def pushEntry (statusCode relPath mark : String) : EvidenceStatements Unit :=
  Block.assign fun sourceEntries => sourceEntries ++ [s!"{statusCode}:{relPath}:{mark}"]

/-- The body of the loop over the paths of a line: a deleted path may be missing. -/
def sourcePath (statusCode : String) (isDeletion : Bool) (relPath : String)
    : EvidenceStatements Unit := do
  let content ← Block.attempt (call (.worktreeFileContent relPath)) fun error =>
    if isDeletion then pure none else Block.throw s!"{unreadable relPath}: {error}"
  match content with
  | some content => pushEntry statusCode relPath (sha256 content)
  | none =>
      if isDeletion then pushEntry statusCode relPath "DELETED"
      else Block.throw s!"{unreadable relPath} (status: '{statusCode}')"

/-- The paths of a line that are no artifacts of the orchestrator. -/
def nonArtifactPaths (line : String) : List String :=
  let unquotedPaths :=
    ((parseGitStatusLine line).map (unquoteGitPath decode)).filter (· ≠ "")
  unquotedPaths.filter fun relPath => !isOrchestratorArtifactPattern relPath

/-- The body of the loop over the lines of the status listing. -/
def sourceLine (line : String) : EvidenceStatements Unit :=
  let trimmed := String.ofList (dropCarriageReturn line.toList)
  if textLength trimmed < 3 then pure ()
  else
    let statusCode := sliceTo trimmed 2
    Block.forEach (nonArtifactPaths decode trimmed)
      (sourcePath sha256 statusCode (includes statusCode "D"))

/-- What the fingerprint is the digest of. -/
def fingerprintPayload (headSha : String) (sourceEntries : List String) : String :=
  let lines := joinTexts "\n" (sortTexts sourceEntries)
  s!"{headSha}\n{lines}"

def computeWorktreeSourceFingerprint : EvidenceStatements String := do
  Block.assign fun _ => []
  let headSha ← Block.attempt
    (do
      let headSha ← call .headCommitSha
      pure (trim headSha))
    fun _ => pure ""
  let rawStatus ← Block.attempt (call .status) fun _ => pure ""
  Block.forEach (statusLines rawStatus) (sourceLine decode sha256)
  let sourceEntries ← Block.locals
  pure (sha256 (fingerprintPayload headSha sourceEntries))

/-- `recordValidationEvidence`, which does not throw. -/
def recordValidationEvidence (phaseId : String) : EvidenceStatements Unit :=
  Block.attempt
    (do
      let headSha ← call .headCommitSha
      let currentSha := trim headSha
      let fingerprint ← computeWorktreeSourceFingerprint decode sha256
      call (.writeArtifact phaseId validationHeadshaArtifact s!"{currentSha}\n")
      call (.writeArtifact phaseId validationResultArtifact "passed\n")
      call (.writeArtifact phaseId validationFingerprintArtifact s!"{fingerprint}\n"))
    fun _ => pure ()

/-- `invalidateValidationEvidence`, which does not throw. -/
def invalidateValidationEvidence (phaseId : String) : EvidenceStatements Unit :=
  Block.attempt
    (do
      call (.writeArtifact phaseId validationResultArtifact "invalidated\n")
      call (.writeArtifact phaseId validationFingerprintArtifact ""))
    fun _ => pure ()

/-- The trimmed text of an artifact, where it can be read. -/
def readTrimmed (relativePath : String) : EvidenceStatements (Option String) :=
  Block.attempt
    (do
      let contents ← call (.readArtifact relativePath)
      pure (some (trim contents)))
    fun _ => pure none

def stale (reason : String) : VerifiedFreshness :=
  { fresh := false, reason := some reason }

/-- The rest of the verification, for evidence of a validation that passed. -/
def compareFingerprints (recordedFingerprint : String) : EvidenceStatements VerifiedFreshness := do
  let inspected ← Block.attempt
    (do
      let currentFingerprint ← computeWorktreeSourceFingerprint decode sha256
      pure (Except.ok currentFingerprint))
    fun error => pure (Except.error error)
  match inspected with
  | .error message => pure (stale s!"Failed to inspect worktree state: {message}")
  | .ok currentFingerprint =>
      if currentFingerprint ≠ recordedFingerprint then
        let recorded := sliceTo recordedFingerprint 8
        let current := sliceTo currentFingerprint 8
        let modified := "worktree source state modified since last validation"
        pure {
          fresh := false
          reason := some
            s!"Validation evidence is stale: {modified} (recorded: {recorded}, current: {current})"
          expectedFingerprint := some recordedFingerprint
          currentFingerprint := some currentFingerprint
        }
      else
        pure {
          fresh := true
          expectedFingerprint := some recordedFingerprint
          currentFingerprint := some currentFingerprint
        }

def verifyValidationFreshness : EvidenceStatements VerifiedFreshness := do
  let valResult ← readTrimmed validationResultArtifact
  match valResult with
  | none => pure (stale "Validation result artifact (validation.result) is missing")
  | some valResult =>
      if valResult ≠ "passed" then
        let told := orElse (some valResult) "empty"
        pure (stale s!"Validation status is '{told}' (expected 'passed')")
      else do
        let recordedFingerprint ← readTrimmed validationFingerprintArtifact
        match recordedFingerprint with
        | none => pure (stale "Validation fingerprint artifact (validation.fingerprint) is missing")
        | some recordedFingerprint =>
            if recordedFingerprint = "" then
              pure (stale "Validation fingerprint is empty (invalidated or missing)")
            else compareFingerprints decode sha256 recordedFingerprint

end ValidationEvidence

end AiSdlc.Application
