import AiSdlc.Application.OrchestratorArtifacts
import AiSdlc.Application.RevalidationPlan
import AiSdlc.Domain.TaskPath

/-! The paths that an agent must leave alone: the governance registries, the protected files of
the repository, and the files that were there under names of the orchestrator's own artifacts.
-/

namespace AiSdlc.Application

open AiSdlc.Js
open AiSdlc.Domain

/-- `/(^|\/)\.review-fixture-store(?:\/|$)/.test(path)`: one of the segments is the store. -/
def isReviewFixtureStorePath (path : String) : Bool :=
  (path.toList.splitOn '/').any (· = ".review-fixture-store".toList)

def isProtectedArtifactCandidate (path : String) : Bool :=
  let normalized := dropLeadingSlashes (dropCarriageReturn path.toList)
  normalized ≠ []
  && (isOrchestratorArtifactPattern (.ofList normalized)
    || isOrchestratorArtifactPattern (.ofList (normalized.rtakeWhile (· ≠ '/'))))

/-- `trimmed.startsWith('/') || /^[a-zA-Z]:\//.test(trimmed)`. -/
def isRootedPath : List Char → Bool
  | '/' :: _ => true
  | drive :: ':' :: '/' :: _ => drive.isAlpha
  | _ => false

/-- The part of a path below the working directory; nothing is left of one outside. -/
def belowDirectory (normalizedCwd trimmed : List Char) : Option (List Char) :=
  if isRootedPath trimmed then
    if (normalizedCwd ++ ['/']).isPrefixOf trimmed then
      some (trimmed.drop (normalizedCwd.length + 1))
    else none
  else some trimmed

def normalizeRepositoryPath (path cwd : String) : Option String :=
  let trimmed := posixChars (trim path)
  let normalizedCwd := (posixChars (trim cwd)).rdropWhile (· = '/')
  if trimmed = [] then none
  else
    match (belowDirectory normalizedCwd trimmed).bind fun below =>
        normalizeParts [] (below.splitOn '/') with
    | none | some [] => none
    | some stack => some (joinSegments stack)

/-- The test directories, which governance leaves editable. -/
def testDirectories : List String :=
  ["__tests__", "test-support", "fixtures", "test", "tests"]

/-- The names of the registries in their file names. -/
def registryNames : List String :=
  ["component-license-registry", "license-registry", "compliance-registry"]

/-- The last segment of a path ends in `.json` and has the name of a registry, in either case of
the letters.
-/
def isRegistryFileName (norm : String) : Bool :=
  let fileName := String.ofList ((norm.toList.rtakeWhile (· ≠ '/')).map Char.toLower)
  ".json".toList.isSuffixOf fileName.toList && registryNames.any fun name => includes fileName name

def isGovernanceFilePath (filePath : String) (customProtectedPaths : List String) : Bool :=
  let norm := normalizeTaskPath filePath
  let isCustom := customProtectedPaths.any fun path =>
    let normCustom := normalizeTaskPath path
    norm = normCustom || startsWith norm (normCustom ++ "/")
  let isTest := testDirectories.any fun directory =>
    includes norm s!"/{directory}/" || startsWith norm (directory ++ "/")
  norm ≠ "" && (isCustom || (!isTest && isRegistryFileName norm))

example : isGovernanceFilePath "config/Component-License-Registry.json" [] = true
    ∧ isGovernanceFilePath "test/fixtures/license-registry.json" [] = false := by
  decide

end AiSdlc.Application
