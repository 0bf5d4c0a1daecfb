import Mathlib.Algebra.Order.Field.Rat
import AiSdlc.Application.OrchestratorArtifacts
import AiSdlc.Domain.TaskPath
import AiSdlc.Js.Groups

/-! The boundaries of a task: which of the changed files it may touch, and which changes of a
run no task has declared.
-/

namespace AiSdlc.Application

open AiSdlc.Js
open AiSdlc.Domain

structure TaskBoundaryClassification where
  modifiedReferenceFiles : List String
  undeclaredFiles : List String
  deriving DecidableEq, Repr

structure EffectiveTaskScope where
  requiredFiles : List String := []
  mayExtendFiles : List String := []
  permittedAreas : List String := []
  nonGoals : List String := []
  referenceFiles : List String := []
  deriving DecidableEq, Repr

/-- A candidate is a path, or a path with a flag. -/
inductive TaskChangeCandidate
  | text (path : String)
  | change (path : String) (tracked : Option Bool)
  deriving DecidableEq, Repr

def TaskChangeCandidate.path : TaskChangeCandidate → String
  | .text path => path
  | .change path _ => path

/-- `typeof rawCandidate === 'string' ? true : rawCandidate.tracked !== false`. -/
def TaskChangeCandidate.isTracked : TaskChangeCandidate → Bool
  | .text _ => true
  | .change _ tracked => tracked ≠ some false

structure PrematureImplementationRecord where
  path : String
  taskNumber : Rat
  deriving DecidableEq, Repr

structure TaskScopeClassification where
  permittedPaths : List String
  modifiedReferenceFiles : List String
  nonGoalFiles : List String
  prematureImplementation : List PrematureImplementationRecord
  driftFiles : List String
  protectedFiles : List String
  deriving DecidableEq, Repr

/-- The fields of a task in a manifest. A list is absent where the field holds none, and an entry
of a list where it is no text; a number is absent where the field holds no finite one.
-/
structure TaskRecord where
  n : Option Rat := none
  taskNumber : Option Rat := none
  expectedFiles : Option (List (Option String)) := none
  files : Option (List (Option String)) := none
  mayExtend : Option (List (Option String)) := none
  permittedAreas : Option (List (Option String)) := none
  nonGoals : Option (List (Option String)) := none
  referenceFiles : Option (List (Option String)) := none
  deriving DecidableEq, Repr

/-- A task of a manifest, where it is an object. -/
abbrev ManifestTask := Option TaskRecord

/-- A manifest that is an object, with its tasks where they are a list. -/
structure ManifestRecord where
  tasks : Option (List ManifestTask)
  deriving DecidableEq, Repr

structure ClassifyTaskChangesOptions where
  candidates : List TaskChangeCandidate
  currentScope : EffectiveTaskScope
  manifestTasks : Option (List ManifestTask) := none
  tasks : Option (List ManifestTask) := none
  downstreamTasks : Option (List ManifestTask) := none
  manifest : Option ManifestRecord := none
  currentTaskNumber : Option Rat := none
  exemptFiles : List String := []
  isProtected : String → Bool := fun _ => false

def isNormalizedSegmentPrefixMatch (normPrefix normPath : String) : Bool :=
  normPrefix ≠ "" && normPath ≠ ""
  && (normPath = normPrefix || startsWith normPath (normPrefix ++ "/"))

/-- `text.endsWith(ending)`. -/
def endsWith (text ending : String) : Bool :=
  ending.toList.isSuffixOf text.toList

def isProtectedTaskPath (path : String) : Bool :=
  let norm := normalizeTaskPath path
  norm ≠ ""
  && (norm = ".gitignore" || endsWith norm "/.gitignore" || norm = ".ai-orchestrator.json"
    || norm = ".github" || startsWith norm ".github/" || isOrchestratorArtifactPattern norm)

def getTaskNumber (task : ManifestTask) (fallbackIndex : Rat) : Rat :=
  match task.bind fun record => record.n <|> record.taskNumber with
  | some number => number
  | none => fallbackIndex + 1

/-- `new Set(paths.map(normalizeTaskPath).filter(Boolean))`. -/
def normalizedPaths (paths : List String) : List String :=
  ((paths.map normalizeTaskPath).filter (· ≠ "")).eraseDups

/-- The texts of a list: an entry that is none has no normal form. -/
def texts (entries : Option (List (Option String))) : List String :=
  (entries.getD []).reduceOption

/-- `file.slice(0, file.lastIndexOf('/'))`, where there is such a parent. -/
def parentArea (file : String) : Option String :=
  let parent := joinSegments (file.toList.splitOn '/').dropLast
  if parent = "" || parent = "." then none else some parent

def resolveEffectiveTaskScope (task : ManifestTask) : EffectiveTaskScope :=
  match task with
  | none => {}
  | some record =>
      let required := normalizedPaths (texts record.expectedFiles ++ texts record.files)
      let derivedAreas := required.filterMap parentArea
      let explicitAreas := ((texts record.permittedAreas).map normalizeTaskPath).filter (· ≠ "")
      {
        requiredFiles := required
        mayExtendFiles := normalizedPaths (texts record.mayExtend)
        permittedAreas := (derivedAreas ++ explicitAreas).eraseDups
        nonGoals := normalizedPaths (texts record.nonGoals)
        referenceFiles := normalizedPaths (texts record.referenceFiles)
      }

/-- `downstreamRequiredMap` with the required files of a later task. -/
def requireDownstream (required : String → Option Rat) (taskNum : Rat) (files : List String)
    : String → Option Rat :=
  files.foldl (fun required reqFile =>
      if (required reqFile).all (taskNum < ·) then
        Function.update required reqFile (some taskNum)
      else required)
    required

/-- The loop over the tasks, from an index on. -/
def requireTasks (currentTaskNumber : Option Rat) (required : String → Option Rat) (index : Rat)
    : List ManifestTask → String → Option Rat
  | [] => required
  | task :: rest =>
      let taskNum := getTaskNumber task index
      if currentTaskNumber.any (taskNum ≤ ·) then
        requireTasks currentTaskNumber required (index + 1) rest
      else
        let scope := resolveEffectiveTaskScope task
        requireTasks currentTaskNumber (requireDownstream required taskNum scope.requiredFiles)
          (index + 1) rest

/-- The tasks among which the later ones are looked for, with the index of the first. -/
def ClassifyTaskChangesOptions.allTasks (opts : ClassifyTaskChangesOptions)
    : Rat × List ManifestTask :=
  match opts.downstreamTasks with
  | some downstream => (opts.currentTaskNumber.getD 0, downstream)
  | none =>
      (0, (opts.manifestTasks <|> opts.tasks <|> opts.manifest.bind (·.tasks)).getD [])

def ClassifyTaskChangesOptions.downstreamRequiredMap (opts : ClassifyTaskChangesOptions)
    : String → Option Rat :=
  requireTasks opts.currentTaskNumber (fun _ => none) opts.allTasks.1 opts.allTasks.2

/-- One candidate enters `normalizedCandidateMap`: it is tracked where any of its spellings is. -/
def addCandidate (entries : List (String × Bool)) (rawCandidate : TaskChangeCandidate)
    : List (String × Bool) :=
  let norm := normalizeTaskPath rawCandidate.path
  if norm = "" then entries
  else if entries.all (·.1 ≠ norm) then entries ++ [(norm, rawCandidate.isTracked)]
  else if rawCandidate.isTracked then
    entries.map fun entry => if entry.1 = norm then (norm, true) else entry
  else entries

/-- `normalizedCandidateMap`, with its entries in their order. -/
def collectCandidates (candidates : List TaskChangeCandidate) : List (String × Bool) :=
  candidates.foldl addCandidate []

/-- Where a candidate is put. -/
inductive TaskChangeVerdict
  | protectedFile
  | exempt
  | nonGoal
  | permitted
  | premature (taskNumber : Rat)
  | modifiedReference
  | drift
  deriving DecidableEq, Repr

/-- The rules 5 to 9 for a candidate: who owns a file that is not protected. -/
def ClassifyTaskChangesOptions.ownership (opts : ClassifyTaskChangesOptions) (normPath : String)
    (tracked : Bool)
    : TaskChangeVerdict :=
  match opts.downstreamRequiredMap normPath with
  | some taskNumber => .premature taskNumber
  | none =>
      if normPath ∈ normalizedPaths opts.currentScope.referenceFiles then .modifiedReference
      else if normPath ∈ normalizedPaths opts.currentScope.mayExtendFiles then .permitted
      else if (normalizedPaths opts.currentScope.permittedAreas).any
          (isNormalizedSegmentPrefixMatch · normPath) then
        if tracked then .permitted else .drift
      else .drift

/-- The rules for a candidate, the first one that applies decides. -/
def ClassifyTaskChangesOptions.verdict (opts : ClassifyTaskChangesOptions) (normPath : String)
    (tracked : Bool)
    : TaskChangeVerdict :=
  if isOrchestratorArtifactPattern normPath || normPath = ".ai-orchestrator.json"
      || opts.isProtected normPath then
    .protectedFile
  else if normPath ∈ normalizedPaths opts.exemptFiles then .exempt
  else if (normalizedPaths opts.currentScope.nonGoals).any
      (isNormalizedSegmentPrefixMatch · normPath) then
    .nonGoal
  else if normPath ∈ normalizedPaths opts.currentScope.requiredFiles then .permitted
  else if isProtectedTaskPath normPath then .protectedFile
  else opts.ownership normPath tracked

/-- `(a, b) => a.path.localeCompare(b.path) || a.taskNumber - b.taskNumber`: not after. -/
def notAfter (localeCompare : String → String → Int) (a b : PrematureImplementationRecord)
    : Bool :=
  if localeCompare a.path b.path = 0 then a.taskNumber ≤ b.taskNumber
  else localeCompare a.path b.path ≤ 0

def classifyTaskChanges (localeCompare : String → String → Int)
    (opts : ClassifyTaskChangesOptions)
    : TaskScopeClassification :=
  let entries := collectCandidates opts.candidates
  let bucket (verdict : TaskChangeVerdict) : List String :=
    sortTexts ((entries.filter fun entry => opts.verdict entry.1 entry.2 = verdict).map
      (·.1)).eraseDups
  let premature := entries.filterMap fun entry =>
    match opts.verdict entry.1 entry.2 with
    | .premature taskNumber => some { path := entry.1, taskNumber }
    | _ => none
  {
    permittedPaths := bucket .permitted
    modifiedReferenceFiles := bucket .modifiedReference
    nonGoalFiles := bucket .nonGoal
    prematureImplementation :=
      premature.insertionSort fun a b => notAfter localeCompare a b
    driftFiles := bucket .drift
    protectedFiles := bucket .protectedFile
  }

def isPathPermittedByScope (localeCompare : String → String → Int) (filePath : String)
    (scope : EffectiveTaskScope)
    : Bool :=
  let norm := normalizeTaskPath filePath
  norm ≠ ""
  && norm ∈ (classifyTaskChanges localeCompare
    { candidates := [.change norm (some true)], currentScope := scope }).permittedPaths

def checkTaskBoundaries (localeCompare : String → String → Int) (committedFiles : List String)
    (manifest : Option ManifestRecord) (exemptFiles : List String)
    : TaskBoundaryClassification :=
  let exemptSet := normalizedPaths exemptFiles
  let normalizedCandidates := (normalizedPaths committedFiles).filter fun file =>
    file ∉ exemptSet && !isOrchestratorArtifactPattern file
  match manifest with
  | none => { modifiedReferenceFiles := [], undeclaredFiles := sortTexts normalizedCandidates }
  | some record =>
      let scopes := (record.tasks.getD []).map resolveEffectiveTaskScope
      let referenceFilesSet := scopes.flatMap (·.referenceFiles)
      let unpermitted := normalizedCandidates.filter fun file =>
        !scopes.any fun scope => isPathPermittedByScope localeCompare file scope
      {
        modifiedReferenceFiles := sortTexts (unpermitted.filter (· ∈ referenceFilesSet)).eraseDups
        undeclaredFiles := sortTexts (unpermitted.filter (· ∉ referenceFilesSet)).eraseDups
      }

end AiSdlc.Application
