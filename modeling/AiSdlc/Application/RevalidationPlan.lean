import AiSdlc.Application.Collation
import AiSdlc.Graph.Kahn
import AiSdlc.Graph.Reachable
import AiSdlc.Js.TextOperations

/-! The planner of revalidations: when all changed paths belong to one workspace package, the
validation is narrowed to that package and everything that depends on it.
-/

namespace AiSdlc.Application

open AiSdlc.Js
open AiSdlc.Graph

inductive ValidationCommand
  | text (command : String)
  | tokens (tokens : List String)
  deriving DecidableEq, Repr

structure WorkspacePackageDescriptor where
  name : String
  directory : String
  workspaceDependencies : Option (List String) := none
  hasBats : Option Bool := none
  deriving DecidableEq, Repr

inductive FullValidationReason
  | firstIteration
  | prReady
  | missingBaseline
  | emptyChangedFiles
  | multiplePackages
  | outsidePackage
  | upstreamPackage
  | ambiguousOwnership
  | invalidDescriptor
  | unresolvedDependency
  | cyclicDependency
  | unknownCommand
  | emptyNarrowedCommands
  deriving DecidableEq, Repr

inductive RevalidationPlan
  | full (reason : FullValidationReason) (commands : List ValidationCommand)
      (tiers : Option (List (List String)))
  | narrow (changedPackage : String) (narrowedPackages : List String)
      (commands : List ValidationCommand) (tiers : Option (List (List String)))
  deriving DecidableEq, Repr

/-- The input of the planner, with the entries of `commandScopes` in their order. -/
structure PlanRevalidationInput where
  changedPaths : List String
  iterationIndex : Int
  hasStepBaseline : Bool
  isPrReady : Bool := false
  descriptors : List WorkspacePackageDescriptor
  commands : List ValidationCommand
  tiers : Option (List (List String)) := none
  commandScopes : List (String × List String) := []
  deriving DecidableEq, Repr

/-- `INELIGIBLE_UPSTREAM_PACKAGES`. -/
def ineligibleUpstreamPackages : List String :=
  ["@ai-sdlc/shared", "@ai-sdlc/domain"]

def isSafeChar (char : Char) : Bool :=
  char.isAlphanum || char = '_' || char = '.' || char = '-'

def isSafeWord (chars : List Char) : Bool :=
  chars ≠ [] && chars.all isSafeChar

/-- `SAFE_NAME_REGEX.test(name)`. -/
def isSafeName (name : String) : Bool :=
  match name.toList.splitOn '/' with
  | [word] => isSafeWord word
  | ['@' :: scope, word] => isSafeWord scope && isSafeWord word
  | _ => false

/-- `SAFE_DIR_REGEX.test(directory)`. -/
def isSafeDirectory (directory : String) : Bool :=
  (directory.toList.splitOn '/').all isSafeWord

/-- `while (p.startsWith('./')) p = p.slice(2)`. -/
def dropDotSlash : List Char → List Char
  | '.' :: '/' :: rest => dropDotSlash rest
  | chars => chars

/-- The loop over the parts of a path: nothing is left of one that climbs out. -/
def normalizeParts (normalizedParts : List (List Char))
    : List (List Char) → Option (List (List Char))
  | [] => some normalizedParts
  | part :: rest =>
      if part = [] || part = ['.'] then normalizeParts normalizedParts rest
      else if part = ['.', '.'] then
        if normalizedParts = [] then none else normalizeParts normalizedParts.dropLast rest
      else normalizeParts (normalizedParts ++ [part]) rest

/-- `p.startsWith('/') || /^[a-zA-Z]:/.test(p)`. -/
def isAbsolutePath : List Char → Bool
  | '/' :: _ => true
  | drive :: ':' :: _ => drive.isAlpha
  | _ => false

def normalizeRepoRelativePath (rawPath : String) : Option String :=
  if isBlank rawPath then none
  else
    let path := posixChars (trim rawPath)
    if isAbsolutePath path then none
    else
      match normalizeParts [] ((dropDotSlash path).splitOn '/') with
      | none | some [] => none
      | some parts => some (joinSegments parts)

inductive CommandSemanticRole
  | build
  | lint
  | typecheck
  | test
  | bashTest
  | boundaries
  | pathScoped (scopes : List String)
  deriving DecidableEq, Repr

/-- The words of a command. -/
def ValidationCommand.words : ValidationCommand → List String
  | tokens parts => (parts.map trim).filter (· ≠ "")
  | text command => Js.words command

def normalizeCommandString (command : ValidationCommand) : String :=
  joinTexts " " command.words

/-- A directory holds a path: the path is the directory, or lies below it. -/
def holdsPath (directory path : String) : Bool :=
  path = directory || startsWith path (directory ++ "/")

/-- `descriptorMap.get(name)`. -/
def descriptorNamed (descriptors : List WorkspacePackageDescriptor) (name : String)
    : Option WorkspacePackageDescriptor :=
  descriptors.find? (·.name = name)

def isPathInScope (normPath scope : String) (descriptors : List WorkspacePackageDescriptor)
    : Bool :=
  ((descriptorNamed descriptors scope).any fun package =>
    holdsPath package.directory normPath)
  || (normalizeRepoRelativePath scope).any fun normScope =>
      holdsPath normScope normPath || startsWith normScope (normPath ++ "/")

/-- The roles that are named like their scripts. -/
def scriptRole : String → Option CommandSemanticRole
  | "build" => some .build
  | "lint" => some .lint
  | "typecheck" => some .typecheck
  | "test" => some .test
  | _ => none

/-- The role of `pnpm` with some arguments. -/
def pnpmRole : List String → Option CommandSemanticRole
  | [] => none
  | first :: rest =>
      let second := rest.head?
      let byScript :=
        match rest with
        | [] => scriptRole first
        | [script] => if first = "-r" || first = "run" then scriptRole script else none
        | _ => none
      byScript <|>
        if first = "test:bash" || (first = "run" && second = some "test:bash") then
          some .bashTest
        else if first = "boundaries" || (first = "run" && second = some "boundaries") then
          some .boundaries
        else if first = "exec" && second = some "eslint" then some .lint
        else none

/-- `normalizedCommandScopes.get(key)`: the last entry for a key decides. -/
def scopesOf (commandScopes : List (String × List String)) (key : String)
    : Option (List String) :=
  (commandScopes.reverse.find? fun entry => normalizeCommandString (.text entry.1) = key).map
    (·.2)

def classifyCommand (commandScopes : List (String × List String))
    (command : ValidationCommand)
    : Option CommandSemanticRole :=
  match scopesOf commandScopes (normalizeCommandString command) with
  | some scopes => some (.pathScoped scopes)
  | none =>
      match command.words with
      | "pnpm" :: arguments => pnpmRole arguments
      | _ => none

/-- What the rewriting of the commands knows about the narrowed packages. -/
structure NarrowedScope where
  seedPackage : String
  narrowedPackages : List String
  descriptors : List WorkspacePackageDescriptor
  changedPaths : List String
  deriving DecidableEq, Repr

def NarrowedScope.hasBatsInClosure (narrowed : NarrowedScope) : Bool :=
  narrowed.narrowedPackages.any fun name =>
    (descriptorNamed narrowed.descriptors name).any (·.hasBats = some true)

/-- Some changed path lies in one of the scopes. -/
def NarrowedScope.intersects (narrowed : NarrowedScope) (scopes : List String) : Bool :=
  scopes.any fun scope => narrowed.changedPaths.any fun rawPath =>
    (normalizeRepoRelativePath rawPath).any fun normPath =>
      isPathInScope normPath scope narrowed.descriptors

/-- A `pnpm --filter` command, in the form of the one that it replaces. -/
def filterCommand (command : ValidationCommand) (filter script : String) : ValidationCommand :=
  match command with
  | .tokens _ => .tokens ["pnpm", "--filter", filter, script]
  | .text _ => .text s!"pnpm --filter {filter} {script}"

def rewriteCommand (narrowed : NarrowedScope) (command : ValidationCommand)
    (role : CommandSemanticRole)
    : Option ValidationCommand :=
  let isLeaf := narrowed.narrowedPackages = [narrowed.seedPackage]
  let filter := if isLeaf then narrowed.seedPackage else s!"...{narrowed.seedPackage}"
  match role with
  | .build => some (filterCommand command filter "build")
  | .typecheck => some (filterCommand command filter "typecheck")
  | .test => some (filterCommand command filter "test")
  | .lint =>
      let closureDirs := (narrowed.narrowedPackages.filterMap fun name =>
        (descriptorNamed narrowed.descriptors name).map (·.directory)).filter (· ≠ "")
      match command with
      | .tokens _ =>
          some (.tokens (["pnpm", "exec", "eslint"] ++ closureDirs ++ ["--max-warnings=0"]))
      | .text _ =>
          let directories := joinTexts " " closureDirs
          some (.text s!"pnpm exec eslint {directories} --max-warnings=0")
  | .bashTest =>
      if narrowed.hasBatsInClosure then
        match command with
        | .tokens _ => some (.tokens ["pnpm", "test:bash"])
        | .text _ => some (.text "pnpm test:bash")
      else none
  | .boundaries => some command
  | .pathScoped scopes =>
      if narrowed.intersects scopes then some command else none

/-- The rewritten commands, unless one of them has no role. -/
def rewriteCommands (commandScopes : List (String × List String)) (narrowed : NarrowedScope)
    : List ValidationCommand → Except FullValidationReason (List ValidationCommand)
  | [] => .ok []
  | command :: rest =>
      match classifyCommand commandScopes command with
      | none => .error .unknownCommand
      | some role => do
          let rewritten ← rewriteCommands commandScopes narrowed rest
          match rewriteCommand narrowed command role with
          | some replaced => .ok (replaced :: rewritten)
          | none => .ok rewritten

/-- `Array.isArray(rewritten) ? rewritten.join(' ') : rewritten`. -/
def ValidationCommand.line : ValidationCommand → String
  | tokens parts => joinTexts " " parts
  | text command => command

/-- The rewritten tiers without the empty ones. -/
def rewriteTiers (commandScopes : List (String × List String)) (narrowed : NarrowedScope)
    : List (List String) → Except FullValidationReason (List (List String))
  | [] => .ok []
  | tier :: rest => do
      let commands ← rewriteCommands commandScopes narrowed (tier.map .text)
      let rewritten ← rewriteTiers commandScopes narrowed rest
      let lines := commands.map (·.line)
      .ok (if lines = [] then rewritten else lines :: rewritten)

/-- The descriptors with normalized directories, when all are safe and none is ambiguous. -/
def collectDescriptors (collected : List WorkspacePackageDescriptor)
    : List WorkspacePackageDescriptor
      → Except FullValidationReason (List WorkspacePackageDescriptor)
  | [] => .ok collected
  | desc :: rest =>
      if !isSafeName desc.name then .error .invalidDescriptor
      else
        match normalizeRepoRelativePath desc.directory with
        | none => .error .invalidDescriptor
        | some normDir =>
            if !isSafeDirectory normDir then .error .invalidDescriptor
            else if collected.any (·.name = desc.name) then .error .ambiguousOwnership
            else if collected.any (·.directory = normDir) then .error .ambiguousOwnership
            else collectDescriptors (collected ++ [{ desc with directory := normDir }]) rest

/-- `new Set(desc.workspaceDependencies ?? [])`. -/
def WorkspacePackageDescriptor.deps (desc : WorkspacePackageDescriptor) : List String :=
  (desc.workspaceDependencies.getD []).eraseDups

/-- The dependencies of the package with a name. -/
def dependenciesOf (descriptors : List WorkspacePackageDescriptor) (name : String)
    : List String :=
  ((descriptorNamed descriptors name).map (·.deps)).getD []

/-- `directDependentsMap.get(name)`. -/
def directDependents (descriptors : List WorkspacePackageDescriptor) (name : String)
    : List String :=
  (descriptors.filter fun desc => name ∈ desc.deps).map (·.name)

/-- The packages that Kahn's algorithm visits in the whole workspace. -/
def visitedPackages (descriptors : List WorkspacePackageDescriptor) : List String :=
  let inDegrees (name : String) : Int := (dependenciesOf descriptors name).length
  let queue := (descriptors.map (·.name)).filter (inDegrees · = 0)
  kahn id (fun _ => true) (directDependents descriptors) descriptors.length inDegrees queue

/-- The package that owns a path: the one with the deepest directory that holds it. -/
def matchedPackage (descriptors : List WorkspacePackageDescriptor) (rawPath : String)
    : Except FullValidationReason String :=
  let sortedDescsByDirDepth := descriptors.insertionSort fun a b =>
    textLength b.directory ≤ textLength a.directory
  match normalizeRepoRelativePath rawPath with
  | none => .error .outsidePackage
  | some normPath =>
      match sortedDescsByDirDepth.find? fun desc => holdsPath desc.directory normPath with
      | none => .error .outsidePackage
      | some desc => .ok desc.name

/-- The single package that owns all paths. -/
def seedPackage (descriptors : List WorkspacePackageDescriptor) (changedPaths : List String)
    : Except FullValidationReason String := do
  let matched ← changedPaths.mapM (matchedPackage descriptors)
  match matched.eraseDups with
  | [] => .error .outsidePackage
  | [seed] => .ok seed
  | _ => .error .multiplePackages

/-- `closureSet` of a seed. -/
def closureOf (descriptors : List WorkspacePackageDescriptor) (seed : String) : List String :=
  search (directDependents descriptors) descriptors.length [seed] [seed]

/-- `closureInDegrees.get(name)`. -/
def closureInDegrees (descriptors : List WorkspacePackageDescriptor) (closureSet : List String)
    (name : String)
    : Int :=
  ((dependenciesOf descriptors name).filter (· ∈ closureSet)).length

/-- The packages of the closure, each after those that it depends on. -/
def narrowedPackages (localeCompare : String → String → Int)
    (descriptors : List WorkspacePackageDescriptor) (closureSet : List String)
    : List String :=
  let sort := sortByLocale localeCompare
  let inDegrees := closureInDegrees descriptors closureSet
  let readyQueue := sort (closureSet.filter (inDegrees · = 0))
  kahn sort (· ∈ closureSet) (directDependents descriptors) descriptors.length inDegrees
    readyQueue

/-- The narrow plan, or the reason why the full validation is needed. -/
def narrowPlan (localeCompare : String → String → Int) (input : PlanRevalidationInput)
    : Except FullValidationReason RevalidationPlan :=
  if input.isPrReady then .error .prReady
  else if !input.hasStepBaseline then .error .missingBaseline
  else if input.iterationIndex ≤ 1 then .error .firstIteration
  else if input.changedPaths = [] then .error .emptyChangedFiles
  else do
    let descriptors ← collectDescriptors [] input.descriptors
    if descriptors.any fun desc => desc.deps.any fun dep =>
        (descriptorNamed descriptors dep).isNone then
      .error .unresolvedDependency
    else if (visitedPackages descriptors).length ≠ descriptors.length then
      .error .cyclicDependency
    else do
      let seed ← seedPackage descriptors input.changedPaths
      if seed ∈ ineligibleUpstreamPackages then .error .upstreamPackage
      else
        let closureSet := closureOf descriptors seed
        if closureSet.any fun name => (descriptorNamed descriptors name).isNone then
          .error .invalidDescriptor
        else do
          let narrowed : NarrowedScope := {
            seedPackage := seed
            narrowedPackages := narrowedPackages localeCompare descriptors closureSet
            descriptors
            changedPaths := input.changedPaths
          }
          let commands ← rewriteCommands input.commandScopes narrowed input.commands
          if commands = [] then .error .emptyNarrowedCommands
          else do
            let tiers ← input.tiers.mapM (rewriteTiers input.commandScopes narrowed)
            .ok (.narrow seed narrowed.narrowedPackages commands tiers)

def planRevalidation (localeCompare : String → String → Int) (input : PlanRevalidationInput)
    : RevalidationPlan :=
  match narrowPlan localeCompare input with
  | .ok plan => plan
  | .error reason => .full reason input.commands input.tiers

end AiSdlc.Application
