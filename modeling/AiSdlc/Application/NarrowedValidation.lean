import AiSdlc.Application.RevalidationScope
import AiSdlc.Application.ValidateHandler

/-! Which changes a narrowed validation covers. The listings of git name every changed path but
the old ones of renames; a path that they name is covered where it is read back as it is.
-/

namespace AiSdlc.Application

open AiSdlc.Js
open AiSdlc.Async
open ValidateHandler

/-- A worktree: the files at the start commit, at the HEAD commit and now, but for the ones that
git ignores, each path with what git stores for it, and what git lists about them.
-/
structure WorktreeChanges where
  start : String → Option String
  head : String → Option String
  current : String → Option String
  renamedFrom : List String
  diffNames : List String
  entries : List StatusEntry
  quoted : String → List Char

/-- What `git diff -z --name-only` prints, without trailing white space. -/
def printedDiff (names : List String) : String :=
  trimEnd (.ofList (names.flatMap fun name => name.toList ++ [nul]))

/-- What git documents of its listings. The diff names the paths that differ, without the old
path of a rename that it detects, which is a deleted one; the status names the paths that differ
from HEAD.
-/
structure WorktreeChanges.Listed (changes : WorktreeChanges) : Prop where
  diff : ∀ path, path ∈ changes.diffNames
    ↔ changes.start path ≠ changes.head path ∧ path ∉ changes.renamedFrom
  renames : ∀ path ∈ changes.renamedFrom,
    (changes.start path).isSome ∧ changes.head path = none
  status : ∀ path, changes.head path ≠ changes.current path →
    ∃ entry ∈ changes.entries, path ∈ entry.paths
  entries : ∀ entry ∈ changes.entries, entry.WellFormed
  quotes : Quotes changes.quoted
  names : ∀ name ∈ changes.diffNames, nul ∉ name.toList

/-- `ctx.git.status(ctx.cwd)`. -/
def WorktreeChanges.statusOutput (changes : WorktreeChanges) : String :=
  printedStatus changes.quoted changes.entries

/-- A path that was added, deleted, renamed or modified, and is not one of the orchestrator's. -/
def WorktreeChanges.Changed (changes : WorktreeChanges) (path : String) : Prop :=
  changes.start path ≠ changes.current path ∧ isExcludedPath path = false

/-- Every package that owns a changed path is among the narrowed ones. -/
def CoversChanges (changes : WorktreeChanges) (descriptors : List WorkspacePackageDescriptor)
    (narrowed : List String)
    : Prop :=
  ∀ path, changes.Changed path → ∀ package, OwnsPath descriptors package path →
    package ∈ narrowed

/-- How the handler reads a path of the diff. -/
def readCommitted (path : String) : String :=
  .ofList (posixChars (trim path))

/-- How the handler reads a path of the status. -/
def WorktreeChanges.readUncommitted (changes : WorktreeChanges) (decode : List Nat → String)
    (path : String)
    : String :=
  unquoteGitPath decode (.ofList (changes.quoted path))

/-- A path is hidden from the handler: neither the diff nor the status names it, or it is not
read as it is. The diff does not name the old path of a rename.
-/
def WorktreeChanges.Hidden (changes : WorktreeChanges) (decode : List Nat → String)
    (path : String)
    : Prop :=
  ¬(changes.start path ≠ changes.head path ∧ path ∉ changes.renamedFrom
    ∧ normalizeRepoRelativePath (readCommitted path) = some path)
  ∧ ¬(changes.head path ≠ changes.current path
    ∧ changes.readUncommitted decode path = path ∧ normalizeRepoRelativePath path = some path)

/-- The paths that are listed, as the handler reads them. -/
def WorktreeChanges.listing (changes : WorktreeChanges) (decode : List Nat → String)
    : List String :=
  changedPaths decode (changedFiles (printedDiff changes.diffNames)) changes.statusOutput

/-- A package that owns a hidden change owns the listed paths as well, or depends on the one
that does.
-/
def HiddenDepend (changes : WorktreeChanges) (decode : List Nat → String)
    (descriptors : List WorkspacePackageDescriptor)
    : Prop :=
  ∀ path, changes.Changed path → changes.Hidden decode path →
    ∀ package, OwnsPath descriptors package path →
      ∀ rawPath ∈ changes.listing decode, ∀ listed,
        normalizeRepoRelativePath rawPath = some listed → ∀ seed, OwnsPath descriptors seed listed →
          Relation.ReflTransGen (DependsOn descriptors) package seed

section Listings

variable {names : List String} {path : String}

theorem splitOn_names (apart : ∀ name ∈ names, nul ∉ name.toList)
    : (names.flatMap fun name => name.toList ++ [nul]).splitOn nul
      = names.map (·.toList) ++ [[]] := by
  induction names with
  | nil => rfl
  | cons first rest ih =>
      have later := ih fun name member => apart name (List.mem_cons_of_mem _ member)
      rw [List.flatMap_cons, List.append_assoc, List.singleton_append,
        List.splitOn_append_cons_self_of_not_mem (apart first List.mem_cons_self), later]
      rfl

theorem mem_changedFiles (apart : ∀ name ∈ names, nul ∉ name.toList)
    : path ∈ changedFiles (printedDiff names)
      ↔ path ≠ "" ∧ ∃ name ∈ names, readCommitted name = path := by
  have kept : (printedDiff names).toList = names.flatMap fun name => name.toList ++ [nul] := by
    rw [printedDiff, trimEnd, String.toList_ofList, String.toList_ofList]
    by_cases nonempty : names = []
    · subst nonempty
      rfl
    · obtain ⟨before, last, rfl⟩ := (List.eq_nil_or_concat names).resolve_left nonempty
      have ends : isWhitespace nul ≠ true := by decide
      rw [List.concat_eq_append, List.flatMap_append, List.flatMap_singleton,
        ← List.append_assoc, List.rdropWhile_concat_neg _ _ _ ends]
  have sorted : (sortTexts ((((printedDiff names).toList.splitOn nul).map fun path =>
      String.ofList (posixChars (trim (.ofList path)))).filter (· ≠ ""))).Perm _ :=
    List.perm_insertionSort _ _
  unfold changedFiles
  rw [sorted.mem_iff, List.mem_filter, kept, splitOn_names apart, List.map_append, List.map_map]
  have empty : String.ofList (posixChars (trim (.ofList []))) = "" := by decide
  simp only [List.map_cons, List.map_nil, empty, List.mem_append, List.mem_map,
    Function.comp_apply, String.ofList_toList, List.mem_singleton, decide_eq_true_eq]
  constructor
  · rintro ⟨⟨name, member, read⟩ | rfl, named⟩
    · exact ⟨named, name, member, read⟩
    · exact absurd rfl named
  · rintro ⟨named, name, member, read⟩
    exact ⟨.inl ⟨name, member, read⟩, named⟩

variable {changes : WorktreeChanges} {decode : List Nat → String}

theorem normalizeRepoRelativePath_empty : normalizeRepoRelativePath "" = none := by
  decide

/-- A path that is not hidden is listed, as a text that is read as the path. -/
theorem listed_of_not_hidden (listed : changes.Listed) (changed : changes.Changed path)
    (shown : ¬changes.Hidden decode path)
    : ∃ rawPath ∈ changes.listing decode, normalizeRepoRelativePath rawPath = some path := by
  have named {text : String} (read : normalizeRepoRelativePath text = some path) : text ≠ "" := by
    rintro rfl
    rw [normalizeRepoRelativePath_empty] at read
    contradiction
  unfold WorktreeChanges.Hidden at shown
  unfold WorktreeChanges.listing changedPaths
  rcases not_and_or.mp shown with committed | uncommitted
  · obtain ⟨differs, kept, read⟩ := not_not.mp committed
    refine ⟨readCommitted path, List.mem_eraseDups.mpr (List.mem_append_left _ ?_), read⟩
    refine (mem_changedFiles listed.names).mpr ⟨named read, path, ?_, rfl⟩
    exact (listed.diff path).mpr ⟨differs, kept⟩
  · obtain ⟨differs, same, read⟩ := not_not.mp uncommitted
    refine ⟨path, List.mem_eraseDups.mpr (List.mem_append_right _ ?_), read⟩
    refine List.mem_filter.mpr ⟨?_, by simpa using changed.2⟩
    obtain ⟨entry, member, within⟩ := listed.status path differs
    exact (mem_parseGitStatusPaths listed.quotes listed.entries).mpr
      ⟨named read, entry, member, path, within, same⟩

end Listings

section Plans

variable {localeCompare : String → String → Int} {input : PlanRevalidationInput}
  {seed package other path : String} {narrowed : List String}
  {descriptors : List WorkspacePackageDescriptor} {commands : List ValidationCommand}
  {tiers : Option (List (List String))} {changes : WorktreeChanges}
  {decode : List Nat → String}

theorem holdsPath_antisymm {directory around : String} (holds : holdsPath around directory = true)
    (held : holdsPath directory around = true)
    : directory = around := by
  rcases holdsPath_iff.mp holds with same | ⟨rest, longer⟩
  · exact same
  · rcases holdsPath_iff.mp held with same | ⟨more, again⟩
    · exact same.symm
    · have length := congrArg textLength (again.trans (congrArg (· ++ "/" ++ more) longer))
      have slash : textLength "/" = 1 := by decide
      simp only [textLength_append, slash] at length
      omega

theorem Narrows.owner_unique (narrows : Narrows localeCompare input descriptors seed commands tiers)
    (first : OwnsPath input.descriptors package path)
    (second : OwnsPath input.descriptors other path)
    : package = other := by
  obtain ⟨all, same, distinct⟩ := narrows.packages
  obtain ⟨desc, member, rfl, directory, normal, holds, deepest⟩ := first
  obtain ⟨desc', member', rfl, directory', normal', holds', deepest'⟩ := second
  obtain rfl := holdsPath_antisymm (deepest desc' member' directory' normal' holds')
    (deepest' desc member directory normal holds)
  have collects {raw : WorkspacePackageDescriptor} (within : raw ∈ input.descriptors)
      (normalDirectory : normalizeRepoRelativePath raw.directory = some directory)
      : ∃ collected ∈ descriptors, collected.directory = directory
          ∧ collected.name = raw.name := by
    obtain ⟨collected, normalizes⟩ := Option.isSome_iff_exists.mp (all raw within)
    obtain ⟨-, normDir, again, -, rfl⟩ :=
      WorkspacePackageDescriptor.normalized_eq_some.mp normalizes
    refine ⟨{ raw with directory := normDir }, ?_, ?_, rfl⟩
    · rw [same]
      exact List.mem_filterMap.mpr ⟨raw, within, normalizes⟩
    · exact Option.some.inj (again.symm.trans normalDirectory)
  obtain ⟨one, inside, told, named⟩ := collects member normal
  obtain ⟨two, inside', told', named'⟩ := collects member' normal'
  obtain rfl := List.inj_on_of_nodup_map distinct.directories inside inside'
    (told.trans told'.symm)
  exact named.symm.trans named'

/-- A narrow plan of the listing covers the changes if and only if the packages of the hidden
ones depend on the listed one.
-/
theorem coversChanges_iff (listed : changes.Listed)
    (paths : input.changedPaths = changes.listing decode)
    (plans : planRevalidation localeCompare input = .narrow seed narrowed commands tiers)
    : CoversChanges changes input.descriptors narrowed
      ↔ HiddenDepend changes decode input.descriptors := by
  obtain ⟨collected, narrows, rfl⟩ := narrows_of_plan plans
  constructor
  · intro covers path changed hidden package owns rawPath member listed' read owner ownsListed
    obtain ⟨same, again, ownsSeed⟩ := narrows.ownsPath (paths ▸ member)
    obtain rfl := Option.some.inj (again.symm.trans read)
    rw [narrows.owner_unique ownsListed ownsSeed]
    exact narrows.mem_narrowed.mp (covers path changed package owns)
  · intro depend path changed package owns
    refine narrows.mem_narrowed.mpr ?_
    by_cases hidden : changes.Hidden decode path
    · obtain ⟨rawPath, member⟩ := List.exists_mem_of_ne_nil _ narrows.admitted.2.2.2
      obtain ⟨listedPath, read, ownsSeed⟩ := narrows.ownsPath member
      exact depend path changed hidden package owns rawPath (paths ▸ member) listedPath read seed
        ownsSeed
    · obtain ⟨rawPath, member, read⟩ := listed_of_not_hidden listed changed hidden
      obtain ⟨same, again, ownsSeed⟩ := narrows.ownsPath (paths ▸ member)
      obtain rfl := Option.some.inj (again.symm.trans read)
      rw [narrows.owner_unique owns ownsSeed]

end Plans

-----------------------------------------------------------------------------------------
-- Statements
-----------------------------------------------------------------------------------------

/-- The replies to the choice of the commands, with whether a port has failed: it threw, or no
packages were discovered. The paths are listed as git prints them, and the packages are the
given ones; the event bus does not throw.
-/
def WorktreeChanges.replies (changes : WorktreeChanges)
    (descriptors : List WorkspacePackageDescriptor)
    : Environment Bool PlanRequest PlanRequest.Reply
  | failed, .changedFiles _ _, .ok paths, after =>
      paths = changedFiles (printedDiff changes.diffNames) ∧ after = failed
  | failed, .discoverWorkspacePackages, .ok discovery, after =>
      match discovery with
      | .success discovered => discovered = descriptors ∧ after = failed
      | .failure _ => after = true
  | failed, .publish _ _, reply, after => reply = .ok () ∧ after = failed
  | failed, .now, reply, after => (∃ now, reply = .ok now) ∧ after = failed
  | failed, _, .ok _, after => after = failed
  | _, _, .error _, after => after = true

section Statements

variable {localeCompare : String → String → Int} {decode : List Nat → String}
  {opts : ValidateHandlerOpts} {ctx : PhaseHandlerContext} {changes : WorktreeChanges}
  {descriptors : List WorkspacePackageDescriptor} {α : Type}

/-- Statements of the choice, which begin and end where ports may have failed, and throw only
after a failure.
-/
abbrev Choosing (changes : WorktreeChanges) (descriptors : List WorkspacePackageDescriptor)
    (before : Bool → Prop) (after : α → Bool → Prop) (exit : Prop)
    (statements : PlanStatements α)
    : Prop :=
  statements.Yields (changes.replies descriptors) (fun _ _ => True) (fun _ => before)
    (fun value _ => after value) fun _ _ => exit

theorem choosing_emit {type message : String} {level : EventLevel} {holds : Bool → Prop}
    {exit : Prop}
    : Choosing changes descriptors holds (fun _ => holds) exit (emit ctx type level message) := by
  have now : Choosing changes descriptors holds (fun _ => holds) exit
      (ValidateHandler.call .now) := by
    refine Block.yields_call (fun _ _ _ => trivial) ?_ ?_
    · rintro _ failed after answer before ⟨-, rfl⟩
      exact before
    · rintro _ failed after error before ⟨⟨answer, same⟩, -⟩
      exact nomatch same
  refine Block.yields_bind now fun publishedAt =>
    Block.yields_call (fun _ _ _ => trivial) ?_ ?_
  · rintro _ failed after answer before ⟨-, rfl⟩
    exact before
  · rintro _ failed after error before ⟨same, -⟩
    exact nomatch same

theorem choosing_readIteration
    : Choosing changes descriptors (· = false)
        (fun iteration failed => 1 < iteration → failed = false) True readIteration := by
  have reads : Choosing changes descriptors (· = false) (fun _ => (· = false)) True
      (ValidateHandler.call .readConvergence) := by
    refine Block.yields_call (fun _ _ _ => trivial) ?_ fun _ _ _ _ _ _ => trivial
    rintro _ failed after answer rfl rfl
    rfl
  refine Block.yields_attempt (Block.yields_bind reads fun raw => ?_) (fun _ => ?_)
    fun _ _ holds => holds
  · cases raw with
    | iteration iteration => exact Block.yields_pure fun _ _ same _ => same
    | other => exact Block.yields_pure fun _ _ same _ => same
  · exact Block.yields_pure fun _ _ _ later => absurd later (by decide)

theorem changedPaths_planInput {paths : List String} {iterationIndex : Int}
    : (planInput opts paths iterationIndex descriptors).changedPaths = paths :=
  rfl

/-- A plan of the listed paths, or the full set; after a failure the full set. -/
def Chosen (localeCompare : String → String → Int) (decode : List Nat → String)
    (opts : ValidateHandlerOpts) (changes : WorktreeChanges)
    (descriptors : List WorkspacePackageDescriptor) (planned : PlannedCommands) (failed : Bool)
    : Prop :=
  (failed = true → planned = fullCommands opts)
  ∧ ∀ narrowed, planned.narrowedPackages = some narrowed →
    ∃ iterationIndex seed, planRevalidation localeCompare
      (planInput opts (changes.listing decode) iterationIndex descriptors)
      = .narrow seed narrowed planned.commands planned.tiers

theorem chosen_fullCommands {failed : Bool}
    : Chosen localeCompare decode opts changes descriptors (fullCommands opts) failed :=
  ⟨fun _ => rfl, nofun⟩

/-- A narrow plan needs a later iteration; every other plan is the full set. -/
theorem chosen_plannedOf {iterationIndex : Int} {failed : Bool}
    (read : 1 < iterationIndex → failed = false)
    : Chosen localeCompare decode opts changes descriptors
        (plannedOf (planRevalidation localeCompare
          (planInput opts (changes.listing decode) iterationIndex descriptors)))
        failed := by
  cases plans : planRevalidation localeCompare
      (planInput opts (changes.listing decode) iterationIndex descriptors) with
  | full reason commands tiers =>
      have full : plannedOf (.full reason commands tiers) = fullCommands opts := by
        unfold planRevalidation at plans
        split at plans
        next plan narrow =>
            obtain ⟨_, _, _, _, -, same⟩ := narrowPlan_eq_ok.mp narrow
            rw [same] at plans
            contradiction
        next other reasons =>
            cases plans
            rfl
      exact full ▸ chosen_fullCommands
  | narrow seed narrowed commands tiers =>
      obtain ⟨_, narrows, -⟩ := narrows_of_plan plans
      refine ⟨fun failed => ?_, fun listed same => ?_⟩
      · rw [read narrows.admitted.2.2.1] at failed
        contradiction
      · cases same
        exact ⟨iterationIndex, seed, plans⟩

theorem choosing_narrowCommands {startCommitSha : String}
    : Choosing changes descriptors (· = false)
        (Chosen localeCompare decode opts changes descriptors) True
        (narrowCommands localeCompare decode opts ctx startCommitSha changes.statusOutput) := by
  have head : Choosing changes descriptors (· = false) (fun _ => (· = false)) True
      (ValidateHandler.call .headCommitSha) := by
    refine Block.yields_call (fun _ _ _ => trivial) ?_ fun _ _ _ _ _ _ => trivial
    rintro _ failed after answer rfl rfl
    rfl
  have listed {headSha : String} : Choosing changes descriptors (· = false)
      (fun committed failed => failed = false
        ∧ committed = changedFiles (printedDiff changes.diffNames))
      True (ValidateHandler.call (.changedFiles startCommitSha headSha)) := by
    refine Block.yields_call (fun _ _ _ => trivial) ?_ fun _ _ _ _ _ _ => trivial
    rintro _ failed after paths rfl ⟨same, rfl⟩
    exact ⟨rfl, same⟩
  have discovers {iterationIndex : Int} : Choosing changes descriptors
      (fun failed => 1 < iterationIndex → failed = false)
      (fun discovery failed => ∀ found, discovery = .success found →
        found = descriptors ∧ (1 < iterationIndex → failed = false))
      True (ValidateHandler.call .discoverWorkspacePackages) := by
    refine Block.yields_call (fun _ _ _ => trivial) ?_ fun _ _ _ _ _ _ => trivial
    rintro _ failed after discovery read replied found rfl
    obtain ⟨same, rfl⟩ := replied
    exact ⟨same, read⟩
  refine Block.yields_bind head fun headSha => Block.yields_bind listed fun committed => ?_
  refine Block.yields_of_fact fun same => ?_
  refine Block.yields_bind choosing_readIteration fun iterationIndex => ?_
  refine Block.yields_bind discovers fun discovery => ?_
  cases discovery with
  | failure reason =>
      exact Block.yields_bind choosing_emit fun _ =>
        Block.yields_pure fun _ _ _ => chosen_fullCommands
  | success found =>
      refine Block.yields_bind choosing_emit fun _ => Block.yields_pure fun _ failed told => ?_
      obtain ⟨rfl, read⟩ := told found rfl
      have chosen : Chosen localeCompare decode opts changes found
          (plannedOf (planRevalidation localeCompare
            (planInput opts (changes.listing decode) iterationIndex found)))
          failed :=
        chosen_plannedOf read
      rw [same]
      exact chosen

/-- The choice never throws. -/
theorem choosing_planCommands
    : Choosing changes descriptors (· = false)
        (Chosen localeCompare decode opts changes descriptors) False
        (planCommands localeCompare decode opts ctx changes.statusOutput) := by
  unfold planCommands
  split
  · refine Block.yields_attempt_of_empty choosing_narrowCommands fun _ => ?_
    exact Block.yields_bind choosing_emit fun _ =>
      Block.yields_pure fun _ _ _ => chosen_fullCommands
  · exact Block.yields_pure fun _ _ _ => chosen_fullCommands

/-- The choice of the commands never throws, and after the failure of a port it is the full set.
A narrowed plan covers every change if and only if the packages of the changes that git does not
list, or that are not read as they are, depend on the listed package.
-/
theorem narrowed_validation_covers_changes (listed : changes.Listed)
    {ended : Completion HandlerError Empty PlannedCommands × Unit} {failed : Bool}
    (execution : Program.Exec (changes.replies descriptors)
      (planCommands localeCompare decode opts ctx changes.statusOutput ()) false ended failed)
    : ∃ planned, ended.1 = .normal planned
        ∧ (failed = true → planned = fullCommands opts)
        ∧ ∀ narrowed, planned.narrowedPackages = some narrowed →
          (CoversChanges changes descriptors narrowed
            ↔ HiddenDepend changes decode descriptors) := by
  have ensured : Choosing changes descriptors (· = false)
      (Chosen localeCompare decode opts changes descriptors) False
      (planCommands localeCompare decode opts ctx changes.statusOutput) :=
    choosing_planCommands
  have whole := ensured () false rfl
  unfold Block.Ensures at whole
  have chosen := whole.of_exec execution
  obtain ⟨completion, locals⟩ := ended
  cases completion with
  | normal planned =>
      refine ⟨planned, rfl, chosen.1, fun narrowed named => ?_⟩
      obtain ⟨iterationIndex, seed, plans⟩ := chosen.2 narrowed named
      exact coversChanges_iff listed changedPaths_planInput plans
  | returned result => exact result.elim
  | threw error => exact chosen.elim

end Statements

-----------------------------------------------------------------------------------------
-- A file that is moved to another package
-----------------------------------------------------------------------------------------

/-- The commit after the start moved a file from one package to another one. -/
def movedFile : WorktreeChanges :=
  {
    start := fun path => if path = "apps/api/x.ts" then some "moved" else none
    head := fun path => if path = "packages/app/x.ts" then some "moved" else none
    current := fun path => if path = "packages/app/x.ts" then some "moved" else none
    renamedFrom := ["apps/api/x.ts"]
    diffNames := ["packages/app/x.ts"]
    entries := []
    quoted := quotedPlain
  }

/-- The same commit, which only changed the second package. -/
def editedFile : WorktreeChanges :=
  {
    movedFile with
    start := fun path => if path = "packages/app/x.ts" then some "edited" else none
    renamedFrom := []
  }

def twoPackages : List WorkspacePackageDescriptor :=
  [
    { name := "@ai-sdlc/api", directory := "apps/api" },
    { name := "@ai-sdlc/app", directory := "packages/app" }
  ]

def buildOpts : ValidateHandlerOpts :=
  { commands := ["pnpm build"] }

def startedContext : PhaseHandlerContext :=
  {
    runId := "run"
    runUuid := "uuid"
    issueNumber := 1
    cwd := "worktree"
    startCommitSha := some "start"
  }

def planHandler (changes : WorktreeChanges) (failed : Bool)
    : (request : PlanRequest) → Option (request.Reply × Bool)
  | .headCommitSha => some (.ok "head", failed)
  | .changedFiles _ _ => some (.ok (changedFiles (printedDiff changes.diffNames)), failed)
  | .readConvergence => some (.ok (.iteration 2), failed)
  | .discoverWorkspacePackages => some (.ok (.success twoPackages), failed)
  | .now => some (.ok Date.epoch, failed)
  | .publish _ _ => some (.ok (), failed)

theorem planHandler_replies {changes : WorktreeChanges} (failed : Bool) (request : PlanRequest)
    (reply : request.Reply) (after : Bool)
    (handled : planHandler changes failed request = some (reply, after))
    : changes.replies twoPackages failed request reply after := by
  cases request <;> obtain ⟨rfl, rfl⟩ := Prod.mk.inj (Option.some.inj handled)
  · rfl
  · exact ⟨rfl, rfl⟩
  · rfl
  · exact ⟨rfl, rfl⟩
  · exact ⟨⟨_, rfl⟩, rfl⟩
  · exact ⟨rfl, rfl⟩

theorem exec_planCommands (changes : WorktreeChanges)
    : Program.Exec (changes.replies twoPackages)
        (planCommands compareCodeUnits (fun _ => "") buildOpts startedContext
          changes.statusOutput ())
        false
        (.normal (plannedOf (planRevalidation compareCodeUnits
          (planInput buildOpts (changes.listing fun _ => "") 2 twoPackages))), ())
        false := by
  have ran : (planCommands compareCodeUnits (fun _ => "") buildOpts startedContext
      changes.statusOutput ()).run (planHandler changes) false
      = some ((.normal (plannedOf (planRevalidation compareCodeUnits
          (planInput buildOpts (changes.listing fun _ => "") 2 twoPackages))), ()), false) :=
    rfl
  exact Program.exec_of_run planHandler_replies ran

theorem listed_movedFile : movedFile.Listed := by
  constructor
  · intro path
    by_cases old : path = "apps/api/x.ts"
    · simp [movedFile, old]
    · by_cases new : path = "packages/app/x.ts"
      · simp [movedFile, new]
      · simp [movedFile, old, new]
  · intro path member
    obtain rfl := List.mem_singleton.mp member
    exact ⟨rfl, rfl⟩
  · exact fun path differs => absurd rfl differs
  · exact fun entry member => absurd member List.not_mem_nil
  · exact quotes_quotedPlain
  · intro name member
    obtain rfl := List.mem_singleton.mp member
    decide

theorem listed_editedFile : editedFile.Listed := by
  constructor
  · intro path
    by_cases edited : path = "packages/app/x.ts"
    · simp [editedFile, movedFile, edited]
    · simp [editedFile, movedFile, edited]
  · exact fun path member => absurd member List.not_mem_nil
  · exact fun path differs => absurd rfl differs
  · exact fun entry member => absurd member List.not_mem_nil
  · exact quotes_quotedPlain
  · exact listed_movedFile.names

theorem plan_twoPackages
    : planRevalidation compareCodeUnits
        (planInput buildOpts (movedFile.listing fun _ => "") 2 twoPackages)
      = .narrow "@ai-sdlc/app" ["@ai-sdlc/app"] [.text "pnpm --filter @ai-sdlc/app build"]
        none := by
  decide

/-- The package that the moved file was taken from is not validated. -/
theorem moved_file_is_not_covered
    : ¬∀ (localeCompare : String → String → Int) (decode : List Nat → String)
        (opts : ValidateHandlerOpts) (ctx : PhaseHandlerContext) (changes : WorktreeChanges)
        (descriptors : List WorkspacePackageDescriptor) (planned : PlannedCommands)
        (failed : Bool), changes.Listed →
        Program.Exec (changes.replies descriptors)
          (planCommands localeCompare decode opts ctx changes.statusOutput ()) false
          (.normal planned, ()) failed →
        ∀ narrowed, planned.narrowedPackages = some narrowed →
          CoversChanges changes descriptors narrowed := by
  intro claim
  have execution := exec_planCommands movedFile
  rw [plan_twoPackages] at execution
  have covers := claim _ _ _ _ _ _ _ _ listed_movedFile execution _ rfl
  have changed : movedFile.Changed "apps/api/x.ts" := ⟨by decide, by decide⟩
  have owns : OwnsPath twoPackages "@ai-sdlc/api" "apps/api/x.ts" := by
    refine ⟨_, List.mem_cons_self, rfl, "apps/api", by decide, by decide +kernel, ?_⟩
    have apart : ∀ other ∈ twoPackages, ∀ around ∈ normalizeRepoRelativePath other.directory,
        holdsPath around "apps/api/x.ts" = true → holdsPath around "apps/api" = true := by
      decide
    exact apart
  exact absurd (covers _ changed _ owns) (by decide)

/-- An edited file of the second package is covered. -/
theorem narrowed_validation_covers_changes_edited
    : CoversChanges editedFile twoPackages ["@ai-sdlc/app"] := by
  have execution := exec_planCommands editedFile
  have plans := plan_twoPackages
  rw [show movedFile.listing (fun _ => "") = editedFile.listing fun _ => "" from rfl] at plans
  rw [plans] at execution
  obtain ⟨planned, same, -, covers⟩ :=
    narrowed_validation_covers_changes listed_editedFile execution
  cases same
  refine (covers _ rfl).mpr fun path changed hidden => ?_
  have edited : path = "packages/app/x.ts" := by
    by_contra other
    exact changed.1 (by simp [editedFile, movedFile, other])
  subst edited
  refine absurd ⟨?_, ?_, ?_⟩ hidden.1
  · decide
  · exact List.not_mem_nil
  · decide

end AiSdlc.Application
