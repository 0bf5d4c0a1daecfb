import Mathlib.Data.List.Lattice
import AiSdlc.Application.Collation
import AiSdlc.Application.TaskFileBoundaries

/-! What the classification of changed files guarantees: every candidate is put in one list,
protected files are never permitted, and spellings and orders do not matter.
-/

namespace AiSdlc.Application

open AiSdlc.Js
open AiSdlc.Domain

-----------------------------------------------------------------------------------------
-- The candidates
-----------------------------------------------------------------------------------------

/-- A candidate stands for a path. -/
def TaskChangeCandidate.Names (candidate : TaskChangeCandidate) (norm : String) : Prop :=
  normalizeTaskPath candidate.path = norm

instance (candidate : TaskChangeCandidate) (norm : String) : Decidable (candidate.Names norm) :=
  inferInstanceAs (Decidable (normalizeTaskPath candidate.path = norm))

/-- Some spelling of a path is tracked. -/
def isTrackedIn (candidates : List TaskChangeCandidate) (norm : String) : Bool :=
  candidates.any fun candidate => candidate.Names norm && candidate.isTracked

/-- The paths of the entries are told apart, and each holds what the candidates say. -/
structure Collects (candidates : List TaskChangeCandidate) (entries : List (String × Bool))
    : Prop where
  distinct : (entries.map (·.1)).Nodup
  mem_iff
    : ∀ norm tracked, (norm, tracked) ∈ entries
        ↔ norm ≠ "" ∧ (∃ candidate ∈ candidates, candidate.Names norm)
          ∧ tracked = isTrackedIn candidates norm

theorem Collects.paths {candidates : List TaskChangeCandidate} {entries : List (String × Bool)}
    (collects : Collects candidates entries) {norm : String}
    : norm ∈ entries.map (·.1)
      ↔ norm ≠ "" ∧ ∃ candidate ∈ candidates, candidate.Names norm := by
  rw [List.mem_map]
  constructor
  · rintro ⟨⟨path, tracked⟩, member, rfl⟩
    obtain ⟨nonempty, named, -⟩ := (collects.mem_iff path tracked).mp member
    exact ⟨nonempty, named⟩
  · rintro ⟨nonempty, named⟩
    exact ⟨_, (collects.mem_iff norm _).mpr ⟨nonempty, named, rfl⟩, rfl⟩

theorem isTrackedIn_append {candidates : List TaskChangeCandidate}
    {candidate : TaskChangeCandidate} {norm : String}
    : isTrackedIn (candidates ++ [candidate]) norm
      = (isTrackedIn candidates norm
        || (decide (candidate.Names norm) && candidate.isTracked)) := by
  simp [isTrackedIn]

section Add

variable {candidates : List TaskChangeCandidate} {entries : List (String × Bool)}
  {candidate : TaskChangeCandidate} {norm : String}

/-- Other paths do not change with a candidate. -/
theorem names_append_of_not (other : ¬ candidate.Names norm)
    : ((∃ named ∈ candidates ++ [candidate], named.Names norm)
        ↔ ∃ named ∈ candidates, named.Names norm)
      ∧ isTrackedIn (candidates ++ [candidate]) norm = isTrackedIn candidates norm := by
  constructor
  · simp [or_and_right, exists_or, other]
  · simp [isTrackedIn_append, other]

theorem Collects.of_path {grown : List (String × Bool)} (collects : Collects candidates entries)
    (distinct : (grown.map (·.1)).Nodup)
    (elsewhere : ∀ path tracked, ¬ candidate.Names path →
      ((path, tracked) ∈ grown ↔ (path, tracked) ∈ entries))
    (here : ∀ path tracked, candidate.Names path →
      ((path, tracked) ∈ grown
        ↔ path ≠ "" ∧ tracked = isTrackedIn (candidates ++ [candidate]) path))
    : Collects (candidates ++ [candidate]) grown := by
  refine ⟨distinct, fun path tracked => ?_⟩
  by_cases names : candidate.Names path
  · have now : ∃ other ∈ candidates ++ [candidate], other.Names path :=
      ⟨candidate, by simp, names⟩
    rw [here path tracked names]
    exact and_congr_right fun _ => (and_iff_right now).symm
  · obtain ⟨same, alike⟩ := names_append_of_not names
    rw [elsewhere path tracked names, collects.mem_iff, same, alike]

/-- The next candidate is entered, by cases on whether its path is there. -/
theorem Collects.add (collects : Collects candidates entries) (candidate : TaskChangeCandidate)
    : Collects (candidates ++ [candidate]) (addCandidate entries candidate) := by
  obtain ⟨norm, named⟩ : ∃ norm, candidate.Names norm := ⟨_, rfl⟩
  have only {path : String} (names : candidate.Names path) : path = norm := names.symm.trans named
  have apart {path : String} (other : ¬ candidate.Names path) : path ≠ norm :=
    fun same => other (same ▸ named)
  have tracked : isTrackedIn (candidates ++ [candidate]) norm
      = (isTrackedIn candidates norm || candidate.isTracked) := by
    simp [isTrackedIn_append, named]
  simp only [addCandidate]
  rw [show normalizeTaskPath candidate.path = norm from named]
  by_cases empty : norm = ""
  · rw [if_pos empty]
    refine collects.of_path collects.distinct (fun _ _ _ => Iff.rfl) fun path flag names => ?_
    rw [collects.mem_iff, only names]
    simp [empty]
  rw [if_neg empty]
  by_cases fresh : norm ∈ entries.map (·.1)
  · have present : ¬ (entries.all (·.1 ≠ norm)) = true := by
      intro all
      obtain ⟨entry, member, same⟩ := List.mem_map.mp fresh
      simpa [same] using List.all_eq_true.mp all entry member
    rw [if_neg present]
    obtain ⟨-, before⟩ := collects.paths.mp fresh
    by_cases isTracked : candidate.isTracked
    · rw [if_pos isTracked]
      refine collects.of_path ?_ (fun path flag other => ?_) fun path flag names => ?_
      · have paths : (entries.map fun entry => if entry.1 = norm then (norm, true) else entry).map
            (·.1) = entries.map (·.1) := by
          rw [List.map_map]
          refine List.map_congr_left fun entry _ => ?_
          by_cases same : entry.1 = norm <;> simp [same]
        rw [paths]
        exact collects.distinct
      · rw [List.mem_map]
        constructor
        · rintro ⟨entry, member, result⟩
          split at result
          · exact absurd (congrArg Prod.fst result).symm (apart other)
          · exact result ▸ member
        · intro member
          exact ⟨(path, flag), member, if_neg (apart other)⟩
      · rw [only names, tracked, isTracked, Bool.or_true, List.mem_map]
        constructor
        · rintro ⟨entry, member, result⟩
          split at result
          · exact ⟨empty, (congrArg Prod.snd result).symm⟩
          next other => exact absurd (congrArg Prod.fst result) other
        · rintro ⟨-, rfl⟩
          obtain ⟨entry, member, same⟩ := List.mem_map.mp fresh
          exact ⟨entry, member, if_pos same⟩
    · rw [if_neg isTracked]
      refine collects.of_path collects.distinct (fun _ _ _ => Iff.rfl) fun path flag names => ?_
      rw [collects.mem_iff, only names, tracked]
      simp [isTracked, before]
  · have absent : entries.all (·.1 ≠ norm) = true :=
      List.all_eq_true.mpr fun entry member =>
        decide_eq_true fun same => fresh (List.mem_map.mpr ⟨entry, member, same⟩)
    rw [if_pos absent]
    refine collects.of_path ?_ (fun path flag other => ?_) fun path flag names => ?_
    · rw [List.map_append]
      exact List.nodup_append_comm.mp (List.nodup_cons.mpr ⟨fresh, collects.distinct⟩)
    · simp [apart other]
    · have untracked : isTrackedIn candidates norm = false := by
        rw [isTrackedIn, List.any_eq_false]
        intro other member both
        simp only [Bool.and_eq_true, decide_eq_true_eq] at both
        exact fresh (collects.paths.mpr ⟨empty, other, member, both.1⟩)
      have none : (norm, flag) ∉ entries :=
        fun member => fresh (List.mem_map_of_mem member)
      rw [only names, tracked, untracked]
      simp [none, empty]

end Add

theorem collects_collectCandidates (candidates : List TaskChangeCandidate)
    : Collects candidates (collectCandidates candidates) := by
  induction candidates using List.reverseRecOn with
  | nil => exact ⟨List.nodup_nil, by simp [collectCandidates]⟩
  | append_singleton candidates candidate ih =>
      rw [collectCandidates, List.foldl_concat]
      exact ih.add candidate

-----------------------------------------------------------------------------------------
-- The lists of a classification
-----------------------------------------------------------------------------------------

/-- The rules whose files nothing can exempt. -/
def ClassifyTaskChangesOptions.isImmutable (opts : ClassifyTaskChangesOptions) (path : String)
    : Bool :=
  isOrchestratorArtifactPattern path || path = ".ai-orchestrator.json" || opts.isProtected path

/-- A candidate that is left alone. -/
def ClassifyTaskChangesOptions.isExempt (opts : ClassifyTaskChangesOptions) (path : String)
    : Bool :=
  !opts.isImmutable path && path ∈ normalizedPaths opts.exemptFiles

/-- The distinct paths of the candidates. -/
def ClassifyTaskChangesOptions.paths (opts : ClassifyTaskChangesOptions) : List String :=
  normalizedPaths (opts.candidates.map (·.path))

/-- The verdict over a path, tracked where some spelling of it is. -/
def ClassifyTaskChangesOptions.verdictOf (opts : ClassifyTaskChangesOptions) (path : String)
    : TaskChangeVerdict :=
  opts.verdict path (isTrackedIn opts.candidates path)

/-- All paths that a classification lists. -/
def TaskScopeClassification.placed (classified : TaskScopeClassification) : List String :=
  classified.permittedPaths ++ classified.modifiedReferenceFiles ++ classified.nonGoalFiles
    ++ classified.prematureImplementation.map (·.path) ++ classified.driftFiles
    ++ classified.protectedFiles

@[simp]
theorem normalizedPaths_nil : normalizedPaths [] = [] := rfl

theorem mem_normalizedPaths {paths : List String} {path : String}
    : path ∈ normalizedPaths paths ↔ path ≠ "" ∧ ∃ raw ∈ paths, normalizeTaskPath raw = path := by
  simp only [normalizedPaths, List.mem_eraseDups, List.mem_filter, List.mem_map, decide_eq_true_eq]
  exact and_comm

section Lists

variable {opts : ClassifyTaskChangesOptions} {localeCompare : String → String → Int}
  {path : String} {verdict : TaskChangeVerdict}

theorem ClassifyTaskChangesOptions.mem_paths
    : path ∈ opts.paths ↔ path ∈ (collectCandidates opts.candidates).map (·.1) := by
  rw [(collects_collectCandidates opts.candidates).paths, paths, mem_normalizedPaths]
  simp [TaskChangeCandidate.Names]

theorem ClassifyTaskChangesOptions.verdict_of_mem {entry : String × Bool}
    (member : entry ∈ collectCandidates opts.candidates)
    : opts.verdict entry.1 entry.2 = opts.verdictOf entry.1 := by
  have tracked := ((collects_collectCandidates opts.candidates).mem_iff entry.1 entry.2).mp member
  rw [verdictOf, ← tracked.2.2]

/-- The sorted paths with one verdict. -/
def ClassifyTaskChangesOptions.bucket (opts : ClassifyTaskChangesOptions)
    (verdict : TaskChangeVerdict)
    : List String :=
  sortTexts (((collectCandidates opts.candidates).filter fun entry =>
    opts.verdict entry.1 entry.2 = verdict).map (·.1)).eraseDups

theorem ClassifyTaskChangesOptions.nodup_bucket : (opts.bucket verdict).Nodup :=
  (perm_sortTexts _).nodup_iff.mpr (nodup_eraseDups _)

theorem ClassifyTaskChangesOptions.mem_bucket
    : path ∈ opts.bucket verdict ↔ path ∈ opts.paths ∧ opts.verdictOf path = verdict := by
  rw [bucket, (perm_sortTexts _).mem_iff, List.mem_eraseDups, List.mem_map, mem_paths, List.mem_map]
  constructor
  · rintro ⟨entry, chosen, rfl⟩
    obtain ⟨member, same⟩ := List.mem_filter.mp chosen
    rw [← verdict_of_mem member]
    exact ⟨⟨entry, member, rfl⟩, of_decide_eq_true same⟩
  · rintro ⟨⟨entry, member, rfl⟩, same⟩
    rw [← verdict_of_mem member] at same
    exact ⟨entry, List.mem_filter.mpr ⟨member, decide_eq_true same⟩, rfl⟩

/-- The records before they are sorted. -/
def ClassifyTaskChangesOptions.premature (opts : ClassifyTaskChangesOptions)
    : List PrematureImplementationRecord :=
  (collectCandidates opts.candidates).filterMap fun entry =>
    match opts.verdict entry.1 entry.2 with
    | .premature taskNumber => some { path := entry.1, taskNumber }
    | _ => none

theorem ClassifyTaskChangesOptions.mem_premature {record : PrematureImplementationRecord}
    : record ∈ opts.premature
      ↔ record.path ∈ opts.paths ∧ opts.verdictOf record.path = .premature record.taskNumber := by
  rw [premature, List.mem_filterMap, mem_paths, List.mem_map]
  constructor
  · rintro ⟨entry, member, made⟩
    rw [verdict_of_mem member] at made
    split at made
    next taskNumber same =>
      obtain rfl := Option.some.inj made
      exact ⟨⟨entry, member, rfl⟩, same⟩
    · contradiction
  · rintro ⟨⟨entry, member, same⟩, decided⟩
    refine ⟨entry, member, ?_⟩
    rw [verdict_of_mem member, same, decided]

/-- The records keep the order of their entries, by induction over these. -/
theorem ClassifyTaskChangesOptions.premature_sublist
    : (opts.premature.map (·.path)).Sublist
        ((collectCandidates opts.candidates).map (·.1)) := by
  unfold premature
  induction collectCandidates opts.candidates with
  | nil => exact .slnil
  | cons entry rest ih =>
      rw [List.filterMap_cons]
      split
      · exact ih.cons _
      next record made =>
        split at made
        · obtain rfl := Option.some.inj made
          exact ih.cons_cons _
        · contradiction

theorem ClassifyTaskChangesOptions.nodup_premature : (opts.premature.map (·.path)).Nodup :=
  (collects_collectCandidates opts.candidates).distinct.sublist premature_sublist

theorem classifyTaskChanges_eq
    : classifyTaskChanges localeCompare opts
      = {
        permittedPaths := opts.bucket .permitted
        modifiedReferenceFiles := opts.bucket .modifiedReference
        nonGoalFiles := opts.bucket .nonGoal
        prematureImplementation :=
          opts.premature.insertionSort fun a b => notAfter localeCompare a b
        driftFiles := opts.bucket .drift
        protectedFiles := opts.bucket .protectedFile
      } := rfl

theorem ClassifyTaskChangesOptions.mem_prematurePaths
    : path ∈ (classifyTaskChanges localeCompare opts).prematureImplementation.map (·.path)
      ↔ path ∈ opts.paths ∧ ∃ taskNumber, opts.verdictOf path = .premature taskNumber := by
  rw [classifyTaskChanges_eq, List.mem_map]
  constructor
  · rintro ⟨record, member, rfl⟩
    obtain ⟨within, decided⟩ := mem_premature.mp ((List.mem_insertionSort _).mp member)
    exact ⟨within, _, decided⟩
  · rintro ⟨within, taskNumber, decided⟩
    refine ⟨⟨path, taskNumber⟩, (List.mem_insertionSort _).mpr ?_, rfl⟩
    exact mem_premature.mpr ⟨within, decided⟩

/-- A file that somebody owns is not exempt. -/
theorem ClassifyTaskChangesOptions.ownership_ne_exempt {tracked : Bool}
    : opts.ownership path tracked ≠ .exempt := by
  unfold ownership
  split
  · simp
  · repeat' split
    all_goals simp

/-- Only the second rule exempts. -/
theorem ClassifyTaskChangesOptions.verdictOf_eq_exempt
    : opts.verdictOf path = .exempt ↔ opts.isExempt path = true := by
  unfold verdictOf verdict isExempt isImmutable
  split
  next immutable => simp [immutable]
  next plain =>
    rw [Bool.eq_false_of_not_eq_true plain, Bool.not_false, Bool.true_and, decide_eq_true_eq]
    split
    next listed => simp [listed]
    next unlisted =>
      refine iff_of_false ?_ unlisted
      split
      · simp
      · split
        · simp
        · split
          · simp
          · exact ownership_ne_exempt

theorem ClassifyTaskChangesOptions.disjoint_bucket {other : TaskChangeVerdict}
    (apart : verdict ≠ other)
    : (opts.bucket verdict).Disjoint (opts.bucket other) := by
  intro path here there
  exact apart ((opts.mem_bucket.mp here).2.symm.trans (opts.mem_bucket.mp there).2)

theorem ClassifyTaskChangesOptions.disjoint_premature
    (apart : ∀ taskNumber, verdict ≠ .premature taskNumber)
    : (opts.bucket verdict).Disjoint
        ((classifyTaskChanges localeCompare opts).prematureImplementation.map (·.path)) := by
  intro path here there
  obtain ⟨-, taskNumber, decided⟩ := opts.mem_prematurePaths.mp there
  exact apart taskNumber ((opts.mem_bucket.mp here).2.symm.trans decided)

/-- No path is put in two lists, or twice in one. -/
theorem nodup_placed : (classifyTaskChanges localeCompare opts).placed.Nodup := by
  have records : ((classifyTaskChanges localeCompare opts).prematureImplementation.map
      (·.path)).Nodup :=
    ((List.perm_insertionSort _ _).map _).nodup_iff.mpr opts.nodup_premature
  have beside {verdict other : TaskChangeVerdict} (apart : verdict ≠ other)
      : (opts.bucket verdict).Disjoint (opts.bucket other) := opts.disjoint_bucket apart
  have before {verdict : TaskChangeVerdict}
      (apart : ∀ taskNumber, verdict ≠ .premature taskNumber)
      : (opts.bucket verdict).Disjoint
          ((classifyTaskChanges localeCompare opts).prematureImplementation.map (·.path)) :=
    opts.disjoint_premature apart
  unfold TaskScopeClassification.placed
  simp only [List.nodup_append', List.disjoint_append_left]
  refine ⟨⟨⟨⟨⟨opts.nodup_bucket, opts.nodup_bucket, beside nofun⟩, opts.nodup_bucket,
    beside nofun, beside nofun⟩, records, ⟨before fun _ => nofun, before fun _ => nofun⟩,
    before fun _ => nofun⟩, opts.nodup_bucket, ?_⟩, opts.nodup_bucket, ?_⟩
  · exact ⟨⟨⟨beside nofun, beside nofun⟩, beside nofun⟩, List.Disjoint.symm (before fun _ => nofun)⟩
  · exact ⟨⟨⟨⟨beside nofun, beside nofun⟩, beside nofun⟩,
      List.Disjoint.symm (before fun _ => nofun)⟩, beside nofun⟩

theorem mem_placed
    : path ∈ (classifyTaskChanges localeCompare opts).placed
      ↔ path ∈ opts.paths ∧ opts.isExempt path = false := by
  simp only [TaskScopeClassification.placed, List.mem_append, opts.mem_prematurePaths]
  rw [classifyTaskChanges_eq]
  simp only [opts.mem_bucket, ← and_or_left, and_congr_right_iff]
  intro _
  rw [← Bool.not_eq_true, ← opts.verdictOf_eq_exempt]
  cases opts.verdictOf path <;> simp

end Lists

-----------------------------------------------------------------------------------------
-- Files that are never permitted
-----------------------------------------------------------------------------------------

/-- A path below `.github`, or an ignore file. -/
def isGitPath (path : String) : Bool :=
  path = ".github" || startsWith path ".github/" || path = ".gitignore"
  || endsWith path "/.gitignore"

/-- A path that leads out of `.github` when the white space at its end is trimmed. -/
def LeadsOut (path : String) : Prop :=
  ∃ space, isBlank space = true ∧ path = ".github/.." ++ space

/-- The files that no scope permits. -/
structure NeverPermitted (opts : ClassifyTaskChangesOptions) (path : String) : Prop where
  artifact : isOrchestratorArtifactPattern path = false
  config : path ≠ ".ai-orchestrator.json"
  guarded : opts.isProtected path = false
  nonGoal
    : ∀ nonGoal ∈ opts.currentScope.nonGoals,
        isNormalizedSegmentPrefixMatch (normalizeTaskPath nonGoal) path = false

theorem endsWith_iff {text ending : String}
    : endsWith text ending = true ↔ ∃ front, text.toList = front ++ ending.toList := by
  rw [endsWith, List.isSuffixOf_iff_suffix]
  exact exists_congr fun _ => eq_comm

section Permitted

variable {opts : ClassifyTaskChangesOptions} {path raw : String}

/-- A path in normal form that is one of Git's own is protected, unless it leads out. -/
theorem isProtectedTaskPath_of_isGitPath (normal : normalizeTaskPath raw = path)
    (git : isGitPath path = true) (inside : ¬ LeadsOut path)
    : isProtectedTaskPath path = true := by
  have protects {norm : String} (same : normalizeTaskPath path = norm) (nonempty : norm ≠ "")
      (named : norm = ".gitignore" ∨ endsWith norm "/.gitignore" = true ∨ norm = ".github"
        ∨ startsWith norm ".github/" = true)
      : isProtectedTaskPath path = true := by
    rw [isProtectedTaskPath, same]
    rcases named with named | named | named | named <;> simp [nonempty, named]
  simp only [isGitPath, Bool.or_eq_true, decide_eq_true_eq] at git
  rcases git with ((rfl | below) | rfl) | ends
  · decide
  · obtain ⟨rest, rfl⟩ := startsWith_iff.mp below
    have starts : (".github/" ++ rest).toList = ".github".toList ++ '/' :: rest.toList := by
      rw [String.toList_append]
      rfl
    rcases taskSegments_of_prefix normal (by decide) (by decide) starts with
      ⟨segs, found⟩ | ⟨space, escapes, blank⟩
    · refine protects ((normalizeTaskPath_eq _).trans (congrArg joinSegments found)) ?_ ?_
      · cases segs <;> simp [joinSegments]
      · cases segs with
        | nil => exact .inr (.inr (.inl rfl))
        | cons second more =>
            refine .inr (.inr (.inr (startsWith_iff.mpr ⟨joinSegments (second :: more), ?_⟩)))
            simp [joinSegments, ← String.toList_inj]
    · refine absurd ⟨.ofList space, by simpa [isBlank] using blank, ?_⟩ inside
      rw [← String.toList_inj, starts, escapes]
      simp
  · decide
  · obtain ⟨front, found⟩ := endsWith_iff.mp ends
    have named : IsSegment ".gitignore".toList :=
      ⟨by decide, by decide, by decide, by decide, by decide⟩
    obtain ⟨before, segs⟩ := taskSegments_of_suffix (backslash_not_mem_of_normal normal) named
      (by decide) found
    have same := (normalizeTaskPath_eq path).trans (congrArg joinSegments segs)
    by_cases only : before = []
    · have alone : joinSegments (before ++ [".gitignore".toList]) = ".gitignore" := by
        rw [only]
        rfl
      exact protects (same.trans alone) (by decide) (.inl rfl)
    · have whole : joinSegments (before ++ [".gitignore".toList])
          = .ofList (segmentChars before ++ "/.gitignore".toList) :=
        congrArg String.ofList (segmentChars_concat only)
      refine protects (same.trans whole) ?_ (.inr (.inl ?_))
      · simp [← String.toList_inj]
      · exact endsWith_iff.mpr ⟨segmentChars before, by simp⟩

/-- What is permitted passes the rules before, by the order of the rules. -/
theorem ClassifyTaskChangesOptions.neverPermitted (permitted : opts.verdictOf path = .permitted)
    : NeverPermitted opts path
      ∧ (path ∈ normalizedPaths opts.currentScope.requiredFiles
        ∨ isProtectedTaskPath path = false) := by
  unfold verdictOf verdict at permitted
  split at permitted
  · contradiction
  next immutable =>
    simp only [Bool.or_eq_true, decide_eq_true_eq, not_or, Bool.not_eq_true] at immutable
    obtain ⟨⟨artifact, config⟩, guarded⟩ := immutable
    split at permitted
    · contradiction
    · split at permitted
      · contradiction
      next allowed =>
        refine ⟨⟨artifact, config, guarded, fun nonGoal listed => ?_⟩, ?_⟩
        · by_contra under
          rw [Bool.not_eq_false] at under
          refine allowed (List.any_eq_true.mpr ⟨normalizeTaskPath nonGoal, ?_, under⟩)
          refine mem_normalizedPaths.mpr ⟨?_, nonGoal, listed, rfl⟩
          rintro none
          simp [isNormalizedSegmentPrefixMatch, none] at under
        · split at permitted
          next required => exact .inl required
          · split at permitted
            · contradiction
            next open_ => exact .inr (Bool.eq_false_of_not_eq_true open_)

end Permitted

end AiSdlc.Application
