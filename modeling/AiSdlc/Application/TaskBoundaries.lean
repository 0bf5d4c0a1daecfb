import AiSdlc.Application.TaskSpelling

/-! When the classification of changed files and the check of a run's boundaries are sound for
all scopes and manifests: where the locale tells the paths apart, and where no path changes when
its normal form is normalized again.
-/

namespace AiSdlc.Application

open AiSdlc.Js
open AiSdlc.Domain

-----------------------------------------------------------------------------------------
-- The claims
-----------------------------------------------------------------------------------------

/-- What a classification guarantees: every path that is not exempt is put in one list, a
permitted file is neither protected nor under a non-goal, a file of Git's is only permitted where
it is required, and the result does not depend on spellings, orders and repetitions.
-/
structure ClassifiesSoundly (localeCompare : String → String → Int)
    (opts : ClassifyTaskChangesOptions)
    : Prop where
  once : (classifyTaskChanges localeCompare opts).placed.Nodup
  placed
    : ∀ path, path ∈ (classifyTaskChanges localeCompare opts).placed
        ↔ path ∈ opts.paths ∧ opts.isExempt path = false
  permitted
    : ∀ path ∈ (classifyTaskChanges localeCompare opts).permittedPaths, NeverPermitted opts path
  required
    : ∀ path ∈ (classifyTaskChanges localeCompare opts).permittedPaths, isGitPath path = true →
        path ∈ normalizedPaths opts.currentScope.requiredFiles
  spellings
    : ∀ others, SameOptions opts others →
        classifyTaskChanges localeCompare opts = classifyTaskChanges localeCompare others

/-- The tasks of a manifest. -/
def tasksOf (manifest : Option ManifestRecord) : List ManifestTask :=
  (manifest.bind (·.tasks)).getD []

/-- The check reports the files that the classification permits under no task. -/
def BoundariesAgree (localeCompare : String → String → Int) (committedFiles : List String)
    (manifest : Option ManifestRecord) (exemptFiles : List String)
    : Prop :=
  ∀ file ∈ committedFiles, normalizeTaskPath file ≠ "" →
    normalizeTaskPath file ∉ normalizedPaths exemptFiles →
    isOrchestratorArtifactPattern (normalizeTaskPath file) = false →
      let reported := checkTaskBoundaries localeCompare committedFiles manifest exemptFiles
      normalizeTaskPath file ∈ reported.undeclaredFiles ++ reported.modifiedReferenceFiles
        ↔ ∀ task ∈ tasksOf manifest, normalizeTaskPath file
            ∉ (classifyTaskChanges localeCompare {
              candidates := [.text file]
              currentScope := resolveEffectiveTaskScope task
            }).permittedPaths

section Git

variable {localeCompare : String → String → Int} {opts : ClassifyTaskChangesOptions}
  {path : String}

/-- No pattern of an orchestrator artifact reaches below `.github`. -/
theorem not_artifact_github (tail : List Char)
    : isOrchestratorArtifactPattern (".github/.." ++ .ofList tail) = false := by
  have patterns (rest : List Char) : (orchestratorExcludePatterns.any fun pattern =>
      matchesPattern pattern.toList (".github/..".toList ++ rest)) = false := rfl
  have plain (rest : List Char) : (dropLeadingSlashes (".github/..".toList ++ rest) ≠ []
      && (".ai/".toList.isPrefixOf (dropLeadingSlashes (".github/..".toList ++ rest))
        || orchestratorExcludePatterns.any fun pattern => matchesPattern pattern.toList
            (dropLeadingSlashes (".github/..".toList ++ rest)))) = false := by
    have same : dropLeadingSlashes (".github/..".toList ++ rest) = ".github/..".toList ++ rest :=
      rfl
    have other : ".ai/".toList.isPrefixOf (".github/..".toList ++ rest) = false := rfl
    rw [same, patterns, other]
    simp
  have chars : (".github/.." ++ .ofList tail).toList = ".github/..".toList ++ tail := by
    rw [String.toList_append]
    exact congrArg _ String.toList_ofList
  rw [isOrchestratorArtifactPattern, chars, dropCarriageReturn]
  split
  next last =>
    cases tail with
    | nil => exact absurd last (by decide)
    | cons first rest =>
        rw [List.dropLast_append_of_ne_nil (List.cons_ne_nil _ _)]
        exact plain _
  · exact plain _

/-- Once the white space is trimmed, nothing is left of the path. -/
theorem isProtectedTaskPath_of_leadsOut (out : LeadsOut path)
    : isProtectedTaskPath path = false := by
  obtain ⟨space, blank, rfl⟩ := out
  have trims
      : trim (".github/.." ++ space) = .ofList (segmentChars [".github".toList, ['.', '.']]) := by
    have start : (".github/.." ++ space).toList.dropWhile isWhitespace
        = ".github/..".toList ++ space.toList := by
      rw [String.toList_append]
      rfl
    rw [trim, start, rdropWhile_append_of_all blank]
    rfl
  have none : normalizeTaskPath (".github/.." ++ space) = "" := by
    rw [normalizeTaskPath_eq, taskSegments_of_segments trims (List.cons_ne_nil _ _) (by decide)]
    rfl
  rw [isProtectedTaskPath, none]
  rfl

theorem permitted_of_leadsOut {candidates : List TaskChangeCandidate} {raw : String}
    (out : LeadsOut path) (listed : path ∈ normalizedPaths (candidates.map (·.path)))
    (names : normalizeTaskPath raw = path)
    : path ∈ (classifyTaskChanges localeCompare
        { candidates, currentScope := { mayExtendFiles := [raw] } }).permittedPaths := by
  have open_ := isProtectedTaskPath_of_leadsOut out
  obtain ⟨nonempty, -⟩ := mem_normalizedPaths.mp listed
  have artifact : isOrchestratorArtifactPattern path = false := by
    obtain ⟨space, -, rfl⟩ := out
    simpa using not_artifact_github space.toList
  have config : path ≠ ".ai-orchestrator.json" := by
    rintro rfl
    revert open_
    decide +kernel
  rw [classifyTaskChanges_eq, ClassifyTaskChangesOptions.mem_bucket]
  refine ⟨listed, ?_⟩
  have extends_ : path ∈ normalizedPaths [raw] :=
    mem_normalizedPaths.mpr ⟨nonempty, raw, by simp, names⟩
  have unclaimed : ({ candidates, currentScope := { mayExtendFiles := [raw] } }
      : ClassifyTaskChangesOptions).downstreamRequiredMap path = none := rfl
  unfold ClassifyTaskChangesOptions.verdictOf ClassifyTaskChangesOptions.verdict
    ClassifyTaskChangesOptions.ownership
  rw [unclaimed]
  simp [artifact, config, open_, extends_]

end Git

section Boundaries

variable {localeCompare : String → String → Int} {scope : EffectiveTaskScope}
  {path file : String} {committedFiles exemptFiles : List String}
  {manifest : Option ManifestRecord}

/-- A scope permits a path that is tracked. -/
def EffectiveTaskScope.Permits (scope : EffectiveTaskScope) (path : String) : Prop :=
  ({ candidates := [], currentScope := scope } : ClassifyTaskChangesOptions).verdict path true
    = .permitted

theorem EffectiveTaskScope.Permits.cases (permits : scope.Permits path)
    : path ∈ normalizedPaths scope.requiredFiles ∨ path ∈ normalizedPaths scope.mayExtendFiles
      ∨ (normalizedPaths scope.permittedAreas).any (isNormalizedSegmentPrefixMatch · path)
        = true := by
  by_contra none
  rw [not_or, not_or] at none
  obtain ⟨required, extends_, areas⟩ := none
  have unclaimed : ({ candidates := [], currentScope := scope }
      : ClassifyTaskChangesOptions).downstreamRequiredMap path = Option.none := rfl
  unfold Permits ClassifyTaskChangesOptions.verdict ClassifyTaskChangesOptions.ownership at permits
  rw [unclaimed] at permits
  simp only [if_neg required, if_neg extends_, if_neg areas] at permits
  generalize isProtectedTaskPath path = guarded at permits
  generalize (isOrchestratorArtifactPattern path || path = ".ai-orchestrator.json" || _)
    = immutable at permits
  split at permits <;> [contradiction; skip]
  split at permits <;> [contradiction; skip]
  split at permits <;> [contradiction; skip]
  split at permits <;> [contradiction; skip]
  split at permits <;> contradiction

theorem mem_permittedPaths_single {candidate : TaskChangeCandidate}
    (tracked : candidate.isTracked = true)
    : path ∈ (classifyTaskChanges localeCompare
        { candidates := [candidate], currentScope := scope }).permittedPaths
      ↔ path ≠ "" ∧ candidate.Names path ∧ scope.Permits path := by
  rw [classifyTaskChanges_eq, ClassifyTaskChangesOptions.mem_bucket,
    ClassifyTaskChangesOptions.paths, mem_normalizedPaths]
  constructor
  · rintro ⟨⟨nonempty, raw, listed, names⟩, permitted⟩
    obtain rfl := List.mem_singleton.mp listed
    have named : candidate.Names path := names
    have flag : isTrackedIn [candidate] path = true := by simp [isTrackedIn, named, tracked]
    rw [ClassifyTaskChangesOptions.verdictOf, flag] at permitted
    exact ⟨nonempty, named, permitted⟩
  · rintro ⟨nonempty, named, permits⟩
    have flag : isTrackedIn [candidate] path = true := by simp [isTrackedIn, named, tracked]
    refine ⟨⟨nonempty, candidate.path, List.mem_singleton.mpr rfl, named⟩, ?_⟩
    rw [ClassifyTaskChangesOptions.verdictOf, flag]
    exact permits

theorem isPathPermittedByScope_iff
    : isPathPermittedByScope localeCompare file scope = true
      ↔ normalizeTaskPath file ≠ ""
        ∧ normalizeTaskPath (normalizeTaskPath file) = normalizeTaskPath file
        ∧ scope.Permits (normalizeTaskPath file) := by
  unfold isPathPermittedByScope
  rw [Bool.and_eq_true, decide_eq_true_eq, decide_eq_true_eq, mem_permittedPaths_single rfl]
  constructor
  · rintro ⟨nonempty, -, names, permits⟩
    exact ⟨nonempty, names, permits⟩
  · rintro ⟨nonempty, names, permits⟩
    exact ⟨nonempty, nonempty, names, permits⟩

theorem mem_checkTaskBoundaries
    : path ∈ (checkTaskBoundaries localeCompare committedFiles manifest exemptFiles).undeclaredFiles
        ++ (checkTaskBoundaries localeCompare committedFiles manifest
          exemptFiles).modifiedReferenceFiles
      ↔ path ∈ normalizedPaths committedFiles ∧ path ∉ normalizedPaths exemptFiles
        ∧ isOrchestratorArtifactPattern path = false
        ∧ ∀ task ∈ tasksOf manifest,
            isPathPermittedByScope localeCompare path (resolveEffectiveTaskScope task) = false := by
  unfold checkTaskBoundaries
  cases manifest with
  | none =>
      simp only [List.append_nil, (perm_sortTexts _).mem_iff, List.mem_filter, Bool.and_eq_true,
        decide_eq_true_eq, Bool.not_eq_true']
      simp [tasksOf]
  | some record =>
      simp only [List.mem_append, (perm_sortTexts _).mem_iff, List.mem_eraseDups, List.mem_filter,
        Bool.and_eq_true, decide_eq_true_eq, Bool.not_eq_true', ← and_or_left]
      rw [and_iff_left (Decidable.not_or_of_imp id)]
      simp [tasksOf, and_assoc]

/-- Where the normal form of each committed file is its own normal form, check and classification
agree about every manifest.
-/
theorem boundariesAgree_of_fixed
    (fixed : ∀ file ∈ committedFiles,
      isOrchestratorArtifactPattern (normalizeTaskPath file) = false →
        normalizeTaskPath (normalizeTaskPath file) = normalizeTaskPath file)
    : BoundariesAgree localeCompare committedFiles manifest exemptFiles := by
  intro file member nonempty unlisted artifact
  have same := fixed file member artifact
  have listed : normalizeTaskPath file ∈ normalizedPaths committedFiles :=
    mem_normalizedPaths.mpr ⟨nonempty, file, member, rfl⟩
  refine mem_checkTaskBoundaries.trans ?_
  simp only [listed, unlisted, artifact, not_false_eq_true, true_and]
  refine forall₂_congr fun task _ => ?_
  rw [← Bool.not_eq_true, isPathPermittedByScope_iff, mem_permittedPaths_single rfl, same]
  simp [TaskChangeCandidate.Names, TaskChangeCandidate.path, nonempty, same]

theorem normalizedPaths_single {spelled normal : String}
    (normalizes : normalizeTaskPath spelled = normal) (nonempty : normal ≠ "")
    : normalizedPaths [spelled] = [normal] := by
  simp [normalizedPaths, normalizes, nonempty]

/-- A task whose only file is one spelling permits the second normal form of the spelling, and
what lies below the normal form of its directory.
-/
theorem permits_single {spelled once : String}
    (first : normalizeTaskPath spelled = once) (second : normalizeTaskPath once = path)
    (nonempty : path ≠ "") {area : String}
    (below : normalizeTaskPath (joinSegments (once.toList.splitOn '/').dropLast) = area)
    (some : area ≠ "")
    : normalizedPaths (resolveEffectiveTaskScope
          (Option.some { expectedFiles := Option.some [Option.some spelled] })).requiredFiles
        = [path]
      ∧ normalizedPaths (resolveEffectiveTaskScope
          (Option.some { expectedFiles := Option.some [Option.some spelled] })).permittedAreas
        = [area] := by
  have once_ne : once ≠ "" := by
    rintro rfl
    exact nonempty (second.symm.trans normalizeTaskPath_empty)
  have files : normalizedPaths [spelled] = [once] := normalizedPaths_single first once_ne
  have parent : parentArea once
      = Option.some (joinSegments (once.toList.splitOn '/').dropLast) := by
    unfold parentArea
    rw [if_neg]
    intro trivial_
    simp only [Bool.or_eq_true, decide_eq_true_eq] at trivial_
    rcases trivial_ with empty | dot
    · rw [empty] at below
      exact some below.symm
    · rw [dot] at below
      exact some (below.symm.trans (by decide))
  have absent : texts none = [] := rfl
  have given : texts (Option.some [Option.some spelled]) = [spelled] := rfl
  constructor
  · simp only [resolveEffectiveTaskScope, given, absent, List.append_nil, files]
    exact normalizedPaths_single second nonempty
  · simp only [resolveEffectiveTaskScope, given, absent, List.append_nil, files, List.map_nil,
      List.filter_nil, List.filterMap_cons_some parent, List.filterMap_nil]
    rw [eraseDups_singleton]
    exact normalizedPaths_single below some

/-- A file whose normal form has another one is permitted by a task that the check does not find:
the task declares a spelling whose second normal form is the file's.
-/
theorem fixed_of_boundariesAgree
    (agree : ∀ manifest exemptFiles,
      BoundariesAgree localeCompare committedFiles manifest exemptFiles)
    : ∀ file ∈ committedFiles, isOrchestratorArtifactPattern (normalizeTaskPath file) = false →
        normalizeTaskPath (normalizeTaskPath file) = normalizeTaskPath file := by
  intro file member artifact
  by_contra changed
  obtain ⟨path, normal⟩ : ∃ path, normalizeTaskPath file = path := ⟨_, rfl⟩
  obtain ⟨again, renormal⟩ : ∃ again, normalizeTaskPath path = again := ⟨_, rfl⟩
  rw [normal] at artifact changed
  rw [renormal] at changed
  have nonempty : path ≠ "" := by
    rintro rfl
    exact changed (renormal.symm.trans normalizeTaskPath_empty)
  -- A directory whose name is too long for the second normal form.
  let word := List.replicate (again.toList.length + 1) 'y'
  have letters : ∀ char ∈ word, char = 'y' := fun char within => List.eq_of_mem_replicate within
  have named : IsSegment word := by
    refine ⟨by simp [word], ?_, ?_, fun slash => ?_, fun backslash => ?_⟩
    · simp [word, List.replicate_succ]
    · simp [word, List.replicate_succ]
    · exact absurd (letters _ slash) (by decide)
    · exact absurd (letters _ backslash) (by decide)
  have tight : word.rdropWhile isWhitespace = word := by
    refine List.rdropWhile_eq_self_iff.mpr fun some => ?_
    rw [letters _ (List.getLast_mem some)]
    decide +kernel
  obtain ⟨spelled, once, first, second, below⟩ :=
    exists_twice_normalized normal nonempty named tight
  have some : path ++ "/" ++ .ofList word ≠ "" := by
    intro none
    have chars := congrArg String.toList none
    simp at chars
  obtain ⟨required, areas⟩ := permits_single first second nonempty below some
  have config : path ≠ ".ai-orchestrator.json" := by
    rintro rfl
    exact changed (renormal.symm.trans (by decide))
  generalize task_eq : resolveEffectiveTaskScope
    (Option.some { expectedFiles := Option.some [Option.some spelled] }) = scope at required areas
  have permits : scope.Permits path := by
    have nonGoals : scope.nonGoals = [] := task_eq ▸ rfl
    unfold EffectiveTaskScope.Permits ClassifyTaskChangesOptions.verdict
    simp [artifact, config, nonGoals, required]
  have forbids : ¬ scope.Permits again := by
    intro also
    have extends_ : scope.mayExtendFiles = [] := task_eq ▸ rfl
    have long : again.toList.length < (path ++ "/" ++ .ofList word).toList.length := by
      simp [word]
      omega
    have outside : isNormalizedSegmentPrefixMatch (path ++ "/" ++ .ofList word) again = false := by
      rw [← Bool.not_eq_true]
      intro under
      simp only [isNormalizedSegmentPrefixMatch, Bool.and_eq_true, Bool.or_eq_true,
        decide_eq_true_eq, startsWith_iff] at under
      rcases under.2 with same | ⟨rest, same⟩
      · exact absurd (congrArg (·.toList.length) same) (by omega)
      · have lengths := congrArg (·.toList.length) same
        simp only [String.toList_append, List.length_append] at lengths long
        omega
    rcases also.cases with listed | listed | listed
    · rw [required] at listed
      exact changed (List.mem_singleton.mp listed)
    · rw [extends_] at listed
      simp at listed
    · rw [areas] at listed
      simp [outside] at listed
  let task : ManifestTask := Option.some { expectedFiles := Option.some [Option.some spelled] }
  have scopeOf : resolveEffectiveTaskScope task = scope := task_eq
  have tasks : tasksOf (Option.some { tasks := Option.some [task] }) = [task] := rfl
  have agrees := agree (Option.some { tasks := Option.some [task] }) [] file member
    (normal ▸ nonempty) (by simp) (normal ▸ artifact)
  rw [normal] at agrees
  have reports := mem_checkTaskBoundaries.symm.trans agrees
  rw [tasks] at reports
  have missed : isPathPermittedByScope localeCompare path scope = false := by
    rw [← Bool.not_eq_true, isPathPermittedByScope_iff, renormal]
    exact fun found => forbids found.2.2
  have reported := reports.mp ⟨mem_normalizedPaths.mpr ⟨nonempty, file, member, normal⟩, by simp,
    artifact, by simpa [scopeOf] using missed⟩ task (List.mem_singleton.mpr rfl)
  refine reported (mem_permittedPaths_single rfl |>.mpr ⟨nonempty, normal, ?_⟩)
  rw [scopeOf]
  exact permits

end Boundaries

-----------------------------------------------------------------------------------------
-- When the claims hold
-----------------------------------------------------------------------------------------

/-- The classification of some candidates is sound for all scopes and tasks, and the check of some
committed files agrees with it for all manifests, exactly when the locale tells the candidates
apart, none of them leads out of `.github` in white space, and the normal forms of the committed
files are normal.
-/
theorem classifies_soundly_iff {localeCompare : String → String → Int}
    (comparison : Comparison localeCompare) (candidates : List TaskChangeCandidate)
    (committedFiles : List String)
    : ((∀ opts, opts.candidates = candidates → ClassifiesSoundly localeCompare opts)
        ∧ ∀ manifest exemptFiles,
            BoundariesAgree localeCompare committedFiles manifest exemptFiles)
      ↔ ToldApart localeCompare candidates
        ∧ (∀ candidate ∈ candidates, ¬ LeadsOut (normalizeTaskPath candidate.path))
        ∧ ∀ file ∈ committedFiles, isOrchestratorArtifactPattern (normalizeTaskPath file) = false →
            normalizeTaskPath (normalizeTaskPath file) = normalizeTaskPath file := by
  constructor
  · rintro ⟨sound, agree⟩
    refine ⟨toldApart_of_spellings comparison fun opts others same =>
      (sound opts same).spellings others, fun candidate member out => ?_,
      fixed_of_boundariesAgree agree⟩
    have nonempty : normalizeTaskPath candidate.path ≠ "" := by
      obtain ⟨space, -, same⟩ := out
      rw [same]
      simp [← String.toList_inj]
    have listed : normalizeTaskPath candidate.path ∈ normalizedPaths (candidates.map (·.path)) :=
      mem_normalizedPaths.mpr ⟨nonempty, candidate.path, List.mem_map_of_mem member, rfl⟩
    have permitted : normalizeTaskPath candidate.path ∈ (classifyTaskChanges localeCompare {
        candidates, currentScope := { mayExtendFiles := [candidate.path] } }).permittedPaths :=
      permitted_of_leadsOut out listed rfl
    have git : isGitPath (normalizeTaskPath candidate.path) = true := by
      obtain ⟨space, -, same⟩ := out
      have below : startsWith (normalizeTaskPath candidate.path) ".github/" = true :=
        startsWith_iff.mpr ⟨".." ++ space, by rw [same, ← String.append_assoc]; rfl⟩
      simp [isGitPath, below]
    have required := (sound _ rfl).required _ permitted git
    simp at required
  · rintro ⟨apart, inside, fixed⟩
    refine ⟨?_, fun _ _ => boundariesAgree_of_fixed fixed⟩
    rintro opts rfl
    exact {
      once := nodup_placed
      placed := fun _ => mem_placed
      permitted := fun path listed => by
        rw [classifyTaskChanges_eq, ClassifyTaskChangesOptions.mem_bucket] at listed
        exact (ClassifyTaskChangesOptions.neverPermitted listed.2).1
      required := fun path listed git => by
        rw [classifyTaskChanges_eq, ClassifyTaskChangesOptions.mem_bucket] at listed
        obtain ⟨nonempty, raw, member, names⟩ := mem_normalizedPaths.mp listed.1
        obtain ⟨candidate, within, rfl⟩ := List.mem_map.mp member
        have protects :=
          isProtectedTaskPath_of_isGitPath names git (names ▸ inside candidate within)
        exact (ClassifyTaskChangesOptions.neverPermitted listed.2).2.resolve_right
          (by simp [protects])
      spellings := fun others same => same.classifyTaskChanges comparison apart
    }

theorem classifies_soundly_sources
    : (∀ opts, opts.candidates = [.text "src/a.ts", .text "./src/b.ts"] →
        ClassifiesSoundly compareCodeUnits opts)
      ∧ ∀ manifest exemptFiles,
          BoundariesAgree compareCodeUnits ["src/a.ts"] manifest exemptFiles := by
  refine (classifies_soundly_iff (comparison_compareCodeUnits id) _ _).mpr ⟨?_, ?_, ?_⟩
  · unfold ToldApart
    decide +kernel
  · rintro candidate member ⟨space, -, same⟩
    have outside : ∀ candidate ∈ [TaskChangeCandidate.text "src/a.ts", .text "./src/b.ts"],
        startsWith (normalizeTaskPath candidate.path) ".github/.." = false := by
      decide +kernel
    have starts := startsWith_iff.mpr ⟨space, same⟩
    rw [outside candidate member] at starts
    contradiction
  · decide +kernel

/-- Canonically equivalent texts count as equal: here those that spell an accented letter as one
character or as two.
-/
def decomposed (text : String) : String :=
  .ofList (text.toList.flatMap fun char =>
    if char = '\u00e9' then ['e', '\u0301'] else [char])

/-- Two files that a later task requires, with names that are canonically equivalent. -/
def accentedOptions (candidates : List TaskChangeCandidate) : ClassifyTaskChangesOptions :=
  claimingOptions candidates "src/\u00e9.ts" "src/e\u0301.ts"

/-- A task that may extend a file below `.github`. -/
def githubOptions : ClassifyTaskChangesOptions where
  candidates := [.text ".github/.. /."]
  currentScope := { mayExtendFiles := [".github/.. /."] }

/-- The order of two candidates shows, a file below `.github` is permitted, and the check reports
a committed file that a task permits.
-/
theorem classification_unsound
    : (let localeCompare := fun left right => compareCodeUnits (decomposed left) (decomposed right)
      Comparison localeCompare
      ∧ ¬ ClassifiesSoundly localeCompare
          (accentedOptions [.text "src/\u00e9.ts", .text "src/e\u0301.ts"]))
      ∧ ¬ ClassifiesSoundly compareCodeUnits githubOptions
      ∧ ¬ BoundariesAgree compareCodeUnits ["./ a"]
          (some { tasks := some [some { mayExtend := some [some "./ ./ a"] }] }) [] := by
  refine ⟨⟨comparison_compareCodeUnits decomposed, fun sound => ?_⟩, fun sound => ?_,
    fun agree => ?_⟩
  · have same : SameOptions
        (accentedOptions [.text "src/\u00e9.ts", .text "src/e\u0301.ts"])
        (accentedOptions ([.text "src/e\u0301.ts"]
          ++ [.text "src/\u00e9.ts", .text "src/e\u0301.ts"])) :=
      sameOptions_claimingOptions (by simp)
    have equal := congrArg (·.prematureImplementation) (sound.spellings _ same)
    revert equal
    decide +kernel
  · have git := sound.required ".github/.. "
    revert git
    decide +kernel
  · have reported := (agree "./ a" (by simp) (by decide) (by decide +kernel) (by decide +kernel)).mp
    revert reported
    decide +kernel

end AiSdlc.Application
