import Mathlib.Data.Set.Insert
import Mathlib.Order.Bounds.Basic
import AiSdlc.Application.TaskScope

/-! The classification does not depend on how paths are spelled, or on how candidates, paths and
tasks are listed, where the locale tells the reported paths apart.
-/

namespace AiSdlc.Application

open AiSdlc.Js
open AiSdlc.Domain

-----------------------------------------------------------------------------------------
-- Spellings
-----------------------------------------------------------------------------------------

/-- Two lists of paths with the same normal forms. -/
def SamePaths (first second : List String) : Prop :=
  ∀ path, path ∈ normalizedPaths first ↔ path ∈ normalizedPaths second

/-- Two lists of candidates with the same normal forms and flags. -/
def SameCandidates (first second : List TaskChangeCandidate) : Prop :=
  ∀ path tracked, path ≠ "" →
    ((∃ candidate ∈ first, candidate.Names path ∧ candidate.isTracked = tracked)
      ↔ ∃ candidate ∈ second, candidate.Names path ∧ candidate.isTracked = tracked)

structure SameScope (first second : EffectiveTaskScope) : Prop where
  requiredFiles : SamePaths first.requiredFiles second.requiredFiles
  mayExtendFiles : SamePaths first.mayExtendFiles second.mayExtendFiles
  permittedAreas : SamePaths first.permittedAreas second.permittedAreas
  nonGoals : SamePaths first.nonGoals second.nonGoals
  referenceFiles : SamePaths first.referenceFiles second.referenceFiles

/-- The number that a task carries. -/
def TaskRecord.number? (record : TaskRecord) : Option Rat :=
  record.n <|> record.taskNumber

/-- Two tasks that carry the same number and declare the same paths. -/
structure SameTask (first second : TaskRecord) : Prop where
  numbered : first.number?.isSome
  number : first.number? = second.number?
  expectedFiles : SamePaths (texts first.expectedFiles) (texts second.expectedFiles)
  files : SamePaths (texts first.files) (texts second.files)
  mayExtend : SamePaths (texts first.mayExtend) (texts second.mayExtend)
  permittedAreas : SamePaths (texts first.permittedAreas) (texts second.permittedAreas)
  nonGoals : SamePaths (texts first.nonGoals) (texts second.nonGoals)
  referenceFiles : SamePaths (texts first.referenceFiles) (texts second.referenceFiles)

/-- Each task of either list has one in the other list that is the same. -/
def SameTasks (first second : List ManifestTask) : Prop :=
  (∀ task ∈ first, ∃ record other, task = some record ∧ some other ∈ second
    ∧ SameTask record other)
  ∧ ∀ task ∈ second, ∃ record other, task = some record ∧ some other ∈ first
    ∧ SameTask other record

/-- The same input up to spellings, orders and repetitions. -/
structure SameOptions (first second : ClassifyTaskChangesOptions) : Prop where
  candidates : SameCandidates first.candidates second.candidates
  currentScope : SameScope first.currentScope second.currentScope
  tasks : SameTasks first.allTasks.2 second.allTasks.2
  currentTaskNumber : first.currentTaskNumber = second.currentTaskNumber
  exemptFiles : SamePaths first.exemptFiles second.exemptFiles
  isProtected : first.isProtected = second.isProtected

-----------------------------------------------------------------------------------------
-- The tasks that require a file
-----------------------------------------------------------------------------------------

/-- The least number of a set, if there is any number. -/
structure LeastOf (found : Option Rat) (numbers : Set Rat) : Prop where
  least : ∀ number, found = some number → IsLeast numbers number
  none_iff : found = none ↔ numbers = ∅

section LeastOf

variable {found other : Option Rat} {numbers : Set Rat} {number : Rat}

theorem LeastOf.unique (first : LeastOf found numbers) (second : LeastOf other numbers)
    : found = other := by
  cases found with
  | none => exact ((second.none_iff).mpr (first.none_iff.mp rfl)).symm
  | some least =>
      cases other with
      | none => exact (first.none_iff).mpr (second.none_iff.mp rfl)
      | some also => rw [(first.least least rfl).unique (second.least also rfl)]

/-- `if (existing === undefined || number < existing)`: the smaller number is kept. -/
theorem LeastOf.insert (first : LeastOf found numbers)
    : LeastOf (if found.all (number < ·) then some number else found)
        (insert number numbers) := by
  cases found with
  | none =>
      have empty := first.none_iff.mp rfl
      refine ⟨fun least same => ?_, by simpa using (Set.insert_nonempty number numbers).ne_empty⟩
      obtain rfl : number = least := by simpa using same
      rw [empty]
      simp
  | some old =>
      have before := first.least old rfl
      by_cases less : number < old
      · refine ⟨fun least same => ?_,
          by simpa [less] using (Set.insert_nonempty number numbers).ne_empty⟩
        obtain rfl : number = least := by simpa [less] using same
        refine ⟨Set.mem_insert _ _, ?_⟩
        rintro entry (rfl | member)
        · exact le_refl _
        · exact le_trans less.le (before.2 member)
      · refine ⟨fun least same => ?_,
          by simpa [less] using (Set.insert_nonempty number numbers).ne_empty⟩
        obtain rfl : old = least := by simpa [less] using same
        refine ⟨Set.mem_insert_of_mem _ before.1, ?_⟩
        rintro entry (rfl | member)
        · exact not_lt.mp less
        · exact before.2 member

end LeastOf

section Downstream

variable {required : String → Option Rat} {taskNum : Rat} {files : List String}
  {path : String} {numbers : Set Rat} {currentTaskNumber : Option Rat}
  {tasks : List ManifestTask} {index : Rat}

/-- A task adds its number for each file that it requires, by induction over the files. -/
theorem leastOf_requireDownstream (before : LeastOf (required path) numbers)
    : LeastOf (requireDownstream required taskNum files path)
        (numbers ∪ {number | path ∈ files ∧ number = taskNum}) := by
  unfold requireDownstream
  induction files generalizing required numbers with
  | nil => simpa using before
  | cons file files ih =>
      by_cases same : file = path
      · subst same
        have grown : LeastOf ((if (required file).all (taskNum < ·) then
            Function.update required file (some taskNum) else required) file)
            (insert taskNum numbers) := by
          have kept : LeastOf (if (required file).all (taskNum < ·) then some taskNum
              else required file) (insert taskNum numbers) :=
            before.insert
          by_cases smaller : (required file).all (taskNum < ·) = true
          · rw [if_pos smaller] at kept ⊢
            rwa [Function.update_self]
          · rw [if_neg smaller] at kept ⊢
            exact kept
        have whole : insert taskNum numbers ∪ {number | file ∈ files ∧ number = taskNum}
            = numbers ∪ {number | file ∈ file :: files ∧ number = taskNum} := by
          ext number
          simp only [Set.mem_union, Set.mem_insert_iff, Set.mem_ofPred_eq, List.mem_cons_self,
            true_and]
          tauto
        rw [← whole]
        exact ih grown
      · have kept : (if (required file).all (taskNum < ·) then
            Function.update required file (some taskNum) else required) path = required path := by
          split
          · exact Function.update_of_ne (Ne.symm same) _ _
          · rfl
        have whole : {number | path ∈ file :: files ∧ number = taskNum}
            = {number | path ∈ files ∧ number = taskNum} := by
          ext number
          simp [Ne.symm same]
        rw [whole]
        refine ih ?_
        change LeastOf ((if (required file).all (taskNum < ·) then
            Function.update required file (some taskNum) else required) path) numbers
        rwa [kept]

/-- A later task requires a file. -/
def RequiresLater (currentTaskNumber : Option Rat) (tasks : List ManifestTask) (path : String)
    (number : Rat)
    : Prop :=
  ∃ record, some record ∈ tasks ∧ record.number? = some number
    ∧ currentTaskNumber.any (number ≤ ·) = false
    ∧ path ∈ (resolveEffectiveTaskScope (some record)).requiredFiles

/-- All tasks carry numbers. -/
def Numbered (tasks : List ManifestTask) : Prop :=
  ∀ task ∈ tasks, ∃ record number, task = some record ∧ record.number? = some number

/-- The least number of a later task that requires the file, by induction over the tasks. -/
theorem leastOf_requireTasks (numbered : Numbered tasks)
    (before : LeastOf (required path) numbers)
    : LeastOf (requireTasks currentTaskNumber required index tasks path)
        (numbers ∪ {number | RequiresLater currentTaskNumber tasks path number}) := by
  induction tasks generalizing required numbers index with
  | nil => simpa [requireTasks, RequiresLater] using before
  | cons task tasks ih =>
      obtain ⟨record, taskNum, rfl, carries⟩ := numbered task List.mem_cons_self
      have later : Numbered tasks := fun task within =>
        numbered task (List.mem_cons_of_mem _ within)
      have given : getTaskNumber (some record) index = taskNum := by
        unfold getTaskNumber
        rw [Option.bind_some, show (record.n <|> record.taskNumber) = some taskNum from carries]
      have splits (number : Rat)
          : RequiresLater currentTaskNumber (some record :: tasks) path number
            ↔ (number = taskNum ∧ currentTaskNumber.any (number ≤ ·) = false
                ∧ path ∈ (resolveEffectiveTaskScope (some record)).requiredFiles)
              ∨ RequiresLater currentTaskNumber tasks path number := by
        constructor
        · rintro ⟨other, member, number_, open_, requires⟩
          rcases List.mem_cons.mp member with same | within
          · obtain rfl := Option.some.inj same
            exact .inl ⟨Option.some.inj (number_.symm.trans carries), open_, requires⟩
          · exact .inr ⟨other, within, number_, open_, requires⟩
        · rintro (⟨rfl, open_, requires⟩ | ⟨other, within, number_, open_, requires⟩)
          · exact ⟨record, List.mem_cons_self, carries, open_, requires⟩
          · exact ⟨other, List.mem_cons_of_mem _ within, number_, open_, requires⟩
      unfold requireTasks
      rw [given]
      by_cases done : currentTaskNumber.any (taskNum ≤ ·) = true
      · rw [if_pos done]
        have whole : {number | RequiresLater currentTaskNumber (some record :: tasks) path number}
            = {number | RequiresLater currentTaskNumber tasks path number} := by
          ext number
          refine (splits number).trans (or_iff_right ?_)
          rintro ⟨rfl, open_, -⟩
          rw [open_] at done
          contradiction
        rw [whole]
        exact ih later before
      · rw [if_neg done]
        have whole : numbers
              ∪ {number | RequiresLater currentTaskNumber (some record :: tasks) path number}
            = numbers ∪ {number | path ∈ (resolveEffectiveTaskScope (some record)).requiredFiles
                ∧ number = taskNum}
              ∪ {number | RequiresLater currentTaskNumber tasks path number} := by
          rw [Set.union_assoc]
          congr 1
          ext number
          refine (splits number).trans (or_congr_left ⟨?_, ?_⟩)
          · rintro ⟨rfl, -, requires⟩
            exact ⟨requires, rfl⟩
          · rintro ⟨requires, rfl⟩
            exact ⟨rfl, Bool.eq_false_of_not_eq_true done, requires⟩
        rw [whole]
        exact ih later (leastOf_requireDownstream before)

end Downstream

section Same

variable {first second : ClassifyTaskChangesOptions} {path : String}

theorem SameTask.symm {record other : TaskRecord} (same : SameTask record other)
    : SameTask other record :=
  ⟨same.number ▸ same.numbered, same.number.symm, fun path => (same.expectedFiles path).symm,
    fun path => (same.files path).symm, fun path => (same.mayExtend path).symm,
    fun path => (same.permittedAreas path).symm, fun path => (same.nonGoals path).symm,
    fun path => (same.referenceFiles path).symm⟩

theorem SameTasks.symm {tasks others : List ManifestTask} (same : SameTasks tasks others)
    : SameTasks others tasks := by
  refine ⟨fun task within => ?_, fun task within => ?_⟩
  · obtain ⟨record, other, rfl, member, alike⟩ := same.2 task within
    exact ⟨record, other, rfl, member, alike.symm⟩
  · obtain ⟨record, other, rfl, member, alike⟩ := same.1 task within
    exact ⟨record, other, rfl, member, alike.symm⟩

theorem SameTasks.numbered {tasks others : List ManifestTask} (same : SameTasks tasks others)
    : Numbered tasks := by
  intro task within
  obtain ⟨record, _, rfl, _, alike⟩ := same.1 task within
  obtain ⟨number, carries⟩ := Option.isSome_iff_exists.mp alike.numbered
  exact ⟨record, number, rfl, carries⟩

theorem mem_normalizedPaths_append {left right : List String}
    : path ∈ normalizedPaths (left ++ right)
      ↔ path ∈ normalizedPaths left ∨ path ∈ normalizedPaths right := by
  simp only [mem_normalizedPaths, List.mem_append, or_and_right, exists_or, and_or_left]

theorem SameTask.requiredFiles {record other : TaskRecord} (same : SameTask record other)
    : path ∈ (resolveEffectiveTaskScope (some record)).requiredFiles
      ↔ path ∈ (resolveEffectiveTaskScope (some other)).requiredFiles := by
  simp only [resolveEffectiveTaskScope, mem_normalizedPaths_append, same.expectedFiles path,
    same.files path]

theorem SameTasks.requiresLater {tasks others : List ManifestTask} (same : SameTasks tasks others)
    {currentTaskNumber : Option Rat} {number : Rat}
    (requires : RequiresLater currentTaskNumber tasks path number)
    : RequiresLater currentTaskNumber others path number := by
  obtain ⟨record, member, carries, open_, required⟩ := requires
  obtain ⟨also, other, rfl', within, alike⟩ := same.1 _ member
  obtain rfl := Option.some.inj rfl'
  exact ⟨other, within, alike.number ▸ carries, open_, alike.requiredFiles.mp required⟩

theorem leastOf_downstreamRequiredMap (numbered : Numbered first.allTasks.2)
    : LeastOf (first.downstreamRequiredMap path)
        {number | RequiresLater first.currentTaskNumber first.allTasks.2 path number} := by
  let start : String → Option Rat := fun _ => none
  have before : LeastOf (start path) ∅ := ⟨nofun, by simp [start]⟩
  have found : LeastOf (first.downstreamRequiredMap path)
      (∅ ∪ {number | RequiresLater first.currentTaskNumber first.allTasks.2 path number}) :=
    leastOf_requireTasks numbered before
  rwa [Set.empty_union] at found

theorem SameOptions.downstreamRequiredMap (same : SameOptions first second)
    : first.downstreamRequiredMap = second.downstreamRequiredMap := by
  funext path
  refine (leastOf_downstreamRequiredMap same.tasks.numbered).unique ?_
  have whole : {number | RequiresLater first.currentTaskNumber first.allTasks.2 path number}
      = {number | RequiresLater second.currentTaskNumber second.allTasks.2 path number} := by
    rw [same.currentTaskNumber]
    ext number
    exact ⟨same.tasks.requiresLater, same.tasks.symm.requiresLater⟩
  rw [whole]
  exact leastOf_downstreamRequiredMap same.tasks.symm.numbered

theorem SamePaths.any_eq {paths others : List String} (same : SamePaths paths others)
    (test : String → Bool)
    : (normalizedPaths paths).any test = (normalizedPaths others).any test := by
  rw [Bool.eq_iff_iff, List.any_eq_true, List.any_eq_true]
  exact exists_congr fun path => and_congr_left fun _ => same path

/-- The rules do not depend on spellings. -/
theorem SameOptions.verdict (same : SameOptions first second) (tracked : Bool)
    : first.verdict path tracked = second.verdict path tracked := by
  have owner : first.ownership path tracked = second.ownership path tracked := by
    unfold ClassifyTaskChangesOptions.ownership
    simp only [same.downstreamRequiredMap, same.currentScope.referenceFiles path,
      same.currentScope.mayExtendFiles path, same.currentScope.permittedAreas.any_eq]
  unfold ClassifyTaskChangesOptions.verdict
  simp only [same.isProtected, same.exemptFiles path, same.currentScope.nonGoals.any_eq,
    same.currentScope.requiredFiles path, owner]

theorem SameCandidates.isTrackedIn {candidates others : List TaskChangeCandidate}
    (same : SameCandidates candidates others) (nonempty : path ≠ "")
    : isTrackedIn candidates path = isTrackedIn others path := by
  rw [Bool.eq_iff_iff]
  simpa [AiSdlc.Application.isTrackedIn] using same path true nonempty

theorem SameCandidates.names {candidates others : List TaskChangeCandidate}
    (same : SameCandidates candidates others) (nonempty : path ≠ "")
    : (∃ candidate ∈ candidates, candidate.Names path)
      → ∃ candidate ∈ others, candidate.Names path := by
  rintro ⟨candidate, member, names⟩
  obtain ⟨other, within, also, -⟩ :=
    (same path candidate.isTracked nonempty).mp ⟨candidate, member, names, rfl⟩
  exact ⟨other, within, also⟩

theorem SameCandidates.symm {candidates others : List TaskChangeCandidate}
    (same : SameCandidates candidates others)
    : SameCandidates others candidates :=
  fun path tracked nonempty => (same path tracked nonempty).symm

theorem SameCandidates.mem_paths (same : SameCandidates first.candidates second.candidates)
    : path ∈ first.paths ↔ path ∈ second.paths := by
  rw [first.mem_paths, second.mem_paths, (collects_collectCandidates _).paths,
    (collects_collectCandidates _).paths]
  exact and_congr_right fun nonempty => ⟨same.names nonempty, same.symm.names nonempty⟩

theorem SameOptions.verdictOf (same : SameOptions first second) (listed : path ∈ first.paths)
    : first.verdictOf path = second.verdictOf path := by
  have nonempty : path ≠ "" := (mem_normalizedPaths.mp listed).1
  rw [ClassifyTaskChangesOptions.verdictOf, ClassifyTaskChangesOptions.verdictOf, same.verdict,
    same.candidates.isTrackedIn nonempty]

/-- The lists of paths are the same. -/
theorem SameOptions.bucket (same : SameOptions first second) (verdict : TaskChangeVerdict)
    : first.bucket verdict = second.bucket verdict := by
  have alike : (first.bucket verdict).Perm (second.bucket verdict) := by
    refine (List.perm_ext_iff_of_nodup first.nodup_bucket second.nodup_bucket).mpr fun path => ?_
    rw [first.mem_bucket, second.mem_bucket, ← same.candidates.mem_paths]
    exact and_congr_right fun listed => by rw [same.verdictOf listed]
  exact sortTexts_eq_of_perm ((perm_sortTexts _).symm.trans (alike.trans (perm_sortTexts _)))

theorem SameOptions.premature (same : SameOptions first second)
    : first.premature.Perm second.premature := by
  have distinct (opts : ClassifyTaskChangesOptions) : opts.premature.Nodup :=
    opts.nodup_premature.of_map _
  refine (List.perm_ext_iff_of_nodup (distinct first) (distinct second)).mpr fun record => ?_
  rw [first.mem_premature, second.mem_premature, ← same.candidates.mem_paths]
  exact and_congr_right fun listed => by rw [same.verdictOf listed]

end Same

-----------------------------------------------------------------------------------------
-- The order of the records
-----------------------------------------------------------------------------------------

/-- A file that neither the orchestrator nor Git claims for itself. -/
def isClaimable (path : String) : Bool :=
  !isOrchestratorArtifactPattern path && path ≠ ".ai-orchestrator.json"
  && !isProtectedTaskPath path

/-- The locale tells the paths of the candidates apart that tasks can claim. -/
def ToldApart (localeCompare : String → String → Int) (candidates : List TaskChangeCandidate)
    : Prop :=
  ∀ first ∈ normalizedPaths (candidates.map (·.path)),
    ∀ second ∈ normalizedPaths (candidates.map (·.path)),
      isClaimable first = true → isClaimable second = true → localeCompare first second = 0 →
        first = second

section Records

variable {localeCompare : String → String → Int} {opts others : ClassifyTaskChangesOptions}
  {path : String} {taskNumber : Rat}

theorem Comparison.zero (comparison : Comparison localeCompare) {left right : String}
    (tie : localeCompare left right = 0)
    : localeCompare right left = 0 := by
  have less := comparison.swap left right
  have more := comparison.swap right left
  omega

theorem notAfter_iff {first second : PrematureImplementationRecord}
    : notAfter localeCompare first second = true
      ↔ localeCompare first.path second.path < 0
        ∨ localeCompare first.path second.path = 0 ∧ first.taskNumber ≤ second.taskNumber := by
  unfold notAfter
  split
  next tie => simp [tie]
  next apart =>
    rw [decide_eq_true_eq]
    omega

/-- Records are sorted consistently, by cases on the comparisons of their paths. -/
theorem Comparison.pairwise_records (comparison : Comparison localeCompare)
    (records : List PrematureImplementationRecord)
    : (records.insertionSort fun a b => notAfter localeCompare a b).Pairwise
        fun a b => notAfter localeCompare a b = true := by
  let sorts (a b : PrematureImplementationRecord) : Prop := notAfter localeCompare a b = true
  have total : Std.Total sorts := by
    refine ⟨fun a b => ?_⟩
    simp only [sorts, notAfter_iff]
    have less := comparison.swap a.path b.path
    have more := comparison.swap b.path a.path
    by_cases tie : localeCompare a.path b.path = 0
    · rw [tie, comparison.zero tie]
      simpa using le_total a.taskNumber b.taskNumber
    · rcases lt_or_gt_of_ne tie with before | after
      · exact .inl (.inl before)
      · exact .inr (.inl (more.mpr after))
  have trans : IsTrans PrematureImplementationRecord sorts := by
    refine ⟨fun a b c first second => ?_⟩
    simp only [sorts, notAfter_iff] at first second ⊢
    have forth := comparison.trans a.path b.path c.path (by omega) (by omega)
    rcases Int.lt_or_eq_of_le forth with before | tie
    · exact .inl before
    · refine .inr ⟨tie, ?_⟩
      -- Around a tie no step can be strict.
      have back := comparison.zero tie
      have lower := comparison.trans b.path c.path a.path (by omega) (by omega)
      have upper := comparison.trans c.path a.path b.path (by omega) (by omega)
      have lefts := comparison.swap a.path b.path
      have rights := comparison.swap b.path c.path
      rcases first with before | ⟨-, numbers⟩
      · omega
      · rcases second with after | ⟨-, more⟩
        · omega
        · exact le_trans numbers more
  exact List.pairwise_insertionSort sorts _

theorem isClaimable_of_premature (premature : opts.verdictOf path = .premature taskNumber)
    : isClaimable path = true := by
  unfold ClassifyTaskChangesOptions.verdictOf ClassifyTaskChangesOptions.verdict at premature
  split at premature
  · contradiction
  next immutable =>
    simp only [Bool.or_eq_true, decide_eq_true_eq, not_or, Bool.not_eq_true] at immutable
    obtain ⟨⟨artifact, config⟩, -⟩ := immutable
    split at premature
    · contradiction
    · split at premature
      · contradiction
      · split at premature
        · contradiction
        · split at premature
          · contradiction
          next open_ => simp [isClaimable, artifact, config, open_]

/-- Where the paths are told apart, the records are listed in one order. -/
theorem SameOptions.sorted (same : SameOptions opts others)
    (comparison : Comparison localeCompare) (apart : ToldApart localeCompare opts.candidates)
    : opts.premature.insertionSort (fun a b => notAfter localeCompare a b)
      = others.premature.insertionSort fun a b => notAfter localeCompare a b := by
  have alike : (opts.premature.insertionSort fun a b => notAfter localeCompare a b).Perm
      (others.premature.insertionSort fun a b => notAfter localeCompare a b) :=
    (List.perm_insertionSort _ _).trans
      (same.premature.trans (List.perm_insertionSort _ _).symm)
  refine alike.eq_of_pairwise ?_ (comparison.pairwise_records _) (comparison.pairwise_records _)
  intro first second here there forth back
  have firstMember := opts.mem_premature.mp ((List.mem_insertionSort _).mp here)
  have secondMember :=
    opts.mem_premature.mp (same.premature.mem_iff.mpr ((List.mem_insertionSort _).mp there))
  have less := comparison.swap first.path second.path
  have tie : localeCompare first.path second.path = 0 := by
    rw [notAfter_iff] at forth back
    omega
  have paths := apart first.path firstMember.1 second.path secondMember.1
    (isClaimable_of_premature firstMember.2) (isClaimable_of_premature secondMember.2) tie
  have decided := firstMember.2.symm.trans (paths ▸ secondMember.2)
  cases first
  cases second
  simp_all

theorem SameOptions.classifyTaskChanges (same : SameOptions opts others)
    (comparison : Comparison localeCompare) (apart : ToldApart localeCompare opts.candidates)
    : classifyTaskChanges localeCompare opts = classifyTaskChanges localeCompare others := by
  simp only [classifyTaskChanges_eq, same.bucket, same.sorted comparison apart]

/-- The candidates are entered after those that are there, by induction over them. -/
theorem prefix_foldl_addCandidate (entries : List (String × Bool))
    (candidates : List TaskChangeCandidate)
    : entries.map (·.1) <+: (candidates.foldl addCandidate entries).map (·.1) := by
  induction candidates generalizing entries with
  | nil => exact List.prefix_rfl
  | cons candidate rest ih =>
      refine List.IsPrefix.trans ?_ (ih (addCandidate entries candidate))
      simp only [addCandidate]
      split
      · exact List.prefix_rfl
      · split
        · rw [List.map_append]
          exact List.prefix_append _ _
        · split
          · have paths : (entries.map fun entry =>
                if entry.1 = normalizeTaskPath candidate.path then
                  (normalizeTaskPath candidate.path, true) else entry).map (·.1)
                = entries.map (·.1) := by
              rw [List.map_map]
              refine List.map_congr_left fun entry _ => ?_
              by_cases same : entry.1 = normalizeTaskPath candidate.path <;> simp [same]
            rw [paths]
          · exact List.prefix_rfl

theorem addCandidate_fresh {entries : List (String × Bool)} {candidate : TaskChangeCandidate}
    (names : candidate.Names path) (nonempty : path ≠ "") (fresh : path ∉ entries.map (·.1))
    : addCandidate entries candidate = entries ++ [(path, candidate.isTracked)] := by
  have absent : entries.all (·.1 ≠ path) = true :=
    List.all_eq_true.mpr fun entry member =>
      decide_eq_true fun same => fresh (List.mem_map.mpr ⟨entry, member, same⟩)
  simp only [addCandidate]
  rw [show normalizeTaskPath candidate.path = path from names, if_neg nonempty, if_pos absent]

theorem collectCandidates_two {first second : TaskChangeCandidate}
    {rest : List TaskChangeCandidate} {path other : String} (names : first.Names path)
    (also : second.Names other) (nonempty : path ≠ "") (some : other ≠ "") (apart : path ≠ other)
    : ∃ here there more, collectCandidates (first :: second :: rest)
        = (path, here) :: (other, there) :: more := by
  have entered : addCandidate (addCandidate [] first) second
      = [(path, first.isTracked), (other, second.isTracked)] := by
    rw [addCandidate_fresh names nonempty (by simp)]
    exact addCandidate_fresh also some (by simpa using apart.symm)
  have starts := prefix_foldl_addCandidate (addCandidate (addCandidate [] first) second) rest
  rw [entered] at starts
  rw [collectCandidates, List.foldl_cons, List.foldl_cons, entered]
  generalize List.foldl addCandidate _ rest = entries at starts ⊢
  rcases entries with - | ⟨⟨_, here⟩, - | ⟨⟨_, there⟩, more⟩⟩
  case nil => simp at starts
  case cons.nil => simp at starts
  case cons.cons =>
    simp only [List.map_cons, List.map_nil, List.cons_prefix_cons] at starts
    obtain ⟨rfl, rfl, -⟩ := starts
    exact ⟨here, there, more, rfl⟩

/-- Of two entries of a list without repetition, one comes first. -/
theorem not_both_orders {records : List PrematureImplementationRecord}
    (distinct : records.Nodup) {first second : PrematureImplementationRecord}
    (forth : [first, second].Sublist records) (back : [second, first].Sublist records)
    : False := by
  induction records with
  | nil => simp at forth
  | cons head rest ih =>
      obtain ⟨absent, distinct⟩ := List.nodup_cons.mp distinct
      cases forth with
      | cons _ forth =>
          cases back with
          | cons _ back => exact ih distinct forth back
          | cons_cons _ back => exact absent (forth.subset (by simp))
      | cons_cons _ forth =>
          cases back with
          | cons _ back => exact absent (back.subset (by simp))
          | cons_cons _ back => exact absent (forth.subset (by simp))

/-- A downstream task that requires two files of the candidates. -/
def claimingOptions (candidates : List TaskChangeCandidate) (first second : String)
    : ClassifyTaskChangesOptions where
  candidates
  currentScope := {}
  downstreamTasks := some [some { n := some 1, expectedFiles := some [some first, some second] }]

/-- A file that such a task requires is premature. -/
theorem verdict_claimingOptions {candidates : List TaskChangeCandidate} {first second : String}
    {tracked : Bool} (claimable : isClaimable path = true)
    (required : path ∈ normalizedPaths [first, second])
    : (claimingOptions candidates first second).verdict path tracked = .premature 1 := by
  simp only [isClaimable, Bool.and_eq_true, Bool.not_eq_true', decide_eq_true_eq] at claimable
  obtain ⟨⟨artifact, config⟩, open_⟩ := claimable
  have least : LeastOf ((claimingOptions candidates first second).downstreamRequiredMap path)
      {number | RequiresLater none [some
        { n := some 1, expectedFiles := some [some first, some second] }] path number} := by
    refine leastOf_downstreamRequiredMap ?_
    intro task within
    obtain rfl := List.mem_singleton.mp within
    exact ⟨_, 1, rfl, rfl⟩
  have only : LeastOf (some 1) {number | RequiresLater none [some
      { n := some 1, expectedFiles := some [some first, some second] }] path number} := by
    have single : {number | RequiresLater none [some
        { n := some 1, expectedFiles := some [some first, some second] }] path number} = {1} := by
      ext number
      constructor
      · rintro ⟨record, listed, carries, -, -⟩
        obtain rfl := Option.some.inj (List.mem_singleton.mp listed)
        exact (Option.some.inj carries).symm
      · rintro rfl
        exact ⟨_, List.mem_singleton.mpr rfl, rfl, rfl, required⟩
    rw [single]
    exact ⟨fun number same => Option.some.inj same ▸ isLeast_singleton, by simp⟩
  have claimed := least.unique only
  unfold ClassifyTaskChangesOptions.verdict ClassifyTaskChangesOptions.ownership
  rw [claimed]
  simp [artifact, config, open_, claimingOptions, normalizedPaths]

/-- Candidates that are listed again do not matter. -/
theorem sameOptions_claimingOptions {candidates front : List TaskChangeCandidate}
    {first second : String} (inside : ∀ candidate ∈ front, candidate ∈ candidates)
    : SameOptions (claimingOptions candidates first second)
        (claimingOptions (front ++ candidates) first second) where
  candidates := by
    intro path tracked _
    constructor
    · rintro ⟨candidate, member, found⟩
      exact ⟨candidate, List.mem_append_right _ member, found⟩
    · rintro ⟨candidate, member, found⟩
      rcases List.mem_append.mp member with again | once
      · exact ⟨candidate, inside candidate again, found⟩
      · exact ⟨candidate, once, found⟩
  currentScope := by
    constructor <;> exact fun _ => Iff.rfl
  tasks := by
    have alike (record : TaskRecord) (numbered : record.number?.isSome) : SameTask record record :=
      ⟨numbered, rfl, fun _ => Iff.rfl, fun _ => Iff.rfl, fun _ => Iff.rfl, fun _ => Iff.rfl,
        fun _ => Iff.rfl, fun _ => Iff.rfl⟩
    constructor
    · intro task within
      obtain rfl := List.mem_singleton.mp within
      exact ⟨_, _, rfl, within, alike _ rfl⟩
    · intro task within
      obtain rfl := List.mem_singleton.mp within
      exact ⟨_, _, rfl, within, alike _ rfl⟩
  currentTaskNumber := rfl
  exemptFiles := fun _ => Iff.rfl
  isProtected := rfl

theorem sublist_prematureImplementation {candidates : List TaskChangeCandidate}
    {one two : TaskChangeCandidate} {other first second : String} (names : one.Names path)
    (also : two.Names other) (nonempty : path ≠ "") (some : other ≠ "") (apart : path ≠ other)
    (claimable : isClaimable path = true) (claimableToo : isClaimable other = true)
    (required : path ∈ normalizedPaths [first, second])
    (requiredToo : other ∈ normalizedPaths [first, second]) (tie : localeCompare path other = 0)
    : List.Sublist [⟨path, 1⟩, ⟨other, 1⟩]
        (classifyTaskChanges localeCompare
          (claimingOptions (one :: two :: candidates) first second)).prematureImplementation := by
  obtain ⟨here, there, more, entries⟩ : ∃ here there more,
      collectCandidates (one :: two :: candidates) = (path, here) :: (other, there) :: more :=
    collectCandidates_two names also nonempty some apart
  have inOrder : ∃ later, (claimingOptions (one :: two :: candidates) first second).premature
      = ⟨path, 1⟩ :: ⟨other, 1⟩ :: later := by
    unfold ClassifyTaskChangesOptions.premature
    change ∃ later, List.filterMap _ (collectCandidates (one :: two :: candidates)) = _
    rw [entries]
    refine ⟨_, (List.filterMap_cons_some ?_).trans
      (congrArg _ (List.filterMap_cons_some ?_))⟩
    · simp only [verdict_claimingOptions claimable required]
    · simp only [verdict_claimingOptions claimableToo requiredToo]
  obtain ⟨later, same⟩ := inOrder
  rw [classifyTaskChanges_eq, same]
  refine List.pair_sublist_insertionSort (notAfter_iff.mpr (.inr ⟨tie, le_refl _⟩)) ?_
  exact .cons_cons _ (.cons_cons _ (List.nil_sublist _))

/-- Where the records are always listed in one order, the paths are told apart. -/
theorem toldApart_of_spellings (comparison : Comparison localeCompare)
    {candidates : List TaskChangeCandidate}
    (spellings : ∀ opts others, opts.candidates = candidates → SameOptions opts others →
      classifyTaskChanges localeCompare opts = classifyTaskChanges localeCompare others)
    : ToldApart localeCompare candidates := by
  intro path listed other also claimable claimableToo tie
  by_contra apart
  obtain ⟨nonempty, raw, member, names⟩ := mem_normalizedPaths.mp listed
  obtain ⟨some, more, within, namesToo⟩ := mem_normalizedPaths.mp also
  obtain ⟨one, oneMember, rfl⟩ := List.mem_map.mp member
  obtain ⟨two, twoMember, rfl⟩ := List.mem_map.mp within
  have required : path ∈ normalizedPaths [one.path, two.path] :=
    mem_normalizedPaths.mpr ⟨nonempty, one.path, by simp, names⟩
  have requiredToo : other ∈ normalizedPaths [one.path, two.path] :=
    mem_normalizedPaths.mpr ⟨some, two.path, by simp, namesToo⟩
  have oneFirst := spellings (claimingOptions candidates one.path two.path)
    (claimingOptions ([one, two] ++ candidates) one.path two.path) rfl
    (sameOptions_claimingOptions (by simp [oneMember, twoMember]))
  have twoFirst := spellings (claimingOptions candidates one.path two.path)
    (claimingOptions ([two, one] ++ candidates) one.path two.path) rfl
    (sameOptions_claimingOptions (by simp [oneMember, twoMember]))
  have forth : List.Sublist [⟨path, 1⟩, ⟨other, 1⟩] (classifyTaskChanges localeCompare
      (claimingOptions candidates one.path two.path)).prematureImplementation := by
    rw [oneFirst]
    exact sublist_prematureImplementation names namesToo nonempty some apart claimable
      claimableToo required requiredToo tie
  have back : List.Sublist [⟨other, 1⟩, ⟨path, 1⟩] (classifyTaskChanges localeCompare
      (claimingOptions candidates one.path two.path)).prematureImplementation := by
    rw [twoFirst]
    exact sublist_prematureImplementation namesToo names some nonempty (Ne.symm apart)
      claimableToo claimable requiredToo required (comparison.zero tie)
  have distinct : (classifyTaskChanges localeCompare
      (claimingOptions candidates one.path two.path)).prematureImplementation.Nodup :=
    (List.perm_insertionSort _ _).nodup_iff.mpr
      ((ClassifyTaskChangesOptions.nodup_premature).of_map _)
  exact not_both_orders distinct forth back

end Records

end AiSdlc.Application
