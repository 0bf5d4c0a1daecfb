import AiSdlc.Application.RevalidationPlan
import AiSdlc.Js.Checked
import AiSdlc.Js.Groups

/-! What a narrow plan validates: the package that owns all changed paths with everything that
depends on it, each package after those that it depends on.
-/

namespace AiSdlc.Application

open AiSdlc.Js
open AiSdlc.Graph

-----------------------------------------------------------------------------------------
-- Packages, their dependencies and the paths that they own
-----------------------------------------------------------------------------------------

/-- A package lists another one among its dependencies. -/
def DependsOn (descriptors : List WorkspacePackageDescriptor) (package other : String) : Prop :=
  ∃ desc ∈ descriptors, desc.name = package ∧ other ∈ desc.workspaceDependencies.getD []

/-- A package owns a path: its directory holds the path, and every other package directory that
does lies around it.
-/
def OwnsPath (descriptors : List WorkspacePackageDescriptor) (package path : String) : Prop :=
  ∃ desc ∈ descriptors, desc.name = package ∧
    ∃ directory, normalizeRepoRelativePath desc.directory = some directory
      ∧ holdsPath directory path = true
      ∧ ∀ other ∈ descriptors, ∀ around, normalizeRepoRelativePath other.directory = some around →
          holdsPath around path = true → holdsPath around directory = true

/-- The descriptor as it is collected. -/
def WorkspacePackageDescriptor.normalized (desc : WorkspacePackageDescriptor)
    : Option WorkspacePackageDescriptor :=
  if isSafeName desc.name then
    ((normalizeRepoRelativePath desc.directory).filter isSafeDirectory).map fun normDir =>
      { desc with directory := normDir }
  else none

theorem WorkspacePackageDescriptor.normalized_eq_some {desc collected : WorkspacePackageDescriptor}
    : desc.normalized = some collected
      ↔ isSafeName desc.name = true
        ∧ ∃ normDir, normalizeRepoRelativePath desc.directory = some normDir
          ∧ isSafeDirectory normDir = true ∧ { desc with directory := normDir } = collected := by
  unfold normalized
  split
  next safe => simp [safe, Option.filter_eq_some_iff, and_assoc]
  next unsafeName => simp [unsafeName]

/-- Names and directories of the collected packages are told apart. -/
structure Collected (descriptors : List WorkspacePackageDescriptor) : Prop where
  names : (descriptors.map (·.name)).Nodup
  directories : (descriptors.map (·.directory)).Nodup

/-- The packages are collected in the order of the descriptors, by induction over these. -/
theorem collectDescriptors_eq_ok {collected descriptors result : List WorkspacePackageDescriptor}
    (distinct : Collected collected)
    : collectDescriptors collected descriptors = .ok result
      ↔ (∀ desc ∈ descriptors, desc.normalized.isSome)
        ∧ result = collected ++ descriptors.filterMap (·.normalized)
        ∧ Collected result := by
  induction descriptors generalizing collected with
  | nil =>
      simp only [collectDescriptors, Except.ok.injEq, List.filterMap_nil, List.append_nil,
        List.not_mem_nil, false_implies, implies_true, true_and]
      constructor
      · rintro rfl
        exact ⟨rfl, distinct⟩
      · rintro ⟨rfl, -⟩
        rfl
  | cons desc rest ih =>
      unfold collectDescriptors
      cases normalizes : desc.normalized with
      | none =>
          have rejected : ¬ (∀ other ∈ desc :: rest, other.normalized.isSome) := by
            intro all
            simpa [normalizes] using all desc List.mem_cons_self
          refine iff_of_false ?_ fun accepted => rejected accepted.1
          unfold WorkspacePackageDescriptor.normalized at normalizes
          split
          · simp
          next safe =>
            have named : isSafeName desc.name = true := by simpa using safe
            rw [if_pos named] at normalizes
            cases found : normalizeRepoRelativePath desc.directory with
            | none => simp
            | some normDir =>
                have refused : isSafeDirectory normDir = false := by
                  simpa [found, Option.filter] using normalizes
                simp [refused]
      | some package =>
          obtain ⟨named, normDir, found, safe, rfl⟩ :=
            WorkspacePackageDescriptor.normalized_eq_some.mp normalizes
          simp only [named, found, safe, Bool.not_true, Bool.false_eq_true, if_false,
            List.forall_mem_cons, normalizes, Option.isSome_some, true_and,
            List.filterMap_cons_some normalizes]
          by_cases twice : collected.any (·.name = desc.name)
          · rw [if_pos twice]
            refine iff_of_false (by simp) ?_
            rintro ⟨-, rfl, apart⟩
            obtain ⟨old, member, same⟩ := List.any_eq_true.mp twice
            have names := apart.names
            simp only [List.map_append, List.map_cons, List.nodup_append] at names
            exact names.2.2 old.name (List.mem_map_of_mem member) desc.name List.mem_cons_self
              (by simpa using same)
          · rw [if_neg twice]
            by_cases shared : collected.any (·.directory = normDir)
            · rw [if_pos shared]
              refine iff_of_false (by simp) ?_
              rintro ⟨-, rfl, apart⟩
              obtain ⟨old, member, same⟩ := List.any_eq_true.mp shared
              have directories := apart.directories
              simp only [List.map_append, List.map_cons, List.nodup_append] at directories
              exact directories.2.2 old.directory (List.mem_map_of_mem member) normDir
                List.mem_cons_self (by simpa using same)
            · rw [if_neg shared]
              have grown : Collected (collected ++ [{ desc with directory := normDir }]) := by
                constructor
                · simp only [List.map_append, List.map_cons, List.map_nil]
                  refine List.nodup_append_comm.mp (List.nodup_cons.mpr ⟨?_, distinct.names⟩)
                  simpa using twice
                · simp only [List.map_append, List.map_cons, List.map_nil]
                  refine List.nodup_append_comm.mp
                    (List.nodup_cons.mpr ⟨?_, distinct.directories⟩)
                  simpa using shared
              rw [ih grown]
              simp

section Lookup

variable {descriptors others : List WorkspacePackageDescriptor}

theorem Collected.of_perm (distinct : Collected descriptors) (same : descriptors.Perm others)
    : Collected others :=
  ⟨(same.map _).nodup_iff.mp distinct.names, (same.map _).nodup_iff.mp distinct.directories⟩

theorem Collected.descriptorNamed_eq_some (distinct : Collected descriptors) {name : String}
    {desc : WorkspacePackageDescriptor}
    : descriptorNamed descriptors name = some desc ↔ desc ∈ descriptors ∧ desc.name = name := by
  constructor
  · intro found
    exact ⟨List.mem_of_find?_eq_some found, by simpa using List.find?_some found⟩
  · rintro ⟨member, rfl⟩
    obtain ⟨other, found⟩ : ∃ other, descriptorNamed descriptors desc.name = some other := by
      refine Option.isSome_iff_exists.mp (List.find?_isSome.mpr ⟨desc, member, by simp⟩)
    have named : other.name = desc.name := by simpa using List.find?_some found
    have one : other = desc :=
      List.inj_on_of_nodup_map distinct.names (List.mem_of_find?_eq_some found) member named
    rw [found, one]

theorem Collected.descriptorNamed_of_perm (distinct : Collected descriptors)
    (same : descriptors.Perm others)
    : descriptorNamed others = descriptorNamed descriptors := by
  funext name
  refine Option.ext fun desc => ?_
  rw [distinct.descriptorNamed_eq_some, (distinct.of_perm same).descriptorNamed_eq_some,
    same.mem_iff]

theorem isSome_descriptorNamed {name : String}
    : (descriptorNamed descriptors name).isSome ↔ name ∈ descriptors.map (·.name) := by
  simp [descriptorNamed]

theorem mem_deps {desc : WorkspacePackageDescriptor} {name : String}
    : name ∈ desc.deps ↔ name ∈ desc.workspaceDependencies.getD [] :=
  List.mem_eraseDups

theorem nodup_dependenciesOf (name : String) : (dependenciesOf descriptors name).Nodup := by
  unfold dependenciesOf
  cases descriptorNamed descriptors name with
  | none => exact List.nodup_nil
  | some desc => exact nodup_eraseDups _

theorem mem_directDependents {name other : String}
    : other ∈ directDependents descriptors name ↔ DependsOn descriptors other name := by
  simp only [directDependents, DependsOn, List.mem_map, List.mem_filter, decide_eq_true_eq,
    mem_deps]
  constructor
  · rintro ⟨desc, ⟨member, depends⟩, named⟩
    exact ⟨desc, member, named, depends⟩
  · rintro ⟨desc, member, named, depends⟩
    exact ⟨desc, ⟨member, depends⟩, named⟩

theorem Collected.mem_dependenciesOf (distinct : Collected descriptors) {name other : String}
    : other ∈ dependenciesOf descriptors name ↔ DependsOn descriptors name other := by
  constructor
  · intro depends
    unfold dependenciesOf at depends
    cases found : descriptorNamed descriptors name with
    | none => simp [found] at depends
    | some desc =>
        obtain ⟨member, named⟩ := distinct.descriptorNamed_eq_some.mp found
        exact ⟨desc, member, named, by simpa [found, mem_deps] using depends⟩
  · rintro ⟨desc, member, named, depends⟩
    simp [dependenciesOf, distinct.descriptorNamed_eq_some.mpr ⟨member, named⟩, mem_deps, depends]

theorem Collected.nodup_directDependents (distinct : Collected descriptors) (name : String)
    : (directDependents descriptors name).Nodup :=
  distinct.names.sublist (List.filter_sublist.map _)

theorem directDependents_perm (same : descriptors.Perm others) (name : String)
    : (directDependents descriptors name).Perm (directDependents others name) :=
  (same.filter _).map _

theorem Collected.dependenciesOf_of_perm (distinct : Collected descriptors)
    (same : descriptors.Perm others)
    : dependenciesOf others = dependenciesOf descriptors := by
  funext name
  rw [dependenciesOf, distinct.descriptorNamed_of_perm same, dependenciesOf]

theorem Collected.dependencies (distinct : Collected descriptors) (member : String → Bool)
    : Dependencies (dependenciesOf descriptors) (directDependents descriptors) member := by
  refine ⟨nodup_dependenciesOf, distinct.nodup_directDependents, fun name other _ => ?_⟩
  rw [mem_directDependents, distinct.mem_dependenciesOf]

theorem mem_names_of_directDependents {name other : String}
    (depends : other ∈ directDependents descriptors name)
    : other ∈ descriptors.map (·.name) :=
  (List.filter_sublist.map _).subset depends

end Lookup

section Order

variable {descriptors others : List WorkspacePackageDescriptor}

/-- All dependencies are packages of the workspace. -/
def Resolved (descriptors : List WorkspacePackageDescriptor) : Prop :=
  ∀ name, ∀ dep ∈ dependenciesOf descriptors name, dep ∈ descriptors.map (·.name)

/-- The names of the packages, as a test. -/
def isPackage (descriptors : List WorkspacePackageDescriptor) (name : String) : Bool :=
  name ∈ descriptors.map (·.name)

theorem isPackage_eq_true {name : String}
    : isPackage descriptors name = true ↔ name ∈ descriptors.map (·.name) :=
  decide_eq_true_iff

/-- The check of the whole workspace passes exactly when its dependencies have no cycle. -/
theorem Collected.length_visitedPackages (distinct : Collected descriptors)
    (resolved : Resolved descriptors)
    : (visitedPackages descriptors).length = descriptors.length
      ↔ Ranked (dependenciesOf descriptors) (isPackage descriptors) := by
  let inDegrees (name : String) : Int := (dependenciesOf descriptors name).length
  let queue := (descriptors.map (·.name)).filter (inDegrees · = 0)
  have visits : visitedPackages descriptors = kahn id (isPackage descriptors)
      (directDependents descriptors) descriptors.length inDegrees queue :=
    kahn_member_congr fun node dependent within =>
      (isPackage_eq_true.mpr (mem_names_of_directDependents within)).symm
  have counted (name : String) : (dependenciesOf descriptors name).filter (isPackage descriptors)
      = dependenciesOf descriptors name :=
    List.filter_eq_self.mpr fun dep depends => isPackage_eq_true.mpr (resolved name dep depends)
  have stands : Stands (dependenciesOf descriptors) (isPackage descriptors) [] inDegrees queue := by
    refine .start ?_ ?_ (distinct.names.filter _) ?_
    · intro name _
      rw [counted]
    · intro name ready
      exact isPackage_eq_true.mpr (List.mem_filter.mp ready).1
    · intro name package
      rw [List.mem_filter, decide_eq_true_eq]
      exact and_iff_right (isPackage_eq_true.mp package)
  have arranges (names : List String) : (id names).Perm names := .rfl
  have ordered : Ordered (dependenciesOf descriptors) (isPackage descriptors) []
      (visitedPackages descriptors) := by
    rw [visits]
    exact ordered_kahn (distinct.dependencies _) arranges stands
  have within : visitedPackages descriptors ⊆ descriptors.map (·.name) :=
    fun name visited => isPackage_eq_true.mp (ordered.fresh name visited).1
  constructor
  · intro complete
    have all := (List.subperm_of_subset ordered.nodup within).perm_of_length_le
      (by simp [complete])
    exact ordered.ranked fun name package => all.mem_iff.mpr (isPackage_eq_true.mp package)
  · intro ranked
    have all : descriptors.map (·.name) ⊆ visitedPackages descriptors := by
      intro name package
      rw [visits]
      refine (mem_kahn (distinct.dependencies _) arranges ranked
        (fun name package => isPackage_eq_true.mp package) stands List.nodup_nil ?_
        ?_ (isPackage_eq_true.mpr package)).resolve_left List.not_mem_nil
      · simp
      · simp
    have most := (List.subperm_of_subset distinct.names all).length_le
    have least := (List.subperm_of_subset ordered.nodup within).length_le
    simp only [List.length_map] at most least
    omega

/-- The packages of a closure, sorted. -/
structure IsClosure (descriptors : List WorkspacePackageDescriptor) (closureSet : List String)
    : Prop where
  distinct : closureSet.Nodup
  within : closureSet ⊆ descriptors.map (·.name)

section Closure

variable {localeCompare : String → String → Int} {closureSet : List String}

/-- The loop over the closure starts with the packages that wait for no other one. -/
theorem IsClosure.stands (closure : IsClosure descriptors closureSet)
    : Stands (dependenciesOf descriptors) (· ∈ closureSet) []
        (closureInDegrees descriptors closureSet)
        (sortByLocale localeCompare
          (closureSet.filter (closureInDegrees descriptors closureSet · = 0))) := by
  refine .start (fun _ _ => rfl) ?_ ?_ ?_
  · intro name ready
    have listed := perm_sortByLocale.mem_iff.mp ready
    simpa using (List.mem_filter.mp listed).1
  · exact perm_sortByLocale.nodup_iff.mpr (closure.distinct.filter _)
  · intro name member
    rw [perm_sortByLocale.mem_iff, List.mem_filter, decide_eq_true_eq]
    exact and_iff_right (by simpa using member)

theorem IsClosure.ordered (closure : IsClosure descriptors closureSet)
    (distinct : Collected descriptors)
    : Ordered (dependenciesOf descriptors) (· ∈ closureSet) []
        (narrowedPackages localeCompare descriptors closureSet) :=
  ordered_kahn (distinct.dependencies _) (fun _ => perm_sortByLocale) closure.stands

/-- Where the dependencies have no cycle, the whole closure is listed. -/
theorem IsClosure.mem_narrowedPackages (closure : IsClosure descriptors closureSet)
    (distinct : Collected descriptors)
    (ranked : Ranked (dependenciesOf descriptors) (isPackage descriptors)) {name : String}
    : name ∈ narrowedPackages localeCompare descriptors closureSet ↔ name ∈ closureSet := by
  constructor
  · intro listed
    simpa using ((closure.ordered distinct).fresh name listed).1
  · intro member
    have fewer : Ranked (dependenciesOf descriptors) (· ∈ closureSet) := by
      refine ranked.mono fun name member => isPackage_eq_true.mpr (closure.within ?_)
      simpa using member
    have enough : closureSet.length ≤ descriptors.length := by
      simpa using (List.subperm_of_subset closure.distinct closure.within).length_le
    have listed : ∀ other, decide (other ∈ closureSet) = true → other ∈ closureSet :=
      fun _ => of_decide_eq_true
    refine (mem_kahn (distinct.dependencies _) (fun _ => perm_sortByLocale) fewer listed
      closure.stands List.nodup_nil ?_ ?_ ?_).resolve_left List.not_mem_nil
    · simp
    · simpa using enough
    · simpa using member

/-- However packages and closure are listed, the order is the same. -/
theorem IsClosure.narrowedPackages_of_perm (closure : IsClosure descriptors closureSet)
    (distinct : Collected descriptors) (same : descriptors.Perm others)
    {otherSet : List String} (alike : closureSet.Perm otherSet)
    (collation : Collation localeCompare (descriptors.map (·.name)))
    : narrowedPackages localeCompare others otherSet
      = narrowedPackages localeCompare descriptors closureSet := by
  have members : (fun name : String => decide (name ∈ otherSet))
      = fun name => decide (name ∈ closureSet) := by
    funext name
    simp only [alike.mem_iff]
  have degrees : closureInDegrees others otherSet = closureInDegrees descriptors closureSet := by
    funext name
    rw [closureInDegrees, closureInDegrees, distinct.dependenciesOf_of_perm same, members]
  have ready : sortByLocale localeCompare
        (otherSet.filter (closureInDegrees descriptors closureSet · = 0))
      = sortByLocale localeCompare
        (closureSet.filter (closureInDegrees descriptors closureSet · = 0)) := by
    refine sortByLocale_eq_of_perm collation (alike.symm.filter _) fun name member => ?_
    exact closure.within (List.mem_filter.mp member).1
  have sorts (names : List String)
      : (sortByLocale localeCompare names).Pairwise fun a b => localeCompare a b ≤ 0 :=
    pairwise_sortByLocale collation
  simp only [narrowedPackages]
  rw [degrees, ready, ← same.length_eq, members]
  symm
  refine kahn_congr (fun _ => perm_sortByLocale) sorts ?_ distinct.nodup_directDependents
    (directDependents_perm same) (sorts _) ?_
  · intro first second here there
    refine collation.separates first (closure.within ?_) second (closure.within ?_)
    · simpa using here
    · simpa using there
  · intro name member
    have listed := perm_sortByLocale.mem_iff.mp member
    simpa using (List.mem_filter.mp listed).1

end Closure

variable {seed : String}

theorem mem_closureOf (named : seed ∈ descriptors.map (·.name)) {name : String}
    : name ∈ closureOf descriptors seed
      ↔ Relation.ReflTransGen (DependsOn descriptors) name seed := by
  have closed : ∀ node ∈ descriptors.map (·.name), ∀ other ∈ directDependents descriptors node,
      other ∈ descriptors.map (·.name) :=
    fun _ _ _ => mem_names_of_directDependents
  have turned : Leads (directDependents descriptors)
      = Function.swap (DependsOn descriptors) := by
    funext first second
    exact propext mem_directDependents
  rw [closureOf, mem_search closed named (by simp), turned, Relation.reflTransGen_swap]

theorem isClosure_closureOf (named : seed ∈ descriptors.map (·.name))
    : IsClosure descriptors (closureOf descriptors seed) := by
  refine ⟨nodup_search (List.nodup_singleton seed), fun name member => ?_⟩
  rcases Relation.ReflTransGen.cases_head ((mem_closureOf named).mp member) with rfl | ⟨_, first, _⟩
  · exact named
  · obtain ⟨desc, within, rfl, -⟩ := first
    exact List.mem_map_of_mem within

theorem dependsOn_of_perm (same : descriptors.Perm others)
    : DependsOn others = DependsOn descriptors := by
  funext package other
  simp only [DependsOn, same.mem_iff]

theorem closureOf_perm (named : seed ∈ descriptors.map (·.name)) (same : descriptors.Perm others)
    : (closureOf descriptors seed).Perm (closureOf others seed) := by
  have still : seed ∈ others.map (·.name) := (same.map _).mem_iff.mp named
  refine (List.perm_ext_iff_of_nodup (isClosure_closureOf named).distinct
    (isClosure_closureOf still).distinct).mpr fun name => ?_
  rw [mem_closureOf named, mem_closureOf still, dependsOn_of_perm same]

end Order

section Owner

theorem holdsPath_iff {directory path : String}
    : holdsPath directory path = true
      ↔ path = directory ∨ ∃ rest, path = directory ++ "/" ++ rest := by
  simp only [holdsPath, Bool.or_eq_true, decide_eq_true_eq, startsWith_iff]

/-- Directories that hold one path lie within each other, and the longer one is inside. -/
theorem holdsPath_of_length {directory around path : String}
    (holds : holdsPath directory path = true) (alsoHolds : holdsPath around path = true)
    (shorter : textLength around ≤ textLength directory)
    : holdsPath around directory = true := by
  have slash : textLength "/" = 1 := by decide
  rcases holdsPath_iff.mp holds with rfl | ⟨rest, rfl⟩
  · exact alsoHolds
  · rcases holdsPath_iff.mp alsoHolds with same | ⟨more, same⟩
    · rw [← same, textLength_append, textLength_append, slash] at shorter
      omega
    · rw [String.append_assoc, String.append_assoc] at same
      rcases append_eq_append same with ⟨end_, longer, -⟩ | ⟨end_, longer, starts⟩
      · rw [longer, textLength_append] at shorter
        have none : end_ = "" := textLength_eq_zero.mp (by omega)
        refine holdsPath_iff.mpr (.inl ?_)
        rw [longer, none, String.append_empty]
      · refine holdsPath_iff.mpr ?_
        rcases append_eq_append starts with ⟨below, here, -⟩ | ⟨left, here, -⟩
        · exact .inr ⟨below, by rw [longer, here, String.append_assoc]⟩
        · have lengths := congrArg textLength here
          rw [textLength_append, slash] at lengths
          by_cases none : end_ = ""
          · exact .inl (by rw [longer, none, String.append_empty])
          · have some : textLength end_ ≠ 0 := fun zero => none (textLength_eq_zero.mp zero)
            have last : left = "" := textLength_eq_zero.mp (by omega)
            exact .inr ⟨"", by rw [longer, here, last, String.append_empty, String.append_empty]⟩

theorem eq_of_holdsPath {directory other path : String} (holds : holdsPath directory path = true)
    (alsoHolds : holdsPath other path = true) (same : textLength other = textLength directory)
    : other = directory := by
  rcases holdsPath_iff.mp (holdsPath_of_length holds alsoHolds same.le) with one | ⟨rest, longer⟩
  · exact one.symm
  · have slash : textLength "/" = 1 := by decide
    rw [longer, textLength_append, textLength_append, slash] at same
    omega

variable {descriptors others : List WorkspacePackageDescriptor}

/-- The package of a path is the one with the longest directory that holds it. -/
theorem Collected.matchedPackage_eq_ok (distinct : Collected descriptors) {rawPath name : String}
    : matchedPackage descriptors rawPath = .ok name
      ↔ ∃ path, normalizeRepoRelativePath rawPath = some path
        ∧ ∃ desc ∈ descriptors, desc.name = name ∧ holdsPath desc.directory path = true
          ∧ ∀ other ∈ descriptors, holdsPath other.directory path = true →
              textLength other.directory ≤ textLength desc.directory := by
  let deeper (a b : WorkspacePackageDescriptor) : Prop :=
    textLength b.directory ≤ textLength a.directory
  have total : Std.Total deeper := ⟨fun a b => Nat.le_total _ _⟩
  have trans : IsTrans WorkspacePackageDescriptor deeper := ⟨fun _ _ _ first second =>
    Nat.le_trans second first⟩
  have sorted := List.pairwise_insertionSort deeper descriptors
  have listed (desc : WorkspacePackageDescriptor)
      : desc ∈ descriptors.insertionSort deeper ↔ desc ∈ descriptors :=
    List.mem_insertionSort _
  unfold matchedPackage
  cases normalizes : normalizeRepoRelativePath rawPath with
  | none => simp
  | some path =>
      simp only [Option.some.injEq, exists_eq_left']
      split
      next missing =>
        refine iff_of_false (by simp) ?_
        rintro ⟨desc, member, -, holds, -⟩
        simpa [holds] using List.find?_eq_none.mp missing desc ((listed desc).mpr member)
      next desc found =>
        rw [Except.ok.injEq]
        obtain ⟨holds, before, after, split, earlier⟩ := List.find?_eq_some_iff_append.mp found
        have deepest : ∀ other ∈ descriptors, holdsPath other.directory path = true →
            textLength other.directory ≤ textLength desc.directory := by
          intro other member holdsToo
          have place := (listed other).mpr member
          change other ∈ descriptors.insertionSort deeper at place
          rw [split, List.mem_append, List.mem_cons] at place
          rcases place with first | rfl | last
          · simpa [holdsToo] using earlier other first
          · exact Nat.le_refl _
          · rw [split] at sorted
            exact (List.pairwise_cons.mp (List.pairwise_append.mp sorted).2.1).1 other last
        have inside : desc ∈ descriptors := (listed desc).mp (List.mem_of_find?_eq_some found)
        constructor
        · rintro rfl
          exact ⟨desc, inside, rfl, holds, deepest⟩
        · rintro ⟨other, member, rfl, holdsToo, deepestToo⟩
          have lengths := Nat.le_antisymm (deepest other member holdsToo)
            (deepestToo desc inside holds)
          have one := eq_of_holdsPath holds holdsToo lengths
          exact congrArg _ (List.inj_on_of_nodup_map distinct.directories inside member one.symm)

/-- The seed owns every path. -/
theorem seedPackage_eq_ok {changedPaths : List String} {seed : String}
    : seedPackage descriptors changedPaths = .ok seed
      ↔ changedPaths ≠ []
        ∧ ∀ rawPath ∈ changedPaths, matchedPackage descriptors rawPath = .ok seed := by
  simp only [seedPackage, checked_bind_eq_ok, checked_mapM_eq_ok]
  constructor
  · rintro ⟨matched, matches_, single⟩
    have one : matched.eraseDups = [seed] := by
      split at single <;> simp_all
    have all : ∀ name ∈ matched, name = seed := by
      intro name member
      have kept := List.mem_eraseDups.mpr member
      simpa [one] using kept
    constructor
    · rintro rfl
      rw [List.forall₂_nil_left_iff.mp matches_] at one
      simp at one
    · intro rawPath member
      obtain ⟨place, inside, rfl⟩ := List.mem_iff_getElem.mp member
      have also : place < matched.length := by rwa [← matches_.length_eq]
      have found := matches_.get inside also
      rw [all _ (List.get_mem matched ⟨place, also⟩)] at found
      exact found
  · rintro ⟨some, all⟩
    refine ⟨List.replicate changedPaths.length seed, ?_, ?_⟩
    · exact List.forall₂_iff_get.mpr
        (by simpa using fun place inside => all _ (List.getElem_mem inside))
    · have length : changedPaths.length ≠ 0 := by simpa using some
      rw [eraseDups_replicate length]

end Owner

section Rewriting

variable {commandScopes : List (String × List String)} {narrowed : NarrowedScope}
  {others : List WorkspacePackageDescriptor}

/-- The packages are only looked up by their names. -/
theorem rewriteCommand_congr
    (same : descriptorNamed others = descriptorNamed narrowed.descriptors)
    (command : ValidationCommand) (role : CommandSemanticRole)
    : rewriteCommand { narrowed with descriptors := others } command role
      = rewriteCommand narrowed command role := by
  have bats : NarrowedScope.hasBatsInClosure { narrowed with descriptors := others }
      = narrowed.hasBatsInClosure := by
    simp only [NarrowedScope.hasBatsInClosure, same]
  have inScope (scopes : List String)
      : NarrowedScope.intersects { narrowed with descriptors := others } scopes
        = narrowed.intersects scopes := by
    simp only [NarrowedScope.intersects, isPathInScope, same]
  cases role with
  | bashTest =>
      simp only [rewriteCommand]
      rw [bats]
  | pathScoped scopes =>
      simp only [rewriteCommand]
      rw [inScope]
  | lint => simp only [rewriteCommand, same]
  | build => rfl
  | typecheck => rfl
  | test => rfl
  | boundaries => rfl

theorem rewriteCommands_congr
    (same : descriptorNamed others = descriptorNamed narrowed.descriptors)
    (commands : List ValidationCommand)
    : rewriteCommands commandScopes { narrowed with descriptors := others } commands
      = rewriteCommands commandScopes narrowed commands := by
  induction commands with
  | nil => rfl
  | cons command rest ih => simp only [rewriteCommands, ih, rewriteCommand_congr same]

theorem rewriteTiers_congr
    (same : descriptorNamed others = descriptorNamed narrowed.descriptors)
    (tiers : List (List String))
    : rewriteTiers commandScopes { narrowed with descriptors := others } tiers
      = rewriteTiers commandScopes narrowed tiers := by
  induction tiers with
  | nil => rfl
  | cons tier rest ih => simp only [rewriteTiers, ih, rewriteCommands_congr same]

end Rewriting

section Narrow

variable {localeCompare : String → String → Int} {input : PlanRevalidationInput}
  {descriptors others : List WorkspacePackageDescriptor} {seed : String}
  {commands : List ValidationCommand} {tiers : Option (List (List String))}

/-- What the commands of a narrow plan are rewritten for. -/
def narrowedScope (localeCompare : String → String → Int) (changedPaths : List String)
    (descriptors : List WorkspacePackageDescriptor) (seed : String)
    : NarrowedScope where
  seedPackage := seed
  narrowedPackages := narrowedPackages localeCompare descriptors (closureOf descriptors seed)
  descriptors
  changedPaths

/-- All checks of the planner pass, with the collected packages and the seed. -/
structure Narrows (localeCompare : String → String → Int) (input : PlanRevalidationInput)
    (descriptors : List WorkspacePackageDescriptor) (seed : String)
    (commands : List ValidationCommand) (tiers : Option (List (List String)))
    : Prop where
  admitted
    : input.isPrReady = false ∧ input.hasStepBaseline = true ∧ 1 < input.iterationIndex
      ∧ input.changedPaths ≠ []
  collected : collectDescriptors [] input.descriptors = .ok descriptors
  resolved : ∀ desc ∈ descriptors, ∀ dep ∈ desc.deps, (descriptorNamed descriptors dep).isSome
  acyclic : (visitedPackages descriptors).length = descriptors.length
  matched : seedPackage descriptors input.changedPaths = .ok seed
  eligible : seed ∉ ineligibleUpstreamPackages
  known : ∀ name ∈ closureOf descriptors seed, (descriptorNamed descriptors name).isSome
  rewritten
    : rewriteCommands input.commandScopes
        (narrowedScope localeCompare input.changedPaths descriptors seed) input.commands
      = .ok commands
  nonempty : commands ≠ []
  tiered
    : input.tiers.mapM (rewriteTiers input.commandScopes
        (narrowedScope localeCompare input.changedPaths descriptors seed))
      = .ok tiers

theorem narrowPlan_eq_ok {plan : RevalidationPlan}
    : narrowPlan localeCompare input = .ok plan
      ↔ ∃ descriptors seed commands tiers,
          Narrows localeCompare input descriptors seed commands tiers
          ∧ plan = .narrow seed
              (narrowedPackages localeCompare descriptors (closureOf descriptors seed))
              commands tiers := by
  simp only [narrowPlan, checked_ite_eq_ok, checked_bind_eq_ok, reduceCtorEq, and_false, false_or]
  constructor
  · rintro ⟨notReady, baseline, later, changed, descriptors, collected, resolved, acyclic, seed,
      matched, eligible, known, commands, rewritten, nonempty, tiers, tiered, same⟩
    refine ⟨descriptors, seed, commands, tiers, ?_, ?_⟩
    · exact {
        admitted :=
          ⟨by simpa using notReady, by simpa using baseline, by simpa using later, changed⟩
        collected
        resolved := by simpa [Option.isSome_iff_ne_none] using resolved
        acyclic := by simpa using acyclic
        matched
        eligible
        known := by simpa [Option.isSome_iff_ne_none] using known
        rewritten
        nonempty
        tiered
      }
    · simpa using same.symm
  · rintro ⟨descriptors, seed, commands, tiers, narrows, rfl⟩
    obtain ⟨notReady, baseline, later, changed⟩ := narrows.admitted
    refine ⟨by simpa using notReady, by simpa using baseline, by simpa using later, changed,
      descriptors, narrows.collected, ?_, by simpa using narrows.acyclic, seed, narrows.matched,
      narrows.eligible, ?_, commands, narrows.rewritten, narrows.nonempty, tiers, narrows.tiered,
      rfl⟩
    · simpa [Option.isSome_iff_ne_none] using narrows.resolved
    · simpa [Option.isSome_iff_ne_none] using narrows.known

/-- The collected packages of the input. -/
def collectedOf (descriptors : List WorkspacePackageDescriptor) : List WorkspacePackageDescriptor :=
  descriptors.filterMap (·.normalized)

theorem collectedOf_perm (same : descriptors.Perm others)
    : (collectedOf descriptors).Perm (collectedOf others) :=
  same.filterMap _

section Facts

variable (narrows : Narrows localeCompare input descriptors seed commands tiers)
include narrows

theorem Narrows.packages
    : (∀ desc ∈ input.descriptors, desc.normalized.isSome)
      ∧ descriptors = collectedOf input.descriptors ∧ Collected descriptors := by
  have empty : Collected [] := ⟨List.nodup_nil, List.nodup_nil⟩
  exact (collectDescriptors_eq_ok empty).mp narrows.collected

theorem Narrows.distinct : Collected descriptors :=
  narrows.packages.2.2

theorem Narrows.dependsOn : DependsOn descriptors = DependsOn input.descriptors := by
  obtain ⟨all, same, -⟩ := narrows.packages
  funext package other
  refine propext ⟨?_, ?_⟩
  · rintro ⟨desc, member, rfl, depends⟩
    rw [same] at member
    obtain ⟨raw, within, normalizes⟩ := List.mem_filterMap.mp member
    obtain ⟨-, normDir, -, -, rfl⟩ :=
      WorkspacePackageDescriptor.normalized_eq_some.mp normalizes
    exact ⟨raw, within, rfl, depends⟩
  · rintro ⟨raw, within, rfl, depends⟩
    obtain ⟨desc, normalizes⟩ := Option.isSome_iff_exists.mp (all raw within)
    have member : desc ∈ descriptors := same ▸ List.mem_filterMap.mpr ⟨raw, within, normalizes⟩
    obtain ⟨-, normDir, -, -, rfl⟩ :=
      WorkspacePackageDescriptor.normalized_eq_some.mp normalizes
    exact ⟨_, member, rfl, depends⟩

theorem Narrows.names
    : descriptors.map (·.name) ⊆ input.descriptors.map (·.name) := by
  obtain ⟨-, same, -⟩ := narrows.packages
  intro name member
  obtain ⟨desc, collected, rfl⟩ := List.mem_map.mp member
  rw [same] at collected
  obtain ⟨raw, within, normalizes⟩ := List.mem_filterMap.mp collected
  obtain ⟨-, normDir, -, -, rfl⟩ := WorkspacePackageDescriptor.normalized_eq_some.mp normalizes
  exact List.mem_map.mpr ⟨raw, within, rfl⟩

theorem Narrows.ownsPath {rawPath : String} (changed : rawPath ∈ input.changedPaths)
    : ∃ path, normalizeRepoRelativePath rawPath = some path
        ∧ OwnsPath input.descriptors seed path := by
  obtain ⟨all, same, distinct⟩ := narrows.packages
  have found := (seedPackage_eq_ok.mp narrows.matched).2 rawPath changed
  obtain ⟨path, normalizes, desc, member, rfl, holds, deepest⟩ :=
    distinct.matchedPackage_eq_ok.mp found
  refine ⟨path, normalizes, ?_⟩
  rw [same] at member
  obtain ⟨raw, within, collected⟩ := List.mem_filterMap.mp member
  obtain ⟨-, normDir, directory, -, rfl⟩ :=
    WorkspacePackageDescriptor.normalized_eq_some.mp collected
  refine ⟨raw, within, rfl, normDir, directory, holds,
    fun other listed around located holdsToo => ?_⟩
  obtain ⟨package, also⟩ := Option.isSome_iff_exists.mp (all other listed)
  obtain ⟨-, otherDir, otherwise, -, rfl⟩ :=
    WorkspacePackageDescriptor.normalized_eq_some.mp also
  obtain rfl : otherDir = around := Option.some.inj (otherwise.symm.trans located)
  have collectedToo : { other with directory := otherDir } ∈ descriptors := by
    rw [same]
    exact List.mem_filterMap.mpr ⟨other, listed, also⟩
  exact holdsPath_of_length holds holdsToo (deepest _ collectedToo holdsToo)

theorem Narrows.resolvedNames : Resolved descriptors := by
  intro name dep depends
  obtain ⟨desc, member, -, listed⟩ := narrows.distinct.mem_dependenciesOf.mp depends
  exact isSome_descriptorNamed.mp (narrows.resolved desc member dep (mem_deps.mpr listed))

theorem Narrows.ranked : Ranked (dependenciesOf descriptors) (isPackage descriptors) :=
  (narrows.distinct.length_visitedPackages narrows.resolvedNames).mp narrows.acyclic

theorem Narrows.named : seed ∈ descriptors.map (·.name) := by
  have start : seed ∈ closureOf descriptors seed := mem_search_of_mem List.mem_cons_self
  exact isSome_descriptorNamed.mp (narrows.known seed start)

/-- However the descriptors are listed, the plan is the same. -/
theorem Narrows.of_perm (same : input.descriptors.Perm others)
    (collation : Collation localeCompare (descriptors.map (·.name)))
    : Narrows localeCompare { input with descriptors := others }
        (collectedOf others) seed commands tiers
      ∧ narrowedPackages localeCompare (collectedOf others)
          (closureOf (collectedOf others) seed)
        = narrowedPackages localeCompare descriptors (closureOf descriptors seed) := by
  obtain ⟨all, collected, distinct⟩ := narrows.packages
  have alike : descriptors.Perm (collectedOf others) := collected ▸ collectedOf_perm same
  have lookup := distinct.descriptorNamed_of_perm alike
  have closures := closureOf_perm narrows.named alike
  have listed : narrowedPackages localeCompare (collectedOf others)
        (closureOf (collectedOf others) seed)
      = narrowedPackages localeCompare descriptors (closureOf descriptors seed) :=
    (isClosure_closureOf narrows.named).narrowedPackages_of_perm distinct alike closures collation
  have scope : narrowedScope localeCompare input.changedPaths (collectedOf others) seed
      = { narrowedScope localeCompare input.changedPaths descriptors seed with
          descriptors := collectedOf others } := by
    simp only [narrowedScope, listed]
  have found {rawPath name : String} (matched : matchedPackage descriptors rawPath = .ok name)
      : matchedPackage (collectedOf others) rawPath = .ok name := by
    rw [(distinct.of_perm alike).matchedPackage_eq_ok]
    simpa only [alike.mem_iff] using distinct.matchedPackage_eq_ok.mp matched
  have empty : Collected [] := ⟨List.nodup_nil, List.nodup_nil⟩
  have ranked : Ranked (dependenciesOf (collectedOf others)) (isPackage (collectedOf others)) := by
    rw [distinct.dependenciesOf_of_perm alike]
    refine narrows.ranked.mono fun name package => isPackage_eq_true.mpr ?_
    exact (alike.map _).mem_iff.mpr (isPackage_eq_true.mp package)
  have resolved : Resolved (collectedOf others) := by
    intro name dep depends
    rw [distinct.dependenciesOf_of_perm alike] at depends
    exact (alike.map _).mem_iff.mp (narrows.resolvedNames name dep depends)
  refine ⟨{
    admitted := narrows.admitted
    collected := (collectDescriptors_eq_ok empty).mpr
      ⟨fun desc member => all desc (same.mem_iff.mpr member), rfl, distinct.of_perm alike⟩
    resolved := ?_
    acyclic := ((distinct.of_perm alike).length_visitedPackages resolved).mpr ranked
    matched := ?_
    eligible := narrows.eligible
    known := ?_
    rewritten := ?_
    nonempty := narrows.nonempty
    tiered := ?_
  }, listed⟩
  · intro desc member dep depends
    rw [lookup]
    exact narrows.resolved desc (alike.mem_iff.mpr member) dep depends
  · obtain ⟨changed, owned⟩ := seedPackage_eq_ok.mp narrows.matched
    exact seedPackage_eq_ok.mpr ⟨changed, fun rawPath member => found (owned rawPath member)⟩
  · intro name member
    rw [lookup]
    exact narrows.known name (closures.mem_iff.mpr member)
  · rw [scope, rewriteCommands_congr lookup]
    exact narrows.rewritten
  · have tiersAlike : rewriteTiers input.commandScopes
          (narrowedScope localeCompare input.changedPaths (collectedOf others) seed)
        = rewriteTiers input.commandScopes
          (narrowedScope localeCompare input.changedPaths descriptors seed) := by
      funext tiers
      rw [scope, rewriteTiers_congr lookup]
    rw [tiersAlike]
    exact narrows.tiered

end Facts

theorem narrows_of_plan {narrowed : List String}
    (plans : planRevalidation localeCompare input = .narrow seed narrowed commands tiers)
    : ∃ descriptors, Narrows localeCompare input descriptors seed commands tiers
        ∧ narrowed = narrowedPackages localeCompare descriptors (closureOf descriptors seed) := by
  have planned : narrowPlan localeCompare input = .ok (.narrow seed narrowed commands tiers) := by
    unfold planRevalidation at plans
    split at plans
    next plan made => rw [made, plans]
    · contradiction
  obtain ⟨descriptors, _, _, _, narrows, same⟩ := narrowPlan_eq_ok.mp planned
  obtain ⟨rfl, rfl, rfl, rfl⟩ := by simpa using same
  exact ⟨descriptors, narrows, rfl⟩

theorem Narrows.mem_narrowed (narrows : Narrows localeCompare input descriptors seed commands tiers)
    {name : String}
    : name ∈ narrowedPackages localeCompare descriptors (closureOf descriptors seed)
      ↔ Relation.ReflTransGen (DependsOn input.descriptors) name seed := by
  rw [(isClosure_closureOf narrows.named).mem_narrowedPackages narrows.distinct narrows.ranked,
    mem_closureOf narrows.named, narrows.dependsOn]

/-- A narrow plan names the package that owns every changed path, and lists what depends on it:
all of it, nothing else, nothing twice, each package after those that it depends on. How the
descriptors are listed does not matter.
-/
theorem narrow_plan_covers_dependents {narrowed : List String}
    (plans : planRevalidation localeCompare input = .narrow seed narrowed commands tiers)
    : (∀ rawPath ∈ input.changedPaths, ∃ path, normalizeRepoRelativePath rawPath = some path
          ∧ OwnsPath input.descriptors seed path)
      ∧ (∀ name, name ∈ narrowed
          ↔ Relation.ReflTransGen (DependsOn input.descriptors) name seed)
      ∧ narrowed.Nodup
      ∧ (∀ name ∈ narrowed, ∀ dep ∈ narrowed, DependsOn input.descriptors name dep →
          narrowed.idxOf dep < narrowed.idxOf name)
      ∧ ∀ others, input.descriptors.Perm others →
          Collation localeCompare (input.descriptors.map (·.name)) →
            planRevalidation localeCompare { input with descriptors := others }
              = .narrow seed narrowed commands tiers := by
  obtain ⟨descriptors, narrows, rfl⟩ := narrows_of_plan plans
  have closure := isClosure_closureOf narrows.named
  have ordered : Ordered (dependenciesOf descriptors) (· ∈ closureOf descriptors seed) []
      (narrowedPackages localeCompare descriptors (closureOf descriptors seed)) :=
    closure.ordered narrows.distinct
  refine ⟨fun rawPath changed => narrows.ownsPath changed, fun name => narrows.mem_narrowed,
    ordered.nodup, ?_, ?_⟩
  · intro name within dep earlier depends
    rw [← narrows.dependsOn] at depends
    exact ordered.idxOf_lt within (narrows.distinct.mem_dependenciesOf.mpr depends)
      (ordered.fresh dep earlier).1 List.not_mem_nil
  · intro others permuted collation
    obtain ⟨again, listed⟩ :=
      narrows.of_perm permuted (collation.mono narrows.names)
    have made := narrowPlan_eq_ok.mpr ⟨_, _, _, _, again, rfl⟩
    rw [planRevalidation, made, listed]

/-- A change of one package out of two, listed with its dependent before it. -/
def revalidatedInput : PlanRevalidationInput where
  changedPaths := ["./packages/app/src/index.ts"]
  iterationIndex := 2
  hasStepBaseline := true
  descriptors := [
    {
      name := "@ai-sdlc/api"
      directory := "apps/api"
      workspaceDependencies := some ["@ai-sdlc/app"]
    },
    { name := "@ai-sdlc/app", directory := "packages/app" }
  ]
  commands := [.text "pnpm build", .tokens ["pnpm", "lint"]]

theorem narrow_plan_covers_dependents_app
    : (∀ rawPath ∈ revalidatedInput.changedPaths,
        ∃ path, normalizeRepoRelativePath rawPath = some path
          ∧ OwnsPath revalidatedInput.descriptors "@ai-sdlc/app" path)
      ∧ (∀ name, name ∈ ["@ai-sdlc/app", "@ai-sdlc/api"]
          ↔ Relation.ReflTransGen (DependsOn revalidatedInput.descriptors) name "@ai-sdlc/app")
      ∧ planRevalidation compareCodeUnits
            { revalidatedInput with descriptors := revalidatedInput.descriptors.reverse }
        = planRevalidation compareCodeUnits revalidatedInput := by
  have plans : planRevalidation compareCodeUnits revalidatedInput
      = .narrow "@ai-sdlc/app" ["@ai-sdlc/app", "@ai-sdlc/api"]
        [
          .text "pnpm --filter ...@ai-sdlc/app build",
          .tokens ["pnpm", "exec", "eslint", "packages/app", "apps/api", "--max-warnings=0"]
        ]
        none := by
    decide
  obtain ⟨owned, closure, -, -, permuted⟩ := narrow_plan_covers_dependents plans
  refine ⟨owned, closure, ?_⟩
  rw [permuted _ (List.reverse_perm _).symm (compareCodeUnits_collation (by decide)), plans]

end Narrow

end AiSdlc.Application
