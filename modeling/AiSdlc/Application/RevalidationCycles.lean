import AiSdlc.Application.RevalidationScope
import AiSdlc.Graph.Cycles

/-! When the planner of revalidations reports a cycle: its visits of the whole workspace come to
all packages exactly when no package depends on itself, directly or through others.
-/

namespace AiSdlc.Application

open AiSdlc.Js
open AiSdlc.Graph

variable {localeCompare : String → String → Int} {input : PlanRevalidationInput}
  {descriptors others : List WorkspacePackageDescriptor}

/-- The input asks for a revalidation that may be narrowed. -/
structure Narrowable (input : PlanRevalidationInput) : Prop where
  notReady : input.isPrReady = false
  baseline : input.hasStepBaseline = true
  later : 1 < input.iterationIndex
  changed : input.changedPaths ≠ []

/-- Each package has a safe name and a safe directory inside the repository, and shares neither
of them.
-/
structure Unambiguous (descriptors : List WorkspacePackageDescriptor) : Prop where
  names : ∀ desc ∈ descriptors, isSafeName desc.name = true
  directories : ∀ desc ∈ descriptors, ∃ directory,
    normalizeRepoRelativePath desc.directory = some directory
      ∧ isSafeDirectory directory = true
  distinctNames : (descriptors.map (·.name)).Nodup
  distinctDirectories
    : (descriptors.map fun desc => normalizeRepoRelativePath desc.directory).Nodup

/-- Every dependency is a package of the workspace. -/
def AllResolve (descriptors : List WorkspacePackageDescriptor) : Prop :=
  ∀ package other, DependsOn descriptors package other →
    other ∈ descriptors.map (·.name)

-----------------------------------------------------------------------------------------
-- Collected packages
-----------------------------------------------------------------------------------------

theorem Unambiguous.normalized (unambiguous : Unambiguous descriptors)
    {desc : WorkspacePackageDescriptor} (member : desc ∈ descriptors)
    : desc.normalized.isSome := by
  obtain ⟨directory, found, safe⟩ := unambiguous.directories desc member
  refine Option.isSome_iff_exists.mpr ⟨{ desc with directory }, ?_⟩
  exact WorkspacePackageDescriptor.normalized_eq_some.mpr
    ⟨unambiguous.names desc member, directory, found, safe, rfl⟩

section Normalized

variable (all : ∀ desc ∈ descriptors, desc.normalized.isSome)
include all

/-- Collecting keeps the names, by induction over the packages. -/
theorem names_collectedOf
    : (collectedOf descriptors).map (·.name) = descriptors.map (·.name) := by
  induction descriptors with
  | nil => rfl
  | cons desc rest ih =>
      obtain ⟨package, normalizes⟩ := Option.isSome_iff_exists.mp (all desc List.mem_cons_self)
      obtain ⟨-, directory, -, -, rfl⟩ :=
        WorkspacePackageDescriptor.normalized_eq_some.mp normalizes
      have later := ih fun other member => all other (List.mem_cons_of_mem _ member)
      rw [collectedOf, List.filterMap_cons_some normalizes, List.map_cons, List.map_cons]
      exact congrArg _ later

/-- Collecting normalizes the directories, by induction over the packages. -/
theorem directories_collectedOf
    : (collectedOf descriptors).map (some ·.directory)
      = descriptors.map fun desc => normalizeRepoRelativePath desc.directory := by
  induction descriptors with
  | nil => rfl
  | cons desc rest ih =>
      obtain ⟨package, normalizes⟩ := Option.isSome_iff_exists.mp (all desc List.mem_cons_self)
      obtain ⟨-, directory, found, -, rfl⟩ :=
        WorkspacePackageDescriptor.normalized_eq_some.mp normalizes
      have later := ih fun other member => all other (List.mem_cons_of_mem _ member)
      rw [collectedOf, List.filterMap_cons_some normalizes, List.map_cons, List.map_cons, found]
      exact congrArg _ later

theorem dependsOn_collectedOf {package other : String}
    : DependsOn (collectedOf descriptors) package other
      ↔ DependsOn descriptors package other := by
  constructor
  · intro depends
    obtain ⟨desc, member, rfl, listed⟩ := depends
    obtain ⟨raw, within, normalizes⟩ := List.mem_filterMap.mp member
    obtain ⟨-, directory, -, -, rfl⟩ :=
      WorkspacePackageDescriptor.normalized_eq_some.mp normalizes
    exact ⟨raw, within, rfl, listed⟩
  · intro depends
    obtain ⟨raw, within, rfl, listed⟩ := depends
    obtain ⟨desc, normalizes⟩ := Option.isSome_iff_exists.mp (all raw within)
    have member : desc ∈ collectedOf descriptors := List.mem_filterMap.mpr ⟨raw, within, normalizes⟩
    obtain ⟨-, directory, -, -, rfl⟩ :=
      WorkspacePackageDescriptor.normalized_eq_some.mp normalizes
    exact ⟨_, member, rfl, listed⟩

end Normalized

/-- The packages that are collected, exactly when they are unambiguous. -/
theorem collectDescriptors_iff
    : collectDescriptors [] descriptors = .ok others
      ↔ Unambiguous descriptors ∧ others = collectedOf descriptors := by
  have empty : Collected [] := ⟨List.nodup_nil, List.nodup_nil⟩
  rw [collectDescriptors_eq_ok empty, List.nil_append]
  constructor
  · intro collects
    obtain ⟨all, rfl, distinct⟩ := collects
    refine ⟨⟨?_, ?_, ?_, ?_⟩, rfl⟩
    · intro desc member
      obtain ⟨package, normalizes⟩ := Option.isSome_iff_exists.mp (all desc member)
      exact (WorkspacePackageDescriptor.normalized_eq_some.mp normalizes).1
    · intro desc member
      obtain ⟨package, normalizes⟩ := Option.isSome_iff_exists.mp (all desc member)
      obtain ⟨-, directory, found, safe, -⟩ :=
        WorkspacePackageDescriptor.normalized_eq_some.mp normalizes
      exact ⟨directory, found, safe⟩
    · rw [← names_collectedOf all]
      exact distinct.names
    · rw [← directories_collectedOf all]
      have once := distinct.directories.map (Option.some_injective String)
      rwa [List.map_map] at once
  · intro collects
    obtain ⟨unambiguous, rfl⟩ := collects
    have all : ∀ desc ∈ descriptors, desc.normalized.isSome :=
      fun _ member => unambiguous.normalized member
    refine ⟨all, rfl, ?_, ?_⟩
    · exact (names_collectedOf all).symm ▸ unambiguous.distinctNames
    · have once := unambiguous.distinctDirectories
      rw [← directories_collectedOf all] at once
      have mapped : (((collectedOf descriptors).map (·.directory)).map some).Nodup := by
        rw [List.map_map]
        exact once
      exact mapped.of_map _

-----------------------------------------------------------------------------------------
-- The report
-----------------------------------------------------------------------------------------

/-- All dependencies of the collected packages are looked up with success exactly when they
resolve.
-/
theorem resolves_collectedOf (all : ∀ desc ∈ descriptors, desc.normalized.isSome)
    : (collectedOf descriptors).any (fun desc => desc.deps.any fun dep =>
          (descriptorNamed (collectedOf descriptors) dep).isNone) = false
      ↔ AllResolve descriptors := by
  simp only [List.any_eq_false, Bool.not_eq_true, Option.isNone_eq_false_iff,
    isSome_descriptorNamed, names_collectedOf all, mem_deps]
  constructor
  · intro resolves package other depends
    obtain ⟨desc, member, -, listed⟩ := (dependsOn_collectedOf all).mpr depends
    exact resolves desc member other listed
  · intro resolves desc member dep listed
    exact resolves desc.name dep ((dependsOn_collectedOf all).mp ⟨desc, member, rfl, listed⟩)

/-- The visits miss a package exactly when the dependencies have a cycle. -/
theorem visits_collectedOf (unambiguous : Unambiguous descriptors)
    (resolves : AllResolve descriptors)
    : (visitedPackages (collectedOf descriptors)).length ≠ (collectedOf descriptors).length
      ↔ Cyclic (DependsOn descriptors) := by
  have all : ∀ desc ∈ descriptors, desc.normalized.isSome :=
    fun _ member => unambiguous.normalized member
  have distinct : Collected (collectedOf descriptors) := by
    have empty : Collected [] := ⟨List.nodup_nil, List.nodup_nil⟩
    exact ((collectDescriptors_eq_ok empty).mp
      (collectDescriptors_iff.mpr ⟨unambiguous, rfl⟩)).2.2
  have named {package other : String} (depends : DependsOn descriptors package other)
      : package ∈ (collectedOf descriptors).map (·.name)
        ∧ other ∈ (collectedOf descriptors).map (·.name) := by
    rw [names_collectedOf all]
    refine ⟨?_, resolves package other depends⟩
    obtain ⟨desc, member, rfl, -⟩ := depends
    exact List.mem_map_of_mem member
  have resolved : Resolved (collectedOf descriptors) := by
    intro package other depends
    have direct := (dependsOn_collectedOf all).mp (distinct.mem_dependenciesOf.mp depends)
    exact (named direct).2
  have edges (package other : String)
      : Depends (dependenciesOf (collectedOf descriptors)) (isPackage (collectedOf descriptors))
          package other
        ↔ DependsOn descriptors package other := by
    rw [Depends, distinct.mem_dependenciesOf, dependsOn_collectedOf all, isPackage_eq_true,
      isPackage_eq_true]
    constructor
    · exact fun edge => edge.2.1
    · exact fun depends => ⟨(named depends).1, depends, (named depends).2⟩
  rw [Ne, distinct.length_visitedPackages resolved,
    ranked_iff_not_cyclic fun name package => isPackage_eq_true.mp package, not_not]
  exact Cyclic.congr edges

theorem matchedPackage_ne_cyclic {rawPath : String}
    : matchedPackage descriptors rawPath ≠ .error .cyclicDependency := by
  unfold matchedPackage
  split
  · simp
  · dsimp only
    split <;> simp

theorem seedPackage_ne_cyclic {changedPaths : List String}
    : seedPackage descriptors changedPaths ≠ .error .cyclicDependency := by
  intro throws
  simp only [seedPackage, checked_bind_eq_error] at throws
  rcases throws with early | ⟨matched, -, late⟩
  · obtain ⟨rawPath, -, threw⟩ := throws_of_checked_mapM early
    exact matchedPackage_ne_cyclic threw
  · split at late <;> simp at late

theorem collectDescriptors_ne_cyclic {collected : List WorkspacePackageDescriptor}
    : collectDescriptors collected descriptors ≠ .error .cyclicDependency := by
  induction descriptors generalizing collected with
  | nil => simp [collectDescriptors]
  | cons desc rest ih =>
      unfold collectDescriptors
      split
      · simp
      · split
        · simp
        · simp [ih]

/-- The rewriting of the commands fails for unknown commands only, by induction over them. -/
theorem rewriteCommands_ne_cyclic {commandScopes : List (String × List String)}
    {narrowed : NarrowedScope} {commands : List ValidationCommand}
    : rewriteCommands commandScopes narrowed commands ≠ .error .cyclicDependency := by
  induction commands with
  | nil => simp [rewriteCommands]
  | cons command rest ih =>
      unfold rewriteCommands
      split
      · simp
      · intro throws
        simp only [checked_bind_eq_error, ih, false_or] at throws
        obtain ⟨rewritten, -, late⟩ := throws
        split at late <;> simp at late

theorem rewriteTiers_ne_cyclic {commandScopes : List (String × List String)}
    {narrowed : NarrowedScope} {tiers : List (List String)}
    : rewriteTiers commandScopes narrowed tiers ≠ .error .cyclicDependency := by
  induction tiers with
  | nil => simp [rewriteTiers]
  | cons tier rest ih =>
      unfold rewriteTiers
      simp [rewriteCommands_ne_cyclic, ih]

theorem rewriteAllTiers_ne_cyclic {commandScopes : List (String × List String)}
    {narrowed : NarrowedScope} {tiers : Option (List (List String))}
    : tiers.mapM (rewriteTiers commandScopes narrowed) ≠ .error .cyclicDependency := by
  cases tiers with
  | none => exact nofun
  | some tiers =>
      intro throws
      rw [Option.mapM_some] at throws
      cases rewritten : rewriteTiers commandScopes narrowed tiers with
      | ok lines =>
          rw [rewritten] at throws
          exact nomatch throws
      | error reason =>
          rw [rewritten] at throws
          obtain rfl : reason = .cyclicDependency := Except.error.inj throws
          exact rewriteTiers_ne_cyclic rewritten

/-- Only the check of the whole workspace finds a cycle. -/
theorem narrowPlan_eq_cyclic
    : narrowPlan localeCompare input = .error .cyclicDependency
      ↔ Narrowable input ∧ Unambiguous input.descriptors ∧ AllResolve input.descriptors
        ∧ (visitedPackages (collectedOf input.descriptors)).length
          ≠ (collectedOf input.descriptors).length := by
  simp only [narrowPlan, checked_ite_eq_error, checked_bind_eq_error, Except.error.injEq,
    reduceCtorEq, and_false, false_or, collectDescriptors_ne_cyclic, seedPackage_ne_cyclic,
    rewriteCommands_ne_cyclic, rewriteAllTiers_ne_cyclic, exists_const, and_true, or_false]
  constructor
  · intro reports
    obtain ⟨notReady, baseline, later, changed, collected, collects, resolves, misses⟩ := reports
    obtain ⟨unambiguous, rfl⟩ := collectDescriptors_iff.mp collects
    refine ⟨⟨by simpa using notReady, by simpa using baseline, by omega, changed⟩, unambiguous,
      ?_, misses⟩
    exact (resolves_collectedOf fun _ member => unambiguous.normalized member).mp
      (by simpa using resolves)
  · intro fails
    obtain ⟨narrowable, unambiguous, resolves, misses⟩ := fails
    refine ⟨by simp [narrowable.notReady], by simp [narrowable.baseline],
      by have later := narrowable.later; omega, narrowable.changed, _,
      collectDescriptors_iff.mpr ⟨unambiguous, rfl⟩, ?_, misses⟩
    rw [(resolves_collectedOf fun _ member => unambiguous.normalized member).mpr resolves]
    exact Bool.false_ne_true

/-- The plan reports why the full validation is needed. -/
def RevalidationPlan.Reports (plan : RevalidationPlan) (reason : FullValidationReason) : Prop :=
  ∃ commands tiers, plan = .full reason commands tiers

theorem reports_planRevalidation {reason : FullValidationReason}
    (noPlan : ∀ plan, narrowPlan localeCompare input = .ok plan → ¬ plan.Reports reason)
    : (planRevalidation localeCompare input).Reports reason
      ↔ narrowPlan localeCompare input = .error reason := by
  unfold planRevalidation
  cases planned : narrowPlan localeCompare input with
  | ok plan => exact iff_of_false (noPlan plan planned) (fun same => nomatch same)
  | error found =>
      constructor
      · intro reports
        obtain ⟨_, _, same⟩ := reports
        cases same
        rfl
      · intro same
        cases same
        exact ⟨_, _, rfl⟩

theorem Unambiguous.of_perm (unambiguous : Unambiguous descriptors)
    (same : descriptors.Perm others)
    : Unambiguous others :=
  {
    names := fun desc member => unambiguous.names desc (same.mem_iff.mpr member)
    directories := fun desc member => unambiguous.directories desc (same.mem_iff.mpr member)
    distinctNames := (same.map _).nodup_iff.mp unambiguous.distinctNames
    distinctDirectories := (same.map _).nodup_iff.mp unambiguous.distinctDirectories
  }

theorem dependsOn_perm (same : descriptors.Perm others)
    : DependsOn descriptors = DependsOn others := by
  funext package other
  exact propext (exists_congr fun desc => and_congr_left fun _ => same.mem_iff)

theorem AllResolve.of_perm (resolves : AllResolve descriptors) (same : descriptors.Perm others)
    : AllResolve others := by
  intro package other depends
  rw [← dependsOn_perm same] at depends
  exact (same.map _).mem_iff.mp (resolves package other depends)

/-- A cycle is reported exactly when the input passes the checks before and some package depends
on itself, directly or through others; the order of the descriptors does not matter, nor does the
seed.
-/
theorem reports_cycle_iff (localeCompare : String → String → Int) (input : PlanRevalidationInput)
    (resolves : AllResolve input.descriptors)
    : ((planRevalidation localeCompare input).Reports .cyclicDependency
        ↔ Narrowable input ∧ Unambiguous input.descriptors
          ∧ Cyclic (DependsOn input.descriptors))
      ∧ ∀ others, input.descriptors.Perm others →
          ((planRevalidation localeCompare { input with descriptors := others }).Reports
              .cyclicDependency
            ↔ (planRevalidation localeCompare input).Reports .cyclicDependency) := by
  have exact_ (other : PlanRevalidationInput) (resolves : AllResolve other.descriptors)
      : (planRevalidation localeCompare other).Reports .cyclicDependency
        ↔ Narrowable other ∧ Unambiguous other.descriptors
          ∧ Cyclic (DependsOn other.descriptors) := by
    rw [reports_planRevalidation, narrowPlan_eq_cyclic]
    · refine and_congr_right fun _ => and_congr_right fun unambiguous => ?_
      rw [visits_collectedOf unambiguous resolves]
      exact and_iff_right resolves
    · intro plan planned reports
      obtain ⟨_, _, _, _, _, rfl⟩ := narrowPlan_eq_ok.mp planned
      obtain ⟨_, _, same⟩ := reports
      exact nomatch same
  refine ⟨exact_ input resolves, fun others same => ?_⟩
  rw [exact_ _ (resolves.of_perm same), exact_ input resolves, dependsOn_perm same]
  refine and_congr ?_ (and_congr_left fun _ => ?_)
  · constructor
    · intro narrowable
      exact ⟨narrowable.notReady, narrowable.baseline, narrowable.later, narrowable.changed⟩
    · intro narrowable
      exact ⟨narrowable.notReady, narrowable.baseline, narrowable.later, narrowable.changed⟩
  · exact ⟨fun one => one.of_perm same.symm, fun one => one.of_perm same⟩

/-- Two packages of a workspace that depend on each other, beside one that depends on neither. -/
def cyclicPackages : List WorkspacePackageDescriptor :=
  [
    { name := "@ai-sdlc/web", directory := "packages/web", workspaceDependencies := none },
    {
      name := "@ai-sdlc/app"
      directory := "packages/app"
      workspaceDependencies := some ["@ai-sdlc/domain"]
    },
    {
      name := "@ai-sdlc/domain"
      directory := "packages/domain"
      workspaceDependencies := some ["@ai-sdlc/app"]
    }
  ]

/-- A change of one of them. -/
def cyclicInput (isPrReady : Bool) : PlanRevalidationInput where
  changedPaths := ["packages/app/src/index.ts"]
  iterationIndex := 2
  hasStepBaseline := true
  isPrReady
  descriptors := cyclicPackages
  commands := [.text "pnpm build"]

/-- What depends on something in this workspace. -/
theorem dependsOn_cyclicPackages {package other : String}
    : DependsOn cyclicPackages package other
      ↔ package = "@ai-sdlc/app" ∧ other = "@ai-sdlc/domain"
        ∨ package = "@ai-sdlc/domain" ∧ other = "@ai-sdlc/app" := by
  unfold DependsOn cyclicPackages
  simp [@eq_comm _ package]

theorem cyclicInput_resolves (isPrReady : Bool)
    : AllResolve (cyclicInput isPrReady).descriptors := by
  intro package other depends
  change other ∈ cyclicPackages.map (·.name)
  rcases dependsOn_cyclicPackages.mp depends with ⟨-, rfl⟩ | ⟨-, rfl⟩
  · decide
  · decide

theorem cyclicInput_cyclic (isPrReady : Bool)
    : Cyclic (DependsOn (cyclicInput isPrReady).descriptors) :=
  ⟨"@ai-sdlc/app", .tail (.single (dependsOn_cyclicPackages.mpr (.inl ⟨rfl, rfl⟩)))
    (dependsOn_cyclicPackages.mpr (.inr ⟨rfl, rfl⟩))⟩

theorem reports_cycle_iff_app
    : (planRevalidation compareCodeUnits (cyclicInput false)).Reports .cyclicDependency
      ∧ (planRevalidation compareCodeUnits
          { cyclicInput false with descriptors := cyclicPackages.reverse }).Reports
            .cyclicDependency := by
  have reports := reports_cycle_iff compareCodeUnits (cyclicInput false)
    (cyclicInput_resolves false)
  have cyclic : (planRevalidation compareCodeUnits (cyclicInput false)).Reports
      .cyclicDependency := by
    refine reports.1.mpr ⟨⟨rfl, rfl, by decide, by decide⟩, ?_, cyclicInput_cyclic false⟩
    refine ⟨by decide, ?_, by decide, by decide⟩
    intro desc member
    simp only [cyclicInput, cyclicPackages, List.mem_cons, List.not_mem_nil, or_false] at member
    rcases member with rfl | rfl | rfl
    · exact ⟨"packages/web", by decide, by decide +kernel⟩
    · exact ⟨"packages/app", by decide, by decide +kernel⟩
    · exact ⟨"packages/domain", by decide, by decide +kernel⟩
  exact ⟨cyclic, (reports.2 cyclicPackages.reverse (List.reverse_perm _).symm).mpr cyclic⟩

/-- Before a pull request is made ready, everything is validated, and the cycle is not looked
for.
-/
theorem pr_ready_hides_cycle
    : ¬∀ localeCompare input, AllResolve input.descriptors →
        ((planRevalidation localeCompare input).Reports .cyclicDependency
          ↔ Cyclic (DependsOn input.descriptors)) := by
  intro claim
  have reports := (claim compareCodeUnits (cyclicInput true)
    (cyclicInput_resolves true)).mpr (cyclicInput_cyclic true)
  obtain ⟨commands, tiers, plan⟩ := reports
  exact nomatch plan

end AiSdlc.Application
