import AiSdlc.Graph.DepthFirst
import AiSdlc.Js.TextOperations

/-! The manifest of a plan's tasks: its tasks are numbered from one on, and depend on each other
without a cycle.
-/

namespace AiSdlc.Application

open AiSdlc.Js
open AiSdlc.Graph

inductive TaskManifestVersion
  | v1
  | v2
  deriving DecidableEq, Repr

/-- An entry of a manifest, with what is only carried along. -/
structure TaskManifestEntry (Rest : Type) where
  n : Int
  title : String
  dependsOn : Option (List Int) := none
  rest : Rest
  deriving DecidableEq, Repr

structure TaskManifest (Rest : Type) where
  version : TaskManifestVersion
  taskCount : Int
  tasks : List (TaskManifestEntry Rest)
  deriving DecidableEq, Repr

/-- An issue of a schema. -/
structure SchemaIssue where
  path : List String
  message : String
  deriving DecidableEq, Repr

inductive TaskManifestError
  | notJson (message : String)
  | unknownVersion
  | invalidEntry
  | invalid (issues : List SchemaIssue)
  | countMismatch (taskCount : Int) (length : Nat)
  | notContiguous
  | duplicateId (id : Int)
  | unknownDependency (n depId : Int)
  | dependencyCycle
  deriving DecidableEq, Repr

/-- The message for an entry that the schemas check. -/
def invalidEntryMessage : String :=
  "manifest task entry must have a valid n (number) and non-empty title (string)"

def SchemaIssue.text (issue : SchemaIssue) : String :=
  let path := joinTexts "." issue.path
  s!"{path}: {issue.message}"

/-- The `error` of a failed result. -/
def TaskManifestError.text : TaskManifestError → String
  | notJson message => s!"manifest is not valid JSON: {message}"
  | unknownVersion => "manifest version must be 1"
  | invalidEntry => invalidEntryMessage
  | invalid issues =>
      let issues := joinTexts "; " (issues.map (·.text))
      s!"manifest validation failed: {issues}"
  | countMismatch taskCount length =>
      s!"task_count ({taskCount}) does not match tasks array length ({length})"
  | notContiguous => "task numbers are not contiguous"
  | duplicateId id => s!"duplicate task ID detected: {id}"
  | unknownDependency n depId => s!"task {n} depends on unknown task {depId}"
  | dependencyCycle => "manifest contains a dependency cycle"

namespace TaskManifest

variable {Rest : Type}

def ns (manifest : TaskManifest Rest) : List Int :=
  manifest.tasks.map (·.n)

def expectedNs (manifest : TaskManifest Rest) : List Int :=
  (List.range manifest.taskCount.toNat).map fun (index : Nat) => (index : Int) + 1

def isContiguous (manifest : TaskManifest Rest) : Bool :=
  manifest.ns.mergeSort (· ≤ ·) = manifest.expectedNs

/-- `adj.get(v) ?? []`, where the last entry for a number counts. -/
def adj (manifest : TaskManifest Rest) (v : Int) : List Int :=
  match manifest.version with
  | .v1 => []
  | .v2 => ((manifest.tasks.reverse.find? (·.n = v)).bind (·.dependsOn)).getD []

def hasDependencyCycle (manifest : TaskManifest Rest) : Bool :=
  findsCycle manifest.adj manifest.ns

/-- The first number that was seen before. -/
def duplicateId? (seen : List Int) : List Int → Option Int
  | [] => none
  | id :: rest => if id ∈ seen then some id else duplicateId? (id :: seen) rest

/-- The first dependency that no task has as its number, with the task that has it. -/
def unknownDependency? (manifest : TaskManifest Rest) : Option (Int × Int) :=
  manifest.tasks.findSome? fun task =>
    ((task.dependsOn.getD []).find? (· ∉ manifest.ns)).map fun depId => (task.n, depId)

/-- What is checked in version 2 only. -/
def dependencyError? (manifest : TaskManifest Rest) : Option TaskManifestError :=
  match duplicateId? [] manifest.ns with
  | some id => some (.duplicateId id)
  | none =>
      match manifest.unknownDependency? with
      | some (n, depId) => some (.unknownDependency n depId)
      | none => if manifest.hasDependencyCycle then some .dependencyCycle else none

/-- The tasks in the order of their numbers. -/
def sorted (manifest : TaskManifest Rest) : TaskManifest Rest :=
  { manifest with tasks := manifest.tasks.mergeSort fun a b => a.n ≤ b.n }

/-- The checks of a manifest that its schema accepts. -/
def check (manifest : TaskManifest Rest) : Except TaskManifestError (TaskManifest Rest) :=
  if manifest.taskCount ≠ manifest.tasks.length then
    .error (.countMismatch manifest.taskCount manifest.tasks.length)
  else if !manifest.isContiguous then .error .notContiguous
  else
    match manifest.version, manifest.dependencyError? with
    | .v2, some error => .error error
    | _, _ => .ok manifest.sorted

/-- A task depends on another one. -/
def DependsOn (manifest : TaskManifest Rest) (n depId : Int) : Prop :=
  manifest.version = .v2
  ∧ ∃ task ∈ manifest.tasks, task.n = n ∧ depId ∈ task.dependsOn.getD []

end TaskManifest

section Parse

variable {Value Rest : Type} (parseAgentResultJson : String → Except String Value)
  (version? : Value → Option TaskManifestVersion)
  (safeParse : TaskManifestVersion → Value → Except (List SchemaIssue) (TaskManifest Rest))

def parseTaskManifest (json : String) : Except TaskManifestError (TaskManifest Rest) :=
  match parseAgentResultJson json with
  | .error message => .error (.notJson message)
  | .ok parsed =>
      match version? parsed with
      | none => .error .unknownVersion
      | some version =>
          match safeParse version parsed with
          | .error issues =>
              if issues.any (·.message = invalidEntryMessage) then .error .invalidEntry
              else .error (.invalid issues)
          | .ok manifest => manifest.check

/-- The manifest in a text, as the schema of its version gives it. -/
def manifestIn? (json : String) : Option (TaskManifest Rest) := do
  let parsed ← (parseAgentResultJson json).toOption
  let version ← version? parsed
  (safeParse version parsed).toOption

end Parse

namespace TaskManifest

section Checks

variable {Rest : Type} {manifest result : TaskManifest Rest}

theorem expectedNs_sorted : manifest.expectedNs.Pairwise (· ≤ ·) := by
  refine List.pairwise_map.mpr (List.pairwise_lt_range.imp fun {first second} before => ?_)
  omega

theorem expectedNs_nodup : manifest.expectedNs.Nodup := by
  refine List.nodup_range.map fun (first second : Nat) same => ?_
  have shifted : (first : Int) + 1 = (second : Int) + 1 := same
  omega

theorem isContiguous_iff : manifest.isContiguous = true ↔ manifest.ns.Perm manifest.expectedNs := by
  have arranged := List.mergeSort_perm manifest.ns (· ≤ ·)
  rw [isContiguous, decide_eq_true_eq]
  constructor
  · intro same
    rw [← same]
    exact arranged.symm
  · intro same
    have order := @List.pairwise_mergeSort Int (· ≤ ·)
      (by simpa using fun first second third => @Int.le_trans first second third)
      (by simpa using Int.le_total) manifest.ns
    refine (arranged.trans same).eq_of_pairwise (fun _ _ _ _ => Int.le_antisymm) ?_
      expectedNs_sorted
    simpa using order

theorem ns_sorted : manifest.sorted.ns = manifest.ns.mergeSort (· ≤ ·) :=
  List.map_mergeSort fun _ _ _ _ => rfl

theorem dependsOn_sorted : manifest.sorted.DependsOn = manifest.DependsOn := by
  funext n depId
  have same := List.mergeSort_perm manifest.tasks fun a b => a.n ≤ b.n
  simp only [DependsOn, sorted, same.mem_iff]

/-- Distinct numbers are not found twice, by induction over them. -/
theorem duplicateId?_eq_none {seen ids : List Int} (distinct : (seen ++ ids).Nodup)
    : duplicateId? seen ids = none := by
  induction ids generalizing seen with
  | nil => rfl
  | cons id rest ih =>
      have moved : (id :: seen ++ rest).Nodup := (List.perm_middle.nodup_iff).mp distinct
      have fresh : id ∉ seen := fun before =>
        (List.nodup_cons.mp moved).1 (List.mem_append_left _ before)
      rw [duplicateId?, if_neg fresh]
      exact ih moved

theorem unknownDependency?_eq_none
    : manifest.unknownDependency? = none
      ↔ ∀ task ∈ manifest.tasks, ∀ depId ∈ task.dependsOn.getD [], depId ∈ manifest.ns := by
  simp [unknownDependency?, List.findSome?_eq_none_iff]

/-- Under distinct numbers, the edges of the search are the dependencies. -/
theorem mem_adj (distinct : manifest.ns.Nodup) {n depId : Int}
    : depId ∈ manifest.adj n ↔ manifest.DependsOn n depId := by
  unfold adj DependsOn
  cases version : manifest.version with
  | v1 => simp
  | v2 =>
      simp only [true_and]
      constructor
      · intro depends
        cases found : manifest.tasks.reverse.find? (·.n = n) with
        | none => simp [found] at depends
        | some task =>
            have member := List.mem_reverse.mp (List.mem_of_find?_eq_some found)
            have numbered : task.n = n := by simpa using List.find?_some found
            exact ⟨task, member, numbered, by simpa [found] using depends⟩
      · intro depends
        obtain ⟨task, member, rfl, listed⟩ := depends
        obtain ⟨other, found⟩ : ∃ other, manifest.tasks.reverse.find? (·.n = task.n) = some other :=
          Option.isSome_iff_exists.mp
            (List.find?_isSome.mpr ⟨task, List.mem_reverse.mpr member, by simp⟩)
        have numbered : other.n = task.n := by simpa using List.find?_some found
        have there := List.mem_reverse.mp (List.mem_of_find?_eq_some found)
        obtain rfl := List.inj_on_of_nodup_map distinct there member numbered
        simpa [found] using listed

theorem hasDependencyCycle_iff (distinct : manifest.ns.Nodup)
    (known : ∀ n depId, manifest.DependsOn n depId → depId ∈ manifest.ns)
    : manifest.hasDependencyCycle = true ↔ Cyclic manifest.DependsOn := by
  refine (findsCycle_iff ?_ ?_).trans (Cyclic.congr fun n depId => mem_adj distinct)
  · intro n _ depId depends
    exact known n depId ((mem_adj distinct).mp depends)
  · intro n leads
    obtain ⟨depId, depends⟩ := List.exists_mem_of_ne_nil _ leads
    obtain ⟨-, task, member, rfl, -⟩ := (mem_adj distinct).mp depends
    exact List.mem_map_of_mem member

/-- The tasks are counted and numbered as they have to be, and depend on tasks only. -/
structure WellNumbered (manifest : TaskManifest Rest) : Prop where
  counted : manifest.taskCount = manifest.tasks.length
  numbered : manifest.ns.Perm manifest.expectedNs
  known : ∀ n depId, manifest.DependsOn n depId → depId ∈ manifest.ns

theorem WellNumbered.distinct (numbered : manifest.ns.Perm manifest.expectedNs)
    : manifest.ns.Nodup :=
  numbered.nodup_iff.mpr expectedNs_nodup

theorem known_iff (second : manifest.version = .v2)
    : manifest.unknownDependency? = none
      ↔ ∀ n depId, manifest.DependsOn n depId → depId ∈ manifest.ns := by
  rw [unknownDependency?_eq_none]
  constructor
  · intro known n depId depends
    obtain ⟨-, task, member, -, listed⟩ := depends
    exact known task member depId listed
  · intro known task member depId listed
    exact known task.n depId ⟨second, task, member, rfl, listed⟩

/-- What is found in contiguous numbers of version 2: nothing, an unknown dependency or a cycle.
-/
theorem dependencyError?_spec (numbered : manifest.ns.Perm manifest.expectedNs)
    (second : manifest.version = .v2)
    : (manifest.dependencyError? = none
        ↔ (∀ n depId, manifest.DependsOn n depId → depId ∈ manifest.ns)
          ∧ ¬ Cyclic manifest.DependsOn)
      ∧ (manifest.dependencyError? = some .dependencyCycle
        ↔ (∀ n depId, manifest.DependsOn n depId → depId ∈ manifest.ns)
          ∧ Cyclic manifest.DependsOn) := by
  have distinct := WellNumbered.distinct numbered
  have once : duplicateId? [] manifest.ns = none := duplicateId?_eq_none distinct
  rw [dependencyError?, once]
  cases unknown : manifest.unknownDependency? with
  | some pair =>
      have missing : ¬ ∀ n depId, manifest.DependsOn n depId → depId ∈ manifest.ns := by
        rw [← known_iff second, unknown]
        exact nofun
      exact ⟨iff_of_false nofun fun both => missing both.1,
        iff_of_false nofun fun both => missing both.1⟩
  | none =>
      have known := (known_iff second).mp unknown
      have cycles := hasDependencyCycle_iff distinct known
      rw [← cycles]
      cases manifest.hasDependencyCycle <;> simpa using known

theorem no_dependsOn (first : manifest.version = .v1) {n depId : Int}
    : ¬ manifest.DependsOn n depId := by
  intro depends
  exact nomatch first.symm.trans depends.1

theorem not_cyclic_of_v1 (first : manifest.version = .v1) : ¬ Cyclic manifest.DependsOn := by
  intro cyclic
  obtain ⟨n, path⟩ := cyclic
  obtain ⟨depId, depends, -⟩ := Relation.TransGen.head'_iff.mp path
  exact no_dependsOn first depends

/-- What the checks of a manifest come to. -/
theorem check_spec
    : (manifest.check = .ok result
        ↔ manifest.WellNumbered ∧ ¬ Cyclic manifest.DependsOn ∧ result = manifest.sorted)
      ∧ (manifest.check = .error .dependencyCycle
        ↔ manifest.WellNumbered ∧ Cyclic manifest.DependsOn) := by
  unfold check
  by_cases counted : manifest.taskCount = manifest.tasks.length
  · rw [if_neg (not_not.mpr counted)]
    by_cases contiguous : manifest.isContiguous = true
    · have numbered := isContiguous_iff.mp contiguous
      rw [contiguous]
      cases version : manifest.version with
      | v1 =>
          have acyclic := not_cyclic_of_v1 version
          have well : manifest.WellNumbered :=
            ⟨counted, numbered, fun _ _ depends => absurd depends (no_dependsOn version)⟩
          constructor
          · simp [well, acyclic, eq_comm]
          · simp [acyclic]
      | v2 =>
          obtain ⟨none_iff, cycle_iff⟩ := dependencyError?_spec numbered version
          have well : manifest.WellNumbered
              ↔ ∀ n depId, manifest.DependsOn n depId → depId ∈ manifest.ns :=
            ⟨fun all => all.known, fun known => ⟨counted, numbered, known⟩⟩
          rw [well]
          cases found : manifest.dependencyError? with
          | none =>
              obtain ⟨known, acyclic⟩ := none_iff.mp found
              constructor
              · simp only [Bool.not_true, Bool.false_eq_true, if_false, Except.ok.injEq, acyclic,
                  not_false_eq_true, true_and]
                exact ⟨fun same => ⟨known, same.symm⟩, fun all => all.2.symm⟩
              · simp [acyclic]
          | some error =>
              rw [found] at none_iff cycle_iff
              constructor
              · refine iff_of_false (by simp) fun all => ?_
                exact nomatch none_iff.mpr ⟨all.1, all.2.1⟩
              · rw [← cycle_iff]
                simp
    · have wrong : ¬ manifest.WellNumbered :=
        fun well => contiguous (isContiguous_iff.mpr well.numbered)
      constructor
      · simp [contiguous, wrong]
      · simp [contiguous, wrong]
  · rw [if_pos counted]
    exact ⟨iff_of_false nofun fun all => counted all.1.counted,
      iff_of_false nofun fun all => counted all.1.counted⟩

end Checks

end TaskManifest

section Parsing

variable {Value Rest : Type} {parseAgentResultJson : String → Except String Value}
  {version? : Value → Option TaskManifestVersion}
  {safeParse : TaskManifestVersion → Value → Except (List SchemaIssue) (TaskManifest Rest)}
  {json : String}

theorem parseTaskManifest_spec
    : (∀ result, parseTaskManifest parseAgentResultJson version? safeParse json = .ok result
        ↔ ∃ manifest, manifestIn? parseAgentResultJson version? safeParse json = some manifest
          ∧ manifest.check = .ok result)
      ∧ (parseTaskManifest parseAgentResultJson version? safeParse json
          = .error .dependencyCycle
        ↔ ∃ manifest, manifestIn? parseAgentResultJson version? safeParse json = some manifest
          ∧ manifest.check = .error .dependencyCycle) := by
  unfold parseTaskManifest manifestIn?
  cases parseAgentResultJson json with
  | error message => simp [Except.toOption]
  | ok parsed =>
      cases version : version? parsed with
      | none => simp [Except.toOption, version]
      | some number =>
          cases accepted : safeParse number parsed with
          | error issues =>
              simp only [Except.toOption, version, accepted, Option.bind_eq_bind,
                Option.bind_some, reduceCtorEq, false_and, exists_false, iff_false]
              split <;> simp
          | ok manifest => simp [Except.toOption, version, accepted]

end Parsing

/-- A manifest that is accepted has its tasks numbered from one on, in this order, and they depend
on each other without a cycle; the cycle error is raised exactly for a well-numbered manifest that
has a cycle.
-/
theorem parseTaskManifest_iff {Value Rest : Type}
    (parseAgentResultJson : String → Except String Value)
    (version? : Value → Option TaskManifestVersion)
    (safeParse : TaskManifestVersion → Value → Except (List SchemaIssue) (TaskManifest Rest))
    (json : String)
    : (∀ result, parseTaskManifest parseAgentResultJson version? safeParse json = .ok result →
        result.ns = result.expectedNs
        ∧ (∀ n depId, result.DependsOn n depId → depId ∈ result.ns)
        ∧ ¬ Cyclic result.DependsOn)
      ∧ (parseTaskManifest parseAgentResultJson version? safeParse json
          = .error .dependencyCycle
        ↔ ∃ manifest, manifestIn? parseAgentResultJson version? safeParse json = some manifest
          ∧ manifest.WellNumbered ∧ Cyclic manifest.DependsOn) := by
  obtain ⟨accepted, cycles⟩ := @parseTaskManifest_spec _ _ parseAgentResultJson version?
    safeParse json
  constructor
  · intro result parsed
    obtain ⟨manifest, -, checked⟩ := (accepted result).mp parsed
    obtain ⟨well, acyclic, rfl⟩ := TaskManifest.check_spec.1.mp checked
    rw [TaskManifest.dependsOn_sorted]
    have order : manifest.sorted.ns = manifest.expectedNs := by
      rw [TaskManifest.ns_sorted]
      exact decide_eq_true_eq.mp (TaskManifest.isContiguous_iff.mpr well.numbered)
    refine ⟨order, fun n depId depends => ?_, acyclic⟩
    rw [order]
    exact well.numbered.mem_iff.mp (well.known n depId depends)
  · rw [cycles]
    exact exists_congr fun manifest => and_congr_right fun _ =>
      (@TaskManifest.check_spec Rest manifest manifest).2

/-- The text of a manifest that counts two tasks, but has one, which depends on itself. -/
def selfDependentJson : String :=
  "\x7b\"version\":2,\"task_count\":2,\"tasks\":"
  ++ "[\x7b\"n\":1,\"title\":\"Parse the plan\",\"depends_on\":[1]\x7d]\x7d"

/-- The manifest in this text. -/
def selfDependentManifest : TaskManifest Unit where
  version := .v2
  taskCount := 2
  tasks := [{ n := 1, title := "Parse the plan", dependsOn := some [1], rest := () }]

/-- A manifest whose tasks are miscounted is refused before its dependencies are looked at. -/
theorem miscount_hides_cycle
    : ¬∀ (Value Rest : Type) (parseAgentResultJson : String → Except String Value)
        (version? : Value → Option TaskManifestVersion)
        (safeParse : TaskManifestVersion → Value
          → Except (List SchemaIssue) (TaskManifest Rest))
        (json : String) (manifest : TaskManifest Rest),
        manifestIn? parseAgentResultJson version? safeParse json = some manifest →
        (parseTaskManifest parseAgentResultJson version? safeParse json
            = .error .dependencyCycle
          ↔ Cyclic manifest.DependsOn) := by
  intro claim
  have cyclic : Cyclic selfDependentManifest.DependsOn :=
    ⟨1, .single ⟨rfl, _, List.mem_singleton.mpr rfl, rfl, List.mem_singleton.mpr rfl⟩⟩
  have raised := (claim Unit Unit (fun _ => .ok ()) (fun _ => some .v2)
    (fun _ _ => .ok selfDependentManifest) selfDependentJson selfDependentManifest rfl).mpr cyclic
  exact nomatch raised

end AiSdlc.Application
