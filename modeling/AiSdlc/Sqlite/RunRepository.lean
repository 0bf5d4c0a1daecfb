import AiSdlc.Domain.Run
import AiSdlc.Sqlite.Table

/-! The runs: a run starts only when no other one is active for its issue, and a status is
changed by statements that guard it, or by ones that do not.
-/

namespace AiSdlc.Sqlite

open AiSdlc.Js
open AiSdlc.Domain

/-- `runs`, keyed by UUID, with unique display ids. -/
def runSchema : Schema Run :=
  ⟨[fun run => some [.text run.uuid], fun run => some [.text run.displayId]]⟩

abbrev RunTable := Table runSchema

theorem runSchema_keyed : runSchema.KeyedBy Run.uuid := List.mem_cons_self

/-- `SELECT * FROM runs WHERE uuid = ?`. -/
def RunTable.find (runs : RunTable) (uuid : String) : Option Run :=
  runs.findKey Run.uuid uuid

theorem RunTable.uuid_of_find {runs : RunTable} {uuid : String} {row : Run}
    (found : runs.find uuid = some row)
    : row.uuid = uuid :=
  Table.key_of_findKey found

/-- The fields to change; a field that may be cleared is changed to nothing. -/
structure RunRepositoryUpdatePatch where
  status : Option RunStatus := none
  currentPhase : Option (Option String) := none
  completedPhases : Option (List String) := none
  skippedPhases : Option (List String) := none
  completedAt : Option (Option Date) := none
  failureReason : Option (Option String) := none
  startCommitSha : Option String := none
  baseBranch : Option String := none
  executionPolicy : Option ExecutionPolicy := none
  pinnedRuntime : Option (Option PinnedRuntime) := none
  deriving DecidableEq, Repr

/-- `fields.length === 0`. -/
def RunRepositoryUpdatePatch.isEmpty (patch : RunRepositoryUpdatePatch) : Bool :=
  patch = {}

/-- The row with the changed fields. -/
def RunRepositoryUpdatePatch.patch (patch : RunRepositoryUpdatePatch) (run : Run) : Run :=
  {
    run with
    status := patch.status.getD run.status
    currentPhase := patch.currentPhase.getD run.currentPhase
    completedPhases := patch.completedPhases.getD run.completedPhases
    skippedPhases := patch.skippedPhases.getD run.skippedPhases
    completedAt := patch.completedAt.getD run.completedAt
    failureReason := patch.failureReason.getD run.failureReason
    startCommitSha := patch.startCommitSha <|> run.startCommitSha
    baseBranch := patch.baseBranch <|> run.baseBranch
    executionPolicy := patch.executionPolicy <|> run.executionPolicy
    pinnedRuntime := patch.pinnedRuntime.getD run.pinnedRuntime
  }

theorem RunRepositoryUpdatePatch.keepsKeys (patch : RunRepositoryUpdatePatch)
    : runSchema.KeepsKeys patch.patch := by
  simp [Schema.KeepsKeys, runSchema, RunRepositoryUpdatePatch.patch]

/-- An update without fields changes nothing. -/
theorem RunRepositoryUpdatePatch.patch_of_isEmpty {patch : RunRepositoryUpdatePatch}
    (empty : patch.isEmpty = true) (run : Run)
    : patch.patch run = run := by
  have without : patch = {} := by simpa [isEmpty] using empty
  rw [without]
  rfl

/-- What the status updates set, when the run ends. -/
structure RunStatusPatch where
  status : RunStatus
  completedAt : Date
  failureReason : Option String := none
  currentPhase : Option (Option String) := none
  deriving DecidableEq, Repr

/-- A run that keeps `insertIfNoActive` from inserting another one for its issue; the rows
of an unknown repository count for every one.
-/
def isActiveFor (run : Run) (repoId : RepositoryId) (issueNumber : Int) : Bool :=
  (run.repoId = repoId || run.repoId = "unknown") && run.issueNumber = issueNumber
  && !run.status.isTerminal

inductive RunError
  | active (repoId : RepositoryId) (issueNumber : Int)
  | constraint
  deriving DecidableEq, Repr

def RunError.message : RunError → String
  | active repoId issueNumber =>
      s!"An active run already exists for repository {repoId} issue {issueNumber}"
  | constraint => "UNIQUE constraint failed"

namespace RunRepository

/-- `insert`, with the execution policy that the repository gives to runs without one. -/
def insert (defaultExecutionPolicy : ExecutionPolicy) (runs : RunTable) (run : Run)
    : Except RunError RunTable :=
  let row := { run with executionPolicy := run.executionPolicy <|> defaultExecutionPolicy }
  match Table.insert runs row with
  | some next => .ok next
  | none => .error .constraint

def insertIfNoActive (defaultExecutionPolicy : ExecutionPolicy) (runs : RunTable) (run : Run)
    : Except RunError RunTable :=
  if runs.rows.any (isActiveFor · run.repoId run.issueNumber) then
    .error (.active run.repoId run.issueNumber)
  else
    insert defaultExecutionPolicy runs run

/-- `UPDATE runs … WHERE …`, and whether a row was selected. -/
def updateWhere (runs : RunTable) (patch : RunRepositoryUpdatePatch) (selected : Run → Bool)
    : Bool × RunTable :=
  (runs.rows.any selected, runs.revise selected patch.patch patch.keepsKeys)

/-- `atomicUpdateByUuid`: a patch without fields updates no row. -/
def atomicUpdateByUuid (runs : RunTable) (uuid : String) (patch : RunRepositoryUpdatePatch)
    (expectedStatus : RunStatus)
    : Bool × RunTable :=
  if patch.isEmpty then
    (false, runs)
  else
    updateWhere runs patch fun row => row.uuid = uuid && row.status = expectedStatus

/-- `update`, of a run in any status. -/
def update (runs : RunTable) (uuid : String) (patch : RunRepositoryUpdatePatch) : RunTable :=
  if patch.isEmpty then
    runs
  else
    (updateWhere runs patch fun row => row.uuid = uuid).2

/-- `findByUuid`, of a repository that may be bound to one of the registered ones. -/
def findByUuid (repoId : Option RepositoryId) (runs : RunTable) (uuid : String) : Option Run :=
  runs.rows.find? fun row => row.uuid = uuid && repoId.all (· = row.repoId)

/-- `updateStatusByIssueNumber`, which also clears or sets the reason; the repository may be
left out.
-/
def updateStatusByIssueNumber (runs : RunTable) (repoId : Option RepositoryId)
    (issueNumber : Int) (patch : RunStatusPatch)
    : Bool × RunTable :=
  let change : RunRepositoryUpdatePatch := {
    status := some patch.status
    completedAt := some (some patch.completedAt)
    failureReason := some patch.failureReason
  }
  updateWhere runs change fun row =>
    repoId.all (· = row.repoId) && row.issueNumber = issueNumber && !row.status.isTerminal

def updateStatusByUuid (runs : RunTable) (uuid : String) (patch : RunStatusPatch)
    : Bool × RunTable :=
  let change : RunRepositoryUpdatePatch := {
    status := some patch.status
    completedAt := some (some patch.completedAt)
    failureReason := patch.failureReason.map some
    currentPhase := patch.currentPhase
  }
  updateWhere runs change fun row => row.uuid = uuid && !row.status.isTerminal

/-- A run that `findByUuid` finds is a row with the UUID. -/
theorem findByUuid_eq_some {repoId : Option RepositoryId} {runs : RunTable} {uuid : String}
    {run : Run} (found : findByUuid repoId runs uuid = some run)
    : run ∈ runs.rows ∧ run.uuid = uuid := by
  have holds := List.find?_some found
  simp only [Bool.and_eq_true, decide_eq_true_eq] at holds
  exact ⟨List.mem_of_find?_eq_some found, holds.1⟩

section Updates

variable {runs next : RunTable} {patch : RunRepositoryUpdatePatch} {selected : Run → Bool}
  {uuid : String}

theorem mem_updateWhere {row : Run}
    : row ∈ (updateWhere runs patch selected).2.rows
      ↔ ∃ old ∈ runs.rows, (if selected old then patch.patch old else old) = row := by
  have revised : (updateWhere runs patch selected).2
      = runs.revise selected patch.patch patch.keepsKeys :=
    rfl
  rw [revised, Table.mem_revise]

theorem updateWhere_false (updated : updateWhere runs patch selected = (false, next))
    : next = runs := by
  obtain ⟨missed, rfl⟩ := Prod.mk.inj updated
  have same : updateRows selected patch.patch runs.rows = runs.rows :=
    updateRows_of_missed (by simpa using missed)
  obtain ⟨rows, unique⟩ := runs
  simp only [Table.revise, Table.mk.injEq]
  exact same

theorem updateWhere_true (fits : ∀ row, selected row = true → row.uuid = uuid)
    (updated : updateWhere runs patch selected = (true, next))
    : ∃ row, runs.find uuid = some row ∧ selected row = true
        ∧ ∀ id, next.find id = if id = uuid then some (patch.patch row) else runs.find id := by
  obtain ⟨hit, rfl⟩ := Prod.mk.inj updated
  obtain ⟨row, member, selects⟩ := List.any_eq_true.mp hit
  have found : runs.find uuid = some row :=
    fits row selects ▸ Table.findKey_of_mem runSchema_keyed member
  exact ⟨row, found, selects, Table.findKey_revise runSchema_keyed found fits selects⟩

/-- An update changes the run with its UUID, whatever the status is, and no other one. -/
theorem find_update (id : String)
    : (update runs uuid patch).find id
      = if id = uuid then (runs.find uuid).map patch.patch else runs.find id := by
  unfold update
  split
  · rename_i empty
    have same : patch.patch = fun run => run :=
      funext (RunRepositoryUpdatePatch.patch_of_isEmpty empty)
    rw [same, Option.map_id']
    split
    · rename_i here
      rw [here]
    · rfl
  · cases updated : updateWhere runs patch (fun row => row.uuid = uuid) with
    | mk hit next =>
      cases hit with
      | false =>
          have missed := (Prod.mk.inj updated).1
          have absent : runs.find uuid = none := by
            refine List.find?_eq_none.mpr fun row member => ?_
            exact List.any_eq_false.mp missed row member
          rw [updateWhere_false updated]
          split
          · rename_i here
            rw [here, absent]
            rfl
          · rfl
      | true =>
          have fits (row : Run) (selects : decide (row.uuid = uuid) = true) : row.uuid = uuid :=
            of_decide_eq_true selects
          obtain ⟨row, found, -, rows⟩ := updateWhere_true fits updated
          rw [rows, found]
          rfl

/-- A compare-and-set that fails leaves the table alone. -/
theorem atomicUpdateByUuid_false {expected : RunStatus}
    (updated : atomicUpdateByUuid runs uuid patch expected = (false, next))
    : next = runs := by
  unfold atomicUpdateByUuid at updated
  split at updated
  · exact (Prod.mk.inj updated).2.symm
  · exact updateWhere_false updated

/-- A compare-and-set that takes place found the run in the expected status, and changes its
row only.
-/
theorem atomicUpdateByUuid_true {expected : RunStatus}
    (updated : atomicUpdateByUuid runs uuid patch expected = (true, next))
    : ∃ row, runs.find uuid = some row ∧ row.status = expected
        ∧ ∀ id, next.find id = if id = uuid then some (patch.patch row) else runs.find id := by
  unfold atomicUpdateByUuid at updated
  split at updated
  · exact absurd (Prod.mk.inj updated).1 Bool.false_ne_true
  · have fits (row : Run)
        (selects : (decide (row.uuid = uuid) && decide (row.status = expected)) = true)
        : row.uuid = uuid := by
      simpa using (Bool.and_eq_true_iff.mp selects).1
    obtain ⟨row, found, selects, rows⟩ := updateWhere_true fits updated
    exact ⟨row, found, by simpa using (Bool.and_eq_true_iff.mp selects).2, rows⟩

theorem atomicUpdateByUuid_of_find {expected : RunStatus} {row : Run} {updated : Bool}
    (filled : patch.isEmpty = false) (found : runs.find uuid = some row)
    (expects : row.status = expected)
    (performed : atomicUpdateByUuid runs uuid patch expected = (updated, next))
    : updated = true := by
  rw [atomicUpdateByUuid, if_neg (by simp [filled])] at performed
  obtain ⟨selects, -⟩ := Prod.mk.inj performed
  rw [← selects, List.any_eq_true]
  exact ⟨row, Table.mem_of_findKey found, by simp [RunTable.uuid_of_find found, expects]⟩

/-- The rows that a compare-and-set leaves. -/
theorem rows_of_atomicUpdateByUuid {expected : RunStatus} {row : Run}
    (performed : atomicUpdateByUuid runs uuid patch expected = (true, next))
    (found : runs.find uuid = some row)
    : next.rows = runs.rows.map fun other =>
        if other.uuid = uuid then patch.patch row else other := by
  obtain ⟨stored, located, expects, -⟩ := atomicUpdateByUuid_true performed
  obtain rfl := Option.some.inj (found.symm.trans located)
  unfold atomicUpdateByUuid at performed
  split at performed
  · exact absurd (Prod.mk.inj performed).1 Bool.false_ne_true
  · obtain ⟨-, rfl⟩ := Prod.mk.inj performed
    refine List.map_congr_left fun other member => ?_
    by_cases here : other.uuid = uuid
    · have same : other = row := by
        have own := Table.findKey_of_mem runSchema_keyed member
        rw [here] at own
        exact Option.some.inj (own.symm.trans found)
      simp [same, RunTable.uuid_of_find found, expects]
    · simp [here]

/-- A compare-and-set leaves the other runs alone. -/
theorem atomicUpdateByUuid_other {expected : RunStatus} {updated : Bool} {id : String}
    (performed : atomicUpdateByUuid runs uuid patch expected = (updated, next))
    (other : id ≠ uuid)
    : next.find id = runs.find id := by
  cases updated with
  | false => rw [atomicUpdateByUuid_false performed]
  | true =>
      obtain ⟨row, -, -, rows⟩ := atomicUpdateByUuid_true performed
      rw [rows, if_neg other]

end Updates

end RunRepository

end AiSdlc.Sqlite
