import AiSdlc.Domain.Run
import AiSdlc.Domain.TaskPath
import AiSdlc.Sqlite.Table

/-! The steps of runs. A step is inserted, or revises the row with its run, phase and index; its
head and its revert counts are not taken back by a write without them.
-/

namespace AiSdlc.Sqlite

open AiSdlc.Js
open AiSdlc.Domain

/-- `steps`, keyed by id, and by the run, the phase and the index. -/
def stepSchema : Schema Step :=
  ⟨[fun step => some [.text step.id],
    fun step => some [.text step.runId, .text step.phaseId, .integer step.index]]⟩

abbrev StepTable := Table stepSchema

theorem stepSchema_keyed : stepSchema.KeyedBy Step.id := List.mem_cons_self

/-- A count under its path; of two counts under one path the larger one stays. -/
def addRevertCount (counts : List (String × Int)) (path : String) (count : Int)
    : List (String × Int) :=
  if counts.any (·.1 = path) then
    counts.map fun entry => if entry.1 = path then (path, max entry.2 count) else entry
  else
    counts ++ [(path, count)]

/-- `normalizeRevertCounts`, of the entries of an object of whole numbers. -/
def normalizeRevertCounts (raw : List (String × Int)) : List (String × Int) :=
  raw.foldl
    (fun result (key, value) =>
      let normKey := normalizeTaskPath key
      if normKey = "" || value < 0 then result else addRevertCount result normKey value)
    []

namespace StepRepository

/-- `rowToStep`: the revert counts of a row may be spelled otherwise than they are read. -/
def rowToStep (row : Step) : Step :=
  { row with revertCounts := normalizeRevertCounts row.revertCounts }

/-- The columns of the conflict target. -/
def sameIndex (first second : Step) : Bool :=
  first.runId = second.runId && first.phaseId = second.phaseId && first.index = second.index

/-- `DO UPDATE SET`: a stored head stays, and so do the revert counts where none are written. -/
def excluded (step stored : Step) : Step :=
  let revertCounts := normalizeRevertCounts step.revertCounts
  {
    stored with
    id := step.id
    title := step.title
    status := step.status
    startedAt := step.startedAt
    completedAt := step.completedAt
    initialPreStepHead := stored.initialPreStepHead <|> step.initialPreStepHead
    revertCounts := if revertCounts = [] then stored.revertCounts else revertCounts
  }

/-- `upsert`, which fails where the id belongs to another index. -/
def upsert (steps : StepTable) (step : Step) : Option StepTable :=
  if steps.rows.any (sameIndex step) then
    steps.update (sameIndex step) (excluded step)
  else
    steps.insert { step with revertCounts := normalizeRevertCounts step.revertCounts }

/-- `listForRun`: the steps of a run in some order. -/
def ListsForRun (steps : StepTable) (runId : String) (listed : List Step) : Prop :=
  listed.Perm ((steps.rows.filter (·.runId = runId)).map rowToStep)

theorem sameIndex_iff {first second : Step}
    : sameIndex first second = true
      ↔ first.runId = second.runId ∧ first.phaseId = second.phaseId
        ∧ first.index = second.index := by
  simp [sameIndex, and_assoc]

theorem eq_of_sameIndex {steps : StepTable} {first second : Step} (left : first ∈ steps.rows)
    (right : second ∈ steps.rows) (same : sameIndex first second = true)
    : first = second := by
  have isKey : (fun step : Step =>
      some [Value.text step.runId, .text step.phaseId, .integer step.index])
        ∈ stepSchema.uniqueKeys := by
    simp [stepSchema]
  obtain ⟨run, phase, index⟩ := sameIndex_iff.mp same
  exact Table.eq_of_key isKey left right rfl (by simp [run, phase, index])

section Upsert

variable {steps : StepTable} {step row : Step}

theorem upsert_of_stored (stored : row ∈ steps.rows) (same : sameIndex step row = true)
    (sameId : step.id = row.id)
    : ∃ next, upsert steps step = some next
        ∧ next.rows = updateRows (sameIndex step) (excluded step) steps.rows := by
  have target (other : Step) (member : other ∈ steps.rows) (apart : other ≠ row)
      : sameIndex step other = false := by
    cases hit : sameIndex step other with
    | false => rfl
    | true =>
        obtain ⟨run, phase, index⟩ := sameIndex_iff.mp same
        obtain ⟨otherRun, otherPhase, otherIndex⟩ := sameIndex_iff.mp hit
        refine absurd (eq_of_sameIndex member stored (sameIndex_iff.mpr ?_)) apart
        exact ⟨otherRun.symm.trans run, otherPhase.symm.trans phase, otherIndex.symm.trans index⟩
  have keeps : ∀ key ∈ stepSchema.uniqueKeys, key (excluded step row) = key row := by
    simp [stepSchema, excluded, sameId]
  have found : steps.rows.any (sameIndex step) = true := List.any_eq_true.mpr ⟨row, stored, same⟩
  rw [upsert, if_pos found]
  exact Table.update_of_row stored same target ⟨_, List.mem_cons_self, rfl⟩ keeps

end Upsert

/-- A row whose step was written back as it had been read. -/
def rewritten (row : Step) : Step :=
  excluded (rowToStep row) row

/-- The step of a row that is to start anew. -/
def pendingStep (row : Step) : Step :=
  { rowToStep row with startedAt := none, completedAt := none, status := .pending }

/-- The row itself, or one of the rows that writing its step leaves. -/
def IsWritten (row now : Step) : Prop :=
  now = row ∨ now = rewritten row ∨ now = excluded (pendingStep row) row

/-- What a write of the step leaves does not depend on the earlier writes of it. -/
theorem IsWritten.excluded_eq {row now step : Step} (written : IsWritten row now)
    (head : step.initialPreStepHead = row.initialPreStepHead)
    (counts : step.revertCounts = normalizeRevertCounts row.revertCounts)
    : excluded step now = excluded step row := by
  have same : (row.initialPreStepHead <|> row.initialPreStepHead) = row.initialPreStepHead := by
    cases row.initialPreStepHead <;> rfl
  by_cases none : normalizeRevertCounts (normalizeRevertCounts row.revertCounts) = []
  · rcases written with rfl | rfl | rfl <;>
      simp [rewritten, pendingStep, excluded, rowToStep, head, counts, none, same]
  · rcases written with rfl | rfl | rfl <;>
      simp [rewritten, pendingStep, excluded, rowToStep, head, counts, none, same]

theorem IsWritten.keys {row now : Step} (written : IsWritten row now)
    : now.id = row.id ∧ now.runId = row.runId ∧ now.phaseId = row.phaseId
      ∧ now.index = row.index := by
  rcases written with rfl | rfl | rfl <;>
    exact ⟨rfl, rfl, rfl, rfl⟩

/-- Writing the step of one row of a table whose rows have been written. -/
theorem upsert_written {steps now : StepTable} {current : Step → Step} {row step : Step}
    (rows : now.rows = steps.rows.map current)
    (written : ∀ other ∈ steps.rows, IsWritten other (current other))
    (stored : row ∈ steps.rows) (writes : step = rowToStep row ∨ step = pendingStep row)
    : ∃ next, upsert now step = some next
        ∧ next.rows = steps.rows.map fun other =>
            if other = row then excluded step row else current other := by
  have index : step.id = row.id ∧ sameIndex step row = true := by
    rcases writes with rfl | rfl <;>
      exact ⟨rfl, sameIndex_iff.mpr ⟨rfl, rfl, rfl⟩⟩
  have text : step.initialPreStepHead = row.initialPreStepHead
      ∧ step.revertCounts = normalizeRevertCounts row.revertCounts := by
    rcases writes with rfl | rfl <;> exact ⟨rfl, rfl⟩
  have selects (other : Step) (member : other ∈ steps.rows)
      : sameIndex step (current other) = true ↔ other = row := by
    obtain ⟨-, run, phase, idx⟩ := (written other member).keys
    have sameOther : sameIndex step (current other) = sameIndex step other := by
      simp [sameIndex, run, phase, idx]
    rw [sameOther]
    constructor
    · intro hit
      obtain ⟨stepRun, stepPhase, stepIdx⟩ := sameIndex_iff.mp hit
      obtain ⟨rowRun, rowPhase, rowIdx⟩ := sameIndex_iff.mp index.2
      refine eq_of_sameIndex member stored (sameIndex_iff.mpr ?_)
      exact ⟨stepRun.symm.trans rowRun, stepPhase.symm.trans rowPhase, stepIdx.symm.trans rowIdx⟩
    · rintro rfl
      exact index.2
  have present : current row ∈ now.rows := by
    rw [rows]
    exact List.mem_map.mpr ⟨row, stored, rfl⟩
  obtain ⟨next, updated, revised⟩ := upsert_of_stored present ((selects row stored).mpr rfl)
    (index.1.trans (written row stored).keys.1.symm)
  refine ⟨next, updated, revised.trans ?_⟩
  rw [rows, updateRows, List.map_map]
  refine List.map_congr_left fun other member => ?_
  by_cases here : other = row
  · subst here
    rw [Function.comp, if_pos ((selects other stored).mpr rfl), if_pos rfl]
    exact (written other stored).excluded_eq text.1 text.2
  · rw [Function.comp, if_neg fun hit => here ((selects other member).mp hit), if_neg here]

end StepRepository

end AiSdlc.Sqlite
