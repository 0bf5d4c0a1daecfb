import Mathlib.Data.String.Basic
import AiSdlc.Domain.Run
import AiSdlc.Sqlite.Table

/-! The phases of runs. Inserting and updating a phase is one statement, which revises the row with
the same id where there is one.
-/

namespace AiSdlc.Sqlite

open AiSdlc.Js
open AiSdlc.Domain

/-- `phases`, keyed by id. -/
def phaseSchema : Schema Phase :=
  ⟨[fun phase => some [.text phase.id]]⟩

abbrev PhaseTable := Table phaseSchema

theorem phaseSchema_keyed : phaseSchema.KeyedBy Phase.id := List.mem_cons_self

namespace PhaseRepository

/-- `DO UPDATE SET`: the stored row keeps its run and its name. -/
def excluded (phase stored : Phase) : Phase :=
  {
    stored with
    status := phase.status
    attempt := phase.attempt
    startedAt := phase.startedAt
    completedAt := phase.completedAt
  }

theorem excluded_keepsKeys (phase : Phase) : phaseSchema.KeepsKeys (excluded phase) := by
  simp [Schema.KeepsKeys, phaseSchema, excluded]

def upsert (phases : PhaseTable) (phase : Phase) : PhaseTable :=
  match phases.insert phase with
  | some inserted => inserted
  | none => phases.revise (·.id = phase.id) (excluded phase) (excluded_keepsKeys phase)

/-- `started_at` as it is stored, with the empty text for null, which every text follows. -/
def startedAtText (phase : Phase) : String :=
  (phase.startedAt.map Date.toISOString).getD ""

/-- `listByRun`: the phases of the run by their start; phases that started at the same time come in
any order.
-/
structure ListsByRun (phases : PhaseTable) (runUuid : String) (listed : List Phase) : Prop where
  rows : listed.Perm (phases.rows.filter (·.runUuid = runUuid))
  ordered : listed.Pairwise fun first second => startedAtText first ≤ startedAtText second

theorem exists_listsByRun (phases : PhaseTable) (runUuid : String)
    : ∃ listed, ListsByRun phases runUuid listed := by
  let starts (first second : Phase) : Bool := startedAtText first ≤ startedAtText second
  have sorted := @List.pairwise_mergeSort Phase starts
    (fun first second third before after => by
      simp only [starts, decide_eq_true_eq] at before after ⊢
      exact le_trans before after)
    (fun first second => by
      simp only [starts, Bool.or_eq_true, decide_eq_true_eq]
      exact le_total _ _)
    (phases.rows.filter (·.runUuid = runUuid))
  exact ⟨_, List.mergeSort_perm _ starts, sorted.imp of_decide_eq_true⟩

section Upsert

variable {phases : PhaseTable} {phase row : Phase}

theorem rows_upsert_of_stored (stored : row ∈ phases.rows) (same : row.id = phase.id)
    : (upsert phases phase).rows
      = phases.rows.map fun other => if other = row then excluded phase row else other := by
  have taken : phases.insert phase = none := by
    cases inserted : phases.insert phase with
    | none => rfl
    | some next =>
        have free := (Table.insert_eq_some.mp inserted).1 row stored
        rw [phaseSchema_keyed.conflict_of_same same] at free
        contradiction
  rw [upsert, taken]
  refine List.map_congr_left fun other member => ?_
  by_cases here : other = row
  · simp [here, same]
  · have apart : other.id ≠ phase.id := by
      intro shared
      exact here (Table.eq_of_key phaseSchema_keyed member stored rfl (by simp [shared, same]))
    simp [here, apart]

theorem rows_upsert_of_free (free : ∀ other ∈ phases.rows, other.id ≠ phase.id)
    : (upsert phases phase).rows = phases.rows ++ [phase] := by
  have inserts : ∀ other ∈ phases.rows, phaseSchema.conflict other phase = false := by
    intro other member
    simpa [Schema.conflict, phaseSchema] using free other member
  rw [upsert, Table.insert, dif_pos inserts]

/-- Writing a stored row over itself changes nothing. -/
theorem upsert_self (stored : row ∈ phases.rows) : upsert phases row = phases := by
  refine Table.eq_of_rows ((rows_upsert_of_stored stored rfl).trans ?_)
  refine (List.map_congr_left fun other _ => ?_).trans (List.map_id phases.rows)
  by_cases here : other = row
  · simp [here, excluded]
  · simp [here]

/-- Writing a stored row again undoes a revision of it. -/
theorem upsert_upsert (stored : row ∈ phases.rows) (same : row.id = phase.id)
    : upsert (upsert phases phase) row = phases := by
  have revised := rows_upsert_of_stored stored same
  have member : excluded phase row ∈ (upsert phases phase).rows := by
    rw [revised]
    exact List.mem_map.mpr ⟨row, stored, if_pos rfl⟩
  have again : (upsert (upsert phases phase) row).rows
      = (upsert phases phase).rows.map
          fun other =>
            if other = excluded phase row then excluded row (excluded phase row) else other :=
    rows_upsert_of_stored member rfl
  refine Table.eq_of_rows (again.trans ?_)
  rw [revised, List.map_map]
  refine (List.map_congr_left fun other located => ?_).trans (List.map_id phases.rows)
  by_cases here : other = row
  · simp [here, excluded]
  · have apart : other ≠ excluded phase row := by
      rintro rfl
      exact here (Table.eq_of_key phaseSchema_keyed located stored rfl rfl)
    simp [here, apart]

end Upsert

end PhaseRepository

end AiSdlc.Sqlite
