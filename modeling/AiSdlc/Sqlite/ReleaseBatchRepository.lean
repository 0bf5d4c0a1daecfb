import AiSdlc.Domain.ReleaseBatch
import AiSdlc.Sqlite.Table

/-! `ReleaseBatchRepository`: release batches and their items as rows of two tables.
Optional fields are null columns, and dates are their ISO texts.
-/

namespace AiSdlc.Sqlite

open AiSdlc.Js
open AiSdlc.Domain

structure ReleaseBatchRow where
  id : String
  repoId : String
  sourceBranch : String
  sourceStartSha : String
  releaseBranch : String
  status : String
  currentPosition : Int
  candidateSha : Option String
  approvedCandidateSha : Option String
  candidateTreeSha : Option String
  promotionCommitSha : Option String
  promotionPrNumber : Option Int
  blockedReason : Option String
  createdAt : String
  completedAt : Option String
  deriving DecidableEq, Repr

structure ReleaseBatchItemRow where
  releaseBatchId : String
  position : Int
  issueNumber : Int
  status : String
  runUuid : Option String
  prNumber : Option Int
  baseSha : Option String
  mergedCommitSha : Option String
  blockedReason : Option String
  startedAt : Option String
  completedAt : Option String
  deriving DecidableEq, Repr

/-- The primary key of `release_batches`. -/
def releaseBatchSchema : Schema ReleaseBatchRow :=
  ⟨[fun row => some [.text row.id]]⟩

/-- The primary key of `release_batch_items` and its unique indexes on the issue within a
batch and on the run, where there is one.
-/
def releaseBatchItemSchema : Schema ReleaseBatchItemRow :=
  ⟨[
    fun row => some [.text row.releaseBatchId, .integer row.position],
    fun row => some [.text row.releaseBatchId, .integer row.issueNumber],
    fun row => row.runUuid.map fun uuid => [.text uuid]
  ]⟩

/-- The two tables; every item row references the row of its batch. -/
structure Db where
  releaseBatches : Table releaseBatchSchema
  releaseBatchItems : Table releaseBatchItemSchema
  references : ∀ item ∈ releaseBatchItems.rows,
    ∃ batch ∈ releaseBatches.rows, batch.id = item.releaseBatchId

def Db.empty : Db :=
  {
    releaseBatches := .empty
    releaseBatchItems := .empty
    references := by simp [Table.empty]
  }

/-- What the repository throws: a failed constraint, a missing batch, a broken rule of the
batch, or a stored text that is no value of its type.
-/
inductive StoreError
  | constraint
  | notFound (message : String)
  | state (error : ReleaseBatchError)
  | unreadable
  deriving DecidableEq, Repr

abbrev Stored := Except StoreError

/-- A broken rule of the batch is thrown as it is. -/
def Stored.ofChecked {α : Type} : Checked α → Stored α
  | .ok value => .ok value
  | .error error => .error (.state error)

def statusOfText (text : String) : Option ReleaseBatchStatus :=
  [.queued, .building, .blocked, .awaitingManualTest, .testFailed, .approved, .promoting,
    .completed, .cancelled].find? (fun status : ReleaseBatchStatus => status.text = text)

def itemStatusOfText (text : String) : Option ReleaseBatchItemStatus :=
  [.pending, .active, .waitingMerge, .merged, .blocked].find?
    (fun status : ReleaseBatchItemStatus => status.text = text)

/-- `new Date(text)` of a column that is not null. -/
def dateOfColumn : Option String → Option (Option Date)
  | none => some none
  | some text => (Date.parse text).map some

def rowToReleaseBatchItem (row : ReleaseBatchItemRow) : Option ReleaseBatchItem := do
  let status ← itemStatusOfText row.status
  let startedAt ← dateOfColumn row.startedAt
  let completedAt ← dateOfColumn row.completedAt
  pure {
    releaseBatchId := row.releaseBatchId
    position := row.position
    issueNumber := row.issueNumber
    status
    runUuid := row.runUuid
    prNumber := row.prNumber
    baseSha := row.baseSha
    mergedCommitSha := row.mergedCommitSha
    blockedReason := row.blockedReason
    startedAt
    completedAt
  }

def rowToReleaseBatch (row : ReleaseBatchRow) (items : List ReleaseBatchItem)
    : Option ReleaseBatch := do
  let status ← statusOfText row.status
  let createdAt ← Date.parse row.createdAt
  let completedAt ← dateOfColumn row.completedAt
  pure {
    id := row.id
    repoId := row.repoId
    sourceBranch := row.sourceBranch
    sourceStartSha := row.sourceStartSha
    releaseBranch := row.releaseBranch
    status
    currentPosition := row.currentPosition
    candidateSha := row.candidateSha
    approvedCandidateSha := row.approvedCandidateSha
    candidateTreeSha := row.candidateTreeSha
    promotionCommitSha := row.promotionCommitSha
    promotionPrNumber := row.promotionPrNumber
    blockedReason := row.blockedReason
    createdAt
    completedAt
    items
  }

/-- The rows of a batch's items, `ORDER BY position ASC`. -/
def Db.itemRows (db : Db) (id : ReleaseBatchId) : List ReleaseBatchItemRow :=
  (db.releaseBatchItems.rows.filter (·.releaseBatchId = id)).insertionSort
    (fun first second => first.position ≤ second.position)

/-- `findById`: the batch of an id, or none when there is no such row. -/
def Db.findById (db : Db) (id : ReleaseBatchId) : Stored (Option ReleaseBatch) :=
  match db.releaseBatches.rows.find? (·.id = id) with
  | none => .ok none
  | some row =>
      match (db.itemRows id).mapM rowToReleaseBatchItem with
      | none => .error .unreadable
      | some items =>
          match rowToReleaseBatch row items with
          | none => .error .unreadable
          | some batch => .ok (some batch)

/-- The values that the statements bind for an item of a batch. -/
def itemToRow (batchId : ReleaseBatchId) (item : ReleaseBatchItem) : ReleaseBatchItemRow :=
  {
    releaseBatchId := batchId
    position := item.position
    issueNumber := item.issueNumber
    status := item.status.text
    runUuid := item.runUuid
    prNumber := item.prNumber
    baseSha := item.baseSha
    mergedCommitSha := item.mergedCommitSha
    blockedReason := item.blockedReason
    startedAt := item.startedAt.map (·.toISOString)
    completedAt := item.completedAt.map (·.toISOString)
  }

/-- The values that the statements bind for a batch. -/
def batchToRow (batch : ReleaseBatch) : ReleaseBatchRow :=
  {
    id := batch.id
    repoId := batch.repoId
    sourceBranch := batch.sourceBranch
    sourceStartSha := batch.sourceStartSha
    releaseBranch := batch.releaseBranch
    status := batch.status.text
    currentPosition := batch.currentPosition
    candidateSha := batch.candidateSha
    approvedCandidateSha := batch.approvedCandidateSha
    candidateTreeSha := batch.candidateTreeSha
    promotionCommitSha := batch.promotionCommitSha
    promotionPrNumber := batch.promotionPrNumber
    blockedReason := batch.blockedReason
    createdAt := batch.createdAt.toISOString
    completedAt := batch.completedAt.map (·.toISOString)
  }

/-- `INSERT INTO release_batches`. -/
def Db.insertBatchRow (db : Db) (row : ReleaseBatchRow) : Stored Db :=
  match inserted : db.releaseBatches.insert row with
  | none => .error .constraint
  | some releaseBatches => .ok {
      releaseBatches
      releaseBatchItems := db.releaseBatchItems
      references := fun item member => by
        obtain ⟨batch, hb, same⟩ := db.references item member
        exact ⟨batch, by simp [(Table.insert_eq_some.mp inserted).2, hb], same⟩ }

/-- `INSERT INTO release_batch_items`, which needs the row of the batch. -/
def Db.insertItemRow (db : Db) (row : ReleaseBatchItemRow) : Stored Db :=
  if parent : ∃ batch ∈ db.releaseBatches.rows, batch.id = row.releaseBatchId then
    match inserted : db.releaseBatchItems.insert row with
    | none => .error .constraint
    | some releaseBatchItems => .ok {
        releaseBatches := db.releaseBatches
        releaseBatchItems
        references := fun item member => by
          rw [(Table.insert_eq_some.mp inserted).2] at member
          rcases List.mem_append.mp member with old | new
          · exact db.references item old
          · exact List.mem_singleton.mp new ▸ parent }
  else
    .error .constraint

/-- The columns that `UPDATE release_batches` assigns: all but the identity of the batch. -/
def assignBatch (values row : ReleaseBatchRow) : ReleaseBatchRow :=
  { row with
    status := values.status
    currentPosition := values.currentPosition
    candidateSha := values.candidateSha
    approvedCandidateSha := values.approvedCandidateSha
    candidateTreeSha := values.candidateTreeSha
    promotionCommitSha := values.promotionCommitSha
    promotionPrNumber := values.promotionPrNumber
    blockedReason := values.blockedReason
    completedAt := values.completedAt }

/-- `UPDATE release_batches … WHERE id = @id`. -/
def Db.updateBatchRow (db : Db) (values : ReleaseBatchRow) : Stored Db :=
  match updated : db.releaseBatches.update (·.id = values.id) (assignBatch values) with
  | none => .error .constraint
  | some releaseBatches => .ok {
      releaseBatches
      releaseBatchItems := db.releaseBatchItems
      references := fun item member => by
        obtain ⟨batch, hb, same⟩ := db.references item member
        rw [Table.rows_of_update updated]
        refine ⟨_, List.mem_map_of_mem hb, ?_⟩
        split <;> exact same }

/-- The columns that `UPDATE release_batch_items` assigns: all but its keys and the issue. -/
def assignItem (values row : ReleaseBatchItemRow) : ReleaseBatchItemRow :=
  { row with
    status := values.status
    runUuid := values.runUuid
    prNumber := values.prNumber
    baseSha := values.baseSha
    mergedCommitSha := values.mergedCommitSha
    blockedReason := values.blockedReason
    startedAt := values.startedAt
    completedAt := values.completedAt }

/-- `WHERE release_batch_id = @release_batch_id AND position = @position`. -/
def selectsItem (values row : ReleaseBatchItemRow) : Bool :=
  row.releaseBatchId = values.releaseBatchId && row.position = values.position

/-- `UPDATE release_batch_items`. -/
def Db.updateItemRow (db : Db) (values : ReleaseBatchItemRow) : Stored Db :=
  match updated : db.releaseBatchItems.update (selectsItem values) (assignItem values) with
  | none => .error .constraint
  | some releaseBatchItems => .ok {
      releaseBatches := db.releaseBatches
      releaseBatchItems
      references := by
        rw [Table.rows_of_update updated]
        exact forall_mem_updateRows (fun _ held => held) db.references }

/-- The items inserted one by one. -/
def Db.insertItems (db : Db) (batchId : ReleaseBatchId) : List ReleaseBatchItem → Stored Db
  | [] => pure db
  | item :: rest => do
      let db ← db.insertItemRow (itemToRow batchId item)
      db.insertItems batchId rest

/-- `insert`, in one transaction: an error leaves the database as it was. -/
def Db.insert (db : Db) (batch : ReleaseBatch) : Stored Db := do
  let db ← db.insertBatchRow (batchToRow batch)
  db.insertItems batch.id batch.items

/-- What `update` checks of the stored and the new item at one index. -/
def checkItemUpdate (prev next : ReleaseBatchItem) : Checked Unit := do
  throwIf (prev.position ≠ next.position) .releaseBatchState
    s!"cannot reorder or alter positions: position {prev.position} changed to {next.position}"
  throwIf (prev.issueNumber ≠ next.issueNumber) .releaseBatchState
    (s!"cannot change issue number for position {prev.position}: "
      ++ s!"was {prev.issueNumber}, got {next.issueNumber}")
  throwIf (prev.runUuid.isSome && next.runUuid ≠ prev.runUuid) .reassignRun
    (s!"cannot reassign run UUID for item at position {prev.position}: "
      ++ s!"was {shown prev.runUuid}, attempted {shown next.runUuid}")
  throwIf (prev.isMerged && !next.isMerged) .immutableItemMerged
    s!"cannot unmerge item at position {prev.position}: merged is irreversible in v1"

/-- The loop over the stored items, beside the new ones at the same indices. -/
def checkItemUpdates : List ReleaseBatchItem → List ReleaseBatchItem → Checked Unit
  | prev :: existing, next :: items => do
      checkItemUpdate prev next
      checkItemUpdates existing items
  | _, _ => pure ()

/-- What `update` checks of the stored and the new batch. -/
def checkUpdate (existing batch : ReleaseBatch) : Checked Unit := do
  throwIf (batch.items.length < existing.items.length) .releaseBatchState
    (s!"cannot update release batch {batch.id}: item count cannot decrease "
      ++ s!"(expected at least {existing.items.length}, got {batch.items.length})")
  checkItemUpdates existing.items batch.items

/-- The loop over the new items from `index` on: the stored ones are updated, the rest is
inserted.
-/
def Db.writeItems (db : Db) (batchId : ReleaseBatchId) (existing index : Nat)
    : List ReleaseBatchItem → Stored Db
  | [] => pure db
  | item :: rest => do
      let row := itemToRow batchId item
      let db ← if index < existing then db.updateItemRow row else db.insertItemRow row
      db.writeItems batchId existing (index + 1) rest

/-- `update`, in one transaction: an error leaves the database as it was. -/
def Db.update (db : Db) (batch : ReleaseBatch) : Stored Db := do
  match ← db.findById batch.id with
  | none => .error (.notFound s!"cannot update release batch {batch.id}: not found")
  | some existing => do
      Stored.ofChecked (checkUpdate existing batch)
      let db ← db.updateBatchRow (batchToRow batch)
      db.writeItems batch.id existing.items.length 0 batch.items

end AiSdlc.Sqlite
