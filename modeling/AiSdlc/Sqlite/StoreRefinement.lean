import AiSdlc.Domain.ReleaseBatchRuns
import AiSdlc.Sqlite.ReleaseBatchRepository

/-! The store holds exactly the batch that the domain operations computed.
The rows of a stored batch are its fields and items as columns, in position order.
-/

namespace AiSdlc.Sqlite

open AiSdlc.Js
open AiSdlc.Domain
open AiSdlc.Transition

theorem statusOfText_text (status : ReleaseBatchStatus)
    : statusOfText status.text = some status := by
  cases status <;> decide

theorem itemStatusOfText_text (status : ReleaseBatchItemStatus)
    : itemStatusOfText status.text = some status := by
  cases status <;> decide

/-- A date column is read back as the date that was written, by the round trip of ISO texts. -/
theorem dateOfColumn_toISOString (date : Option Date)
    : dateOfColumn (date.map (·.toISOString)) = some date := by
  cases date with
  | none => rfl
  | some date => simp [dateOfColumn, Date.parse_toISOString]

theorem releaseBatchId_itemToRow (batchId : ReleaseBatchId) (item : ReleaseBatchItem)
    : (itemToRow batchId item).releaseBatchId = batchId :=
  rfl

/-- An item row is read back as the item that was written, owned by its batch. -/
theorem rowToReleaseBatchItem_itemToRow (batchId : ReleaseBatchId) (item : ReleaseBatchItem)
    : rowToReleaseBatchItem (itemToRow batchId item)
      = some { item with releaseBatchId := batchId } := by
  simp [rowToReleaseBatchItem, itemToRow, itemStatusOfText_text, dateOfColumn_toISOString]

theorem rowToReleaseBatch_batchToRow (batch : ReleaseBatch)
    : rowToReleaseBatch (batchToRow batch) batch.items = some batch := by
  simp [rowToReleaseBatch, batchToRow, statusOfText_text, dateOfColumn_toISOString,
    Date.parse_toISOString]

/-- The item rows of a batch are read back as its own items, by induction over them. -/
theorem mapM_rowToReleaseBatchItem {batchId : ReleaseBatchId} {items : List ReleaseBatchItem}
    (owned : ∀ item ∈ items, item.releaseBatchId = batchId)
    : (items.map (itemToRow batchId)).mapM rowToReleaseBatchItem = some items := by
  induction items with
  | nil => rfl
  | cons item rest ih =>
      have first : rowToReleaseBatchItem (itemToRow batchId item) = some item := by
        rw [rowToReleaseBatchItem_itemToRow, ← owned item (by simp)]
      have later := ih fun other member => owned other (List.mem_cons_of_mem _ member)
      simp [first, later]

/-- The item rows of a batch, in insertion order. -/
def Db.ownItemRows (db : Db) (id : ReleaseBatchId) : List ReleaseBatchItemRow :=
  db.releaseBatchItems.rows.filter (·.releaseBatchId = id)

/-- The item rows of all other batches. -/
def Db.otherItemRows (db : Db) (id : ReleaseBatchId) : List ReleaseBatchItemRow :=
  db.releaseBatchItems.rows.filter (·.releaseBatchId ≠ id)

/-- The rows of all other batches. -/
def Db.otherBatchRows (db : Db) (id : ReleaseBatchId) : List ReleaseBatchRow :=
  db.releaseBatches.rows.filter (·.id ≠ id)

/-- The database holds a batch: its row, and the rows of its items in position order. -/
structure Db.Represents (db : Db) (batch : ReleaseBatch) : Prop where
  batchRow : db.releaseBatches.rows.filter (·.id = batch.id) = [batchToRow batch]
  itemRows : db.ownItemRows batch.id = batch.items.map (itemToRow batch.id)

/-- No row of another batch holds a run of this batch. -/
def Db.RunsFree (db : Db) (batch : ReleaseBatch) : Prop :=
  ∀ row ∈ db.otherItemRows batch.id, ∀ uuid, row.runUuid = some uuid →
    ∀ item ∈ batch.items, item.runUuid ≠ some uuid

/-- The rows of all other batches are the same in both databases. -/
structure Db.SameOthers (db next : Db) (id : ReleaseBatchId) : Prop where
  items : next.otherItemRows id = db.otherItemRows id
  batches : next.otherBatchRows id = db.otherBatchRows id

/-- A represented batch is found as it is, since its item rows are in position order. -/
theorem Db.Represents.findById {db : Db} {batch : ReleaseBatch}
    (represents : db.Represents batch) (wellFormed : batch.WellFormed)
    : db.findById batch.id = .ok (some batch) := by
  have found : db.releaseBatches.rows.find? (·.id = batch.id) = some (batchToRow batch) := by
    rw [← List.head?_filter, represents.batchRow]
    rfl
  have sorted : db.itemRows batch.id = batch.items.map (itemToRow batch.id) := by
    have rows := represents.itemRows
    unfold Db.ownItemRows at rows
    rw [Db.itemRows, rows]
    refine List.Pairwise.insertionSort_eq (List.pairwise_map.mpr ?_)
    exact wellFormed.ordered.imp fun before => le_of_lt before
  rw [Db.findById, found]
  simp only [sorted, mapM_rowToReleaseBatchItem wellFormed.owned, rowToReleaseBatch_batchToRow]

theorem conflict_eq_false {first second : ReleaseBatchItemRow}
    : releaseBatchItemSchema.conflict first second = false
      ↔ (first.releaseBatchId = second.releaseBatchId →
          first.position ≠ second.position ∧ first.issueNumber ≠ second.issueNumber)
        ∧ ∀ uuid, first.runUuid = some uuid → second.runUuid ≠ some uuid := by
  cases hf : first.runUuid <;> cases hs : second.runUuid <;>
    simp [Schema.conflict, releaseBatchItemSchema, hf, hs] <;> grind

/-- Writing a row in place of one of its batch's rows replaces that row and no other. -/
theorem Db.updateItemRow_ok {db : Db} {batchId : ReleaseBatchId}
    {before after : List ReleaseBatchItemRow} {prev row : ReleaseBatchItemRow}
    (ofBatch : row.releaseBatchId = batchId)
    (own : db.ownItemRows batchId = before ++ prev :: after)
    (position : prev.position = row.position) (issue : prev.issueNumber = row.issueNumber)
    (apart : ∀ other ∈ before ++ after, releaseBatchItemSchema.conflict other row = false)
    (foreign : ∀ other ∈ db.otherItemRows batchId,
      releaseBatchItemSchema.conflict other row = false)
    : ∃ next, db.updateItemRow row = .ok next
        ∧ next.ownItemRows batchId = before ++ row :: after
        ∧ next.otherItemRows batchId = db.otherItemRows batchId
        ∧ next.releaseBatches = db.releaseBatches := by
  subst ofBatch
  obtain ⟨front, back, split, owner, hf, hb⟩ := split_of_filter own
  have owner : prev.releaseBatchId = row.releaseBatchId := by simpa using owner
  have free (other : ReleaseBatchItemRow) (member : other ∈ front ++ back)
      : releaseBatchItemSchema.conflict other row = false := by
    by_cases same : other.releaseBatchId = row.releaseBatchId
    · refine apart other ?_
      rw [← hf, ← hb, ← List.filter_append]
      exact List.mem_filter.mpr ⟨member, by simpa using same⟩
    · refine foreign other (List.mem_filter.mpr ⟨?_, by simpa using same⟩)
      rw [split]
      simp only [List.mem_append, List.mem_cons] at member ⊢
      tauto
  have missed (other : ReleaseBatchItemRow) (member : other ∈ front ++ back)
      : selectsItem row other = false := by
    by_cases same : other.releaseBatchId = row.releaseBatchId
    · simp [selectsItem, ((conflict_eq_false.mp (free other member)).1 same).1]
    · simp [selectsItem, same]
  have assigned : assignItem row prev = row := by
    simp [assignItem, owner, position, issue]
  have freeAssigned (other : ReleaseBatchItemRow) (member : other ∈ front ++ back)
      : releaseBatchItemSchema.conflict other (assignItem row prev) = false :=
    assigned ▸ free other member
  obtain ⟨table, updated, rows⟩ := Table.update_single split
    (by simp [selectsItem, owner, position]) missed freeAssigned
  rw [assigned] at rows
  unfold Db.updateItemRow
  split
  · rename_i failed
    simp [updated] at failed
  · rename_i releaseBatchItems succeeded
    obtain rfl := Option.some.inj (updated.symm.trans succeeded)
    refine ⟨_, rfl, ?_, ?_, rfl⟩
    · simp [Db.ownItemRows, rows, hf, hb]
    · simp [Db.otherItemRows, rows, split, owner]

/-- Inserting a row of a stored batch adds it after the others of its batch. -/
theorem Db.insertItemRow_ok {db : Db} {batchId : ReleaseBatchId} {row : ReleaseBatchItemRow}
    (ofBatch : row.releaseBatchId = batchId)
    (parent : ∃ batch ∈ db.releaseBatches.rows, batch.id = batchId)
    (apart : ∀ other ∈ db.ownItemRows batchId,
      releaseBatchItemSchema.conflict other row = false)
    (foreign : ∀ other ∈ db.otherItemRows batchId,
      releaseBatchItemSchema.conflict other row = false)
    : ∃ next, db.insertItemRow row = .ok next
        ∧ next.ownItemRows batchId = db.ownItemRows batchId ++ [row]
        ∧ next.otherItemRows batchId = db.otherItemRows batchId
        ∧ next.releaseBatches = db.releaseBatches := by
  subst ofBatch
  have free (other : ReleaseBatchItemRow) (member : other ∈ db.releaseBatchItems.rows)
      : releaseBatchItemSchema.conflict other row = false := by
    by_cases same : other.releaseBatchId = row.releaseBatchId
    · exact apart other (List.mem_filter.mpr ⟨member, by simpa using same⟩)
    · exact foreign other (List.mem_filter.mpr ⟨member, by simpa using same⟩)
  unfold Db.insertItemRow
  rw [dif_pos parent]
  split
  · rename_i failed
    rw [Table.insert, dif_pos free] at failed
    contradiction
  · rename_i table inserted
    have rows := (Table.insert_eq_some.mp inserted).2
    refine ⟨_, rfl, ?_, ?_, rfl⟩
    · simp [Db.ownItemRows, rows]
    · simp [Db.otherItemRows, rows]

/-- Writing the row of a stored batch replaces that row and no other. -/
theorem Db.updateBatchRow_ok {db : Db} {prev row : ReleaseBatchRow}
    (own : db.releaseBatches.rows.filter (·.id = row.id) = [prev])
    (assigned : assignBatch row prev = row)
    : ∃ next, db.updateBatchRow row = .ok next
        ∧ next.releaseBatches.rows.filter (·.id = row.id) = [row]
        ∧ next.otherBatchRows row.id = db.otherBatchRows row.id
        ∧ next.releaseBatchItems = db.releaseBatchItems := by
  have alone : db.releaseBatches.rows.filter (·.id = row.id) = [] ++ prev :: [] := own
  obtain ⟨front, back, split, hit, hf, hb⟩ := split_of_filter alone
  have owner : prev.id = row.id := by simpa using hit
  have missed (other : ReleaseBatchRow) (member : other ∈ front ++ back)
      : decide (other.id = row.id) = false := by
    rcases List.mem_append.mp member with member | member
    · simpa using List.filter_eq_nil_iff.mp hf other member
    · simpa using List.filter_eq_nil_iff.mp hb other member
  have free (other : ReleaseBatchRow) (member : other ∈ front ++ back)
      : releaseBatchSchema.conflict other (assignBatch row prev) = false := by
    have apart := missed other member
    simpa [assigned, Schema.conflict, releaseBatchSchema] using apart
  obtain ⟨table, updated, rows⟩ := Table.update_single split hit missed free
  rw [assigned] at rows
  unfold Db.updateBatchRow
  split
  · rename_i failed
    simp [updated] at failed
  · rename_i releaseBatches succeeded
    obtain rfl := Option.some.inj (updated.symm.trans succeeded)
    refine ⟨_, rfl, ?_, ?_, rfl⟩
    · simp [rows, hf, hb]
    · simp [Db.otherBatchRows, rows, split, owner]

/-- The new items keep the stored ones: their positions and issues, their runs once assigned,
and their merges. They may add items at the end.
-/
inductive ItemsExtend : List ReleaseBatchItem → List ReleaseBatchItem → Prop
  | added (items : List ReleaseBatchItem) : ItemsExtend [] items
  | kept {prev next : ReleaseBatchItem} {existing items : List ReleaseBatchItem}
      (position : prev.position = next.position) (issue : prev.issueNumber = next.issueNumber)
      (run : prev.runUuid = none ∨ next.runUuid = prev.runUuid)
      (merged : prev.isMerged = true → next.isMerged = true)
      (rest : ItemsExtend existing items)
      : ItemsExtend (prev :: existing) (next :: items)

theorem checkItemUpdate_eq_ok {prev next : ReleaseBatchItem} {result : Unit}
    : checkItemUpdate prev next = .ok result
      ↔ prev.position = next.position ∧ prev.issueNumber = next.issueNumber
        ∧ (prev.runUuid = none ∨ next.runUuid = prev.runUuid)
        ∧ (prev.isMerged = true → next.isMerged = true) := by
  simp only [checkItemUpdate, checked_bind_eq_ok, throwIf_eq_ok, exists_const]
  cases prev.runUuid <;> simp

/-- The item loop and the length check accept exactly the items that extend the stored ones,
by induction over the stored items.
-/
theorem checkItemUpdates_eq_ok {existing items : List ReleaseBatchItem} {result : Unit}
    : (existing.length ≤ items.length ∧ checkItemUpdates existing items = .ok result)
      ↔ ItemsExtend existing items := by
  induction existing generalizing items with
  | nil =>
      simp only [List.length_nil, Nat.zero_le, true_and]
      exact ⟨fun _ => .added items, fun _ => by cases items <;> rfl⟩
  | cons prev existing ih =>
      cases items with
      | nil => exact ⟨fun short => by simp at short, fun extends_ => by cases extends_⟩
      | cons next items =>
          simp only [List.length_cons, Nat.add_le_add_iff_right, checkItemUpdates,
            checked_bind_eq_ok, checkItemUpdate_eq_ok, exists_const]
          constructor
          · rintro ⟨long, ⟨position, issue, run, merged⟩, checked⟩
            exact .kept position issue run merged (ih.mp ⟨long, checked⟩)
          · rintro (_ | ⟨position, issue, run, merged, rest⟩)
            obtain ⟨long, checked⟩ := ih.mpr rest
            exact ⟨long, ⟨position, issue, run, merged⟩, checked⟩

/-- `update` accepts exactly the batches whose items extend the stored ones. -/
theorem checkUpdate_eq_ok {existing batch : ReleaseBatch} {result : Unit}
    : checkUpdate existing batch = .ok result ↔ ItemsExtend existing.items batch.items := by
  rw [← @checkItemUpdates_eq_ok existing.items batch.items result]
  simp [checkUpdate]

/-- Each stored item has a counterpart with its position, issue and run among the items that
extend them.
-/
theorem ItemsExtend.counterpart {existing items : List ReleaseBatchItem}
    (extends_ : ItemsExtend existing items) {prev : ReleaseBatchItem} (member : prev ∈ existing)
    : ∃ next ∈ items, prev.position = next.position ∧ prev.issueNumber = next.issueNumber
        ∧ (prev.runUuid = none ∨ next.runUuid = prev.runUuid) := by
  induction extends_ with
  | added items => simp at member
  | @kept first next _ _ position issue run _ _ ih =>
      rcases List.mem_cons.mp member with rfl | member
      · exact ⟨next, by simp, position, issue, run⟩
      · obtain ⟨other, ho, rest⟩ := ih member
        exact ⟨other, List.mem_cons_of_mem _ ho, rest⟩

/-- Items that may stand in one batch: at other positions, of other issues and with other
runs.
-/
def ItemsApart (first second : ReleaseBatchItem) : Prop :=
  first.position ≠ second.position ∧ first.issueNumber ≠ second.issueNumber
    ∧ ∀ uuid, first.runUuid = some uuid → second.runUuid ≠ some uuid

theorem itemsApart_of_wellFormed {batch : ReleaseBatch} (wellFormed : batch.WellFormed)
    : batch.items.Pairwise ItemsApart := by
  refine wellFormed.ordered.imp_of_mem fun hf hs before => ⟨ne_of_lt before, ?_, ?_⟩
  · exact fun same => ne_of_lt before (wellFormed.issues _ hf _ hs same)
  · exact fun uuid one two => ne_of_lt before (wellFormed.runs _ hf _ hs uuid one two)

theorem ItemsApart.no_conflict {batchId : ReleaseBatchId} {first second : ReleaseBatchItem}
    (apart : ItemsApart first second)
    : releaseBatchItemSchema.conflict (itemToRow batchId first) (itemToRow batchId second)
      = false :=
  conflict_eq_false.mpr ⟨fun _ => ⟨apart.1, apart.2.1⟩, apart.2.2⟩

theorem ItemsApart.symm {first second : ReleaseBatchItem} (apart : ItemsApart first second)
    : ItemsApart second first :=
  ⟨apart.1.symm, apart.2.1.symm, fun uuid one two => apart.2.2 uuid two one⟩

theorem no_conflict_of_other {db : Db} {batchId : ReleaseBatchId} {item : ReleaseBatchItem}
    {row : ReleaseBatchItemRow} (other : row ∈ db.otherItemRows batchId)
    (free : ∀ uuid, row.runUuid = some uuid → item.runUuid ≠ some uuid)
    : releaseBatchItemSchema.conflict row (itemToRow batchId item) = false := by
  have elsewhere : row.releaseBatchId ≠ batchId := by
    simpa using (List.mem_filter.mp other).2
  exact conflict_eq_false.mpr ⟨fun same => (elsewhere same).elim, free⟩

/-- Inserting items that are apart from the stored ones adds their rows in order, by induction
over the items to be inserted.
-/
theorem Db.insertItems_ok {db : Db} {batchId : ReleaseBatchId}
    {done rest : List ReleaseBatchItem}
    (own : db.ownItemRows batchId = done.map (itemToRow batchId))
    (parent : ∃ batch ∈ db.releaseBatches.rows, batch.id = batchId)
    (apart : (done ++ rest).Pairwise ItemsApart)
    (free : ∀ row ∈ db.otherItemRows batchId, ∀ uuid, row.runUuid = some uuid →
      ∀ item ∈ rest, item.runUuid ≠ some uuid)
    : ∃ next, db.insertItems batchId rest = .ok next
        ∧ next.ownItemRows batchId = (done ++ rest).map (itemToRow batchId)
        ∧ next.otherItemRows batchId = db.otherItemRows batchId
        ∧ next.releaseBatches = db.releaseBatches := by
  induction rest generalizing db done with
  | nil => exact ⟨db, rfl, by simpa using own, rfl, rfl⟩
  | cons item rest ih =>
      obtain ⟨_, _, crossApart⟩ := List.pairwise_append.mp apart
      have beside (row : ReleaseBatchItemRow) (member : row ∈ db.ownItemRows batchId)
          : releaseBatchItemSchema.conflict row (itemToRow batchId item) = false := by
        rw [own] at member
        obtain ⟨first, hf, rfl⟩ := List.mem_map.mp member
        exact (crossApart first hf item (by simp)).no_conflict
      have foreign (row : ReleaseBatchItemRow) (other : row ∈ db.otherItemRows batchId)
          : releaseBatchItemSchema.conflict row (itemToRow batchId item) = false :=
        no_conflict_of_other other fun uuid held => free row other uuid held item (by simp)
      obtain ⟨middle, inserted, ownMiddle, othersMiddle, batchesMiddle⟩ :=
        Db.insertItemRow_ok (releaseBatchId_itemToRow batchId item) parent beside foreign
      have ownMiddle : middle.ownItemRows batchId = (done ++ [item]).map (itemToRow batchId) := by
        rw [ownMiddle, own, List.map_append, List.map_singleton]
      obtain ⟨next, written, ownNext, othersNext, batchesNext⟩ :=
        ih ownMiddle (batchesMiddle ▸ parent) (by simpa using apart)
          fun row other uuid held last member =>
            free row (othersMiddle ▸ other) uuid held last (List.mem_cons_of_mem _ member)
      refine ⟨next, ?_, by simpa using ownNext, othersNext.trans othersMiddle,
        batchesNext.trans batchesMiddle⟩
      rw [Db.insertItems, inserted]
      exact written

/-- From the number of stored items on, the loop of `update` only inserts, by induction over
the items to be written.
-/
theorem Db.writeItems_eq_insertItems {db : Db} {batchId : ReleaseBatchId} {existing index : Nat}
    {rest : List ReleaseBatchItem} (beyond : existing ≤ index)
    : db.writeItems batchId existing index rest = db.insertItems batchId rest := by
  induction rest generalizing db index with
  | nil => rfl
  | cons item rest ih =>
      rw [Db.writeItems, Db.insertItems, if_neg (Nat.not_lt.mpr beyond)]
      exact congrArg _ (funext fun _ => ih (Nat.le_succ_of_le beyond))

/-- The loop of `update` rewrites the rows of the stored items and adds the new ones, by
induction over the stored items.
-/
theorem Db.writeItems_ok {db : Db} {batchId : ReleaseBatchId}
    {done existing rest : List ReleaseBatchItem} {count : Nat}
    (counted : count = done.length + existing.length)
    (own : db.ownItemRows batchId = (done ++ existing).map (itemToRow batchId))
    (parent : ∃ batch ∈ db.releaseBatches.rows, batch.id = batchId)
    (extends_ : ItemsExtend existing rest) (apart : (done ++ rest).Pairwise ItemsApart)
    (free : ∀ row ∈ db.otherItemRows batchId, ∀ uuid, row.runUuid = some uuid →
      ∀ item ∈ rest, item.runUuid ≠ some uuid)
    : ∃ next, db.writeItems batchId count done.length rest = .ok next
        ∧ next.ownItemRows batchId = (done ++ rest).map (itemToRow batchId)
        ∧ next.otherItemRows batchId = db.otherItemRows batchId
        ∧ next.releaseBatches = db.releaseBatches := by
  induction extends_ generalizing db done with
  | added rest =>
      rw [Db.writeItems_eq_insertItems (by simp [counted])]
      exact Db.insertItems_ok (by simpa using own) parent apart free
  | @kept prev item existing rest position issue run _ extends_ ih =>
      obtain ⟨_, laterApart, crossApart⟩ := List.pairwise_append.mp apart
      have itemApart := (List.pairwise_cons.mp laterApart).1
      have beside (row : ReleaseBatchItemRow)
          (member : row ∈ done.map (itemToRow batchId) ++ existing.map (itemToRow batchId))
          : releaseBatchItemSchema.conflict row (itemToRow batchId item) = false := by
        rcases List.mem_append.mp member with written | stored
        · obtain ⟨first, hf, rfl⟩ := List.mem_map.mp written
          exact (crossApart first hf item (by simp)).no_conflict
        · -- A row still to be written has the keys of its new item, or lacks its run.
          obtain ⟨old, ho, rfl⟩ := List.mem_map.mp stored
          obtain ⟨last, hl, samePosition, sameIssue, sameRun⟩ := extends_.counterpart ho
          obtain ⟨apartPosition, apartIssue, apartRun⟩ := (itemApart last hl).symm
          refine ItemsApart.no_conflict ⟨samePosition ▸ apartPosition, sameIssue ▸ apartIssue, ?_⟩
          intro uuid held
          rcases sameRun with without | same
          · simp [without] at held
          · exact apartRun uuid (same.trans held)
      have foreign (row : ReleaseBatchItemRow) (other : row ∈ db.otherItemRows batchId)
          : releaseBatchItemSchema.conflict row (itemToRow batchId item) = false :=
        no_conflict_of_other other fun uuid held => free row other uuid held item (by simp)
      obtain ⟨middle, updated, ownMiddle, othersMiddle, batchesMiddle⟩ :=
        Db.updateItemRow_ok (releaseBatchId_itemToRow batchId item) (by simpa using own)
          position issue beside foreign
      have ownMiddle : middle.ownItemRows batchId
          = (done ++ [item] ++ existing).map (itemToRow batchId) := by
        simpa using ownMiddle
      obtain ⟨next, written, ownNext, othersNext, batchesNext⟩ :=
        ih (by simp [counted]; omega) ownMiddle (batchesMiddle ▸ parent) (by simpa using apart)
          fun row other uuid held last member =>
            free row (othersMiddle ▸ other) uuid held last (List.mem_cons_of_mem _ member)
      refine ⟨next, ?_, by simpa using ownNext, othersNext.trans othersMiddle,
        batchesNext.trans batchesMiddle⟩
      rw [Db.writeItems, if_pos (by simp [counted]), updated]
      simpa using written

/-- An accepted update stores the new batch, and leaves the other batches alone. -/
theorem Db.update_ok {db : Db} {batch next : ReleaseBatch} (represents : db.Represents batch)
    (wellFormed : batch.WellFormed) (nextWellFormed : next.WellFormed)
    (identity : next.identity = batch.identity)
    (extends_ : ItemsExtend batch.items next.items) (free : db.RunsFree next)
    : ∃ after, db.update next = .ok after ∧ after.Represents next
        ∧ db.SameOthers after next.id := by
  have id_eq : next.id = batch.id := congrArg BatchIdentity.id identity
  have assigned : assignBatch (batchToRow next) (batchToRow batch) = batchToRow next := by
    obtain ⟨ids, repos, sources, starts, releases, created⟩ := BatchIdentity.mk.inj identity
    simp [assignBatch, batchToRow, ids, repos, sources, starts, releases, created]
  have row_id : (batchToRow next).id = next.id := rfl
  obtain ⟨middle, rowWritten, rowStored, othersMiddle, itemsMiddle⟩ :=
    Db.updateBatchRow_ok (by rw [row_id, id_eq]; exact represents.batchRow) assigned
  rw [row_id] at rowStored othersMiddle
  have own : middle.ownItemRows next.id = ([] ++ batch.items).map (itemToRow next.id) := by
    rw [Db.ownItemRows, itemsMiddle, id_eq]
    exact represents.itemRows
  have parent : ∃ row ∈ middle.releaseBatches.rows, row.id = next.id := by
    have member : batchToRow next ∈ middle.releaseBatches.rows.filter (·.id = next.id) := by
      simp [rowStored]
    exact ⟨batchToRow next, (List.mem_filter.mp member).1, rfl⟩
  have others : middle.otherItemRows next.id = db.otherItemRows next.id := by
    rw [Db.otherItemRows, itemsMiddle, Db.otherItemRows]
  obtain ⟨after, written, ownAfter, othersAfter, batchesAfter⟩ :=
    Db.writeItems_ok (Nat.zero_add _).symm own parent extends_
      (itemsApart_of_wellFormed nextWellFormed) (others ▸ free)
  refine ⟨after, ?_, ⟨batchesAfter ▸ rowStored, ownAfter⟩, ⟨othersAfter.trans others, ?_⟩⟩
  · have found : db.findById next.id = .ok (some batch) :=
      id_eq ▸ represents.findById wellFormed
    have accepted : checkUpdate batch next = .ok () := checkUpdate_eq_ok.mpr extends_
    unfold Db.update
    simp only [found, accepted, rowWritten, Stored.ofChecked, bind, Except.bind]
    exact written
  · rw [Db.otherBatchRows, batchesAfter]
    exact othersMiddle

theorem ItemsExtend.refl (items : List ReleaseBatchItem) : ItemsExtend items items := by
  induction items with
  | nil => exact .added []
  | cons item rest ih => exact .kept rfl rfl (.inr rfl) id ih

/-- Items extend their beginning, by induction over it. -/
theorem itemsExtend_append (items added : List ReleaseBatchItem)
    : ItemsExtend items (items ++ added) := by
  induction items with
  | nil => exact .added added
  | cons item rest ih => exact .kept rfl rfl (.inr rfl) id ih

/-- Updating one item extends the items when it keeps that item's identity, run and merge, by
induction over the items before it.
-/
theorem itemsExtend_set {items : List ReleaseBatchItem} {index : Nat}
    {item next : ReleaseBatchItem} (found : items[index]? = some item)
    (position : item.position = next.position) (issue : item.issueNumber = next.issueNumber)
    (run : item.runUuid = none ∨ next.runUuid = item.runUuid)
    (merged : item.isMerged = true → next.isMerged = true)
    : ItemsExtend items (items.set index next) := by
  induction items generalizing index with
  | nil => simp at found
  | cons first rest ih =>
      cases index with
      | zero =>
          obtain rfl : first = item := by simpa using found
          exact .kept position issue run merged (.refl rest)
      | succ index => exact .kept rfl rfl (.inr rfl) id (ih (by simpa using found))

theorem extends_of_itemsStep {batch : ReleaseBatch} {op : BatchOp}
    {items : List ReleaseBatchItem} (step : ItemsStep batch op items)
    : ItemsExtend batch.items items := by
  cases step with
  | unchanged => exact .refl _
  | updated found identity run merged _ =>
      refine itemsExtend_set found identity.2.1.symm identity.2.2.symm ?_ merged
      exact run.elim .inr fun fresh => .inl fresh.1
  | appended => exact itemsExtend_append _ _

theorem Db.insertBatchRow_eq_ok {db next : Db} {row : ReleaseBatchRow}
    (inserted : db.insertBatchRow row = .ok next)
    : (∀ other ∈ db.releaseBatches.rows, other.id ≠ row.id)
      ∧ next.releaseBatches.rows = db.releaseBatches.rows ++ [row]
      ∧ next.releaseBatchItems = db.releaseBatchItems := by
  unfold Db.insertBatchRow at inserted
  split at inserted
  · contradiction
  · rename_i table done
    obtain ⟨free, rows⟩ := Table.insert_eq_some.mp done
    obtain rfl := Except.ok.inj inserted
    refine ⟨fun other member => ?_, rows, rfl⟩
    simpa [Schema.conflict, releaseBatchSchema] using free other member

theorem Db.insertItemRow_eq_ok {db next : Db} {row : ReleaseBatchItemRow}
    (inserted : db.insertItemRow row = .ok next)
    : next.releaseBatchItems.rows = db.releaseBatchItems.rows ++ [row]
      ∧ next.releaseBatches = db.releaseBatches := by
  unfold Db.insertItemRow at inserted
  split at inserted
  · split at inserted
    · contradiction
    · rename_i table done
      obtain rfl := Except.ok.inj inserted
      exact ⟨(Table.insert_eq_some.mp done).2, rfl⟩
  · contradiction

/-- Inserted items add their rows at the end, by induction over the items. -/
theorem Db.insertItems_eq_ok {db next : Db} {batchId : ReleaseBatchId}
    {items : List ReleaseBatchItem} (inserted : db.insertItems batchId items = .ok next)
    : next.releaseBatchItems.rows
        = db.releaseBatchItems.rows ++ items.map (itemToRow batchId)
      ∧ next.releaseBatches = db.releaseBatches := by
  induction items generalizing db with
  | nil =>
      obtain rfl := Except.ok.inj inserted
      simp
  | cons item rest ih =>
      rw [Db.insertItems] at inserted
      obtain ⟨middle, first, later⟩ := checked_bind_eq_ok.mp inserted
      obtain ⟨rowsMiddle, batchesMiddle⟩ := insertItemRow_eq_ok first
      obtain ⟨rows, batches⟩ := ih later
      exact ⟨by simp [rows, rowsMiddle], batches.trans batchesMiddle⟩

theorem Db.represents_of_insert {db next : Db} {batch : ReleaseBatch}
    (inserted : db.insert batch = .ok next)
    : next.Represents batch := by
  obtain ⟨middle, first, later⟩ := checked_bind_eq_ok.mp inserted
  obtain ⟨fresh, rowsMiddle, itemsMiddle⟩ := insertBatchRow_eq_ok first
  obtain ⟨rows, batches⟩ := insertItems_eq_ok later
  constructor
  · rw [batches, rowsMiddle, List.filter_append, List.filter_eq_nil_iff.mpr]
    · simp [batchToRow]
    · simpa [batchToRow] using fresh
  · rw [Db.ownItemRows, rows, itemsMiddle, List.filter_append, List.filter_eq_nil_iff.mpr]
    · simp [List.filter_map, Function.comp_def, itemToRow]
    · intro row member
      obtain ⟨parent, hp, owner⟩ := db.references row member
      simpa [← owner, batchToRow] using fresh parent hp

/-- The batches that the domain operations can build, inserted into any database, and the
operations on them whose results are passed to `update`.
-/
def storeSystem : System (Db × ReleaseBatch) BatchOp :=
  {
    initial := fun (db, batch) =>
      ∃ ops empty, (batchSystem fun _ => True).Run ops batch ∧ Db.insert empty batch = .ok db
    step := fun (db, batch) op (after, next) =>
      op.apply batch = .ok next ∧ db.RunsFree next ∧ db.update next = .ok after
  }

/-- Every stored batch is well formed and represented, by the run invariant rule. -/
theorem represents_of_run {ops : List BatchOp} {db : Db} {batch : ReleaseBatch}
    (run : storeSystem.Run ops (db, batch))
    : batch.WellFormed ∧ db.Represents batch := by
  refine run.invariant (fun _ (state : Db × ReleaseBatch) =>
    state.2.WellFormed ∧ state.1.Represents state.2) ?_ ?_
  · rintro ⟨db, batch⟩ ⟨ops, empty, built, inserted⟩
    exact ⟨wellFormed_of_run built, Db.represents_of_insert inserted⟩
  · rintro ops ⟨db, batch⟩ op ⟨after, next⟩ ⟨wellFormed, represents⟩ ⟨applied, free, updated⟩
    have nextWellFormed := BatchOp.wellFormed applied wellFormed
    obtain ⟨other, result, represented, _⟩ := Db.update_ok represents wellFormed nextWellFormed
      (BatchOp.identity_eq applied) (extends_of_itemsStep (BatchOp.items_step applied)) free
    obtain rfl := Except.ok.inj (result.symm.trans updated)
    exact ⟨nextWellFormed, represented⟩

/-- The store refines the domain: along every run `findById` returns the batch in memory, and
`update` accepts the result of every operation, returns it from then on, and leaves the rows of
all other batches alone.
-/
theorem store_refines_domain {ops : List BatchOp} {db : Db} {batch : ReleaseBatch}
    (run : storeSystem.Run ops (db, batch))
    : db.findById batch.id = .ok (some batch)
      ∧ ∀ (op : BatchOp) next, op.apply batch = .ok next → db.RunsFree next →
          ∃ after, db.update next = .ok after ∧ after.findById next.id = .ok (some next)
            ∧ db.SameOthers after next.id := by
  obtain ⟨wellFormed, represents⟩ := represents_of_run run
  refine ⟨represents.findById wellFormed, fun op next applied free => ?_⟩
  have nextWellFormed := BatchOp.wellFormed applied wellFormed
  obtain ⟨after, updated, represented, others⟩ := Db.update_ok represents wellFormed
    nextWellFormed (BatchOp.identity_eq applied)
    (extends_of_itemsStep (BatchOp.items_step applied)) free
  exact ⟨after, updated, represented.findById nextWellFormed, others⟩

/-- A two-issue batch is inserted into an empty database, and its first item is admitted with a
run.
-/
theorem store_refines_domain_twoIssues
    : ∃ batch next db after, createReleaseBatch twoIssues = .ok batch
        ∧ Db.insert .empty batch = .ok db ∧ db.findById "batch-1" = .ok (some batch)
        ∧ admitItem batch 1 { runUuid := some "run-1" } .epoch = .ok next
        ∧ db.update next = .ok after ∧ after.findById "batch-1" = .ok (some next) := by
  obtain ⟨batch, next, db, created, inserted, admitted, id, nextId, alone⟩
      : ∃ batch next db, createReleaseBatch twoIssues = .ok batch
        ∧ Db.insert .empty batch = .ok db
        ∧ admitItem batch 1 { runUuid := some "run-1" } .epoch = .ok next
        ∧ batch.id = "batch-1" ∧ next.id = "batch-1" ∧ db.otherItemRows "batch-1" = [] :=
    ⟨_, _, _, rfl, rfl, rfl, rfl, rfl, rfl⟩
  have run : storeSystem.Run [] (db, batch) :=
    .start ⟨[], .empty, .start ⟨twoIssues, trivial, created⟩, inserted⟩
  obtain ⟨found, stores⟩ := store_refines_domain run
  have free : db.RunsFree next := by simp [Db.RunsFree, nextId, alone]
  obtain ⟨after, updated, stored, _⟩ :=
    stores (.admitItem 1 { runUuid := some "run-1" } .epoch) next admitted free
  exact ⟨batch, next, db, after, created, inserted, id ▸ found, admitted, updated,
    nextId ▸ stored⟩

end AiSdlc.Sqlite
