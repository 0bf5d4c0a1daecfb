import Mathlib.Data.List.Basic

/-! Tables whose unique keys no two rows share, with the statements that keep them so.
A statement that would break a unique key fails and leaves no table.
-/

namespace AiSdlc.Sqlite

/-- A value of a key column. -/
inductive Value
  | text (value : String)
  | integer (value : Int)
  deriving DecidableEq, Repr

/-- The unique keys of a table: each maps a row to its key, or to none when a column of the
key is null or the row is outside of a partial index.
-/
structure Schema (Row : Type) where
  uniqueKeys : List (Row → Option (List Value))

variable {Row : Type} {schema : Schema Row}

/-- Two rows that share a unique key cannot stand in one table. -/
def Schema.conflict (schema : Schema Row) (first second : Row) : Bool :=
  schema.uniqueKeys.any fun key => (key first).isSome && key first = key second

/-- Sharing a key is symmetric. -/
theorem Schema.conflict_comm (schema : Schema Row) (first second : Row)
    : schema.conflict first second = schema.conflict second first := by
  unfold conflict
  congr 1
  funext key
  by_cases same : key first = key second
  · simp [same]
  · simp [same, Ne.symm same]

/-- A table: its rows in insertion order, no two of which share a unique key. -/
structure Table (schema : Schema Row) where
  rows : List Row
  unique : rows.Pairwise (fun first second => schema.conflict first second = false)

def Table.empty : Table schema := ⟨[], .nil⟩

theorem Table.eq_of_rows {first second : Table schema} (same : first.rows = second.rows)
    : first = second := by
  cases first
  cases second
  obtain rfl := same
  rfl

/-- `INSERT` of one row. -/
def Table.insert (table : Table schema) (row : Row) : Option (Table schema) :=
  if free : ∀ other ∈ table.rows, schema.conflict other row = false then
    some ⟨table.rows ++ [row], by
      refine List.pairwise_append.mpr ⟨table.unique, List.pairwise_singleton _ _, ?_⟩
      simpa using free⟩
  else
    none

theorem Table.insert_eq_some {table next : Table schema} {row : Row}
    : table.insert row = some next
      ↔ (∀ other ∈ table.rows, schema.conflict other row = false)
        ∧ next.rows = table.rows ++ [row] := by
  unfold insert
  split
  · rename_i free
    obtain ⟨rows, unique⟩ := next
    simp only [Option.some.injEq, Table.mk.injEq]
    exact ⟨fun same => ⟨free, same.symm⟩, fun same => same.2.symm⟩
  · rename_i taken
    simp only [reduceCtorEq, false_iff]
    exact fun inserted => taken inserted.1

/-- `UPDATE` visits the rows in order and checks each new row against the others, of which
the visited ones have their new values already.
-/
def Schema.updatable (schema : Schema Row) (selected : Row → Bool) (assign : Row → Row)
    (visited : List Row)
    : List Row → Bool
  | [] => true
  | row :: rest =>
      if selected row then
        (visited ++ rest).all (fun other => !schema.conflict other (assign row))
          && schema.updatable selected assign (visited ++ [assign row]) rest
      else
        schema.updatable selected assign (visited ++ [row]) rest

/-- The rows after an `UPDATE`. -/
def updateRows (selected : Row → Bool) (assign : Row → Row) (rows : List Row) : List Row :=
  rows.map fun row => if selected row then assign row else row

/-- An update that passes its checks leaves no shared key, by induction over the rows still
to be visited.
-/
theorem Schema.updatable_unique {schema : Schema Row} {selected : Row → Bool}
    {assign : Row → Row} {visited rest : List Row}
    (updatable : schema.updatable selected assign visited rest = true)
    (unique : (visited ++ rest).Pairwise (fun first second =>
      schema.conflict first second = false))
    : (visited ++ updateRows selected assign rest).Pairwise (fun first second =>
        schema.conflict first second = false) := by
  induction rest generalizing visited with
  | nil => simpa [updateRows] using unique
  | cons row rest ih =>
      simp only [Schema.updatable] at updatable
      split at updatable
      · rename_i hit
        simp only [Bool.and_eq_true, List.all_eq_true, Bool.not_eq_eq_eq_not,
          Bool.not_true] at updatable
        obtain ⟨free, updatable⟩ := updatable
        have moved : (visited ++ [assign row] ++ rest).Pairwise (fun first second =>
            schema.conflict first second = false) := by
          simp only [List.append_assoc, List.singleton_append, List.pairwise_append,
            List.pairwise_cons, List.mem_cons, forall_eq_or_imp] at unique ⊢
          obtain ⟨before, ⟨_, after⟩, apart⟩ := unique
          refine ⟨before, ⟨fun other member => ?_, after⟩, fun other member => ⟨?_, ?_⟩⟩
          · rw [schema.conflict_comm]
            exact free other (List.mem_append_right _ member)
          · exact free other (List.mem_append_left _ member)
          · exact (apart other member).2
        simpa [updateRows, hit] using ih updatable moved
      · rename_i hit
        simpa [updateRows, hit] using ih updatable (by simpa using unique)

/-- `UPDATE` of the selected rows. -/
def Table.update (table : Table schema) (selected : Row → Bool) (assign : Row → Row)
    : Option (Table schema) :=
  if updatable : schema.updatable selected assign [] table.rows = true then
    some ⟨updateRows selected assign table.rows,
      Schema.updatable_unique updatable table.unique⟩
  else
    none

theorem Table.rows_of_update {table next : Table schema} {selected : Row → Bool}
    {assign : Row → Row} (updated : table.update selected assign = some next)
    : next.rows = updateRows selected assign table.rows := by
  unfold update at updated
  split at updated
  · exact Option.some.inj updated ▸ rfl
  · contradiction

/-- A property of rows that the assignment keeps holds of all updated rows, when it held
before.
-/
theorem forall_mem_updateRows {selected : Row → Bool} {assign : Row → Row} {rows : List Row}
    {property : Row → Prop} (kept : ∀ row, property row → property (assign row))
    (held : ∀ row ∈ rows, property row)
    : ∀ row ∈ updateRows selected assign rows, property row := by
  intro row member
  obtain ⟨old, hm, rfl⟩ := List.mem_map.mp member
  split
  · exact kept old (held old hm)
  · exact held old hm

/-- Rows that are not selected are visited unchanged, by induction over them. -/
theorem Schema.updatable_append {schema : Schema Row} {selected : Row → Bool}
    {assign : Row → Row} {visited before rest : List Row}
    (missed : ∀ row ∈ before, selected row = false)
    : schema.updatable selected assign visited (before ++ rest)
      = schema.updatable selected assign (visited ++ before) rest := by
  induction before generalizing visited with
  | nil => simp
  | cons row before ih =>
      have later : schema.updatable selected assign (visited ++ [row]) (before ++ rest)
          = schema.updatable selected assign (visited ++ [row] ++ before) rest :=
        ih fun other member => missed other (List.mem_cons_of_mem _ member)
      simpa [Schema.updatable, missed row (by simp)] using later

theorem updateRows_of_missed {selected : Row → Bool} {assign : Row → Row}
    {rows : List Row} (missed : ∀ row ∈ rows, selected row = false)
    : updateRows selected assign rows = rows := by
  refine (List.map_congr_left fun row member => ?_).trans (List.map_id rows)
  simp [missed row member]

/-- An update that selects one row replaces it, when the new row shares no key with the
others.
-/
theorem Table.update_single {table : Table schema} {selected : Row → Bool}
    {assign : Row → Row} {before after : List Row} {row : Row}
    (split : table.rows = before ++ row :: after) (hit : selected row = true)
    (missed : ∀ other ∈ before ++ after, selected other = false)
    (free : ∀ other ∈ before ++ after, schema.conflict other (assign row) = false)
    : ∃ next, table.update selected assign = some next
        ∧ next.rows = before ++ assign row :: after := by
  have missedBefore (other : Row) (member : other ∈ before) : selected other = false :=
    missed other (List.mem_append_left _ member)
  have missedAfter (other : Row) (member : other ∈ after) : selected other = false :=
    missed other (List.mem_append_right _ member)
  have visited : schema.updatable selected assign (before ++ [assign row]) after = true := by
    have all : schema.updatable selected assign (before ++ [assign row]) (after ++ []) = true :=
      Schema.updatable_append missedAfter
    simpa using all
  have updatable : schema.updatable selected assign [] table.rows = true := by
    rw [split, Schema.updatable_append missedBefore]
    simp only [List.nil_append, Schema.updatable, hit, ↓reduceIte, Bool.and_eq_true,
      List.all_eq_true, Bool.not_eq_eq_eq_not, Bool.not_true]
    exact ⟨free, visited⟩
  have rows : updateRows selected assign table.rows = before ++ assign row :: after := by
    have first : updateRows selected assign before = before :=
      updateRows_of_missed missedBefore
    have last : updateRows selected assign after = after :=
      updateRows_of_missed missedAfter
    rw [split]
    simp only [updateRows, List.map_append, List.map_cons, hit, ↓reduceIte] at first last ⊢
    rw [first, last]
  exact ⟨_, dif_pos updatable, rows⟩

/-- A row among the selected ones stands in the table between the others. -/
theorem split_of_filter {rows before after : List Row} {selected : Row → Bool} {row : Row}
    (found : rows.filter selected = before ++ row :: after)
    : ∃ front back, rows = front ++ row :: back ∧ selected row = true
        ∧ front.filter selected = before ∧ back.filter selected = after := by
  obtain ⟨first, rest, rfl, hf, found⟩ := List.filter_eq_append_iff.mp found
  obtain ⟨skipped, last, rfl, skip, hit, hl⟩ := List.filter_eq_cons_iff.mp found
  refine ⟨first ++ skipped, last, by simp, hit, ?_, hl⟩
  rw [List.filter_append, hf, List.filter_eq_nil_iff.mpr skip, List.append_nil]

/-- An assignment that leaves the unique keys of every row alone. -/
def Schema.KeepsKeys (schema : Schema Row) (assign : Row → Row) : Prop :=
  ∀ key ∈ schema.uniqueKeys, ∀ row, key (assign row) = key row

theorem Schema.KeepsKeys.conflict_eq {assign : Row → Row} (keeps : schema.KeepsKeys assign)
    {first second left right : Row} (own : left = first ∨ left = assign first)
    (other : right = second ∨ right = assign second)
    : schema.conflict left right = schema.conflict first second := by
  unfold conflict
  rw [Bool.eq_iff_iff, List.any_eq_true, List.any_eq_true]
  refine exists_congr fun key => and_congr_right fun member => ?_
  have leftKey : key left = key first := by
    rcases own with rfl | rfl
    · rfl
    · exact keeps key member first
  have rightKey : key right = key second := by
    rcases other with rfl | rfl
    · rfl
    · exact keeps key member second
  rw [leftKey, rightKey]

theorem Schema.KeepsKeys.pairwise {assign : Row → Row} (keeps : schema.KeepsKeys assign)
    {selected : Row → Bool} {rows : List Row}
    (unique : rows.Pairwise (fun first second => schema.conflict first second = false))
    : (updateRows selected assign rows).Pairwise (fun first second =>
        schema.conflict first second = false) := by
  refine List.pairwise_map.mpr (unique.imp ?_)
  intro first second free
  have own (row : Row)
      : (if selected row then assign row else row) = row
        ∨ (if selected row then assign row else row) = assign row := by
    split
    · exact .inr rfl
    · exact .inl rfl
  exact (keeps.conflict_eq (own first) (own second)).trans free

/-- `UPDATE` of columns that are in no unique key. -/
def Table.revise (table : Table schema) (selected : Row → Bool) (assign : Row → Row)
    (keeps : schema.KeepsKeys assign)
    : Table schema :=
  ⟨updateRows selected assign table.rows, keeps.pairwise table.unique⟩

/-- An update that selects one row and keeps its keys takes place. -/
theorem Table.update_of_row {table : Table schema} {selected : Row → Bool} {assign : Row → Row}
    {row : Row} (member : row ∈ table.rows) (hit : selected row = true)
    (only : ∀ other ∈ table.rows, other ≠ row → selected other = false)
    (present : ∃ key ∈ schema.uniqueKeys, (key row).isSome = true)
    (keeps : ∀ key ∈ schema.uniqueKeys, key (assign row) = key row)
    : ∃ next, table.update selected assign = some next
        ∧ next.rows = updateRows selected assign table.rows := by
  obtain ⟨before, after, split⟩ := List.append_of_mem member
  have apart : ∀ other ∈ before ++ after, schema.conflict other row = false := by
    have unique := table.unique
    rw [split] at unique
    obtain ⟨_, tail, cross⟩ := List.pairwise_append.mp unique
    intro other located
    rcases List.mem_append.mp located with first | last
    · exact cross other first row List.mem_cons_self
    · rw [schema.conflict_comm]
      exact (List.pairwise_cons.mp tail).1 other last
  have different : ∀ other ∈ before ++ after, other ≠ row := by
    rintro other located rfl
    obtain ⟨key, isKey, set⟩ := present
    have conflict : schema.conflict other other = true :=
      List.any_eq_true.mpr ⟨key, isKey, by simpa using set⟩
    rw [apart other located] at conflict
    contradiction
  have missed : ∀ other ∈ before ++ after, selected other = false := by
    intro other located
    refine only other ?_ (different other located)
    rw [split]
    rcases List.mem_append.mp located with first | last
    · exact List.mem_append_left _ first
    · exact List.mem_append_right _ (List.mem_cons_of_mem _ last)
  have free : ∀ other ∈ before ++ after, schema.conflict other (assign row) = false := by
    intro other located
    rw [← apart other located]
    unfold Schema.conflict
    rw [Bool.eq_iff_iff, List.any_eq_true, List.any_eq_true]
    refine exists_congr fun key => and_congr_right fun isKey => ?_
    rw [keeps key isKey]
  obtain ⟨next, updated, -⟩ := Table.update_single split hit missed free
  exact ⟨next, updated, Table.rows_of_update updated⟩

/-- `DELETE` of the selected rows. -/
def Table.delete (table : Table schema) (selected : Row → Bool) : Table schema :=
  ⟨table.rows.filter (!selected ·), table.unique.filter _⟩

@[simp]
theorem Table.mem_delete {table : Table schema} {selected : Row → Bool} {row : Row}
    : row ∈ (table.delete selected).rows ↔ row ∈ table.rows ∧ selected row = false := by
  simp [Table.delete]

@[simp]
theorem Table.mem_revise {table : Table schema} {selected : Row → Bool} {assign : Row → Row}
    {keeps : schema.KeepsKeys assign} {row : Row}
    : row ∈ (table.revise selected assign keeps).rows
      ↔ ∃ old ∈ table.rows, (if selected old then assign old else old) = row := by
  simp [Table.revise, updateRows]

/-- A search by columns that the update leaves alone finds the updated row. -/
theorem Table.find_revise {table : Table schema} {selected : Row → Bool} {assign : Row → Row}
    {keeps : schema.KeepsKeys assign} {property : Row → Bool}
    (same : ∀ row, property (assign row) = property row)
    : (table.revise selected assign keeps).rows.find? property
      = (table.rows.find? property).map
          (fun row => if selected row then assign row else row) := by
  have composed : property ∘ (fun row => if selected row then assign row else row)
      = property := by
    funext row
    simp only [Function.comp]
    split
    · exact same row
    · rfl
  simp only [Table.revise, updateRows, List.find?_map, composed]

theorem Table.eq_of_key {table : Table schema} {key : Row → Option (List Value)}
    (isKey : key ∈ schema.uniqueKeys) {first second : Row} (left : first ∈ table.rows)
    (right : second ∈ table.rows) (present : (key first).isSome = true)
    (same : key first = key second)
    : first = second := by
  have conflict : schema.conflict first second = true :=
    List.any_eq_true.mpr ⟨key, isKey, by simp [← same, present]⟩
  obtain ⟨i, hi, rfl⟩ := List.mem_iff_getElem.mp left
  obtain ⟨j, hj, rfl⟩ := List.mem_iff_getElem.mp right
  have free := List.pairwise_iff_getElem.mp table.unique
  rcases Nat.lt_trichotomy i j with before | rfl | after
  · simp [free i j hi hj before] at conflict
  · rfl
  · rw [schema.conflict_comm] at conflict
    simp [free j i hj hi after] at conflict

-----------------------------------------------------------------------------------------
-- Rows by their key
-----------------------------------------------------------------------------------------

/-- The text that `key` reads off a row is a unique key. -/
def Schema.KeyedBy (schema : Schema Row) (key : Row → String) : Prop :=
  (fun row => some [.text (key row)]) ∈ schema.uniqueKeys

/-- `SELECT` of the row with a key. -/
def Table.findKey (table : Table schema) (key : Row → String) (text : String) : Option Row :=
  table.rows.find? fun row => key row = text

variable {key : Row → String} {table next : Table schema} {row : Row} {text : String}

theorem Table.key_of_findKey (found : table.findKey key text = some row) : key row = text := by
  simpa using List.find?_some found

theorem Table.mem_of_findKey (found : table.findKey key text = some row) : row ∈ table.rows :=
  List.mem_of_find?_eq_some found

theorem Schema.KeyedBy.conflict_of_same (keyed : schema.KeyedBy key) {first second : Row}
    (same : key first = key second)
    : schema.conflict first second = true :=
  List.any_eq_true.mpr ⟨_, keyed, by simp [same]⟩

theorem Table.nodup_keys (keyed : schema.KeyedBy key) : (table.rows.map key).Nodup := by
  refine List.pairwise_map.mpr (table.unique.imp fun apart same => ?_)
  simp [keyed.conflict_of_same same] at apart

/-- A row is found by its key, since no other row has it. -/
theorem Table.findKey_of_mem (keyed : schema.KeyedBy key) (member : row ∈ table.rows)
    : table.findKey key (key row) = some row := by
  cases found : table.findKey key (key row) with
  | none =>
      have missing := List.find?_eq_none.mp found row member
      simp at missing
  | some other =>
      have same : row = other :=
        Table.eq_of_key keyed member (mem_of_findKey found) rfl (by simp [key_of_findKey found])
      rw [same]

theorem Table.findKey_of_find (keyed : schema.KeyedBy key) {property : Row → Bool}
    (found : table.rows.find? property = some row)
    (fits : ∀ other, property other = true → key other = text)
    : table.findKey key text = some row ∧ property row = true := by
  have holds : property row = true := List.find?_some found
  rw [← fits row holds]
  exact ⟨findKey_of_mem keyed (List.mem_of_find?_eq_some found), holds⟩

/-- An update of one row replaces it and no other. -/
theorem Table.findKey_revise (keyed : schema.KeyedBy key) {selected : Row → Bool}
    {assign : Row → Row} {keeps : schema.KeepsKeys assign} {target : String}
    (found : table.findKey key target = some row)
    (fits : ∀ other, selected other = true → key other = target) (hit : selected row = true)
    (text : String)
    : (table.revise selected assign keeps).findKey key text
      = if text = target then some (assign row) else table.findKey key text := by
  have same (other : Row) : key (assign other) = key other := by
    have kept := keeps (fun row => some [.text (key row)]) keyed other
    simpa using kept
  have updated : (table.revise selected assign keeps).findKey key text
      = (table.findKey key text).map
          (fun other => if selected other then assign other else other) :=
    Table.find_revise fun other => by rw [same other]
  rw [updated]
  split
  · rename_i here
    simp [here, found, hit]
  · rename_i elsewhere
    cases other : table.findKey key text with
    | none => rfl
    | some kept =>
        have missed : selected kept = false := by
          cases selects : selected kept with
          | false => rfl
          | true => exact absurd ((key_of_findKey other).symm.trans (fits kept selects)) elsewhere
        simp [missed]

theorem Table.findKey_insert (keyed : schema.KeyedBy key)
    (inserted : table.insert row = some next)
    : table.findKey key (key row) = none
      ∧ ∀ text, next.findKey key text
        = if text = key row then some row else table.findKey key text := by
  obtain ⟨free, rows⟩ := Table.insert_eq_some.mp inserted
  have absent : table.findKey key (key row) = none := by
    refine List.find?_eq_none.mpr fun other member same => ?_
    have apart := free other member
    rw [keyed.conflict_of_same (by simpa using same)] at apart
    contradiction
  refine ⟨absent, fun text => ?_⟩
  have appended : next.findKey key text
      = (table.findKey key text).or (if key row = text then some row else none) := by
    simp only [findKey, rows, List.find?_append, List.find?_cons, List.find?_nil]
    by_cases same : key row = text
    · simp [same]
    · simp [same]
  rw [appended]
  by_cases here : text = key row
  · rw [here, absent]
    simp
  · simp [here, Ne.symm here]

/-- A deletion of one row removes it and no other. -/
theorem Table.findKey_delete (keyed : schema.KeyedBy key) {selected : Row → Bool}
    {target : String} (found : table.findKey key target = some row)
    (fits : ∀ other, selected other = true → key other = target) (hit : selected row = true)
    (text : String)
    : (table.delete selected).findKey key text
      = if text = target then none else table.findKey key text := by
  split
  · rename_i here
    refine List.find?_eq_none.mpr fun other member same => ?_
    obtain ⟨stored, missed⟩ := Table.mem_delete.mp member
    have again := findKey_of_mem keyed stored
    simp only [decide_eq_true_eq] at same
    rw [same, here, found] at again
    cases Option.some.inj again
    simp [hit] at missed
  · rename_i elsewhere
    cases before : table.findKey key text with
    | none =>
        refine List.find?_eq_none.mpr fun other member => ?_
        exact List.find?_eq_none.mp before other (Table.mem_delete.mp member).1
    | some kept =>
        have missed : selected kept = false := by
          cases selects : selected kept with
          | false => rfl
          | true =>
              exact absurd ((key_of_findKey before).symm.trans (fits kept selects)) elsewhere
        have left : kept ∈ (table.delete selected).rows :=
          Table.mem_delete.mpr ⟨mem_of_findKey before, missed⟩
        rw [← key_of_findKey before]
        exact findKey_of_mem keyed left

end AiSdlc.Sqlite
