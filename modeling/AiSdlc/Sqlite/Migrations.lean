import Mathlib.Data.List.Nodup
import Mathlib.Logic.Function.Basic
import AiSdlc.Transition.System

/-! The migrations of a database, applied by processes that start, throw and crash at any time.
Each migration is a transaction of its own, but what is applied already is read once, at the start.
-/

namespace AiSdlc.Sqlite

open AiSdlc.Transition

section Migrations

variable {Sql Content : Type}

structure Migration (Sql : Type) where
  version : Nat
  sql : Sql

/-- The modules of the migrations and their versions; `sql` gives the text of each. -/
def MIGRATIONS (sql : Nat → Sql) : List (Migration Sql) :=
  (List.range' 1 41).map fun version => { version, sql := sql version }

/-- What the tables hold, the rows of `schema_version`, and the migrations that were committed. -/
structure MigratedDatabase (Sql Content : Type) where
  content : Content
  versions : List Nat
  executed : List (Migration Sql)

/-- `INSERT OR IGNORE INTO schema_version`. -/
def insertOrIgnore (version : Nat) (versions : List Nat) : List Nat :=
  if version ∈ versions then versions else versions ++ [version]

/-- The transaction `apply`; where `exec` fails, it is rolled back and throws. -/
def applyMigration (exec : Sql → Content → Option Content) (migration : Migration Sql)
    (db : MigratedDatabase Sql Content)
    : Option (MigratedDatabase Sql Content) :=
  (exec migration.sql db.content).map fun content =>
    {
      content
      versions := insertOrIgnore migration.version db.versions
      executed := db.executed ++ [migration]
    }

/-- How far a process has come in `applyMigrations`. -/
inductive MigrationProcess (Sql : Type)
  | stopped
  | running (applied : List Nat) (todo : List (Migration Sql))
  | returned

/-- What happens next: a call, a turn of its loop, an exception, or the end of the process. -/
inductive MigrationEvent
  | starts (process : Nat)
  | turns (process : Nat)
  | throws (process : Nat)
  | crashes (process : Nat)

structure MigrationState (Sql Content : Type) where
  db : MigratedDatabase Sql Content
  process : Nat → MigrationProcess Sql

def MigrationState.put (state : MigrationState Sql Content) (process : Nat)
    (reached : MigrationProcess Sql)
    : MigrationState Sql Content :=
  { state with process := Function.update state.process process reached }

/-- A turn of the loop of `applyMigrations`. -/
def MigrationState.turn (exec : Sql → Content → Option Content)
    (state : MigrationState Sql Content) (process : Nat)
    : Option (MigrationState Sql Content) :=
  match state.process process with
  | .running _ [] => some (state.put process .returned)
  | .running applied (migration :: todo) =>
      if migration.version ∈ applied then some (state.put process (.running applied todo))
      else
        (applyMigration exec migration state.db).map fun db =>
          { state with db }.put process (.running applied todo)
  | _ => none

/-- `applyMigrations` of any number of processes; `exec` is `db.exec` of a migration's text. -/
def MigrationState.take (migrations : List (Migration Sql))
    (exec : Sql → Content → Option Content) (state : MigrationState Sql Content)
    : MigrationEvent → Option (MigrationState Sql Content)
  | .starts process =>
      match state.process process with
      | .running _ _ => none
      | _ => some (state.put process (.running state.db.versions migrations))
  | .turns process => state.turn exec process
  | .throws process =>
      match state.process process with
      | .running _ _ => some (state.put process .stopped)
      | _ => none
  | .crashes process => some (state.put process .stopped)

/-- A new database, and no process that works on it. -/
def MigrationState.new (fresh : Content) : MigrationState Sql Content :=
  {
    db := { content := fresh, versions := [], executed := [] }
    process := fun _ => .stopped
  }

/-- The runs from a new database. -/
def migrationSystem (migrations : List (Migration Sql)) (exec : Sql → Content → Option Content)
    (fresh : Content)
    : System (MigrationState Sql Content) MigrationEvent :=
  .ofSteps (fun state => state = .new fresh) (MigrationState.take migrations exec)

-----------------------------------------------------------------------------------------
-- What holds in every run
-----------------------------------------------------------------------------------------

/-- Every migration is executed behind those that stand before it in the list. -/
def InOrder (migrations executed : List (Migration Sql)) : Prop :=
  ∀ before migration after, executed = before ++ migration :: after →
    ∀ earlier later, migrations = earlier ++ migration :: later → ∀ other ∈ earlier, other ∈ before

/-- What a process has behind it is recorded. -/
def MigrationProcess.Knows (migrations : List (Migration Sql)) (versions : List Nat)
    : MigrationProcess Sql → Prop
  | .stopped => True
  | .running applied todo =>
      (∀ version ∈ applied, version ∈ versions)
        ∧ ∃ done, migrations = done ++ todo ∧ ∀ migration ∈ done, migration.version ∈ versions
  | .returned => ∀ migration ∈ migrations, migration.version ∈ versions

/-- What is recorded was executed, and is the start of the list. -/
structure MigratedDatabase.Recorded (migrations : List (Migration Sql))
    (exec : Sql → Content → Option Content) (fresh : Content) (db : MigratedDatabase Sql Content)
    : Prop where
  starts : ∃ recorded rest, migrations = recorded ++ rest
    ∧ db.versions = recorded.map Migration.version
    ∧ ∀ migration, migration ∈ recorded ↔ migration ∈ db.executed
  content : db.executed.foldlM (fun content migration => exec migration.sql content) fresh
    = some db.content
  ordered : InOrder migrations db.executed

structure Migrating (migrations : List (Migration Sql)) (exec : Sql → Content → Option Content)
    (fresh : Content) (state : MigrationState Sql Content)
    : Prop where
  recorded : state.db.Recorded migrations exec fresh
  knows (process : Nat) : (state.process process).Knows migrations state.db.versions

variable {migrations : List (Migration Sql)} {exec : Sql → Content → Option Content}
  {fresh : Content} {db next : MigratedDatabase Sql Content} {state : MigrationState Sql Content}
  {migration : Migration Sql}

theorem mem_insertOrIgnore {version other : Nat} {versions : List Nat}
    : other ∈ insertOrIgnore version versions ↔ other = version ∨ other ∈ versions := by
  unfold insertOrIgnore
  split
  next held =>
    constructor
    · exact .inr
    · intro either
      rcases either with same | held
      · rwa [same]
      · exact held
  next => rw [List.mem_append, List.mem_singleton, or_comm]

theorem MigrationProcess.Knows.mono {process : MigrationProcess Sql} {versions more : List Nat}
    (knows : process.Knows migrations versions) (grows : ∀ version ∈ versions, version ∈ more)
    : process.Knows migrations more := by
  cases process with
  | stopped => exact trivial
  | running applied todo =>
      obtain ⟨read, done, split, behind⟩ := knows
      exact ⟨fun version held => grows _ (read version held), done, split,
        fun migration held => grows _ (behind migration held)⟩
  | returned => exact fun migration held => grows _ (knows migration held)

/-- Two starts of a list of distinct versions: where the next entry behind one of them is not
in the other, and the first is in the other, they are the same.
-/
theorem recorded_eq_done {recorded rest done todo : List (Migration Sql)}
    (distinct : (migrations.map Migration.version).Nodup)
    (starts : migrations = recorded ++ rest) (split : migrations = done ++ migration :: todo)
    (behind : ∀ migration ∈ done, migration.version ∈ recorded.map Migration.version)
    (fresh : migration.version ∉ recorded.map Migration.version)
    : recorded = done ∧ rest = migration :: todo := by
  rw [starts] at split distinct
  rcases List.append_eq_append_iff.mp split with ⟨more, longer, shorter⟩ | ⟨more, longer, shorter⟩
  · cases more with
    | nil => exact ⟨by simpa using longer.symm, by simpa using shorter⟩
    | cons other more =>
        have late : other ∈ rest := by simp [shorter]
        have early := behind other (by simp [longer])
        rw [List.map_append, List.nodup_append] at distinct
        exact (distinct.2.2 _ early _ (List.mem_map_of_mem late) rfl).elim
  · cases more with
    | nil => exact ⟨by simpa using longer, by simpa using shorter.symm⟩
    | cons other more =>
        obtain ⟨rfl, -⟩ := List.cons.inj shorter
        exact (fresh (List.mem_map_of_mem (by simp [longer]))).elim

theorem InOrder.append {executed done todo : List (Migration Sql)}
    (ordered : InOrder migrations executed) (distinct : migrations.Nodup)
    (split : migrations = done ++ migration :: todo)
    (behind : ∀ other ∈ done, other ∈ executed)
    : InOrder migrations (executed ++ [migration]) := by
  intro before current after spelled earlier later also other held
  rcases List.eq_nil_or_concat after with rfl | ⟨after, last, rfl⟩
  · obtain ⟨rfl, rfl⟩ := List.append_singleton_inj.mp spelled
    rw [also] at split distinct
    obtain ⟨-, unique, apart⟩ := List.nodup_append.mp distinct
    have notEarlier : migration ∉ earlier := fun within =>
      apart migration within migration List.mem_cons_self rfl
    have notLater : migration ∉ later := (List.nodup_cons.mp unique).1
    obtain ⟨rfl, -, -⟩ := (List.append_cons_inj_of_notMem notEarlier notLater).mp split
    exact behind other held
  · rw [List.concat_eq_append, ← List.cons_append, ← List.append_assoc] at spelled
    obtain ⟨same, -⟩ := List.append_singleton_inj.mp spelled
    exact ordered before current after same earlier later also other held

/-- One transaction records what it executes. -/
theorem MigratedDatabase.Recorded.apply (distinct : (migrations.map Migration.version).Nodup)
    (holds : db.Recorded migrations exec fresh) {done todo : List (Migration Sql)}
    (split : migrations = done ++ migration :: todo)
    (behind : ∀ other ∈ done, other.version ∈ db.versions)
    (applied : applyMigration exec migration db = some next)
    : next.Recorded migrations exec fresh := by
  obtain ⟨content, executes, rfl⟩ := Option.map_eq_some_iff.mp applied
  obtain ⟨⟨recorded, rest, starts, versions, same⟩, yields, ordered⟩ := holds
  have member (other : Migration Sql) (listed : other ∈ migrations)
      (known : other.version ∈ db.versions) : other ∈ recorded := by
    rw [versions] at known
    obtain ⟨twin, within, equal⟩ := List.mem_map.mp known
    have inList : twin ∈ migrations := starts ▸ List.mem_append_left rest within
    exact List.inj_on_of_nodup_map distinct inList listed equal ▸ within
  refine ⟨?_, ?_, ordered.append distinct.of_map split fun other held => ?_⟩
  · by_cases known : migration.version ∈ db.versions
    · refine ⟨recorded, rest, starts, ?_, fun other => ?_⟩
      · exact (if_pos known).trans versions
      · have again := member migration (by simp [split]) known
        rw [List.mem_append, List.mem_singleton, ← same]
        constructor
        · exact .inl
        · intro either
          rcases either with held | rfl
          · exact held
          · exact again
    · rw [versions] at behind known
      obtain ⟨rfl, rfl⟩ := recorded_eq_done distinct starts split behind known
      refine ⟨recorded ++ [migration], todo, by simp [starts], ?_, fun other => ?_⟩
      · simp only [insertOrIgnore, versions, known, if_false, List.map_append, List.map_cons,
          List.map_nil]
      · rw [List.mem_append, List.mem_append, same]
  · rw [List.foldlM_append, yields]
    simp [executes]
  · exact (same other).mp (member other (by simp [split, held]) (behind other held))

theorem Migrating.initially (migrations : List (Migration Sql))
    (exec : Sql → Content → Option Content) (fresh : Content)
    : Migrating migrations exec fresh (.new fresh) := by
  refine ⟨⟨⟨[], migrations, rfl, rfl, fun _ => Iff.rfl⟩, rfl, ?_⟩, fun _ => trivial⟩
  intro before migration after spelled
  exact (List.append_ne_nil_of_right_ne_nil before (List.cons_ne_nil migration after)
    spelled.symm).elim

theorem Migrating.put (holds : Migrating migrations exec fresh state) (process : Nat)
    {reached : MigrationProcess Sql} (knows : reached.Knows migrations state.db.versions)
    : Migrating migrations exec fresh (state.put process reached) := by
  refine ⟨holds.recorded, fun other => ?_⟩
  by_cases same : other = process
  · subst same
    simpa [MigrationState.put] using knows
  · simpa [MigrationState.put, same] using holds.knows other

/-- A turn keeps what is recorded, and the process knows of what it has applied. -/
theorem Migrating.turn (distinct : (migrations.map Migration.version).Nodup)
    (holds : Migrating migrations exec fresh state) {process : Nat}
    {reached : MigrationState Sql Content} (turns : state.turn exec process = some reached)
    : Migrating migrations exec fresh reached := by
  unfold MigrationState.turn at turns
  have known := holds.knows process
  cases stands : state.process process with
  | stopped | returned =>
      rw [stands] at turns
      cases turns
  | running applied todo =>
      rw [stands] at turns known
      obtain ⟨read, done, split, behind⟩ := known
      cases todo with
      | nil =>
          cases turns
          refine holds.put process fun migration held => behind migration ?_
          rwa [split, List.append_nil] at held
      | cons migration todo =>
          dsimp only at turns
          split at turns
          next skipped =>
            cases turns
            refine holds.put process ⟨read, done ++ [migration], by simp [split], ?_⟩
            intro other held
            rcases List.mem_append.mp held with before | last
            · exact behind other before
            · rw [List.mem_singleton.mp last]
              exact read _ skipped
          next =>
            obtain ⟨db, executes, rfl⟩ := Option.map_eq_some_iff.mp turns
            have recorded := holds.recorded.apply distinct split behind executes
            have grows : ∀ version ∈ state.db.versions, version ∈ db.versions := by
              intro version held
              obtain ⟨content, -, rfl⟩ := Option.map_eq_some_iff.mp executes
              exact mem_insertOrIgnore.mpr (.inr held)
            have records : migration.version ∈ db.versions := by
              obtain ⟨content, -, rfl⟩ := Option.map_eq_some_iff.mp executes
              exact mem_insertOrIgnore.mpr (.inl rfl)
            have kept : Migrating migrations exec fresh { state with db } :=
              ⟨recorded, fun other => (holds.knows other).mono grows⟩
            refine kept.put process ⟨fun version held => grows version (read version held),
              done ++ [migration], by simp [split], ?_⟩
            intro other held
            rcases List.mem_append.mp held with before | last
            · exact grows _ (behind other before)
            · rw [List.mem_singleton.mp last]
              exact records

/-- Every event keeps what is recorded. -/
theorem Migrating.take (distinct : (migrations.map Migration.version).Nodup)
    (holds : Migrating migrations exec fresh state) {event : MigrationEvent}
    {reached : MigrationState Sql Content} (taken : state.take migrations exec event = some reached)
    : Migrating migrations exec fresh reached := by
  cases event with
  | starts process =>
      unfold MigrationState.take at taken
      dsimp only at taken
      split at taken
      next => cases taken
      next =>
        cases taken
        refine holds.put process ⟨fun version held => held, [], rfl, fun other none => ?_⟩
        cases none
  | turns process => exact holds.turn distinct taken
  | throws process =>
      unfold MigrationState.take at taken
      dsimp only at taken
      split at taken
      next =>
        cases taken
        exact holds.put process trivial
      next => cases taken
  | crashes process =>
      cases taken
      exact holds.put process trivial

/-- What is recorded holds along every run, by induction over the run. -/
theorem migrating_run (distinct : (migrations.map Migration.version).Nodup)
    {events : List MigrationEvent} (run : (migrationSystem migrations exec fresh).Run events state)
    : Migrating migrations exec fresh state := by
  refine run.invariant (fun _ state => Migrating migrations exec fresh state) ?_ ?_
  · rintro state rfl
    exact Migrating.initially migrations exec fresh
  · intro _ state event next holds taken
    exact holds.take distinct taken

theorem distinct_MIGRATIONS (sql : Nat → Sql)
    : ((MIGRATIONS sql).map Migration.version).Nodup := by
  have versions : (MIGRATIONS sql).map Migration.version = List.range' 1 41 := by
    rw [MIGRATIONS, List.map_map]
    exact List.map_id _
  rw [versions]
  exact List.nodup_range'

/-- Whatever the processes do, the recorded versions are the first ones of the list; the tables
hold what executing those migrations yields, each of them behind the ones before it; and a call
that returns has left none out.
-/
theorem migrations_recorded {sql : Nat → Sql} {events : List MigrationEvent}
    (run : (migrationSystem (MIGRATIONS sql) exec fresh).Run events state)
    : state.db.Recorded (MIGRATIONS sql) exec fresh
      ∧ ∀ process, state.process process = .returned →
          state.db.versions = (MIGRATIONS sql).map Migration.version := by
  have distinct := distinct_MIGRATIONS sql
  obtain ⟨recorded, knows⟩ := migrating_run distinct run
  refine ⟨recorded, fun process returned => ?_⟩
  have all := knows process
  rw [returned] at all
  obtain ⟨listed, rest, starts, versions, -⟩ := recorded.starts
  cases rest with
  | nil => rw [versions, starts, List.append_nil]
  | cons migration rest =>
      have known := all migration (by simp [starts])
      rw [versions] at known
      rw [starts, List.map_append, List.nodup_append] at distinct
      exact (distinct.2.2 _ known _ List.mem_cons_self rfl).elim

/-- Writes down that a text was executed. -/
def logSql (version : Nat) (content : List Nat) : Option (List Nat) :=
  some (content ++ [version])

/-- Two processes read the versions before either of them applies one. -/
theorem migrations_recorded_together
    : ∃ state, (migrationSystem (MIGRATIONS id) logSql []).Run
          [.turns 0, .turns 1, .turns 0, .starts 1, .starts 0] state
        ∧ state.db.content = [1, 1, 2]
        ∧ state.db.Recorded (MIGRATIONS id) logSql [] := by
  have starts : (migrationSystem (MIGRATIONS id) logSql []).initial (.new []) := rfl
  obtain ⟨state, taken, content⟩ : ∃ state,
      takeAll (MigrationState.take (MIGRATIONS id) logSql) (.new [])
          [.turns 0, .turns 1, .turns 0, .starts 1, .starts 0] = some state
        ∧ state.db.content = [1, 1, 2] :=
    ⟨_, rfl, rfl⟩
  have run := System.run_takeAll starts taken
  exact ⟨state, run, content, (migrations_recorded run).1⟩

-----------------------------------------------------------------------------------------
-- One process at a time
-----------------------------------------------------------------------------------------

def MigrationProcess.isRunning : MigrationProcess Sql → Bool
  | .running _ _ => true
  | _ => false

/-- No process calls while another one is on its way. -/
def StartsAlone (state : MigrationState Sql Content) (event : MigrationEvent) : Prop :=
  ∀ process, event = .starts process → ∀ other, (state.process other).isRunning = false

/-- A process that does not know of a version is the first to apply it. -/
def MigrationProcess.IsFirst (versions : List Nat) : MigrationProcess Sql → Prop
  | .running applied todo =>
      ∀ migration ∈ todo, migration.version ∈ versions → migration.version ∈ applied
  | _ => True

structure MigratingAlone (migrations : List (Migration Sql))
    (exec : Sql → Content → Option Content) (fresh : Content)
    (state : MigrationState Sql Content)
    : Prop where
  migrating : Migrating migrations exec fresh state
  once : ∃ rest, migrations = state.db.executed ++ rest
    ∧ state.db.versions = state.db.executed.map Migration.version
  alone (process other : Nat) (runs : (state.process process).isRunning = true)
    (also : (state.process other).isRunning = true)
    : process = other
  first (process : Nat) : (state.process process).IsFirst state.db.versions

theorem alone_update {processes : Nat → MigrationProcess Sql} {process : Nat}
    {reached : MigrationProcess Sql}
    (alone : ∀ left right, (processes left).isRunning = true → (processes right).isRunning = true →
      left = right)
    (rest : reached.isRunning = true →
      ∀ other, other ≠ process → (processes other).isRunning = false)
    (left right : Nat) (runs : (Function.update processes process reached left).isRunning = true)
    (also : (Function.update processes process reached right).isRunning = true)
    : left = right := by
  by_cases here : left = process
  · by_cases there : right = process
    · rw [here, there]
    · rw [here, Function.update_self] at runs
      rw [Function.update_of_ne there, rest runs right there] at also
      cases also
  · rw [Function.update_of_ne here] at runs
    by_cases there : right = process
    · rw [there, Function.update_self] at also
      rw [rest also left here] at runs
      cases runs
    · rw [Function.update_of_ne there] at also
      exact alone left right runs also

theorem isFirst_of_not_running {process : MigrationProcess Sql} (rests : process.isRunning = false)
    (versions : List Nat)
    : process.IsFirst versions := by
  cases process with
  | stopped | returned => exact trivial
  | running => cases rests

theorem MigratingAlone.put (holds : MigratingAlone migrations exec fresh state) {process : Nat}
    {reached : MigrationProcess Sql} (knows : reached.Knows migrations state.db.versions)
    (first : reached.IsFirst state.db.versions)
    (rest : reached.isRunning = true →
      ∀ other, other ≠ process → (state.process other).isRunning = false)
    : MigratingAlone migrations exec fresh (state.put process reached) := by
  refine ⟨holds.migrating.put process knows, holds.once, alone_update holds.alone rest, ?_⟩
  intro other
  by_cases same : other = process
  · subst same
    simpa [MigrationState.put] using first
  · simpa [MigrationState.put, same] using holds.first other

theorem MigratingAlone.stop (holds : MigratingAlone migrations exec fresh state) (process : Nat)
    : MigratingAlone migrations exec fresh (state.put process .stopped) := by
  refine holds.put trivial trivial fun runs => ?_
  cases runs

/-- A process that is alone applies what no other one has applied. -/
theorem MigratingAlone.turn (distinct : (migrations.map Migration.version).Nodup)
    (holds : MigratingAlone migrations exec fresh state) {process : Nat}
    {reached : MigrationState Sql Content} (turns : state.turn exec process = some reached)
    : MigratingAlone migrations exec fresh reached := by
  have kept := holds.migrating.turn distinct turns
  have known := holds.migrating.knows process
  have first := holds.first process
  unfold MigrationState.turn at turns
  cases stands : state.process process with
  | stopped | returned =>
      rw [stands] at turns
      cases turns
  | running applied todo =>
      rw [stands] at turns known first
      obtain ⟨read, done, split, behind⟩ := known
      have alone (other : Nat) (apart : other ≠ process)
          : (state.process other).isRunning = false := by
        by_contra runs
        exact apart (holds.alone other process (Bool.not_eq_false _ ▸ runs) (by rw [stands]; rfl))
      cases todo with
      | nil =>
          cases turns
          refine holds.put (fun migration held => behind migration ?_) trivial fun runs => ?_
          · rwa [split, List.append_nil] at held
          · cases runs
      | cons migration todo =>
          dsimp only at turns
          split at turns
          next skipped =>
            cases turns
            refine holds.put ?_ (fun other held => first other (List.mem_cons_of_mem _ held))
              fun _ => alone
            refine ⟨read, done ++ [migration], by simp [split], fun other held => ?_⟩
            rcases List.mem_append.mp held with before | last
            · exact behind other before
            · rw [List.mem_singleton.mp last]
              exact read _ skipped
          next unknown =>
            obtain ⟨db, executes, rfl⟩ := Option.map_eq_some_iff.mp turns
            obtain ⟨content, -, rfl⟩ := Option.map_eq_some_iff.mp executes
            obtain ⟨rest, starts, versions⟩ := holds.once
            -- the version is recorded by nobody, since the process would know of it
            have unrecorded : migration.version ∉ state.db.versions := fun held =>
              unknown (first migration List.mem_cons_self held)
            rw [versions] at behind unrecorded
            obtain ⟨same, -⟩ := recorded_eq_done distinct starts split behind unrecorded
            have inserted : insertOrIgnore migration.version state.db.versions
                = (state.db.executed ++ [migration]).map Migration.version := by
              rw [insertOrIgnore, versions, if_neg unrecorded, List.map_append]
              rfl
            refine ⟨kept, ⟨todo, ?_, inserted⟩, alone_update holds.alone fun _ => alone, ?_⟩
            · simp [MigrationState.put, split, same]
            · intro other
              by_cases here : other = process
              · subst here
                rw [split, List.map_append, List.nodup_append, List.map_cons,
                  List.nodup_cons] at distinct
                simp only [MigrationState.put, Function.update_self]
                intro later held recorded
                rcases mem_insertOrIgnore.mp recorded with equal | before
                · exact (distinct.2.1.1 (equal ▸ List.mem_map_of_mem held)).elim
                · exact first later (List.mem_cons_of_mem _ held) before
              · simp only [MigrationState.put, Function.update_of_ne here]
                exact isFirst_of_not_running (alone other here) _

/-- Every event keeps that each migration is executed once, while processes start alone. -/
theorem MigratingAlone.take (distinct : (migrations.map Migration.version).Nodup)
    (holds : MigratingAlone migrations exec fresh state) {event : MigrationEvent}
    (alone : StartsAlone state event) {reached : MigrationState Sql Content}
    (taken : state.take migrations exec event = some reached)
    : MigratingAlone migrations exec fresh reached := by
  cases event with
  | starts process =>
      unfold MigrationState.take at taken
      dsimp only at taken
      split at taken
      next => cases taken
      next =>
        cases taken
        refine holds.put ⟨fun version held => held, [], rfl, fun other none => ?_⟩
          (fun migration _ held => held) fun _ other _ => alone process rfl other
        cases none
  | turns process => exact holds.turn distinct taken
  | throws process =>
      unfold MigrationState.take at taken
      dsimp only at taken
      split at taken
      next =>
        cases taken
        exact holds.stop process
      next => cases taken
  | crashes process =>
      cases taken
      exact holds.stop process

/-- While processes start alone, the migrations that are recorded were executed once each, in
the order of the list, and the tables hold just what that yields.
-/
theorem migrations_executed_once {sql : Nat → Sql} {events : List MigrationEvent}
    (run : ((migrationSystem (MIGRATIONS sql) exec fresh).restrict StartsAlone).Run events state)
    : ∃ count, state.db.executed = (MIGRATIONS sql).take count
        ∧ state.db.versions = ((MIGRATIONS sql).take count).map Migration.version
        ∧ ((MIGRATIONS sql).take count).foldlM
            (fun content migration => exec migration.sql content) fresh
            = some state.db.content := by
  have distinct := distinct_MIGRATIONS sql
  have holds : MigratingAlone (MIGRATIONS sql) exec fresh state := by
    refine run.invariant (fun _ state => MigratingAlone (MIGRATIONS sql) exec fresh state) ?_ ?_
    · rintro state rfl
      refine ⟨Migrating.initially _ exec fresh, ⟨_, rfl, rfl⟩, ?_, fun _ => trivial⟩
      intro process other runs
      cases runs
    · intro _ state event next holds taken
      exact holds.take distinct taken.1 taken.2
  obtain ⟨rest, starts, versions⟩ := holds.once
  have first : state.db.executed = (MIGRATIONS sql).take state.db.executed.length := by
    rw [starts, List.take_left]
  refine ⟨state.db.executed.length, first, ?_, ?_⟩
  · rw [← first, versions]
  · rw [← first]
    exact holds.migrating.recorded.content

/-- A process goes on where another one crashed. -/
theorem migrations_executed_once_crash
    : ∃ state, ((migrationSystem (MIGRATIONS id) logSql []).restrict StartsAlone).Run
          [.turns 1, .turns 1, .starts 1, .crashes 0, .turns 0, .starts 0] state
        ∧ ∃ count, state.db.executed = (MIGRATIONS id).take count
          ∧ state.db.versions = ((MIGRATIONS id).take count).map Migration.version
          ∧ ((MIGRATIONS id).take count).foldlM
              (fun content migration => logSql migration.sql content) []
              = some state.db.content := by
  have alone {state : MigrationState Nat (List Nat)} (rest : ∀ other,
      (state.process other).isRunning = false) (process : Nat)
      : StartsAlone state (.starts process) :=
    fun _ _ => rest
  obtain ⟨state, run⟩ : ∃ state, ((migrationSystem (MIGRATIONS id) logSql []).restrict
      StartsAlone).Run [.turns 1, .turns 1, .starts 1, .crashes 0, .turns 0, .starts 0] state := by
    refine ⟨_, .next (.next (.next (.next (.next (.next (.start rfl) ⟨alone (fun _ => rfl) 0, rfl⟩)
      ⟨?_, rfl⟩) ⟨?_, rfl⟩) ⟨alone (fun other => ?_) 1, rfl⟩) ⟨?_, rfl⟩) ⟨?_, rfl⟩⟩
    · intro process same
      cases same
    · intro process same
      cases same
    · by_cases first : other = 0 <;> simp [MigrationState.put, first] <;> rfl
    · intro process same
      cases same
    · intro process same
      cases same
  exact ⟨state, run, migrations_executed_once run⟩

end Migrations

end AiSdlc.Sqlite
