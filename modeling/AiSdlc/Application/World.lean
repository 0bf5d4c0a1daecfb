import AiSdlc.Application.CoordinatorInvariants
import AiSdlc.Sqlite.ReleaseBatchRepository

/-! The surroundings of the coordinator: the stored batch, runs and jobs answer as the
repositories do, and the other ports answer as they like within given bounds.
-/

namespace AiSdlc.Application

open AiSdlc.Js
open AiSdlc.Domain
open AiSdlc.Async
open AiSdlc.Sqlite

/-- A request with the reply it got. -/
structure Exchange where
  request : Request
  reply : request.Reply

/-- The stored batch, the stored runs and jobs, and what was exchanged so far, the latest
exchange first.
-/
structure World where
  batch : ReleaseBatch
  runs : List Run
  jobs : List Job
  log : List Exchange

def World.record (world : World) (request : Request) (reply : request.Reply) : World :=
  { world with log := ⟨request, reply⟩ :: world.log }

/-- `ORDER BY started_at DESC LIMIT 1`: which of several latest runs is taken is left open. -/
structure LatestRun where
  pick : List Run → Option Run
  isSome : ∀ runs, runs ≠ [] → (pick runs).isSome = true
  mem : ∀ runs run, pick runs = some run → run ∈ runs
  latest : ∀ runs run, pick runs = some run → ∀ other ∈ runs, other.startedAt.ms ≤ run.startedAt.ms

/-- The first of the latest runs. -/
def pickLatest (runs : List Run) : Option Run :=
  runs.foldr (fun run latest => some (latest.elim run fun later =>
    if later.startedAt.ms ≤ run.startedAt.ms then run else later)) none

/-- The picked run is one of the runs and none of them started later, by induction over the
runs.
-/
theorem pickLatest_spec {runs : List Run} {run : Run} (picked : pickLatest runs = some run)
    : run ∈ runs ∧ ∀ other ∈ runs, other.startedAt.ms ≤ run.startedAt.ms := by
  induction runs generalizing run with
  | nil => simp [pickLatest] at picked
  | cons head rest ih =>
      cases tail : pickLatest rest with
      | none =>
          have empty : rest = [] := by
            cases rest with
            | nil => rfl
            | cons next more => simp [pickLatest] at tail
          subst empty
          obtain rfl : head = run := by simpa [pickLatest] using picked
          simp
      | some later =>
          obtain ⟨member, latest⟩ := ih tail
          have choice : (if later.startedAt.ms ≤ head.startedAt.ms then head else later) = run := by
            unfold pickLatest at picked tail
            rw [List.foldr_cons, tail] at picked
            simpa using picked
          split at choice
          · rename_i order
            subst choice
            refine ⟨by simp, fun other hm => ?_⟩
            rcases List.mem_cons.mp hm with rfl | hm
            · exact Int.le_refl _
            · exact Int.le_trans (latest other hm) order
          · rename_i order
            subst choice
            refine ⟨List.mem_cons_of_mem _ member, fun other hm => ?_⟩
            rcases List.mem_cons.mp hm with rfl | hm
            · exact Int.le_of_lt (Int.not_le.mp order)
            · exact latest other hm

/-- The latest run that comes first. -/
def LatestRun.first : LatestRun where
  pick := pickLatest
  isSome runs nonempty := by
    obtain ⟨run, rest, rfl⟩ := List.exists_cons_of_ne_nil nonempty
    simp [pickLatest]
  mem _ _ picked := (pickLatest_spec picked).1
  latest _ _ picked := (pickLatest_spec picked).2

/-- The runs of an issue in a repository. -/
def World.runsOf (world : World) (repoId : RepositoryId) (issueNumber : Int) : List Run :=
  world.runs.filter fun run => run.repoId = repoId && run.issueNumber = issueNumber

/-- `insertIfNoActive`; the UUID and the display id of a run are unique. -/
def World.insertRunIfNoActive (world : World) (run : Run) : Except Thrown World :=
  if world.runs.any (isActiveFor · run.repoId run.issueNumber) then
    .error (.port
      s!"An active run already exists for repository {run.repoId} issue {run.issueNumber}")
  else if world.runs.any (fun other => other.uuid = run.uuid
      || other.displayId = run.displayId) then
    .error (.port "UNIQUE constraint failed")
  else
    .ok { world with runs := world.runs ++ [run] }

def World.enqueueJob (world : World) (job : Job) : Except Thrown World :=
  if world.jobs.any (·.id = job.id) then
    .error (.port s!"duplicate job id {job.id}")
  else
    .ok { world with jobs := world.jobs ++ [job] }

/-- `UPDATE runs … WHERE uuid = @uuid`. -/
def World.updateRun (world : World) (uuid : String) (patch : RunRepositoryUpdatePatch)
    : World :=
  { world with
    runs := world.runs.map fun run => if run.uuid = uuid then patch.patch run else run }

/-- `update` of the stored batch, for a batch with its id. -/
def World.updateBatch (world : World) (batch : ReleaseBatch) : Except Thrown World :=
  match checkUpdate world.batch batch with
  | .ok () => .ok { world with batch }
  | .error error => .error (.batch error)

/-- The reply to a writing request: its error leaves the world alone. -/
def World.write (world : World) (written : Except Thrown World) : Except Thrown Unit × World :=
  match written with
  | .ok next => (.ok (), next)
  | .error error => (.error error, world)

/-- What the stores reply to a request, and what they hold then. -/
def World.store (latest : LatestRun) (world : World)
    : (request : Request) → Option (request.Reply × World)
  | .findBatch id => some (.ok (if world.batch.id = id then some world.batch else none), world)
  | .updateBatch batch => some (world.write (world.updateBatch batch))
  | .findRunByUuid uuid => some (.ok (world.runs.find? fun run => some run.uuid = uuid), world)
  | .findRunByIssueNumber repoId issueNumber =>
      some (.ok (latest.pick (world.runsOf repoId issueNumber)), world)
  | .updateRun uuid patch => some (.ok (), world.updateRun uuid patch)
  | .insertRunIfNoActive run => some (world.write (world.insertRunIfNoActive run))
  | .listJobsForRepo repoId => some (.ok (world.jobs.filter (·.repoId = repoId)), world)
  | .enqueueJob job => some (world.write (world.enqueueJob job))
  | _ => none

/-- How the latest run is picked, and what may come from outside the stores: the replies of
the other ports, and the errors of the stores beside those for a broken rule.
-/
structure Surroundings where
  latest : LatestRun
  outside : (request : Request) → request.Reply → Prop

/-- The replies that a request may get. -/
inductive Surroundings.Answers (surroundings : Surroundings) (world : World)
    (request : Request) (reply : request.Reply)
    : World → Prop
  | stored {next : World} (replied : world.store surroundings.latest request = some (reply, next))
      : Answers surroundings world request reply (next.record request reply)
  | outside
      (free : world.store surroundings.latest request = none ∨ ∃ error, reply = .error error)
      (allowed : surroundings.outside request reply)
      : Answers surroundings world request reply (world.record request reply)

@[simp]
theorem World.record_batch (world : World) (request : Request) (reply : request.Reply)
    : (world.record request reply).batch = world.batch := rfl

@[simp]
theorem World.record_log (world : World) (request : Request) (reply : request.Reply)
    : (world.record request reply).log = ⟨request, reply⟩ :: world.log := rfl

section Answers

variable {surroundings : Surroundings} {world after : World}

theorem World.write_eq_error {written : Except Thrown World} {error : Thrown} {next : World}
    (failed : world.write written = (.error error, next))
    : next = world := by
  cases written with
  | ok written => simp [World.write] at failed
  | error other =>
      simp only [World.write, Prod.mk.injEq] at failed
      exact failed.2.symm

theorem World.write_eq_ok {written : Except Thrown World} {next : World}
    (succeeded : world.write written = (.ok (), next))
    : written = .ok next := by
  cases written with
  | ok written =>
      simp only [World.write, Prod.mk.injEq] at succeeded
      rw [succeeded.2]
  | error other => simp [World.write] at succeeded

theorem Surroundings.Answers.of_error {request : Request} {error : Thrown}
    (answered : surroundings.Answers world request (.error error) after)
    : after = world.record request (.error error) := by
  cases answered with
  | outside _ _ => rfl
  | @stored next replied =>
      suffices same : next = world by rw [same]
      cases request <;> simp only [World.store, Option.some.injEq, reduceCtorEq] at replied
      case updateBatch | insertRunIfNoActive | enqueueJob => exact World.write_eq_error replied
      all_goals simp at replied

theorem Surroundings.Answers.of_quiet {request : Request} {reply : request.Reply}
    (answered : surroundings.Answers world request reply after)
    (quiet : request.isQuiet = true)
    : after = world.record request reply := by
  cases answered with
  | outside _ _ => rfl
  | @stored next replied =>
      suffices same : next = world by rw [same]
      cases request <;> simp [Request.isQuiet] at quiet <;> simp [World.store] at replied
      all_goals exact replied.2.symm

theorem Surroundings.Answers.of_findBatch {id : ReleaseBatchId}
    {reply : (Request.findBatch id).Reply}
    (answered : surroundings.Answers world (.findBatch id) reply after)
    : after = world.record _ reply
      ∧ ∀ found, reply = .ok (some found) → found = world.batch := by
  cases answered with
  | outside free _ =>
      obtain stored | ⟨error, rfl⟩ := free
      · simp [World.store] at stored
      · exact ⟨rfl, by simp⟩
  | stored replied =>
      simp only [World.store, Option.some.injEq, Prod.mk.injEq] at replied
      obtain ⟨rfl, rfl⟩ := replied
      refine ⟨rfl, fun found reply => ?_⟩
      split at reply
      · simpa using reply.symm
      · simp at reply

/-- A successful update stores the batch, which passed the checks of the store. -/
theorem Surroundings.Answers.of_updateBatch {batch : ReleaseBatch}
    (answered : surroundings.Answers world (.updateBatch batch) (.ok ()) after)
    : checkUpdate world.batch batch = .ok ()
      ∧ after = { world with batch }.record (.updateBatch batch) (.ok ()) := by
  cases answered with
  | outside free _ =>
      obtain stored | ⟨error, failed⟩ := free
      · simp [World.store] at stored
      · simp at failed
  | stored replied =>
      have written := World.write_eq_ok (Option.some.inj replied)
      cases checked : checkUpdate world.batch batch with
      | ok _ =>
          simp only [World.updateBatch, checked, Except.ok.injEq] at written
          exact ⟨rfl, by rw [written]⟩
      | error error => simp [World.updateBatch, checked] at written

theorem Surroundings.Answers.of_updateRun {uuid : String} {patch : RunRepositoryUpdatePatch}
    {reply : (Request.updateRun uuid patch).Reply}
    (answered : surroundings.Answers world (.updateRun uuid patch) reply after)
    : after = world.record _ reply
      ∨ after = (world.updateRun uuid patch).record _ reply := by
  cases answered with
  | outside free _ => exact .inl rfl
  | stored replied =>
      simp only [World.store, Option.some.injEq, Prod.mk.injEq] at replied
      obtain ⟨_, rfl⟩ := replied
      exact .inr rfl

theorem Surroundings.Answers.of_insertRun {run : Run}
    (answered : surroundings.Answers world (.insertRunIfNoActive run) (.ok ()) after)
    : (∀ other ∈ world.runs, isActiveFor other run.repoId run.issueNumber = false
        ∧ other.uuid ≠ run.uuid)
      ∧ after = { world with runs := world.runs ++ [run] }.record
          (.insertRunIfNoActive run) (.ok ()) := by
  cases answered with
  | outside free _ =>
      obtain stored | ⟨error, failed⟩ := free
      · simp [World.store] at stored
      · simp at failed
  | stored replied =>
      have written := World.write_eq_ok (Option.some.inj replied)
      unfold World.insertRunIfNoActive at written
      split at written
      · simp at written
      split at written
      · simp at written
      · rename_i inactive unique
        simp only [Except.ok.injEq] at written
        simp only [List.any_eq_true, not_exists, not_and, Bool.not_eq_true] at inactive unique
        refine ⟨fun other member => ⟨inactive other member, ?_⟩, by rw [written]⟩
        have apart := unique other member
        simp only [Bool.or_eq_false_iff, decide_eq_false_iff_not] at apart
        exact apart.1

theorem Surroundings.Answers.of_enqueueJob {job : Job}
    (answered : surroundings.Answers world (.enqueueJob job) (.ok ()) after)
    : after = { world with jobs := world.jobs ++ [job] }.record (.enqueueJob job) (.ok ()) := by
  cases answered with
  | outside free _ =>
      obtain stored | ⟨error, failed⟩ := free
      · simp [World.store] at stored
      · simp at failed
  | stored replied =>
      have written := World.write_eq_ok (Option.some.inj replied)
      unfold World.enqueueJob at written
      split at written
      · simp at written
      · simp only [Except.ok.injEq] at written
        rw [written]

theorem Surroundings.Answers.log_eq {request : Request} {reply : request.Reply}
    (answered : surroundings.Answers world request reply after)
    : after.log = ⟨request, reply⟩ :: world.log := by
  cases reply with
  | error error => rw [answered.of_error, World.record_log]
  | ok answer =>
      cases request with
      | findBatch id => rw [answered.of_findBatch.1, World.record_log]
      | updateBatch batch => rw [answered.of_updateBatch.2, World.record_log]
      | updateRun uuid patch =>
          obtain same | same := answered.of_updateRun
          · rw [same, World.record_log]
          · rw [same, World.record_log, World.updateRun]
      | insertRunIfNoActive run => rw [answered.of_insertRun.2, World.record_log]
      | enqueueJob job => rw [answered.of_enqueueJob, World.record_log]
      | _ => rw [answered.of_quiet rfl, World.record_log]

theorem Surroundings.Answers.log_subset {request : Request} {reply : request.Reply}
    (answered : surroundings.Answers world request reply after)
    : world.log ⊆ after.log := by
  rw [answered.log_eq]
  exact List.subset_cons_self _ _

end Answers

/-- The surroundings whose other ports answer by a table. -/
def tableSurroundings (table : (request : Request) → Option request.Reply) : Surroundings :=
  {
    latest := .first
    outside := fun request reply => table request = some reply
  }

/-- Answers a request from the stores, and else from the table. -/
def World.handle (table : (request : Request) → Option request.Reply) (world : World)
    (request : Request)
    : Option (request.Reply × World) :=
  match world.store .first request, table request with
  | some (reply, next), _ => some (reply, next.record request reply)
  | none, some reply => some (reply, world.record request reply)
  | none, none => none

theorem World.handle_answers {table : (request : Request) → Option request.Reply}
    {world after : World} {request : Request} {reply : request.Reply}
    (handled : world.handle table request = some (reply, after))
    : (tableSurroundings table).Answers world request reply after := by
  unfold World.handle at handled
  split at handled
  · rename_i stored
    obtain ⟨rfl, rfl⟩ := Prod.mk.inj (Option.some.inj handled)
    exact .stored stored
  · rename_i free listed
    obtain ⟨rfl, rfl⟩ := Prod.mk.inj (Option.some.inj handled)
    exact .outside (.inl free) listed
  · simp at handled

theorem World.exec_of_handle {α : Type} {table : (request : Request) → Option request.Reply}
    {program : Program Request Request.Reply α} {world final : World} {value : α}
    (ran : program.run (World.handle table) world = some (value, final))
    : program.Exec (tableSurroundings table).Answers world value final := by
  have answers (world : World) (request : Request) (reply : request.Reply) (after : World)
      (handled : world.handle table request = some (reply, after))
      : (tableSurroundings table).Answers world request reply after :=
    World.handle_answers handled
  exact Program.exec_of_run answers ran

end AiSdlc.Application
