import AiSdlc.Async.Beside
import AiSdlc.Application.OrphanedRuns

/-! The recovery of orphaned runs beside other actors, which leave some runs untouched. What one
use case writes as failed, the other one resumes or gives back, except where the check for an
active lease throws: that ends the loop, and the runs that are still waiting stay failed.
-/

namespace AiSdlc.Application

open AiSdlc.Js
open AiSdlc.Domain
open AiSdlc.Async
open AiSdlc.Sqlite

/-- A check for an active lease that threw, after so many that did not, and a lease that its
release left in place.
-/
inductive SweepFault
  | checkThrew (count : Nat)
  | leaseKept (token : LeaseToken)
  deriving DecidableEq, Repr

/-- The stores, the tokens of the leases that the recovery holds, the checks for active leases
that it has made, and what went wrong with the leases.
-/
structure Recovering where
  runs : RunTable
  jobs : JobTable
  held : List LeaseToken := []
  checks : Nat := 0
  faults : List SweepFault := []

/-- The active jobs of a run. -/
def activeJobs (jobs : JobTable) (uuid : String) : Nat :=
  jobs.rows.countP fun job => job.runId = uuid && job.isActive

/-- Other actors may write any run and any job, except for the untouched runs and theirs. -/
def Recovering.Others (untouched : String → Prop) (state between : Recovering) : Prop :=
  ∃ runs jobs, between = { state with runs, jobs }
    ∧ ∀ uuid, untouched uuid → runs.find uuid = state.runs.find uuid
        ∧ activeJobs jobs uuid = activeJobs state.jobs uuid

/-- The replies of working stores, and the free replies of the other ports: a check may throw,
an acquisition that throws acquires nothing, a release that throws may leave its lease, and an
enqueue that throws may have inserted its job.
-/
def Recovering.Replies (state : Recovering)
    : (request : OrphanRequest) → request.Reply → Recovering → Prop
  | .now, .ok _, after => after = state
  | .findActiveRuns, .ok active, after =>
      (active.map RunRecord.toRun).Perm
        (state.runs.rows.filter fun row => !row.status.isTerminal)
      ∧ after = state
  | .atomicUpdateByUuid uuid patch expected, .ok updated, after =>
      ∃ runs, RunRepository.atomicUpdateByUuid state.runs uuid patch expected = (updated, runs)
        ∧ after = { state with runs }
  | .listActive, .ok jobs, after =>
      jobs.Perm (state.jobs.rows.filter Job.isActive) ∧ after = state
  | .checkActiveLease _ _, .ok _, after => after = { state with checks := state.checks + 1 }
  | .checkActiveLease _ _, .error _, after =>
      after = { state with faults := .checkThrew state.checks :: state.faults }
  | .acquireLease _, .ok lease, after =>
      after = { state with held := lease.leaseToken :: state.held }
  | .acquireLease _, .error _, after => after = state
  | .releaseLease input, reply, after =>
      after = { state with held := state.held.erase input.leaseToken }
      ∨ reply ≠ .ok () ∧ (∀ message, reply ≠ .error (.leaseOwnershipLost message))
        ∧ after = { state with faults := .leaseKept input.leaseToken :: state.faults }
  | .enqueue job, reply, after =>
      (∃ jobs, state.jobs.insert job = some jobs ∧ after = { state with jobs })
      ∨ reply ≠ .ok () ∧ after = state
  | .isProcessAlive _, _, after | .listPhases _, _, after | .notify _, _, after
  | .publish _ _, _, after => after = state
  | .now, .error _, _ | .findActiveRuns, .error _, _ | .atomicUpdateByUuid _ _ _, .error _, _
  | .listActive, .error _, _ => False

abbrev Recovering.Beside (untouched : String → Prop)
    : Environment Recovering OrphanRequest OrphanRequest.Reply :=
  beside (Recovering.Others untouched) Recovering.Replies

/-- Every untouched run of the entries is running with one active job, back in its earlier
status with nothing of the sweep left, or left to a human; no run has got a second active job,
and no lease is held any more.
-/
structure Recovered (untouched : String → Prop) (entries : List SweepOrphanedRunEntry)
    (swept final : Recovering)
    : Prop where
  runs
    : ∀ entry ∈ entries, untouched entry.uuid → ∃ row, final.runs.find entry.uuid = some row
        ∧ (row.status = .running ∧ activeJobs final.jobs entry.uuid = 1
          ∨ row.status = entry.previousStatus ∧ row.completedAt = none
            ∧ row.failureReason = none
          ∨ row.status = .blocked ∨ row.status = .needsHumanReview)
  jobs
    : ∀ uuid, untouched uuid →
        activeJobs final.jobs uuid ≤ max 1 (activeJobs swept.jobs uuid)
  leases : final.held = []

-----------------------------------------------------------------------------------------
-- The runs between the sweeps
-----------------------------------------------------------------------------------------

/-- A run that started anew, with nothing of the sweep left. -/
def Restarted (row : Run) : Prop :=
  row.status = .running ∧ row.completedAt = none ∧ row.failureReason = none

/-- A run that waits for the next sweep or for its job, or is left to a human. -/
def Settled (row : Run) : Prop :=
  Restarted row ∨ row.status = .blocked ∨ row.status = .needsHumanReview

/-- What the row of an untouched run and the number of its active jobs satisfy. -/
def Recovering.Has (untouched : String → Prop) (uuid : String) (property : Run → Nat → Prop)
    (state : Recovering)
    : Prop :=
  untouched uuid → ∃ row, state.runs.find uuid = some row
    ∧ property row (activeJobs state.jobs uuid)

/-- A run in the status that its entry tells, with the active jobs that it had. -/
def Inferred (base : String → Nat) (entry : SweepOrphanedRunEntry) (row : Run) (jobs : Nat)
    : Prop :=
  row.status = entry.run.status ∧ jobs = base entry.uuid

/-- Some entries still have their runs in the status of the sweep, the others are recovered, and
no run has got a second active job.
-/
structure Swept (untouched : String → Prop) (base : String → Nat)
    (waiting finished : List SweepOrphanedRunEntry) (state : Recovering)
    : Prop where
  waits
    : ∀ entry ∈ waiting, state.Has untouched entry.uuid (Inferred base entry)
  recovered : ∀ entry ∈ finished, state.Has untouched entry.uuid fun row _ => Settled row
  jobs : ∀ uuid, untouched uuid → activeJobs state.jobs uuid ≤ max 1 (base uuid)

/-- So many checks were made and none threw; the leases that are held beside the given ones are
those that their release left in place.
-/
def Tally (tokens : List LeaseToken) (count : Nat) (state : Recovering) : Prop :=
  state.checks = count
  ∧ ∃ kept, state.held = tokens ++ kept ∧ state.faults = kept.map SweepFault.leaseKept

section States

variable {untouched : String → Prop} {state after : Recovering} {uuid : String}
  {property : Run → Nat → Prop} {base : String → Nat}
  {waiting finished : List SweepOrphanedRunEntry}

theorem unaffected_has
    : Unaffected (Recovering.Others untouched) (Recovering.Has untouched uuid property) := by
  rintro state between ⟨runs, jobs, rfl, kept⟩ has still
  obtain ⟨same, count⟩ := kept uuid still
  obtain ⟨row, found, holds⟩ := has still
  exact ⟨row, same.trans found, count ▸ holds⟩

theorem unaffected_swept
    : Unaffected (Recovering.Others untouched) (Swept untouched base waiting finished) := by
  intro state between acted swept
  refine ⟨fun entry member => ?_, fun entry member => ?_, fun uuid still => ?_⟩
  · exact unaffected_has state between acted (swept.waits entry member)
  · exact unaffected_has state between acted (swept.recovered entry member)
  · obtain ⟨runs, jobs, rfl, kept⟩ := acted
    exact (kept uuid still).2 ▸ swept.jobs uuid still

theorem unaffected_tally {tokens : List LeaseToken} {count : Nat}
    : Unaffected (Recovering.Others untouched) (Tally tokens count) := by
  rintro state between ⟨runs, jobs, rfl, -⟩ tally
  exact tally

theorem Recovering.Has.of_same (has : state.Has untouched uuid property)
    (rows : after.runs.find uuid = state.runs.find uuid)
    (count : activeJobs after.jobs uuid = activeJobs state.jobs uuid)
    : after.Has untouched uuid property := by
  intro still
  obtain ⟨row, found, holds⟩ := has still
  exact ⟨row, rows.trans found, count ▸ holds⟩

theorem Recovering.Has.mono {next : Run → Nat → Prop} (has : state.Has untouched uuid property)
    (follows : untouched uuid → ∀ row jobs, property row jobs → next row jobs)
    : state.Has untouched uuid next := by
  intro still
  obtain ⟨row, found, holds⟩ := has still
  exact ⟨row, found, follows still row _ holds⟩

section Updates

variable {runs : RunTable} {target : String} {patch : RunRepositoryUpdatePatch}
  {expected : RunStatus} {updated : Bool}

theorem Recovering.Has.of_update {next : Run → Nat → Prop}
    (has : state.Has untouched target property) (filled : patch.isEmpty = false)
    (performed
      : RunRepository.atomicUpdateByUuid state.runs target patch expected = (updated, runs))
    (step : untouched target → ∀ row jobs, property row jobs →
      row.status = expected ∧ next (patch.patch row) jobs)
    : Recovering.Has untouched target next { state with runs } := by
  intro still
  obtain ⟨row, found, holds⟩ := has still
  obtain ⟨expects, holds⟩ := step still row _ holds
  obtain rfl := RunRepository.atomicUpdateByUuid_of_find filled found expects performed
  obtain ⟨old, here, -, rows⟩ := RunRepository.atomicUpdateByUuid_true performed
  obtain rfl := Option.some.inj (found.symm.trans here)
  exact ⟨patch.patch row, by simp [rows], holds⟩

theorem Swept.of_update (swept : Swept untouched base waiting finished state)
    (apart : ∀ other ∈ finished ++ waiting, other.uuid ≠ target)
    (performed
      : RunRepository.atomicUpdateByUuid state.runs target patch expected = (updated, runs))
    : Swept untouched base waiting finished { state with runs } := by
  have same (other : SweepOrphanedRunEntry) (member : other ∈ finished ++ waiting)
      : runs.find other.uuid = state.runs.find other.uuid :=
    RunRepository.atomicUpdateByUuid_other performed (apart other member)
  refine ⟨fun other member => ?_, fun other member => ?_, swept.jobs⟩
  · exact (swept.waits other member).of_same (same other (List.mem_append_right _ member)) rfl
  · exact (swept.recovered other member).of_same (same other (List.mem_append_left _ member)) rfl

end Updates

section Enqueues

variable {jobs : JobTable} {job : Job}

theorem activeJobs_insert (inserted : state.jobs.insert job = some jobs)
    : activeJobs jobs uuid
      = activeJobs state.jobs uuid + if job.runId = uuid ∧ job.isActive = true then 1 else 0 := by
  simp [activeJobs, (Table.insert_eq_some.mp inserted).2, List.countP_append]

/-- A job for a run that has none leaves the other entries as they are. -/
theorem Swept.of_enqueue (swept : Swept untouched base waiting finished state)
    (apart : ∀ other ∈ finished ++ waiting, other.uuid ≠ job.runId)
    (idle : state.Has untouched job.runId fun _ jobs => jobs = 0)
    (inserted : state.jobs.insert job = some jobs)
    : Swept untouched base waiting finished { state with jobs } := by
  have same (other : SweepOrphanedRunEntry) (member : other ∈ finished ++ waiting)
      : activeJobs jobs other.uuid = activeJobs state.jobs other.uuid := by
    rw [activeJobs_insert inserted, if_neg fun own => apart other member own.1.symm]
    rfl
  refine ⟨fun other member => ?_, fun other member => ?_, fun uuid still => ?_⟩
  · exact (swept.waits other member).of_same rfl (same other (List.mem_append_right _ member))
  · exact (swept.recovered other member).of_same rfl
      (same other (List.mem_append_left _ member))
  · dsimp only
    rw [activeJobs_insert inserted]
    by_cases own : job.runId = uuid ∧ job.isActive = true
    · obtain ⟨rfl, -⟩ := own
      obtain ⟨row, -, none⟩ := idle still
      rw [none]
      split <;> omega
    · rw [if_neg own]
      exact swept.jobs uuid still

end Enqueues

/-- The entry that is handled: the other ones are as before, and its run satisfies a condition. -/
structure Handling (untouched : String → Prop) (base : String → Nat)
    (rest finished : List SweepOrphanedRunEntry) (uuid : String)
    (property : Run → Nat → Prop) (tokens : List LeaseToken) (count : Nat) (state : Recovering)
    : Prop where
  others : Swept untouched base rest finished state
  run : state.Has untouched uuid property
  tally : Tally tokens count state

theorem unaffected_handling {tokens : List LeaseToken} {count : Nat}
    : Unaffected (Recovering.Others untouched)
        (Handling untouched base waiting finished uuid property tokens count) := by
  rintro state between acted ⟨others, run, tally⟩
  exact ⟨unaffected_swept state between acted others, unaffected_has state between acted run,
    unaffected_tally state between acted tally⟩

end States

/-- What the first sweep tells about each of its entries. -/
structure SweepOrphanedRunEntry.Told (entry : SweepOrphanedRunEntry) : Prop where
  uuid : entry.run.uuid = entry.uuid
  previous : entry.previousStatus = .running
  inferred
    : entry.run.status = .failed ∨ entry.run.status = .blocked
      ∨ entry.run.status = .needsHumanReview

/-- The calls that find and leave everything as it is. -/
def OrphanRequest.IsCalm : OrphanRequest → Prop
  | .now | .isProcessAlive _ | .listPhases _ | .notify _ | .publish _ _ => True
  | _ => False

theorem Recovering.Replies.calm {state after : Recovering} {request : OrphanRequest}
    {reply : request.Reply} (replied : Recovering.Replies state request reply after)
    (calm : request.IsCalm)
    : after = state := by
  cases request with
  | now =>
      cases reply with
      | error error => exact replied.elim
      | ok answer => exact replied
  | isProcessAlive | listPhases | notify | publish => exact replied
  | findActiveRuns | atomicUpdateByUuid | listActive | checkActiveLease | acquireLease
  | releaseLease | enqueue => exact calm.elim

theorem Recovering.Replies.now {state after : Recovering} {error : OrphanError}
    : ¬Recovering.Replies state .now (.error error) after :=
  id

section Statements

open OrphanedRunsSweeper

variable {untouched : String → Prop} {base : String → Nat} {entry : SweepOrphanedRunEntry}
  {rest finished : List SweepOrphanedRunEntry} {property : Run → Nat → Prop}
  {tokens : List LeaseToken} {count : Nat} {invariant exit : Recovering → Prop}
  {Locals : Type}

theorem leads_calm_orphan {request : OrphanRequest} (calm : request.IsCalm)
    (unaffected : Unaffected (Recovering.Others untouched) invariant)
    : (Block.call request : Block OrphanRequest.Answer Locals OrphanError Empty _).Leads
        (Recovering.Beside untouched) invariant invariant invariant := by
  refine Block.leads_call unaffected ?_ ?_
  · intro between next answer holds replied
    exact replied.calm calm ▸ holds
  · intro between next error holds replied
    exact replied.calm calm ▸ holds

theorem leads_now_orphan (unaffected : Unaffected (Recovering.Others untouched) invariant)
    : (Block.call .now : Block OrphanRequest.Answer Locals OrphanError Empty _).Leads
        (Recovering.Beside untouched) invariant invariant exit := by
  refine Block.leads_call unaffected ?_ ?_
  · intro between next answer holds replied
    exact replied.calm trivial ▸ holds
  · intro between next error holds replied
    exact replied.now.elim

theorem Handling.of_update {state : Recovering} {uuid : String} {next : Run → Nat → Prop}
    {patch : RunRepositoryUpdatePatch} {expected : RunStatus} {updated : Bool} {runs : RunTable}
    (handles : Handling untouched base rest finished uuid property tokens count state)
    (apart : ∀ other ∈ finished ++ rest, other.uuid ≠ uuid) (filled : patch.isEmpty = false)
    (performed
      : RunRepository.atomicUpdateByUuid state.runs uuid patch expected = (updated, runs))
    (step : untouched uuid → ∀ row jobs, property row jobs →
      row.status = expected ∧ next (patch.patch row) jobs)
    : Handling untouched base rest finished uuid next tokens count { state with runs } :=
  ⟨handles.others.of_update apart performed, handles.run.of_update filled performed step,
    handles.tally⟩

theorem Handling.mono {state : Recovering} {uuid : String} {next : Run → Nat → Prop}
    (handles : Handling untouched base rest finished uuid property tokens count state)
    (follows : untouched uuid → ∀ row jobs, property row jobs → next row jobs)
    : Handling untouched base rest finished uuid next tokens count state :=
  ⟨handles.others, handles.run.mono follows, handles.tally⟩

theorem restartPatch_filled (status : RunStatus) : (restartPatch status).isEmpty = false := by
  simp [RunRepositoryUpdatePatch.isEmpty, restartPatch]

theorem restarted_patch (row : Run) : Restarted ((restartPatch .running).patch row) :=
  ⟨rfl, rfl, rfl⟩

theorem leads_restoreRunToPreSweep (told : entry.Told)
    (apart : ∀ other ∈ finished ++ rest, other.uuid ≠ entry.uuid)
    : (restoreRunToPreSweep entry).Leads (Recovering.Beside untouched)
        (Handling untouched base rest finished entry.uuid (Inferred base entry) tokens count)
        (Handling untouched base rest finished entry.uuid (fun row _ => Settled row) tokens
          count)
        exit := by
  apply Block.leads_attempt ?_ fun _ _ _ (fails : False) => fails.elim
  refine Block.triple_bind (Block.leads_call unaffected_handling ?_ ?_) fun _ =>
    Block.keeps_pure
  · rintro between next updated handles ⟨runs, performed, rfl⟩
    refine handles.of_update apart (restartPatch_filled _) performed ?_
    rintro - row jobs ⟨status, -⟩
    rw [told.previous]
    exact ⟨status, .inl (restarted_patch row)⟩
  · intro between next error handles replied
    exact replied.elim

/-- A rollback of a resumed run starts it anew. -/
theorem leads_restoreRunToPreSweepAtomic (told : entry.Told)
    (apart : ∀ other ∈ finished ++ rest, other.uuid ≠ entry.uuid)
    : (restoreRunToPreSweepAtomic entry).Leads (Recovering.Beside untouched)
        (Handling untouched base rest finished entry.uuid (fun row _ => Restarted row) tokens
          count)
        (Handling untouched base rest finished entry.uuid (fun row _ => Restarted row) tokens
          count)
        exit := by
  refine Block.triple_bind (Block.leads_call unaffected_handling ?_ ?_) fun _ =>
    Block.keeps_pure
  · rintro between next updated handles ⟨runs, performed, rfl⟩
    refine handles.of_update apart (restartPatch_filled _) performed ?_
    rintro - row jobs ⟨running, -⟩
    rw [told.previous]
    exact ⟨running, restarted_patch row⟩
  · intro between next error handles replied
    exact replied.elim

theorem leads_publishRecovered {message : String} {inferredStatus : Option RunStatus}
    (unaffected : Unaffected (Recovering.Others untouched) invariant)
    : (publishRecovered entry message inferredStatus).Leads (Recovering.Beside untouched)
        invariant invariant invariant :=
  Block.keeps_bind (leads_now_orphan unaffected) fun _ => leads_calm_orphan trivial unaffected

theorem Handling.of_enqueue {state : Recovering} {uuid : String} {job : Job} {jobs : JobTable}
    (handles : Handling untouched base rest finished uuid
      (fun row jobs => Restarted row ∧ jobs = 0) tokens count state)
    (own : job.runId = uuid) (apart : ∀ other ∈ finished ++ rest, other.uuid ≠ uuid)
    (inserted : state.jobs.insert job = some jobs)
    : Handling untouched base rest finished uuid (fun row _ => Restarted row) tokens count
        { state with jobs } := by
  obtain rfl := own
  refine ⟨?_, fun still => ?_, handles.tally⟩
  · exact handles.others.of_enqueue apart (handles.run.mono fun _ _ _ holds => holds.2) inserted
  · obtain ⟨row, found, restarted, -⟩ := handles.run still
    exact ⟨row, found, restarted⟩

/-- A job is enqueued for a resumed run that has none; whatever throws, the run stays started
anew.
-/
theorem leads_enqueueJob (told : entry.Told)
    (apart : ∀ other ∈ finished ++ rest, other.uuid ≠ entry.uuid)
    : (enqueueJob entry).Leads (Recovering.Beside untouched)
        (Handling untouched base rest finished entry.uuid
          (fun row jobs => Restarted row ∧ jobs = 0) tokens count)
        (Handling untouched base rest finished entry.uuid (fun row _ => Restarted row) tokens
          count)
        (Handling untouched base rest finished entry.uuid (fun row _ => Restarted row) tokens
          count) := by
  have rests {state : Recovering} (handles : Handling untouched base rest finished entry.uuid
      (fun row jobs => Restarted row ∧ jobs = 0) tokens count state)
      : Handling untouched base rest finished entry.uuid (fun row _ => Restarted row) tokens
        count state :=
    handles.mono fun _ _ _ holds => holds.1
  have tried : Block.Leads (Recovering.Beside untouched)
      (Handling untouched base rest finished entry.uuid
        (fun row jobs => Restarted row ∧ jobs = 0) tokens count)
      (Handling untouched base rest finished entry.uuid (fun row _ => Restarted row) tokens count)
      (Handling untouched base rest finished entry.uuid (fun row _ => Restarted row) tokens count)
      (enqueueRecovery entry) := by
    refine Block.triple_bind (leads_now_orphan unaffected_handling) fun namedAt => ?_
    refine Block.triple_bind (leads_now_orphan unaffected_handling) fun createdAt => ?_
    refine Block.triple_bind ((leads_publishRecovered unaffected_handling).mono
      (fun _ _ holds => holds) (fun _ _ holds => holds) fun _ _ => rests) fun _ => ?_
    refine Block.triple_bind (Block.leads_call unaffected_handling ?_ ?_) fun _ =>
      Block.keeps_assign fun _ _ holds => holds
    · rintro between next answer handles (⟨jobs, inserted, rfl⟩ | ⟨-, rfl⟩)
      · exact handles.of_enqueue told.uuid apart inserted
      · exact rests handles
    · rintro between next error handles (⟨jobs, inserted, rfl⟩ | ⟨-, rfl⟩)
      · exact handles.of_enqueue told.uuid apart inserted
      · exact rests handles
  refine Block.leads_attempt tried fun error => ?_
  refine Block.triple_bind (leads_restoreRunToPreSweepAtomic told apart) fun _ => ?_
  exact fun _ _ holds => holds

theorem Handling.release {state : Recovering} {uuid : String} {token : LeaseToken}
    (handles : Handling untouched base rest finished uuid property [token] count state)
    : Handling untouched base rest finished uuid property [] count
        { state with held := state.held.erase token } := by
  obtain ⟨others, run, checks, kept, held, faults⟩ := handles
  refine ⟨⟨others.waits, others.recovered, others.jobs⟩, run, checks, kept, ?_, faults⟩
  simp [held]

theorem Handling.keep {state : Recovering} {uuid : String} {token : LeaseToken}
    (handles : Handling untouched base rest finished uuid property [token] count state)
    : Handling untouched base rest finished uuid property [] count
        { state with faults := .leaseKept token :: state.faults } := by
  obtain ⟨others, run, checks, kept, held, faults⟩ := handles
  refine ⟨⟨others.waits, others.recovered, others.jobs⟩, run, checks, token :: kept, held, ?_⟩
  simp [faults]

theorem check_ok_bind {α β : Type} (value : α) (next : α → SweeperStatements β)
    : (check (.ok value) >>= next) = next value :=
  rfl

/-- The statements under the lease leave the run settled, also where they throw. -/
theorem leads_recoverRun (told : entry.Told)
    (apart : ∀ other ∈ finished ++ rest, other.uuid ≠ entry.uuid)
    (idle : untouched entry.uuid → base entry.uuid = 0)
    : (recoverRun entry).Leads (Recovering.Beside untouched)
        (Handling untouched base rest finished entry.uuid (Inferred base entry) tokens count)
        (Handling untouched base rest finished entry.uuid (fun row _ => Settled row) tokens
          count)
        (Handling untouched base rest finished entry.uuid (fun row _ => Settled row) tokens
          count) := by
  by_cases human : entry.run.status = .blocked ∨ entry.run.status = .needsHumanReview
  · have settles {state : Recovering} (handles : Handling untouched base rest finished entry.uuid
        (Inferred base entry) tokens count state)
        : Handling untouched base rest finished entry.uuid (fun row _ => Settled row) tokens
          count state :=
      handles.mono fun _ row jobs inferred => .inr (inferred.1 ▸ human)
    rw [recoverRun, if_pos human]
    exact (leads_publishRecovered unaffected_handling).mono (fun _ _ holds => holds)
      (fun _ _ => settles) fun _ _ => settles
  · have failed : entry.run.status = .failed := told.inferred.resolve_right human
    have resumes : resumeRun entry.run.toRun none none = .ok {
        entry.run.toRun with
        status := .running
        currentPhase := none
        completedAt := none
        failureReason := none
      } := by
      simp [resumeRun, Run.canResume, failed]
    have settles {state : Recovering} (handles : Handling untouched base rest finished entry.uuid
        (fun row _ => Restarted row) tokens count state)
        : Handling untouched base rest finished entry.uuid (fun row _ => Settled row) tokens
          count state :=
      handles.mono fun _ _ _ restarted => .inl restarted
    rw [recoverRun, if_neg human, resumes, check_ok_bind]
    refine Block.leads_call_then (fun _ => Handling untouched base rest finished
      entry.uuid (fun row jobs => Restarted row ∧ jobs = 0) tokens count) unaffected_handling
      ?_ ?_ fun updated => ?_
    · rintro between reached updated handles ⟨runs, performed, rfl⟩
      rw [told.uuid] at performed
      refine handles.of_update apart (restartPatch_filled _) performed ?_
      rintro still row jobs ⟨status, same⟩
      exact ⟨status, restarted_patch row, same.trans (idle still)⟩
    · intro between reached error handles replied
      exact replied.elim
    · cases updated with
      | true =>
          exact (leads_enqueueJob told apart).mono (fun _ _ holds => holds)
            (fun _ _ => settles) fun _ _ => settles
      | false => exact fun _ _ handles => settles (handles.mono fun _ _ _ holds => holds.1)

/-- The acquisition of the lease gives the run back where it fails. -/
theorem yields_acquireLease (told : entry.Told)
    (apart : ∀ other ∈ finished ++ rest, other.uuid ≠ entry.uuid)
    : (acquireLease entry).Yields (Recovering.Beside untouched) (fun _ _ => True)
        (fun _ => Handling untouched base rest finished entry.uuid (Inferred base entry) [] count)
        (fun acquired _ => match acquired with
          | some lease =>
              Handling untouched base rest finished entry.uuid (Inferred base entry)
                [lease.leaseToken] count
          | none =>
              Handling untouched base rest finished entry.uuid (fun row _ => Settled row) []
                count)
        fun _ => exit := by
  have inferred : Unaffected (Recovering.Others untouched) (Handling untouched base rest finished
      entry.uuid (Inferred base entry) [] count) :=
    unaffected_handling
  have acquires (input : AcquireLeaseInput)
      : (call (.acquireLease input)).Yields (Recovering.Beside untouched) (fun _ _ => True)
        (fun _ => Handling untouched base rest finished entry.uuid (Inferred base entry) [] count)
        (fun lease _ => Handling untouched base rest finished entry.uuid (Inferred base entry)
          [lease.leaseToken] count)
        fun _ =>
          Handling untouched base rest finished entry.uuid (Inferred base entry) [] count := by
    apply Block.yields_call
    · exact fun _ _ _ => trivial
    · rintro locals state next lease holds ⟨between, acted, rfl⟩
      obtain ⟨others, run, checks, kept, held, faults⟩ := inferred state between acted holds
      exact ⟨⟨others.waits, others.recovered, others.jobs⟩, run, checks, kept,
        congrArg (lease.leaseToken :: ·) held, faults⟩
    · rintro locals state next error holds ⟨between, acted, rfl⟩
      exact inferred state _ acted holds
  apply Block.yields_attempt_of_empty
  · have tells : (call .now).Leads (Recovering.Beside untouched) _ _ _ :=
      leads_calm_orphan trivial inferred
    refine Block.yields_bind tells.yields fun acquiredAt => ?_
    exact Block.yields_bind (acquires _) fun lease => Block.yields_pure fun _ _ holds => holds
  · intro error
    refine Block.yields_bind (Block.Triple.yields ?_) fun _ => Block.yields_bind
      (leads_restoreRunToPreSweep told apart).yields fun _ =>
        Block.yields_pure fun _ _ holds => holds
    cases error with
    | leaseConflict | leaseOwnershipLost | other => exact Block.keeps_assign fun _ _ holds => holds

/-- The release gives the lease back, or its fault is noted. -/
theorem leads_releaseLease_orphan {lease : WorkerLease}
    : (releaseLease entry lease).Leads (Recovering.Beside untouched)
        (Handling untouched base rest finished entry.uuid property [lease.leaseToken] count)
        (Handling untouched base rest finished entry.uuid property [] count) exit := by
  have releases : (call (.releaseLease {
        repoId := entry.run.repoId
        workerId := sweeperId
        runId := entry.run.uuid
        leaseToken := lease.leaseToken
      })).Leads (Recovering.Beside untouched)
      (Handling untouched base rest finished entry.uuid property [lease.leaseToken] count)
      (Handling untouched base rest finished entry.uuid property [] count)
      (Handling untouched base rest finished entry.uuid property [] count) := by
    refine Block.leads_call unaffected_handling ?_ ?_
    · rintro between next answer handles (rfl | ⟨failed, -, -⟩)
      · exact handles.release
      · exact absurd rfl failed
    · rintro between next error handles (rfl | ⟨-, -, rfl⟩)
      · exact handles.release
      · exact handles.keep
  exact Block.leads_attempt releases fun _ _ _ holds => holds

/-- The recovery is over, or a check has thrown before the entries that are still waiting. -/
def Stopped (untouched : String → Prop) (base : String → Nat)
    (waiting finished : List SweepOrphanedRunEntry) (state : Recovering)
    : Prop :=
  Swept untouched base waiting finished state
  ∧ state.faults = .checkThrew finished.length :: state.held.map SweepFault.leaseKept

theorem Swept.handling {state : Recovering}
    (swept : Swept untouched base (entry :: rest) finished state) (tally : Tally [] count state)
    : Handling untouched base rest finished entry.uuid (Inferred base entry) [] count state :=
  ⟨⟨fun other member => swept.waits other (List.mem_cons_of_mem _ member), swept.recovered,
    swept.jobs⟩, swept.waits entry List.mem_cons_self, tally⟩

theorem Handling.swept {state : Recovering}
    (handles
      : Handling untouched base rest finished entry.uuid (fun row _ => Settled row) tokens count
          state)
    : Swept untouched base rest (finished ++ [entry]) state := by
  refine ⟨handles.others.waits, fun other member => ?_, handles.others.jobs⟩
  rcases List.mem_append.mp member with earlier | here
  · exact handles.others.recovered other earlier
  · obtain rfl := List.mem_singleton.mp here
    exact handles.run

/-- One round of the loop settles the run of its entry, or the check throws before. -/
theorem leads_sweepEntry {activeRuns : List RunId} (told : entry.Told)
    (apart : ∀ other ∈ finished ++ rest, other.uuid ≠ entry.uuid)
    (snapshot : ∀ uuid, untouched uuid → uuid ∉ activeRuns → base uuid = 0)
    : (sweepEntry entry activeRuns).Leads (Recovering.Beside untouched)
        (fun state => Swept untouched base (entry :: rest) finished state
          ∧ Tally [] finished.length state)
        (fun state => Swept untouched base rest (finished ++ [entry]) state
          ∧ Tally [] (finished ++ [entry]).length state)
        (Stopped untouched base (entry :: rest) finished) := by
  have unaffected : Unaffected (Recovering.Others untouched) fun state =>
      Swept untouched base (entry :: rest) finished state ∧ Tally [] finished.length state :=
    unaffected_swept.and unaffected_tally
  have restores : (restoreRunToPreSweep entry).Leads (Recovering.Beside untouched)
      (Handling untouched base rest finished entry.uuid (Inferred base entry) []
        (finished.length + 1))
      (Handling untouched base rest finished entry.uuid (fun row _ => Settled row) []
        (finished.length + 1))
      (Stopped untouched base (entry :: rest) finished) :=
    leads_restoreRunToPreSweep told apart
  suffices settles : (sweepEntry entry activeRuns).Leads (Recovering.Beside untouched)
      (fun state => Swept untouched base (entry :: rest) finished state
        ∧ Tally [] finished.length state)
      (Handling untouched base rest finished entry.uuid (fun row _ => Settled row) []
        (finished.length + 1))
      (Stopped untouched base (entry :: rest) finished) by
    refine settles.mono (fun _ _ holds => holds) (fun _ _ handles => ?_) fun _ _ holds => holds
    exact ⟨handles.swept, by simpa using handles.tally⟩
  refine Block.triple_bind (leads_now_orphan unaffected) fun checkedAt => ?_
  refine Block.leads_call_then (fun _ => Handling untouched base rest finished
    entry.uuid (Inferred base entry) [] (finished.length + 1)) unaffected ?_ ?_ fun leased => ?_
  · rintro between reached leased ⟨swept, checks, kept, held, faults⟩ rfl
    refine Swept.handling ?_ ⟨congrArg (· + 1) checks, kept, held, faults⟩
    exact ⟨swept.waits, swept.recovered, swept.jobs⟩
  · rintro between reached error ⟨swept, checks, kept, held, faults⟩ rfl
    refine ⟨⟨swept.waits, swept.recovered, swept.jobs⟩, ?_⟩
    simp [checks, held, faults]
  cases leased with
  | true => exact Block.triple_bind (Block.keeps_assign fun _ _ holds => holds) fun _ => restores
  | false =>
      by_cases queued : entry.run.uuid ∈ activeRuns
      · simp only [queued, if_true]
        exact Block.triple_bind (Block.keeps_assign fun _ _ holds => holds) fun _ => restores
      · simp only [queued, if_false]
        apply Block.Yields.triple
        refine Block.yields_bind (yields_acquireLease told apart) fun acquired => ?_
        cases acquired with
        | none => exact Block.yields_pure fun _ _ holds => holds
        | some lease =>
            have idle (still : untouched entry.uuid) : base entry.uuid = 0 :=
              snapshot entry.uuid still (told.uuid ▸ queued)
            apply Block.Triple.yields
            refine Block.leads_always (Block.leads_attempt (leads_recoverRun told apart idle)
              fun _ => ?_) leads_releaseLease_orphan
            exact Block.keeps_assign fun _ _ holds => holds

theorem activeJobs_of_snapshot {state : Recovering} {active : List Job} {uuid : String}
    (lists : active.Perm (state.jobs.rows.filter Job.isActive))
    (missing : uuid ∉ active.map Job.runId)
    : activeJobs state.jobs uuid = 0 := by
  refine List.countP_eq_zero.mpr fun job stored counted => missing ?_
  simp only [Bool.and_eq_true, decide_eq_true_eq] at counted
  refine List.mem_map.mpr ⟨job, lists.mem_iff.mpr ?_, counted.1⟩
  exact List.mem_filter.mpr ⟨stored, counted.2⟩

/-- The entry of a round is apart from the ones before and after it. -/
theorem apart_of_nodup {entries : List SweepOrphanedRunEntry}
    (distinct : (entries.map SweepOrphanedRunEntry.uuid).Nodup)
    (split : entries = finished ++ entry :: rest)
    : ∀ other ∈ finished ++ rest, other.uuid ≠ entry.uuid := by
  rw [split, (List.perm_middle.map _).nodup_iff, List.map_cons, List.nodup_cons] at distinct
  intro other member same
  exact distinct.1 (List.mem_map.mpr ⟨other, member, same⟩)

/-- The recovery settles the runs of all its entries, or stops where a check throws. -/
theorem leads_recovery {entries : List SweepOrphanedRunEntry}
    (told : ∀ entry ∈ entries, entry.Told)
    (distinct : (entries.map SweepOrphanedRunEntry.uuid).Nodup)
    : (execute entries).Leads (Recovering.Beside untouched)
        (fun state => (Swept untouched base entries [] state ∧ Tally [] 0 state)
          ∧ ∀ uuid, untouched uuid → activeJobs state.jobs uuid = base uuid)
        (fun state => Swept untouched base [] entries state ∧ Tally [] entries.length state)
        (fun state => ∃ waiting finished, entries = finished ++ waiting
          ∧ Stopped untouched base waiting finished state) := by
  have unaffected : Unaffected (Recovering.Others untouched) fun state =>
      (Swept untouched base entries [] state ∧ Tally [] 0 state)
      ∧ ∀ uuid, untouched uuid → activeJobs state.jobs uuid = base uuid := by
    refine (unaffected_swept.and unaffected_tally).and ?_
    rintro state between ⟨runs, jobs, rfl, kept⟩ same uuid still
    exact (kept uuid still).2.trans (same uuid still)
  refine Block.triple_bind (Block.keeps_assign fun _ _ holds => holds) fun _ => ?_
  refine Block.leads_call_then (fun active state =>
    (Swept untouched base entries [] state ∧ Tally [] 0 state)
    ∧ ∀ uuid, untouched uuid → uuid ∉ List.map Job.runId active → base uuid = 0)
    unaffected ?_ ?_ fun active => ?_
  · rintro between reached active ⟨begins, same⟩ ⟨lists, rfl⟩
    refine ⟨begins, fun uuid still missing => ?_⟩
    exact (same uuid still).symm.trans (activeJobs_of_snapshot lists missing)
  · intro between reached error begins replied
    exact replied.elim
  rintro locals state ⟨begins, snapshot⟩
  let pending (waiting : List SweepOrphanedRunEntry) (state : Recovering) : Prop :=
    ∃ finished, entries = finished ++ waiting ∧ Swept untouched base waiting finished state
      ∧ Tally [] finished.length state
  have loops : (Block.forEach entries fun entry =>
        sweepEntry entry (List.map Job.runId active)).Leads (Recovering.Beside untouched)
      (pending entries) (pending []) fun state => ∃ waiting finished,
        entries = finished ++ waiting ∧ Stopped untouched base waiting finished state := by
    refine Block.triple_forEach (fun waiting _ => pending waiting) fun entry rest => ?_
    rintro locals state ⟨finished, split, holds⟩
    have round := leads_sweepEntry (told entry (by simp [split])) (apart_of_nodup distinct split)
      snapshot locals state holds
    refine round.mono fun completion locals state ended => ?_
    cases completion with
    | normal value => exact ⟨finished ++ [entry], by simp [split], ended⟩
    | returned result => exact result.elim
    | threw error => exact ⟨entry :: rest, finished, split, ended⟩
  have whole := Block.triple_bind loops (fun _ => Block.keeps_locals) locals state
    ⟨[], rfl, begins⟩
  refine whole.mono fun completion locals state ended => ?_
  cases completion with
  | normal value =>
      obtain ⟨finished, split, holds⟩ := ended
      rw [List.append_nil] at split
      exact split ▸ holds
  | returned result => exact result.elim
  | threw error => exact ended

end Statements

section Scans

variable {untouched : String → Prop} {deps : SweepOrphanedRunsDeps} {run : RunRecord}
  {rest : List String}

/-- Runs that were swept, and others that are still to be looked at; the recovery has not begun.
-/
structure Scanned (untouched : String → Prop) (rest : List String)
    (entries : List SweepOrphanedRunEntry) (state : Recovering)
    : Prop where
  told : ∀ entry ∈ entries, entry.Told
  distinct : (entries.map SweepOrphanedRunEntry.uuid ++ rest).Nodup
  rows
    : ∀ entry ∈ entries, state.Has untouched entry.uuid fun row _ => row.status = entry.run.status
  quiet : state.held = [] ∧ state.checks = 0 ∧ state.faults = []

theorem unaffected_scanned {entries : List SweepOrphanedRunEntry}
    : Unaffected (Recovering.Others untouched) (Scanned untouched rest entries) := by
  intro state between acted scanned
  refine ⟨scanned.told, scanned.distinct, fun entry member => ?_, ?_⟩
  · exact unaffected_has state between acted (scanned.rows entry member)
  · obtain ⟨runs, jobs, rfl, -⟩ := acted
    exact scanned.quiet

/-- A run that is left alone needs not be looked at any more. -/
theorem Scanned.skip {state : Recovering} {uuid : String}
    {entries : List SweepOrphanedRunEntry}
    (scanned : Scanned untouched (uuid :: rest) entries state)
    : Scanned untouched rest entries state := by
  refine ⟨scanned.told, ?_, scanned.rows, scanned.quiet⟩
  exact scanned.distinct.sublist ((List.sublist_cons_self uuid rest).append_left _)

theorem Scanned.sweep {state : Recovering} {entry : SweepOrphanedRunEntry}
    {entries : List SweepOrphanedRunEntry} {patch : RunRepositoryUpdatePatch} {runs : RunTable}
    {expected : RunStatus} (scanned : Scanned untouched (entry.uuid :: rest) entries state)
    (told : entry.Told) (status : patch.status = some entry.run.status)
    (performed
      : RunRepository.atomicUpdateByUuid state.runs entry.uuid patch expected = (true, runs))
    : Scanned untouched rest (entries ++ [entry]) { state with runs } := by
  have apart (other : SweepOrphanedRunEntry) (member : other ∈ entries)
      : other.uuid ≠ entry.uuid := by
    have disjoint := (List.nodup_append.mp scanned.distinct).2.2
    exact disjoint _ (List.mem_map_of_mem member) _ List.mem_cons_self
  refine ⟨fun other member => ?_, ?_, fun other member => ?_, scanned.quiet⟩
  · rcases List.mem_append.mp member with earlier | here
    · exact scanned.told other earlier
    · exact List.mem_singleton.mp here ▸ told
  · simpa using scanned.distinct
  · rcases List.mem_append.mp member with earlier | here
    · exact (scanned.rows other earlier).of_same
        (RunRepository.atomicUpdateByUuid_other performed (apart other earlier)) rfl
    · obtain rfl := List.mem_singleton.mp here
      obtain ⟨row, -, -, rows⟩ := RunRepository.atomicUpdateByUuid_true performed
      exact fun _ => ⟨patch.patch row, by simp [rows], by
        simp [RunRepositoryUpdatePatch.patch, status]⟩

theorem inferStatus_cases (latest : Option Phase)
    : SweepOrphanedRuns.inferStatus latest = .failed
      ∨ SweepOrphanedRuns.inferStatus latest = .blocked
      ∨ SweepOrphanedRuns.inferStatus latest = .needsHumanReview := by
  unfold SweepOrphanedRuns.inferStatus
  split
  · split
    · split <;> simp
    · exact .inl rfl
  · exact .inl rfl

open SweepOrphanedRuns

theorem yields_calm_scan {invariant exit : List SweepOrphanedRunEntry → Recovering → Prop}
    {request : OrphanRequest} (calm : request.IsCalm)
    (unaffected : ∀ entries, Unaffected (Recovering.Others untouched) (invariant entries))
    (ends : ∀ entries state, invariant entries state → exit entries state)
    : (call request).Yields (Recovering.Beside untouched) (fun _ _ => True) invariant
        (fun _ => invariant) exit := by
  intro entries state holds
  refine Block.ensures_call.mpr ⟨trivial, ?_, ?_⟩
  · rintro answer next ⟨between, acted, replied⟩
    exact replied.calm calm ▸ unaffected entries state between acted holds
  · rintro error next ⟨between, acted, replied⟩
    exact ends entries next (replied.calm calm ▸ unaffected entries state between acted holds)

theorem yields_safeDispatchRunNotification {status : RunStatus} {failureReason : String}
    {invariant exit : List SweepOrphanedRunEntry → Recovering → Prop}
    (unaffected : ∀ entries, Unaffected (Recovering.Others untouched) (invariant entries))
    : (safeDispatchRunNotification run status failureReason).Yields (Recovering.Beside untouched)
        (fun _ _ => True) invariant (fun _ => invariant) exit := by
  apply Block.yields_attempt_of_empty
  · exact yields_calm_scan trivial unaffected fun _ _ holds => holds
  · exact fun _ => Block.yields_pure fun _ _ holds => holds

theorem told_sweptEntry {previousPid : Int} {completedAt : Date} {latest : Option Phase}
    {failureReason : String} (running : run.status = .running)
    : (sweptEntry run previousPid completedAt (inferStatus latest) failureReason).Told :=
  ⟨rfl, running, inferStatus_cases latest⟩

/-- The entry of a run that is looked at is the one of its new status. -/
theorem yields_reconcileDead {previousPid : Int} (running : run.status = .running)
    : (reconcileDead deps run previousPid).Yields (Recovering.Beside untouched) (fun _ _ => True)
        (fun entries => Scanned untouched (run.uuid :: rest) entries)
        (fun swept entries => Scanned untouched rest (entries ++ swept.toList))
        fun _ _ => True := by
  have ends (entries : List SweepOrphanedRunEntry) (state : Recovering)
      (_ : Scanned untouched (run.uuid :: rest) entries state)
      : True :=
    trivial
  have tells : (call .now).Yields (Recovering.Beside untouched) (fun _ _ => True) _ _ _ :=
    yields_calm_scan trivial (fun _ => unaffected_scanned) ends
  refine Block.yields_bind tells fun completedAt => ?_
  have lists : (if deps.phaseRepository then call (.listPhases run.uuid) else pure []
      : OrphanStatements (List Phase)).Yields (Recovering.Beside untouched) (fun _ _ => True)
      (fun entries => Scanned untouched (run.uuid :: rest) entries)
      (fun _ entries => Scanned untouched (run.uuid :: rest) entries) fun _ _ => True := by
    refine Block.yields_ite (fun _ => ?_) fun _ => Block.yields_pure fun _ _ holds => holds
    exact yields_calm_scan trivial (fun _ => unaffected_scanned) ends
  refine Block.yields_bind lists fun phases => ?_
  dsimp only
  generalize written : reasonToUse run (inferStatus (latestPhase phases)) _ = failureReason
  let entry :=
    sweptEntry run previousPid completedAt (inferStatus (latestPhase phases)) failureReason
  have writes : (call (.atomicUpdateByUuid run.uuid {
        status := some (inferStatus (latestPhase phases))
        completedAt := some (some completedAt)
        failureReason := some (some failureReason)
        currentPhase := some none
      } run.status)).Yields (Recovering.Beside untouched) (fun _ _ => True)
      (fun entries => Scanned untouched (run.uuid :: rest) entries)
      (fun updated entries => if updated then Scanned untouched rest (entries ++ [entry])
        else Scanned untouched rest entries) fun _ _ => True := by
    apply Block.yields_call
    · exact fun _ _ _ => trivial
    · rintro entries state next updated scanned ⟨between, acted, runs, performed, rfl⟩
      have scanned := unaffected_scanned state between acted scanned
      cases updated with
      | true => exact scanned.sweep (told_sweptEntry running) rfl performed
      | false =>
          obtain rfl := RunRepository.atomicUpdateByUuid_false performed
          exact scanned.skip
    · exact fun _ _ _ _ _ _ => trivial
  refine Block.yields_bind writes fun updated => ?_
  cases updated with
  | false => exact Block.yields_pure fun entries state scanned => by simpa using scanned
  | true =>
      have notifies : (Block.ifThen deps.runNotification (safeDispatchRunNotification run
            (inferStatus (latestPhase phases)) failureReason)).Yields
          (Recovering.Beside untouched) (fun _ _ => True)
          (fun entries => Scanned untouched rest (entries ++ [entry]))
          (fun _ entries => Scanned untouched rest (entries ++ [entry])) fun _ _ => True :=
        Block.yields_ite
          (fun _ => yields_safeDispatchRunNotification fun _ => unaffected_scanned)
          fun _ => Block.yields_pure fun _ _ scanned => scanned
      exact Block.yields_bind notifies fun _ => Block.yields_pure fun _ _ scanned => scanned

/-- One round of the scan looks at its run. -/
theorem triple_sweepRun
    : (sweepRun deps run).Triple (Recovering.Beside untouched) (fun _ _ => True)
        (fun entries => Scanned untouched (run.uuid :: rest) entries)
        (fun entries => Scanned untouched rest entries) fun _ _ => True := by
  have reconciles : (reconcile deps run).Yields (Recovering.Beside untouched) (fun _ _ => True)
      (fun entries => Scanned untouched (run.uuid :: rest) entries)
      (fun swept entries => Scanned untouched rest (entries ++ swept.toList))
      fun _ _ => True := by
    have skips : (pure none : OrphanStatements (Option SweepOrphanedRunEntry)).Yields
        (Recovering.Beside untouched) (fun _ _ => True)
        (fun entries => Scanned untouched (run.uuid :: rest) entries)
        (fun swept entries => Scanned untouched rest (entries ++ swept.toList))
        fun _ _ => True :=
      Block.yields_pure fun entries state scanned => by simpa using scanned.skip
    refine Block.yields_ite (fun _ => skips) fun running => ?_
    cases run.pid with
    | none => exact skips
    | some pid =>
        have asks : (call (.isProcessAlive pid)).Yields (Recovering.Beside untouched)
            (fun _ _ => True) (fun entries => Scanned untouched (run.uuid :: rest) entries)
            (fun _ entries => Scanned untouched (run.uuid :: rest) entries) fun _ _ => True :=
          yields_calm_scan trivial (fun _ => unaffected_scanned) fun _ _ _ => trivial
        refine Block.yields_bind asks fun alive => Block.yields_ite (fun _ => skips) fun _ => ?_
        exact yields_reconcileDead (not_not.mp running)
  apply Block.Yields.triple
  refine Block.yields_bind reconciles fun swept => ?_
  cases swept with
  | none => exact Block.yields_pure fun entries state scanned => by simpa using scanned
  | some entry => exact fun _ _ scanned => scanned

/-- The entries of a scan tell the status of their runs, beside other actors. -/
theorem yields_scan (untouched : String → Prop) (deps : SweepOrphanedRunsDeps)
    : (SweepOrphanedRuns.execute deps).Yields (Recovering.Beside untouched) (fun _ _ => True)
        (fun entries state =>
          entries = [] ∧ state.held = [] ∧ state.checks = 0 ∧ state.faults = [])
        (fun scan _ => Scanned untouched [] scan.orphanedRuns) fun _ _ => True := by
  have finds : (call .findActiveRuns).Yields (Recovering.Beside untouched) (fun _ _ => True)
      (fun entries state =>
        entries = [] ∧ state.held = [] ∧ state.checks = 0 ∧ state.faults = [])
      (fun active entries =>
        Scanned untouched (List.map (fun run : RunRecord => run.uuid) active) entries)
      fun _ _ => True := by
    apply Block.yields_call
    · exact fun _ _ _ => trivial
    · rintro entries state next active ⟨rfl, quiet⟩ ⟨between, ⟨runs, jobs, rfl, -⟩, found, rfl⟩
      refine ⟨fun _ member => absurd member List.not_mem_nil, ?_,
        fun _ member => absurd member List.not_mem_nil, quiet⟩
      have stored : (active.map fun run : RunRecord => run.uuid).Perm
          ((runs.rows.filter fun row => !row.status.isTerminal).map Run.uuid) := by
        have mapped := found.map Run.uuid
        rw [List.map_map] at mapped
        exact mapped
      refine stored.nodup_iff.mpr ?_
      exact (Table.nodup_keys runSchema_keyed).sublist (List.filter_sublist.map Run.uuid)
    · exact fun _ _ _ _ _ _ => trivial
  refine Block.yields_bind finds fun active => ?_
  have loops : (Block.forEach active (sweepRun deps)).Triple (Recovering.Beside untouched)
      (fun _ _ => True)
      (fun entries => Scanned untouched (List.map (fun run : RunRecord => run.uuid) active) entries)
      (fun entries => Scanned untouched [] entries) fun _ _ => True :=
    Block.triple_forEach (fun waiting entries =>
      Scanned untouched (List.map (fun run : RunRecord => run.uuid) waiting) entries)
      fun run rest => triple_sweepRun
  refine Block.yields_bind loops.yields fun _ => ?_
  exact fun _ _ scanned => scanned

end Scans

/-- Where the recovery has finished some entries, its runs are recovered unless a waiting one is
failed or a lease is held.
-/
theorem Swept.recovered_iff {untouched : String → Prop}
    {waiting finished : List SweepOrphanedRunEntry} {swept final : Recovering}
    (told : ∀ entry ∈ finished ++ waiting, entry.Told)
    (ended : Swept untouched (activeJobs swept.jobs) waiting finished final)
    : Recovered untouched (finished ++ waiting) swept final
      ↔ (∀ entry ∈ waiting, untouched entry.uuid → entry.run.status ≠ .failed)
        ∧ final.held = [] := by
  constructor
  · intro recovered
    refine ⟨fun entry member still failed => ?_, recovered.leases⟩
    have within := List.mem_append_right finished member
    obtain ⟨row, found, status, -⟩ := ended.waits entry member still
    obtain ⟨other, here, state⟩ := recovered.runs entry within still
    obtain rfl := Option.some.inj (found.symm.trans here)
    rw [(told entry within).previous, status, failed] at state
    simp at state
  · rintro ⟨unfailed, released⟩
    refine ⟨fun entry member still => ?_, ended.jobs, released⟩
    rcases List.mem_append.mp member with before | after
    · obtain ⟨row, found, settled⟩ := ended.recovered entry before still
      refine ⟨row, found, .inr ?_⟩
      rcases settled with ⟨running, completed, reason⟩ | human
      · exact .inl ⟨running.trans (told entry member).previous.symm, completed, reason⟩
      · exact .inr human
    · obtain ⟨row, found, status, -⟩ := ended.waits entry after still
      refine ⟨row, found, .inr (.inr ?_)⟩
      rw [status]
      exact (told entry member).inferred.resolve_left (unfailed entry after still)

/-- The untouched runs of swept entries are recovered exactly when no check for an active lease
threw while a failed one of them was still waiting, and every lease that was acquired was given
back.
-/
theorem recovered_iff_checked {untouched : String → Prop} {deps : SweepOrphanedRunsDeps}
    {runs : RunTable} {jobs : JobTable} {scan : SweepOrphanedRunsResult}
    {locals : List SweepOrphanedRunEntry} {result : OrphanedRunsSweeperResult}
    {swept final : Recovering}
    {ended
      : Completion OrphanError Empty OrphanedRunsSweeperResult × OrphanedRunsSweeperResult}
    (scanned
      : (SweepOrphanedRuns.execute deps []).Exec (Recovering.Beside untouched) { runs, jobs }
          (.normal scan, locals) swept)
    (execution
      : (OrphanedRunsSweeper.execute scan.orphanedRuns result).Exec
          (Recovering.Beside untouched) swept ended final)
    : Recovered untouched scan.orphanedRuns swept final
      ↔ (∀ count, .checkThrew count ∈ final.faults → ∀ entry ∈ scan.orphanedRuns.drop count,
            untouched entry.uuid → entry.run.status ≠ .failed)
        ∧ ∀ token, .leaseKept token ∉ final.faults := by
  have scans := yields_scan untouched deps [] { runs, jobs }
    ⟨rfl, rfl, rfl, rfl⟩
  unfold Block.Ensures at scans
  obtain ⟨told, distinct, rows, held, checks, faults⟩ := scans.of_exec scanned
  rw [List.append_nil] at distinct
  have begins : (Swept untouched (activeJobs swept.jobs) scan.orphanedRuns [] swept
      ∧ Tally [] 0 swept)
      ∧ ∀ uuid, untouched uuid → activeJobs swept.jobs uuid = activeJobs swept.jobs uuid := by
    refine ⟨⟨⟨fun entry member still => ?_, ?_, ?_⟩, checks, [], held, faults⟩,
      fun _ _ => rfl⟩
    · obtain ⟨row, found, status⟩ := rows entry member still
      exact ⟨row, found, status, rfl⟩
    · exact fun _ member => absurd member List.not_mem_nil
    · exact fun uuid _ => le_max_right _ _
  have recovers := leads_recovery told distinct result swept begins
  unfold Block.Ensures at recovers
  have ends := recovers.of_exec execution
  obtain ⟨completion, locals⟩ := ended
  cases completion with
  | normal value =>
      obtain ⟨settled, -, kept, held, faults⟩ := ends
      have recovered := settled.recovered_iff (by simpa using told)
      rw [List.append_nil] at recovered
      rw [recovered, faults, held]
      simp [List.eq_nil_iff_forall_not_mem]
  | returned result => exact result.elim
  | threw error =>
      obtain ⟨waiting, finished, split, settled, faults⟩ := ends
      rw [split] at told ⊢
      rw [settled.recovered_iff told, faults]
      simp [List.eq_nil_iff_forall_not_mem]

-----------------------------------------------------------------------------------------
-- The recovery of one run
-----------------------------------------------------------------------------------------

/-- Answers the calls of both use cases; a check for an active lease may throw. -/
def orphanReplies (throws : Bool) (state : Recovering)
    : (request : OrphanRequest) → Option (request.Reply × Recovering)
  | .now => some (.ok Date.epoch, state)
  | .findActiveRuns =>
      let active := state.runs.rows.filter fun row => !row.status.isTerminal
      some (.ok (active.map fun row => { row with pid := some 7 }), state)
  | .isProcessAlive _ => some (.ok false, state)
  | .listPhases _ => some (.ok [], state)
  | .atomicUpdateByUuid uuid patch expected =>
      let (updated, runs) := RunRepository.atomicUpdateByUuid state.runs uuid patch expected
      some (.ok updated, { state with runs })
  | .notify _ | .publish _ _ => some (.ok (), state)
  | .listActive => some (.ok (state.jobs.rows.filter Job.isActive), state)
  | .checkActiveLease _ _ =>
      if throws then
        some (.error (.other "database is locked"),
          { state with faults := .checkThrew state.checks :: state.faults })
      else some (.ok false, { state with checks := state.checks + 1 })
  | .acquireLease input =>
      some (.ok {
        repoId := input.repoId
        workerId := input.workerId
        runId := input.runId
        acquiredAt := input.now
        heartbeatAt := input.now
        expiresAt := input.now
        leaseToken := "lease"
      }, { state with held := "lease" :: state.held })
  | .releaseLease input =>
      some (.ok (), { state with held := state.held.erase input.leaseToken })
  | .enqueue job => (state.jobs.insert job).map fun jobs => (.ok (), { state with jobs })

theorem orphanReplies_answers {throws : Bool} (state : Recovering) (request : OrphanRequest)
    (reply : request.Reply) (after : Recovering)
    (handled : orphanReplies throws state request = some (reply, after))
    : Recovering.Beside (fun _ => True) state request reply after := by
  refine ⟨state, ⟨state.runs, state.jobs, rfl, fun _ _ => ⟨rfl, rfl⟩⟩, ?_⟩
  cases request with
  | now | isProcessAlive | listPhases | notify | publish =>
      obtain ⟨rfl, rfl⟩ := Prod.mk.inj (Option.some.inj handled)
      rfl
  | findActiveRuns =>
      obtain ⟨rfl, rfl⟩ := Prod.mk.inj (Option.some.inj handled)
      exact ⟨.of_eq (by rw [List.map_map]; exact List.map_id _), rfl⟩
  | listActive =>
      obtain ⟨rfl, rfl⟩ := Prod.mk.inj (Option.some.inj handled)
      exact ⟨.rfl, rfl⟩
  | atomicUpdateByUuid =>
      obtain ⟨rfl, rfl⟩ := Prod.mk.inj (Option.some.inj handled)
      exact ⟨_, rfl, rfl⟩
  | checkActiveLease =>
      cases throws with
      | true | false =>
          obtain ⟨rfl, rfl⟩ := Prod.mk.inj (Option.some.inj handled)
          rfl
  | acquireLease =>
      obtain ⟨rfl, rfl⟩ := Prod.mk.inj (Option.some.inj handled)
      rfl
  | releaseLease =>
      obtain ⟨rfl, rfl⟩ := Prod.mk.inj (Option.some.inj handled)
      exact .inl rfl
  | enqueue job =>
      obtain ⟨jobs, inserted, same⟩ := Option.map_eq_some_iff.mp handled
      obtain ⟨rfl, rfl⟩ := Prod.mk.inj same
      exact .inl ⟨jobs, inserted, rfl⟩

def orphanDeps : SweepOrphanedRunsDeps :=
  { phaseRepository := true, runNotification := false }

def orphanedRun : Run :=
  createRun {
    uuid := "run"
    displayId := "run"
    repoId := "repo"
    issueNumber := 1
    startedAt := Date.epoch
  }

/-- One running run, whose process is gone. -/
def orphaned : Recovering :=
  { runs := ⟨[orphanedRun], by simp⟩, jobs := Table.empty }

/-- A sweep and the recovery of its entries. -/
def recovery (throws : Bool) (deps : SweepOrphanedRunsDeps) (start : Recovering)
    : Option (SweepOrphanedRunsResult × Recovering
        × (Completion OrphanError Empty OrphanedRunsSweeperResult × OrphanedRunsSweeperResult)
        × Recovering) :=
  match (SweepOrphanedRuns.execute deps []).run (orphanReplies throws) start with
  | some ((.normal scan, _), swept) =>
      ((OrphanedRunsSweeper.execute scan.orphanedRuns { scanned := 0 }).run
        (orphanReplies throws) swept).map fun (ended, final) => (scan, swept, ended, final)
  | _ => none

theorem exec_of_recovery {throws : Bool} {deps : SweepOrphanedRunsDeps} {start : Recovering}
    {scan : SweepOrphanedRunsResult} {swept final : Recovering}
    {ended
      : Completion OrphanError Empty OrphanedRunsSweeperResult × OrphanedRunsSweeperResult}
    (ran : recovery throws deps start = some (scan, swept, ended, final))
    : (∃ locals, (SweepOrphanedRuns.execute deps []).Exec
          (Recovering.Beside fun _ => True) start (.normal scan, locals) swept)
      ∧ (OrphanedRunsSweeper.execute scan.orphanedRuns { scanned := 0 }).Exec
          (Recovering.Beside fun _ => True) swept ended final := by
  unfold recovery at ran
  split at ran
  next found locals between first =>
    obtain ⟨⟨last, after⟩, second, same⟩ := Option.map_eq_some_iff.mp ran
    obtain ⟨rfl, rfl, rfl, rfl⟩
        : found = scan ∧ between = swept ∧ last = ended ∧ after = final := by
      simpa using same
    exact ⟨⟨locals, Program.exec_of_run orphanReplies_answers first⟩,
      Program.exec_of_run orphanReplies_answers second⟩
  next => contradiction

/-- Where nothing throws, the run is running again with one active job. -/
theorem recovered_iff_checked_enqueued
    : ∃ scan swept final, final.runs.find "run" = some orphanedRun
        ∧ activeJobs final.jobs "run" = 1
        ∧ Recovered (fun _ => True) scan swept final := by
  have completes : ((recovery false orphanDeps orphaned).map fun (_, _, _, final) =>
      (final.runs.find "run", activeJobs final.jobs "run", final.faults))
      = some (some orphanedRun, 1, []) := by
    decide
  obtain ⟨⟨scan, swept, ended, final⟩, ran, same⟩ := Option.map_eq_some_iff.mp completes
  obtain ⟨found, counted, faults⟩ : final.runs.find "run" = some orphanedRun
      ∧ activeJobs final.jobs "run" = 1 ∧ final.faults = [] := by
    simpa using same
  obtain ⟨⟨locals, scanned⟩, recovered⟩ := exec_of_recovery ran
  refine ⟨scan.orphanedRuns, swept, final, found, counted, ?_⟩
  exact (recovered_iff_checked scanned recovered).mpr (by simp [faults])

/-- A check for an active lease that throws leaves the run failed. -/
theorem recovery_strands_failed_run
    : ¬∀ (untouched : String → Prop) (deps : SweepOrphanedRunsDeps) (runs : RunTable)
        (jobs : JobTable) (scan : SweepOrphanedRunsResult) (locals : List SweepOrphanedRunEntry)
        (result : OrphanedRunsSweeperResult) (swept final : Recovering)
        (ended
          : Completion OrphanError Empty OrphanedRunsSweeperResult × OrphanedRunsSweeperResult),
        (SweepOrphanedRuns.execute deps []).Exec (Recovering.Beside untouched) { runs, jobs }
          (.normal scan, locals) swept →
        (OrphanedRunsSweeper.execute scan.orphanedRuns result).Exec
          (Recovering.Beside untouched) swept ended final →
        Recovered untouched scan.orphanedRuns swept final := by
  intro claim
  have completes : ((recovery true orphanDeps orphaned).map fun (scan, _, _, final) =>
      (scan.orphanedRuns.map fun entry => (entry.uuid, entry.previousStatus),
        (final.runs.find "run").map Run.status))
      = some ([("run", .running)], some .failed) := by
    decide
  obtain ⟨⟨scan, swept, ended, final⟩, ran, same⟩ := Option.map_eq_some_iff.mp completes
  obtain ⟨entries, failed⟩ := Prod.mk.inj same
  obtain ⟨⟨locals, scanned⟩, recovers⟩ := exec_of_recovery ran
  have recovered := claim _ _ _ _ _ _ _ _ _ _ scanned recovers
  obtain ⟨entry, listed, named⟩ : ∃ entry ∈ scan.orphanedRuns,
      (entry.uuid, entry.previousStatus) = ("run", RunStatus.running) :=
    List.mem_map.mp (entries ▸ List.mem_cons_self)
  obtain ⟨uuid, previous⟩ := Prod.mk.inj named
  obtain ⟨row, found, state⟩ := recovered.runs entry listed trivial
  rw [uuid] at found
  have status : row.status = .failed := by simpa [found] using failed
  rw [previous, status] at state
  simp at state

end AiSdlc.Application
