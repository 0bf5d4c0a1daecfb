import AiSdlc.Application.ResumeTables
import AiSdlc.Async.Reach

/-! What a call of `ResumeRun` leaves of its changes when it throws: the rollback takes back the
changes to the run and to the steps, but a phase that had no row keeps the one that was inserted.
-/

namespace AiSdlc.Application

open AiSdlc.Js
open AiSdlc.Domain
open AiSdlc.Async
open AiSdlc.Sqlite

-----------------------------------------------------------------------------------------
-- The rows that are left
-----------------------------------------------------------------------------------------

/-- The run after its rollback: an empty name of a phase is taken for none. -/
def restoredRun (run : Run) : Run :=
  { run with currentPhase := truthy run.currentPhase }

theorem restoredRun_eq_self {run : Run} : restoredRun run = run ↔ run.currentPhase ≠ some "" := by
  obtain ⟨_, _, _, _, _, _, _, _, _, currentPhase⟩ := run
  cases currentPhase with
  | none => simp [restoredRun, truthy]
  | some name => by_cases empty : name = "" <;> simp [restoredRun, truthy, empty]

/-- The run while its steps are reset and its job is enqueued. -/
def reactivatedRun (input : ResumeRunInput) (run : Run) : Run :=
  {
    run with
    status := .running
    currentPhase := none
    completedAt := none
    failureReason := none
    pinnedRuntime := input.pinnedRuntime.or run.pinnedRuntime
  }

/-- The phases after what was saved of them is written back. -/
def writtenBack (phases : PhaseTable) (saved : Option Phase) : PhaseTable :=
  match saved with
  | some phase => PhaseRepository.upsert phases phase
  | none => phases

/-- What is left of the insertion of a phase whose run's phases were listed. -/
def phasesLeft (phases : PhaseTable) (phase : Phase) (listed : List Phase) : PhaseTable :=
  writtenBack (PhaseRepository.upsert phases phase) (listed.find? (·.name = phase.name))

section Phases

variable {phases : PhaseTable} {phase row : Phase} {listed : List Phase}

theorem mem_of_listed {runUuid : String}
    (lists : PhaseRepository.ListsByRun phases runUuid listed) (member : row ∈ listed)
    : row ∈ phases.rows :=
  (List.mem_filter.mp (lists.rows.mem_iff.mp member)).1

theorem mem_of_saved {runUuid name : String}
    (lists : PhaseRepository.ListsByRun phases runUuid listed)
    (saved : listed.find? (·.name = name) = some row)
    : row ∈ phases.rows :=
  mem_of_listed lists (List.mem_of_find?_eq_some saved)

theorem writtenBack_of_stored {saved : Option Phase}
    (stored : ∀ row, saved = some row → row ∈ phases.rows)
    : writtenBack phases saved = phases := by
  cases saved with
  | none => rfl
  | some row => exact PhaseRepository.upsert_self (stored row rfl)

theorem phasesLeft_of_reversible (reversible : PhaseReversible phases phase)
    (lists : PhaseRepository.ListsByRun phases phase.runUuid listed)
    : phasesLeft phases phase listed = phases := by
  obtain ⟨row, stored, same, unchanged | first⟩ := reversible
  · have kept : PhaseRepository.upsert phases phase = phases := by
      refine Table.eq_of_rows ((PhaseRepository.rows_upsert_of_stored stored same).trans ?_)
      refine (List.map_congr_left fun other _ => ?_).trans (List.map_id phases.rows)
      by_cases here : other = row
      · simp [here, unchanged]
      · simp [here]
    rw [phasesLeft, kept]
    exact writtenBack_of_stored fun _ saved => mem_of_saved lists saved
  · rw [phasesLeft, first listed lists]
    exact PhaseRepository.upsert_upsert stored same

theorem mem_writtenBack {saved : Option Phase} (member : row ∈ phases.rows)
    (apart : ∀ other, saved = some other → other ∈ phases.rows ∧ row ≠ other)
    : row ∈ (writtenBack phases saved).rows := by
  cases saved with
  | none => exact member
  | some other =>
      obtain ⟨stored, different⟩ := apart other rfl
      rw [writtenBack, PhaseRepository.rows_upsert_of_stored stored rfl]
      exact List.mem_map.mpr ⟨row, member, if_neg different⟩

/-- A stored row that has been revised, and that is not written back, stays so. -/
theorem excluded_mem_phasesLeft (stored : row ∈ phases.rows) (same : row.id = phase.id)
    (lists : PhaseRepository.ListsByRun phases phase.runUuid listed)
    (other : listed.find? (·.name = phase.name) ≠ some row)
    : PhaseRepository.excluded phase row ∈ (phasesLeft phases phase listed).rows := by
  have revised := PhaseRepository.rows_upsert_of_stored stored same
  apply mem_writtenBack
  · rw [revised]
    exact List.mem_map.mpr ⟨row, stored, if_pos rfl⟩
  · intro saved found
    have member : saved ∈ phases.rows := mem_of_saved lists found
    have apart : saved ≠ row := fun here => other (here ▸ found)
    constructor
    · rw [revised]
      exact List.mem_map.mpr ⟨saved, member, if_neg apart⟩
    · rintro rfl
      exact apart (Table.eq_of_key phaseSchema_keyed member stored rfl rfl)

/-- Where the phase is not reversible, some listing leaves a change. -/
theorem exists_phasesLeft_ne (irreversible : ¬PhaseReversible phases phase)
    : ∃ listed, PhaseRepository.ListsByRun phases phase.runUuid listed
        ∧ phasesLeft phases phase listed ≠ phases := by
  by_cases stored : ∃ row ∈ phases.rows, row.id = phase.id
  · obtain ⟨row, stored, same⟩ := stored
    have other : ¬∀ listed, PhaseRepository.ListsByRun phases phase.runUuid listed →
        listed.find? (·.name = phase.name) = some row :=
      fun first => irreversible ⟨row, stored, same, .inr first⟩
    push Not at other
    obtain ⟨listed, lists, apart⟩ := other
    refine ⟨listed, lists, fun left => irreversible ⟨row, stored, same, .inl ?_⟩⟩
    have member := excluded_mem_phasesLeft stored same lists apart
    rw [left] at member
    exact Table.eq_of_key phaseSchema_keyed member stored rfl rfl
  · obtain ⟨listed, lists⟩ := PhaseRepository.exists_listsByRun phases phase.runUuid
    refine ⟨listed, lists, fun left => stored ?_⟩
    have free : ∀ other ∈ phases.rows, other.id ≠ phase.id :=
      fun other member same => stored ⟨other, member, same⟩
    have added := PhaseRepository.rows_upsert_of_free free
    have inserted : phase ∈ (phasesLeft phases phase listed).rows := by
      apply mem_writtenBack
      · rw [added]
        exact List.mem_append_right _ List.mem_cons_self
      · intro saved found
        have member : saved ∈ phases.rows := mem_of_saved lists found
        constructor
        · rw [added]
          exact List.mem_append_left _ member
        · rintro rfl
          exact free phase member rfl
    rw [left] at inserted
    exact ⟨phase, inserted, rfl⟩

end Phases

-----------------------------------------------------------------------------------------
-- A call among its possible replies
-----------------------------------------------------------------------------------------

/-- Replies that let a call go on up to the job, which is refused; the phases of the run are listed
in a given way.
-/
def Refuses (tables : ResumeTables) (input : ResumeRunInput) (listing : List Phase)
    (state : ResumeTables) : (request : ResumeRequest) → request.Reply → Prop
  | .enqueueJob _, reply => ∃ error, reply = .error error
  | .inspectWorktree _, reply => reply = .ok []
  | .listPhases runId, reply =>
      runId = input.runId → state.phases = tables.phases → reply = .ok listing
  | .atomicUpdateRun uuid patch expected, reply =>
      reply = .ok (RunRepository.atomicUpdateByUuid state.runs uuid patch expected).1
  | .upsertStep _, _ => True
  | _, reply => ∃ answer, reply = .ok answer

/-- All replies, or only those that refuse the job. -/
def replies (anyway : Prop) (tables : ResumeTables) (input : ResumeRunInput)
    (listing : List Phase) : Environment ResumeTables ResumeRequest ResumeRequest.Reply :=
  fun state request reply after =>
    state.Answers request reply after
      ∧ (¬anyway → Refuses tables input listing state request reply)

/-- The rows after a rollback. -/
structure RolledBack (tables : ResumeTables) (input : ResumeRunInput) (run : Run)
    (phases : PhaseTable) (state : ResumeTables) : Prop where
  repositories : state.repositories = tables.repositories
  runs : state.runs.rows = tables.runs.rows.map fun row =>
    if row.uuid = input.runId then restoredRun run else row
  steps : ∃ current : Step → Step, state.steps.rows = tables.steps.rows.map current
    ∧ ∀ row ∈ tables.steps.rows,
      (IsResumedStep input row → current row = StepRepository.rewritten row)
      ∧ (¬IsResumedStep input row → current row = row)
  phases : state.phases = phases
  jobs : state.jobs = tables.jobs

/-- How a call leaves the tables of a run that may be resumed, when it throws. -/
inductive Leaves (anyway : Prop) (tables : ResumeTables) (input : ResumeRunInput)
    (listing : List Phase) (run : Run) (state : ResumeTables) : Prop
  | stuck (unnumbered : run.issueNumber ≤ 0) (row : Run)
      (found : state.runs.find input.runId = some row) (running : row.status = .running)
  | unphased (numbered : anyway ∨ 0 < run.issueNumber)
      (whole : anyway ∨ truthy input.fromPhase = none)
      (rolledBack : RolledBack tables input run tables.phases state)
  | phased (numbered : 0 < run.issueNumber) (fromPhase : String)
      (named : truthy input.fromPhase = some fromPhase) (listed : List Phase)
      (lists : PhaseRepository.ListsByRun tables.phases input.runId listed)
      (chosen : ¬anyway → listed = listing)
      (rolledBack : RolledBack tables input run
        (phasesLeft tables.phases (resumedPhase input fromPhase) listed) state)

section Left

variable {anyway : Prop} {tables state : ResumeTables} {input : ResumeRunInput}
  {listing : List Phase} {run : Run}

/-- A rollback of what is reversible leaves the tables as they were. -/
theorem RolledBack.eq_of_reversible
    (rolledBack : RolledBack tables input run tables.phases state)
    (found : RunRepository.findByUuid none tables.runs input.runId = some run)
    (reversible : Reversible tables input run)
    : state = tables := by
  have runs : state.runs = tables.runs := by
    refine Table.eq_of_rows (rolledBack.runs.trans ?_)
    refine (List.map_congr_left fun row member => ?_).trans (List.map_id tables.runs.rows)
    by_cases here : row.uuid = input.runId
    · obtain ⟨stored, sameId⟩ := RunRepository.findByUuid_eq_some found
      have same : row = run :=
        Table.eq_of_key runSchema_keyed member stored rfl (by simp [here, sameId])
      rw [if_pos here, restoredRun_eq_self.mpr reversible.phaseNamed, same]
      rfl
    · rw [if_neg here]
      rfl
  have steps : state.steps = tables.steps := by
    obtain ⟨current, rows, kept⟩ := rolledBack.steps
    refine Table.eq_of_rows (rows.trans ?_)
    refine (List.map_congr_left fun row member => ?_).trans (List.map_id tables.steps.rows)
    by_cases resumed : IsResumedStep input row
    · rw [(kept row member).1 resumed, reversible.steps row member resumed]
      rfl
    · rw [(kept row member).2 resumed]
      rfl
  obtain ⟨repositories, _, _, phases, jobs⟩ := state
  obtain rfl := runs
  obtain rfl := steps
  obtain rfl := rolledBack.repositories
  obtain rfl := rolledBack.phases
  obtain rfl := rolledBack.jobs
  rfl

/-- A rollback that leaves the tables as they were had a run and steps that can be undone. -/
theorem RolledBack.reversible {phases : PhaseTable}
    (rolledBack : RolledBack tables input run phases state) (same : state = tables)
    (found : RunRepository.findByUuid none tables.runs input.runId = some run)
    : run.currentPhase ≠ some "" ∧ (∀ row ∈ tables.steps.rows, IsResumedStep input row →
        StepRepository.rewritten row = row) ∧ phases = tables.phases := by
  obtain rfl := same
  obtain ⟨stored, sameId⟩ := RunRepository.findByUuid_eq_some found
  refine ⟨restoredRun_eq_self.mp ?_, fun row member resumed => ?_, rolledBack.phases.symm⟩
  · have kept : ∀ row ∈ state.runs.rows,
        (if row.uuid = input.runId then restoredRun run else row) = row := by
      intro row member
      have mapped := rolledBack.runs.symm.trans (List.map_id state.runs.rows).symm
      exact List.map_inj_left.mp mapped row member
    simpa [sameId] using kept run stored
  · obtain ⟨current, rows, kept⟩ := rolledBack.steps
    rw [← (kept row member).1 resumed]
    have mapped := rows.symm.trans (List.map_id state.steps.rows).symm
    exact List.map_inj_left.mp mapped row member

end Left

namespace ResumeRun

variable {deps : ResumeRunDeps} {anyway : Prop} {tables : ResumeTables} {input : ResumeRunInput}
  {listing : List Phase} {run : Run}

/-- Statements between conditions on the tables, which never return early. -/
abbrev Changes {α : Type} (anyway : Prop) (tables : ResumeTables) (input : ResumeRunInput)
    (listing : List Phase) (before : ResumeTables → Prop) (after : α → ResumeTables → Prop)
    (failing : ResumeTables → Prop) (statements : ResumeStatements α)
    : Prop :=
  statements.Meets (replies anyway tables input listing) (fun _ _ => True)
    (fun _ state => before state) (fun value _ state => after value state)
    (fun _ _ _ => False) fun _ _ state => failing state

theorem changes_throw {α : Type} {before : ResumeTables → Prop}
    {after : α → ResumeTables → Prop} {failing : ResumeTables → Prop} {error : ResumeError}
    (fails : ∀ state, before state → failing state)
    : Changes anyway tables input listing before after failing (Block.throw error) :=
  Block.meets_throw fun _ state holds => fails state holds

theorem anyway_of_refused {state after : ResumeTables} {request : ResumeRequest}
    {reply : request.Reply}
    (replied : replies anyway tables input listing state request reply after)
    (refused : ¬Refuses tables input listing state request reply)
    : anyway :=
  Classical.byContradiction fun calm => refused (replied.2 calm)

/-- The tables before the first write, of a call that throws. -/
def Untouched (anyway : Prop) (tables : ResumeTables) (input : ResumeRunInput)
    (state : ResumeTables) : Prop :=
  state = tables ∧ (anyway ∨ ∀ run, ¬Resumable tables input.runId run)

/-- A call that changes nothing, and throws only among all replies. -/
theorem changes_read (request : ResumeRequest) (told : request.Answer → Prop)
    (answers : ∀ (after : ResumeTables) answer, tables.Answers request (.ok answer) after →
      (¬anyway → Refuses tables input listing tables request (.ok answer)) →
      after = tables ∧ told answer)
    (throws : ∀ (after : ResumeTables) error, tables.Answers request (.error error) after →
      after = tables ∧ ¬Refuses tables input listing tables request (.error error))
    : Changes anyway tables input listing (· = tables)
        (fun answer state => state = tables ∧ told answer)
        (Untouched anyway tables input) (ask request) := by
  refine Block.meets_call (fun _ _ _ => trivial) ?_ ?_
  · rintro _ state after answer rfl replied
    exact answers after answer replied.1 replied.2
  · rintro _ state after error rfl replied
    obtain ⟨same, refused⟩ := throws after error replied.1
    exact ⟨same, .inl (anyway_of_refused replied refused)⟩

theorem changes_known {α : Type} {before : ResumeTables → Prop} {known : Prop}
    {after : α → ResumeTables → Prop} {failing : ResumeTables → Prop}
    {statements : ResumeStatements α}
    (changes : known → Changes anyway tables input listing before after failing statements)
    : Changes anyway tables input listing (fun state => before state ∧ known) after failing
        statements :=
  fun locals state holds => changes holds.2 locals state holds.1

/-- The checks find the run that may be resumed, or there is none. -/
theorem changes_readResumable
    : Changes anyway tables input listing (· = tables)
        (fun found state => state = tables ∧ Resumable tables input.runId found.1)
        (Untouched anyway tables input) (readResumable input.runId) := by
  have refused {before : ResumeTables → Prop} {message : String}
      (same : ∀ state, before state → state = tables)
      (missing : ∀ run, ¬Resumable tables input.runId run)
      : Changes anyway tables input listing before
          (fun (found : Run × RegisteredRepository) state =>
            state = tables ∧ Resumable tables input.runId found.1)
          (Untouched anyway tables input) (Block.throw (.message message)) :=
    changes_throw fun state holds => ⟨same state holds, .inr missing⟩
  refine Block.meets_bind (changes_read (.findRun input.runId)
    (fun run => run = RunRepository.findByUuid none tables.runs input.runId)
    (fun _ _ answered _ => ⟨answered.2, answered.1⟩)
    fun _ _ answered => ⟨answered, fun ⟨_, same⟩ => nomatch same⟩) fun found => ?_
  refine changes_known fun known => ?_
  cases found with
  | none =>
      exact refused (fun _ same => same) fun _ resumable => nomatch known.trans resumable.found
  | some run =>
      have only {other : Run} (resumable : Resumable tables input.runId other) : other = run :=
        Option.some.inj (resumable.found.symm.trans known.symm)
      refine Block.meets_ite (fun stopped => ?_) fun going => refused (fun _ same => same)
        fun other resumable => going (only resumable ▸ resumable.stopped)
      refine Block.meets_bind (changes_read (.findRepository run.repoId)
        (fun repository => repository = tables.repositories.find? (·.id = run.repoId))
        (fun _ _ answered _ => ⟨answered.2, answered.1⟩)
        fun _ _ answered => ⟨answered, fun ⟨_, same⟩ => nomatch same⟩) fun repository => ?_
      refine changes_known fun located => ?_
      cases repository with
      | none =>
          refine refused (fun _ same => same) fun other resumable => ?_
          obtain ⟨repository, stored, -⟩ := resumable.repository
          obtain rfl := only resumable
          exact nomatch located.trans stored
      | some repository =>
          refine Block.meets_ite (fun mismatch => absurd ?_ mismatch) fun _ => ?_
          · simpa using List.find?_some located.symm
          refine Block.meets_ite (fun enabled => ?_) fun disabled => ?_
          · exact Block.meets_pure fun _ _ same =>
              ⟨same, known.symm, stopped, repository, located.symm, enabled⟩
          · refine refused (fun _ same => same) fun other resumable => ?_
            obtain ⟨stored, again, enabled⟩ := resumable.repository
            obtain rfl := only resumable
            obtain rfl := Option.some.inj (located.trans again)
            exact disabled enabled

/-- The paths that a reset would discard are looked up without a change. -/
theorem changes_getMeaningfulDirtyPaths {repoBasePath : String} {issueNumber : Int}
    : Changes anyway tables input listing (· = tables)
        (fun paths state => state = tables ∧ (anyway ∨ paths = []))
        (Untouched anyway tables input)
        (getMeaningfulDirtyPaths deps repoBasePath issueNumber) := by
  refine Block.meets_ite (fun _ => ?_) fun _ => Block.meets_pure fun _ _ same => ⟨same, .inr rfl⟩
  refine Block.meets_attempt (changes_read (.inspectWorktree _)
    (fun paths : List String => anyway ∨ paths = []) (fun _ paths answered calm => ?_)
    fun _ _ answered => ⟨answered, fun same => nomatch same⟩) fun error => ?_
  · refine ⟨answered, ?_⟩
    by_cases holds : anyway
    · exact .inl holds
    · exact .inr (Except.ok.inj (calm holds))
  · cases error with
    | message text =>
        refine Block.meets_ite (fun _ => ?_) fun _ => changes_throw fun _ holds => holds
        exact Block.meets_pure fun _ _ holds => ⟨holds.1, .inr rfl⟩
    | dispositionRequired | lease | job => exact changes_throw fun _ holds => holds

theorem changes_resolveEffectiveDisposition {repoBasePath : String}
    {requested : Option ResumeDisposition}
    : Changes anyway tables input listing (· = tables) (fun _ state => state = tables)
        (Untouched anyway tables input)
        (resolveEffectiveDisposition deps repoBasePath run requested) := by
  cases requested with
  | some disposition => exact Block.meets_pure fun _ _ same => same
  | none =>
      refine Block.meets_bind changes_getMeaningfulDirtyPaths fun paths => ?_
      refine changes_known fun clean => ?_
      cases resolved : resolveResumeDisposition run.status paths none with
      | ok disposition =>
          simp only [check]
          exact Block.meets_pure fun _ _ same => same
      | error error =>
          simp only [check]
          refine changes_throw fun state same => ⟨same, clean.imp_right fun none => ?_⟩
          subst none
          unfold resolveResumeDisposition at resolved
          by_cases reviewed : run.status = .needsHumanReview <;> simp [reviewed] at resolved

theorem changes_acquireLease {repoId : RepositoryId}
    : Changes anyway tables input listing (· = tables) (fun _ state => state = tables)
        (Untouched anyway tables input) (acquireLease input repoId) := by
  have acquires : Changes anyway tables input listing (· = tables)
      (fun _ state => state = tables) (Untouched anyway tables input) (do
        let now ← ask .now
        let lease ← ask (.acquireLease {
          repoId
          workerId := input.workerId
          runId := input.runId
          now
          ttlMs := resumeLeaseTtlMs
        })
        pure (some lease)) := by
    refine Block.meets_bind (changes_read .now (fun _ => True)
      (fun _ _ answered _ => ⟨answered, trivial⟩) fun _ _ answered => answered.elim) fun now => ?_
    refine changes_known fun _ => ?_
    refine Block.meets_bind (changes_read (.acquireLease _) (fun _ => True)
      (fun _ _ answered _ => ⟨answered, trivial⟩)
      fun _ _ answered => ⟨answered, fun ⟨_, same⟩ => nomatch same⟩) fun lease => ?_
    exact Block.meets_pure fun _ _ holds => holds.1
  refine Block.meets_attempt acquires fun error => ?_
  rcases error with text | - | (conflict | lost | invalid) | job
  · exact changes_throw fun _ holds => holds
  · exact changes_throw fun _ holds => holds
  · exact Block.meets_pure fun _ _ holds => holds.1
  · exact changes_throw fun _ holds => holds
  · exact changes_throw fun _ holds => holds
  · exact changes_throw fun _ holds => holds

/-- Giving the lease back changes nothing, and throws nothing. -/
theorem changes_releaseLease {condition : ResumeTables → Prop} {repoId : RepositoryId}
    {acquired : Option WorkerLease}
    : Changes anyway tables input listing condition (fun _ => condition) (fun _ => False)
        (releaseLease input repoId acquired) := by
  cases acquired with
  | none => exact Block.meets_pure fun _ _ holds => holds
  | some lease =>
      have releases : (ask (.releaseLease {
          repoId
          workerId := input.workerId
          runId := input.runId
          leaseToken := lease.leaseToken
        })).Meets (replies anyway tables input listing) (fun _ _ => True)
          (fun _ state => condition state) (fun _ _ state => condition state)
          (fun _ _ _ => False) fun error _ state => condition state
            ∧ ∃ repoId token, error = .lease (.ownershipLost repoId token) := by
        refine Block.meets_call (fun _ _ _ => trivial) ?_ ?_
        · intro _ state after answer holds replied
          exact (replied.1 : after = state) ▸ holds
        · intro _ state after error holds replied
          rcases error with text | - | (conflict | ⟨repoId, token⟩ | invalid) | job
          · exact replied.1.elim
          · exact replied.1.elim
          · exact replied.1.elim
          · exact ⟨(replied.1 : after = state) ▸ holds, repoId, token, rfl⟩
          · exact replied.1.elim
          · exact replied.1.elim
      refine Block.meets_attempt releases fun error => ?_
      rintro locals state ⟨holds, repoId, token, rfl⟩
      exact holds

-----------------------------------------------------------------------------------------
-- What is saved
-----------------------------------------------------------------------------------------

/-- The steps of the phase, as they were read. -/
structure SavesSteps (tables : ResumeTables) (input : ResumeRunInput) (steps : List Step)
    : Prop where
  stored : ∀ step ∈ steps, ∃ row ∈ tables.steps.rows, IsResumedStep input row
    ∧ step = StepRepository.rowToStep row
  whole : ∀ row ∈ tables.steps.rows, IsResumedStep input row →
    StepRepository.rowToStep row ∈ steps

/-- The first phase of the name in a listing, where there is a name. -/
def SavesPhase (anyway : Prop) (tables : ResumeTables) (input : ResumeRunInput)
    (listing : List Phase) (saved : Option Phase) : Prop :=
  match truthy input.fromPhase with
  | none => saved = none
  | some fromPhase => ∃ listed, PhaseRepository.ListsByRun tables.phases input.runId listed
      ∧ (¬anyway → listed = listing) ∧ saved = listed.find? (·.name = fromPhase)

theorem savesSteps_filter {fromPhase : String} {steps : List Step}
    (named : truthy input.fromPhase = some fromPhase)
    (lists : StepRepository.ListsForRun tables.steps input.runId steps)
    : SavesSteps tables input (steps.filter fun step => step.phaseId = fromPhase) := by
  constructor
  · intro step member
    obtain ⟨listed, same⟩ := List.mem_filter.mp member
    obtain ⟨row, stored, rfl⟩ := List.mem_map.mp (lists.mem_iff.mp listed)
    obtain ⟨stored, own⟩ := List.mem_filter.mp stored
    refine ⟨row, stored, ⟨by simpa using own, named.trans ?_⟩, rfl⟩
    exact congrArg some (of_decide_eq_true same).symm
  · intro row stored ⟨own, phase⟩
    refine List.mem_filter.mpr ⟨lists.mem_iff.mpr (List.mem_map.mpr ⟨row, ?_, rfl⟩), ?_⟩
    · exact List.mem_filter.mpr ⟨stored, by simpa using own⟩
    · exact decide_eq_true (Option.some.inj (phase.symm.trans named))

theorem changes_readPhase
    : Changes anyway tables input listing (· = tables)
        (fun saved state => state = tables ∧ SavesSteps tables input saved.1
          ∧ SavesPhase anyway tables input listing saved.2)
        (Untouched anyway tables input) (readPhase input) := by
  unfold readPhase SavesPhase
  cases named : truthy input.fromPhase with
  | none =>
      refine Block.meets_pure fun _ _ same => ⟨same, ⟨?_, ?_⟩, rfl⟩
      · exact fun _ member => nomatch member
      · exact fun _ _ resumed => nomatch named.symm.trans resumed.2
  | some fromPhase =>
      refine Block.meets_bind (changes_read (.listSteps input.runId)
        (fun steps => StepRepository.ListsForRun tables.steps input.runId steps)
        (fun _ _ answered _ => ⟨answered.2, answered.1⟩)
        fun _ _ answered => ⟨answered, fun ⟨_, same⟩ => nomatch same⟩) fun steps => ?_
      refine changes_known fun lists => ?_
      refine Block.meets_bind (changes_read (.listPhases input.runId)
        (fun phases => PhaseRepository.ListsByRun tables.phases input.runId phases
          ∧ (¬anyway → phases = listing))
        (fun _ _ answered calm => ⟨answered.2, answered.1,
          fun refuses => Except.ok.inj (calm refuses rfl rfl)⟩)
        fun _ _ answered => ⟨answered, fun refuses => nomatch refuses rfl rfl⟩) fun phases => ?_
      refine Block.meets_pure fun _ _ ⟨same, listed, chosen⟩ =>
        ⟨same, ?_, phases, listed, chosen, rfl⟩
      exact savesSteps_filter named lists

-----------------------------------------------------------------------------------------
-- The writes
-----------------------------------------------------------------------------------------

/-- The tables with a row in the place of the run's, with phases, and with written steps. -/
structure Moved (tables : ResumeTables) (input : ResumeRunInput) (row : Run)
    (phases : PhaseTable) (current : Step → Step) (state : ResumeTables) : Prop where
  repositories : state.repositories = tables.repositories
  runs : state.runs.rows = tables.runs.rows.map fun other =>
    if other.uuid = input.runId then row else other
  steps : state.steps.rows = tables.steps.rows.map current
  written : ∀ other ∈ tables.steps.rows, StepRepository.IsWritten other (current other)
  kept : ∀ other ∈ tables.steps.rows, ¬IsResumedStep input other → current other = other
  phases : state.phases = phases
  jobs : state.jobs = tables.jobs

variable {row : Run} {phases : PhaseTable} {current : Step → Step}

theorem Moved.find {state : ResumeTables} (moved : Moved tables input row phases current state)
    (resumable : Resumable tables input.runId run) (same : row.uuid = input.runId)
    : state.runs.find input.runId = some row := by
  obtain ⟨stored, own⟩ := RunRepository.findByUuid_eq_some resumable.found
  have member : row ∈ state.runs.rows := by
    rw [moved.runs]
    exact List.mem_map.mpr ⟨run, stored, if_pos own⟩
  exact same ▸ Table.findKey_of_mem runSchema_keyed member

theorem find_of_resumable (resumable : Resumable tables input.runId run)
    : tables.runs.find input.runId = some run := by
  obtain ⟨stored, own⟩ := RunRepository.findByUuid_eq_some resumable.found
  exact own ▸ Table.findKey_of_mem runSchema_keyed stored

/-- The run becomes running, unless the compare-and-set is lost. -/
theorem changes_reactivate {reactivated : Run} (resumable : Resumable tables input.runId run)
    (resumed : resumeRun run input.fromPhase input.pinnedRuntime = .ok reactivated)
    : Changes anyway tables input listing (· = tables)
        (fun updated state => if updated then
          Moved tables input (reactivatedRun input run) tables.phases id state
          else Untouched anyway tables input state)
        (Untouched anyway tables input)
        (ask (.atomicUpdateRun input.runId (reactivation input reactivated) run.status)) := by
  have found := find_of_resumable resumable
  have filled : (reactivation input reactivated).isEmpty = false := by
    simp [reactivation, RunRepositoryUpdatePatch.isEmpty]
  have patched : (reactivation input reactivated).patch run = reactivatedRun input run := by
    unfold resumeRun at resumed
    rw [if_pos resumable.stopped] at resumed
    obtain rfl := Except.ok.inj resumed
    cases pinned : input.pinnedRuntime <;>
      simp [reactivation, reactivatedRun, RunRepositoryUpdatePatch.patch, pinned]
  refine Block.meets_call (fun _ _ _ => trivial) ?_ fun _ _ _ _ _ replied => replied.1.elim
  rintro _ state after updated rfl replied
  rcases replied.1 with ⟨runs, performed, rfl⟩ | ⟨_, rfl, rfl⟩
  · obtain rfl := RunRepository.atomicUpdateByUuid_of_find filled found rfl performed
    refine ⟨rfl, ?_, (List.map_id _).symm, fun _ _ => .inl rfl, fun _ _ _ => rfl, rfl, rfl⟩
    rw [← patched]
    exact RunRepository.rows_of_atomicUpdateByUuid performed found
  · refine ⟨rfl, .inl (anyway_of_refused replied fun refuses => ?_)⟩
    cases performed : RunRepository.atomicUpdateByUuid after.runs input.runId
        (reactivation input reactivated) run.status with
    | mk updated runs =>
        have updates := RunRepository.atomicUpdateByUuid_of_find filled found rfl performed
        have lost : false = (RunRepository.atomicUpdateByUuid after.runs input.runId
          (reactivation input reactivated) run.status).1 := Except.ok.inj refuses
        rw [performed, updates] at lost
        cases lost

/-- A step of the phase is written as it was read, or anew. -/
theorem changes_upsertStep {stored step : Step} (member : stored ∈ tables.steps.rows)
    (resumed : IsResumedStep input stored)
    (writes : step = StepRepository.rowToStep stored ∨ step = StepRepository.pendingStep stored)
    : Changes anyway tables input listing (Moved tables input row phases current)
        (fun _ => Moved tables input row phases fun other =>
          if other = stored then StepRepository.excluded step stored else current other)
        (fun _ => False) (ask (.upsertStep step)) := by
  refine Block.meets_call (fun _ _ _ => trivial) ?_ ?_
  · rintro _ state after answer moved ⟨⟨steps, written, rfl⟩, -⟩
    obtain ⟨next, upserted, rows⟩ :=
      StepRepository.upsert_written moved.steps moved.written member writes
    obtain rfl := Option.some.inj (written.symm.trans upserted)
    refine ⟨moved.repositories, moved.runs, rows, fun other located => ?_,
      fun other located apart => ?_, moved.phases, moved.jobs⟩
    · by_cases here : other = stored
      · subst here
        rw [if_pos rfl]
        rcases writes with rfl | rfl
        · exact .inr (.inl rfl)
        · exact .inr (.inr rfl)
      · rw [if_neg here]
        exact moved.written other located
    · rw [if_neg fun here : other = stored => apart (here ▸ resumed)]
      exact moved.kept other located apart
  · intro _ state after error moved replied
    obtain ⟨next, upserted, -⟩ :=
      StepRepository.upsert_written moved.steps moved.written member writes
    exact nomatch replied.1.1.symm.trans upserted

/-- The phases after the phase has been inserted, where one is named. -/
def insertedPhases (tables : ResumeTables) (input : ResumeRunInput) : PhaseTable :=
  match truthy input.fromPhase with
  | none => tables.phases
  | some fromPhase => PhaseRepository.upsert tables.phases (resumedPhase input fromPhase)

/-- The steps start anew and the phase is inserted, unless its insertion fails. -/
theorem changes_resetPhase {savedSteps : List Step} (saves : SavesSteps tables input savedSteps)
    : Changes anyway tables input listing
        (fun state => ∃ current, Moved tables input row tables.phases current state)
        (fun _ state =>
          ∃ current, Moved tables input row (insertedPhases tables input) current state)
        (fun state => anyway ∧ ∃ current, Moved tables input row tables.phases current state)
        (resetPhase input savedSteps) := by
  unfold resetPhase insertedPhases
  cases truthy input.fromPhase with
  | none => exact Block.meets_pure fun _ _ moved => moved
  | some fromPhase =>
      let pending (rest : List Step) (state : ResumeTables) : Prop :=
        (∀ step ∈ rest, step ∈ savedSteps)
          ∧ ∃ current, Moved tables input row tables.phases current state
      have resets : Changes anyway tables input listing (pending savedSteps)
          (fun _ state => ∃ current, Moved tables input row tables.phases current state)
          (fun state => anyway ∧ ∃ current, Moved tables input row tables.phases current state)
          (Block.forEach savedSteps fun step => Block.ifThen (step.status ≠ .success)
            (ask (.upsertStep
              { step with startedAt := none, completedAt := none, status := .pending }))) := by
        refine (Block.meets_forEach (fun rest _ => pending rest) ?_).mono
          (fun _ _ holds => holds) fun _ _ _ holds => holds.2
        intro step rest
        refine Block.meets_ifThen (fun _ => ?_)
          fun _ _ _ holds =>
            ⟨fun other later => holds.1 other (List.mem_cons_of_mem _ later), holds.2⟩
        rintro locals state ⟨within, current, moved⟩
        obtain ⟨stored, member, resumed, rfl⟩ := saves.stored step (within step List.mem_cons_self)
        refine Block.Ensures.mono
          (changes_upsertStep member resumed (.inr rfl) locals state moved) ?_
        intro completion locals state ended
        cases completion with
        | normal =>
            exact ⟨fun other later => within other (List.mem_cons_of_mem _ later), _, ended⟩
        | returned result => exact ended
        | threw error => exact ended.elim
      refine Block.Meets.mono (Block.meets_bind resets fun _ => ?_)
        (fun _ _ holds => ⟨fun _ member => member, holds⟩) fun _ _ _ holds => holds
      refine Block.meets_call (fun _ _ _ => trivial) ?_ ?_
      · rintro _ state after answer ⟨current, moved⟩ ⟨rfl, -⟩
        exact ⟨current, moved.repositories, moved.runs, moved.steps, moved.written, moved.kept,
          by rw [moved.phases]; rfl, moved.jobs⟩
      · rintro _ state after error ⟨current, moved⟩ replied
        obtain rfl : after = state := replied.1
        exact ⟨anyway_of_refused replied (fun ⟨_, same⟩ => nomatch same), current, moved⟩

/-- What `transition` saves of a run. -/
structure Saves (tables : ResumeTables) (input : ResumeRunInput) (run : Run)
    (saved : ResumeTransitionState) : Prop where
  status : saved.savedStatus = run.status
  completedAt : saved.savedCompletedAt = run.completedAt
  failureReason : saved.savedFailureReason = run.failureReason
  currentPhase : saved.savedCurrentPhase = truthy run.currentPhase
  pinnedRuntime : saved.savedPinnedRuntime = run.pinnedRuntime
  completedPhases : saved.savedCompletedPhases = run.completedPhases
  skippedPhases : saved.savedSkippedPhases = run.skippedPhases
  steps : SavesSteps tables input saved.savedSteps

/-- The compare-and-set of a rollback finds the run as it was left. -/
theorem changes_restore {saved : ResumeTransitionState} {pinned : Option (Option PinnedRuntime)}
    (resumable : Resumable tables input.runId run) (saves : Saves tables input run saved)
    (pins : pinned.getD (input.pinnedRuntime.or run.pinnedRuntime) = run.pinnedRuntime)
    : Changes anyway tables input listing
        (fun state => ∃ current, Moved tables input (reactivatedRun input run) phases current state)
        (fun _ state => ∃ current, Moved tables input (restoredRun run) phases current state)
        (fun _ => False)
        (ask (.atomicUpdateRun input.runId (restoration saved pinned) .running)) := by
  obtain ⟨stored, own⟩ := RunRepository.findByUuid_eq_some resumable.found
  have filled : (restoration saved pinned).isEmpty = false := by
    simp [restoration, RunRepositoryUpdatePatch.isEmpty]
  have patched : (restoration saved pinned).patch (reactivatedRun input run) = restoredRun run := by
    simp [restoration, reactivatedRun, restoredRun, RunRepositoryUpdatePatch.patch, saves.status,
      saves.completedAt, saves.failureReason, saves.currentPhase, saves.completedPhases,
      saves.skippedPhases, pins]
  refine Block.meets_call (fun _ _ _ => trivial) ?_ fun _ _ _ _ _ replied => replied.1.elim
  rintro _ state after updated ⟨current, moved⟩ ⟨⟨runs, performed, rfl⟩ | ⟨other, -⟩, -⟩
  · have found := moved.find resumable own
    obtain rfl := RunRepository.atomicUpdateByUuid_of_find filled found rfl performed
    refine ⟨current, moved.repositories, ?_, moved.steps, moved.written, moved.kept, moved.phases,
      moved.jobs⟩
    refine (RunRepository.rows_of_atomicUpdateByUuid performed found).trans ?_
    rw [moved.runs, List.map_map, patched]
    refine List.map_congr_left fun other _ => ?_
    by_cases here : other.uuid = input.runId
    · have same : (reactivatedRun input run).uuid = input.runId := own
      simp [here, same]
    · simp [here]
  · exact absurd rfl other

/-- A rollback takes back the changes of the run and of its steps. -/
theorem changes_rollback {saved : ResumeTransitionState} {pinned : Option (Option PinnedRuntime)}
    (resumable : Resumable tables input.runId run) (saves : Saves tables input run saved)
    (pins : pinned.getD (input.pinnedRuntime.or run.pinnedRuntime) = run.pinnedRuntime)
    : Changes anyway tables input listing
        (fun state => ∃ current, Moved tables input (reactivatedRun input run) phases current state)
        (fun _ => RolledBack tables input run (writtenBack phases saved.savedPhase))
        (fun _ => False) (rollback input.runId saved pinned) := by
  let pending (rest : List Step) (state : ResumeTables) : Prop :=
    (∀ step ∈ rest, step ∈ saved.savedSteps)
      ∧ ∃ current, Moved tables input (restoredRun run) phases current state
        ∧ ∀ other ∈ tables.steps.rows, IsResumedStep input other →
            current other = StepRepository.rewritten other
              ∨ StepRepository.rowToStep other ∈ rest
  have writesBack : Changes anyway tables input listing (pending saved.savedSteps)
      (fun _ => pending []) (fun _ => False)
      (Block.forEach saved.savedSteps fun step => ask (.upsertStep step)) := by
    refine Block.meets_forEach (fun rest _ => pending rest) ?_
    rintro step rest locals state ⟨within, current, moved, left⟩
    obtain ⟨stored, member, resumed, rfl⟩ :=
      saves.steps.stored step (within step List.mem_cons_self)
    refine Block.Ensures.mono
      (changes_upsertStep member resumed (.inl rfl) locals state moved) ?_
    intro completion locals state ended
    cases completion with
    | returned result => exact ended
    | threw error => exact ended
    | normal =>
        refine ⟨fun other later => within other (List.mem_cons_of_mem _ later), _, ended, ?_⟩
        intro other located resumedOther
        by_cases here : other = stored
        · exact .inl (by rw [if_pos here, here]; rfl)
        · rw [if_neg here]
          rcases left other located resumedOther with done | later
          · exact .inl done
          · rcases List.mem_cons.mp later with same | later
            · have sameId : (StepRepository.rowToStep other).id
                  = (StepRepository.rowToStep stored).id :=
                congrArg Step.id same
              have sameId : other.id = stored.id := sameId
              exact absurd
                (Table.eq_of_key stepSchema_keyed located member rfl (by simp [sameId])) here
            · exact .inr later
  have undone {phases : PhaseTable} {state : ResumeTables} {current : Step → Step}
      (moved : Moved tables input (restoredRun run) phases current state)
      (left : ∀ other ∈ tables.steps.rows, IsResumedStep input other →
        current other = StepRepository.rewritten other ∨ StepRepository.rowToStep other ∈ [])
      : RolledBack tables input run phases state :=
    ⟨moved.repositories, moved.runs, ⟨current, moved.steps, fun other located =>
        ⟨fun resumed => (left other located resumed).resolve_right (List.not_mem_nil),
          moved.kept other located⟩⟩, moved.phases, moved.jobs⟩
  refine Block.meets_bind (changes_restore resumable saves pins) fun _ => ?_
  refine Block.Meets.mono (Block.meets_bind writesBack fun _ => ?_) ?_ fun _ _ _ holds => holds
  · cases saved.savedPhase with
    | none => exact Block.meets_pure fun _ _ ⟨_, current, moved, left⟩ => undone moved left
    | some phase =>
        refine Block.meets_call (fun _ _ _ => trivial) ?_ fun _ _ _ _ _ replied => replied.1.elim
        rintro _ state after answer ⟨_, current, moved, left⟩ ⟨rfl, -⟩
        have rolledBack := undone moved left
        exact ⟨rolledBack.repositories, rolledBack.runs, rolledBack.steps,
          congrArg (PhaseRepository.upsert · phase) rolledBack.phases, rolledBack.jobs⟩
  · exact fun _ _ ⟨current, moved⟩ => ⟨fun _ member => member, current, moved,
      fun other located resumed => .inr (saves.steps.whole other located resumed)⟩

-----------------------------------------------------------------------------------------
-- The whole call
-----------------------------------------------------------------------------------------

/-- The tables of a call that throws after its first write. -/
def Left (anyway : Prop) (tables : ResumeTables) (input : ResumeRunInput) (listing : List Phase)
    (state : ResumeTables) : Prop :=
  ∃ run, Resumable tables input.runId run ∧ Leaves anyway tables input listing run state

/-- The tables of a call that throws. -/
def Ended (anyway : Prop) (tables : ResumeTables) (input : ResumeRunInput)
    (listing : List Phase) (state : ResumeTables) : Prop :=
  Untouched anyway tables input state ∨ Left anyway tables input listing state

theorem savesPhase_stored {saved : Option Phase}
    (saves : SavesPhase anyway tables input listing saved)
    : ∀ phase, saved = some phase → phase ∈ tables.phases.rows := by
  intro phase some
  unfold SavesPhase at saves
  cases named : truthy input.fromPhase with
  | none =>
      rw [named] at saves
      exact nomatch saves.symm.trans some
  | some fromPhase =>
      rw [named] at saves
      obtain ⟨listed, lists, -, found⟩ := saves
      exact mem_of_saved lists (found.symm.trans some)

/-- The condition of a call whose run is running, with what it has saved of it. -/
def Transitioned (anyway : Prop) (tables : ResumeTables) (input : ResumeRunInput)
    (listing : List Phase) (saved : ResumeTransitionState) (run : Run) (state : ResumeTables)
    : Prop :=
  Resumable tables input.runId run ∧ Saves tables input run saved
    ∧ SavesPhase anyway tables input listing saved.savedPhase
    ∧ ∃ current, Moved tables input (reactivatedRun input run) (insertedPhases tables input)
        current state

/-- Statements that throw with less known. -/
theorem changes_fails {α : Type} {before : ResumeTables → Prop}
    {after : α → ResumeTables → Prop} {failing weaker : ResumeTables → Prop}
    {statements : ResumeStatements α}
    (changes : Changes anyway tables input listing before after failing statements)
    (follows : ∀ state, failing state → weaker state)
    : Changes anyway tables input listing before after weaker statements :=
  fun locals state holds => (changes locals state holds).mono fun
    | .normal _, _, _, ended => ended
    | .returned _, _, _, never => never
    | .threw _, _, state, failed => follows state failed

/-- The steps are reset, or all of it is rolled back. -/
theorem changes_resetOrRollback {requested : Option ResumeDisposition}
    {saved : ResumeTransitionState} (resumable : Resumable tables input.runId run)
    (saves : Saves tables input run saved)
    (phase : SavesPhase anyway tables input listing saved.savedPhase)
    : Changes anyway tables input listing
        (Moved tables input (reactivatedRun input run) tables.phases id)
        (fun _ state => ∃ current, Moved tables input (reactivatedRun input run)
          (insertedPhases tables input) current state)
        (Ended anyway tables input listing)
        (Block.attempt (resetPhase { input with resumeDisposition := requested } saved.savedSteps)
          fun error => do
            rollback input.runId saved (input.pinnedRuntime.map fun _ => saved.savedPinnedRuntime)
            Block.throw error) := by
  have resets : Changes anyway tables input listing
      (Moved tables input (reactivatedRun input run) tables.phases id)
      (fun _ state => ∃ current, Moved tables input (reactivatedRun input run)
        (insertedPhases tables input) current state)
      (fun state => anyway
        ∧ ∃ current, Moved tables input (reactivatedRun input run) tables.phases current state)
      (resetPhase { input with resumeDisposition := requested } saved.savedSteps) :=
    (changes_resetPhase saves.steps).mono (fun _ _ moved => ⟨id, moved⟩) fun _ _ _ holds => holds
  have pins : (input.pinnedRuntime.map fun _ => saved.savedPinnedRuntime).getD
      (input.pinnedRuntime.or run.pinnedRuntime) = run.pinnedRuntime := by
    cases pinned : input.pinnedRuntime <;> simp [saves.pinnedRuntime]
  refine Block.meets_attempt resets fun error => ?_
  rintro locals state ⟨holds, moved⟩
  refine Block.meets_bind
    (changes_fails (changes_rollback resumable saves pins) fun _ => False.elim)
    (fun _ => changes_throw fun state rolledBack => ?_) locals state moved
  rw [writtenBack_of_stored (savesPhase_stored phase)] at rolledBack
  exact .inr ⟨run, resumable, .unphased (.inl holds) (.inl holds) rolledBack⟩

theorem changes_transition {requested : Option ResumeDisposition}
    : Changes anyway tables input listing (· = tables)
        (fun saved state => ∃ run, Transitioned anyway tables input listing saved run state)
        (Ended anyway tables input listing)
        (transition deps { input with resumeDisposition := requested }) := by
  refine Block.meets_bind (changes_fails changes_readResumable fun _ => .inl) fun found => ?_
  obtain ⟨run, repo⟩ := found
  refine changes_known fun resumable => ?_
  refine Block.meets_bind (changes_fails changes_resolveEffectiveDisposition fun _ => .inl)
    fun disposition => ?_
  obtain ⟨reactivated, resumed⟩ : ∃ reactivated,
      resumeRun run input.fromPhase input.pinnedRuntime = .ok reactivated :=
    ⟨_, if_pos resumable.stopped⟩
  have checks : Changes anyway tables input listing (· = tables)
      (fun next state => state = tables ∧ next = reactivated)
      (Ended anyway tables input listing)
      (check ((resumeRun run input.fromPhase input.pinnedRuntime).mapError .message)) := by
    rw [resumed]
    exact Block.meets_pure fun _ _ same => ⟨same, rfl⟩
  refine Block.meets_bind checks fun next => changes_known ?_
  rintro rfl
  have reads : Changes anyway tables input listing (· = tables)
      (fun saved state => state = tables ∧ SavesSteps tables input saved.1
        ∧ SavesPhase anyway tables input listing saved.2)
      (Ended anyway tables input listing)
      (readPhase { input with resumeDisposition := requested }) :=
    changes_fails changes_readPhase fun _ => .inl
  refine Block.meets_bind reads fun ⟨savedSteps, savedPhase⟩ => changes_known ?_
  rintro ⟨steps, phase⟩
  have swaps : Changes anyway tables input listing (· = tables)
      (fun updated state => if updated then
        Moved tables input (reactivatedRun input run) tables.phases id state
        else Untouched anyway tables input state)
      (Ended anyway tables input listing)
      (ask (.atomicUpdateRun input.runId
        (reactivation { input with resumeDisposition := requested } next) run.status)) :=
    changes_fails (changes_reactivate resumable resumed) fun _ => .inl
  refine Block.meets_bind swaps fun updated => ?_
  refine Block.meets_ite (fun won => ?_) fun lost => ?_
  · subst won
    have saves : Saves tables input run {
        savedStatus := run.status
        savedCompletedAt := run.completedAt
        savedFailureReason := run.failureReason
        savedCurrentPhase := truthy run.currentPhase
        savedPinnedRuntime := run.pinnedRuntime
        savedCompletedPhases := run.completedPhases
        savedSkippedPhases := run.skippedPhases
        savedSteps
        savedPhase
        effectiveDisposition := disposition
      } :=
      ⟨rfl, rfl, rfl, rfl, rfl, rfl, rfl, steps⟩
    refine Block.meets_bind (changes_resetOrRollback resumable saves phase) fun _ => ?_
    exact Block.meets_pure fun _ _ moved => ⟨run, resumable, saves, phase, moved⟩
  · refine changes_throw fun state holds => .inl ?_
    simpa [lost] using holds

theorem changes_createResumeJob {before : ResumeTables → Prop} {repoId : RepositoryId}
    {disposition : ResumeDisposition}
    : Changes anyway tables input listing before
        (fun _ state => before state ∧ 0 < run.issueNumber)
        (fun state => before state ∧ run.issueNumber ≤ 0)
        (createResumeJob input run repoId disposition) := by
  have tells {condition failing : ResumeTables → Prop}
      : Changes anyway tables input listing condition (fun _ => condition) failing
          (ask .now) := by
    refine Block.meets_call (fun _ _ _ => trivial) ?_ fun _ _ _ _ _ replied => replied.1.elim
    intro _ state after answer holds replied
    exact (replied.1 : after = state) ▸ holds
  have numbers {message : String}
      : Changes anyway tables input listing before
          (fun _ state => before state ∧ 0 < run.issueNumber)
          (fun state => before state ∧ run.issueNumber ≤ 0)
          (if run.issueNumber ≤ 0 then Block.throw (.message message)
            else pure () : ResumeStatements Unit) :=
    Block.meets_ite (fun unnumbered => changes_throw fun _ holds => ⟨holds, unnumbered⟩)
      fun numbered => Block.meets_pure fun _ _ holds => ⟨holds, by omega⟩
  refine Block.meets_bind tells fun named => ?_
  refine Block.meets_bind numbers fun _ => ?_
  refine Block.meets_bind tells fun createdAt => ?_
  exact Block.meets_pure fun _ _ holds => holds

/-- A job that is refused is rolled back, with what is left of the phase. -/
theorem changes_enqueueJob {saved : ResumeTransitionState} {job : Job}
    : Changes anyway tables input listing
        (fun state => Transitioned anyway tables input listing saved run state
          ∧ 0 < run.issueNumber)
        (fun _ _ => anyway) (Ended anyway tables input listing)
        (Block.attempt (ask (.enqueueJob job)) fun error => do
          rollback input.runId saved (some saved.savedPinnedRuntime)
          Block.throw error) := by
  refine changes_known fun numbered => ?_
  have enqueues : Changes anyway tables input listing
      (Transitioned anyway tables input listing saved run) (fun _ _ => anyway)
      (Transitioned anyway tables input listing saved run) (ask (.enqueueJob job)) := by
    refine Block.meets_call (fun _ _ _ => trivial) ?_ ?_
    · intro _ state after answer _ replied
      exact anyway_of_refused replied fun ⟨_, same⟩ => nomatch same
    · intro _ state after error holds replied
      exact (replied.1 : after = state) ▸ holds
  refine Block.meets_attempt enqueues fun error => ?_
  rintro locals state ⟨resumable, saves, phase, moved⟩
  have pins : (some saved.savedPinnedRuntime).getD (input.pinnedRuntime.or run.pinnedRuntime)
      = run.pinnedRuntime :=
    saves.pinnedRuntime
  refine Block.meets_bind
    (changes_fails (changes_rollback resumable saves pins) fun _ => False.elim)
    (fun _ => changes_throw fun state rolledBack => ?_) locals state moved
  refine .inr ⟨run, resumable, ?_⟩
  unfold SavesPhase at phase
  unfold insertedPhases at rolledBack
  cases named : truthy input.fromPhase with
  | none =>
      rw [named] at phase rolledBack
      rw [phase] at rolledBack
      exact .unphased (.inr numbered) (.inr named) rolledBack
  | some fromPhase =>
      rw [named] at phase rolledBack
      obtain ⟨listed, lists, chosen, found⟩ := phase
      rw [found] at rolledBack
      exact .phased numbered fromPhase named listed lists chosen rolledBack

theorem changes_resume {repoId : RepositoryId} {disposition : ResumeDisposition}
    (resumable : Resumable tables input.runId run)
    : Changes anyway tables input listing (· = tables) (fun _ _ => anyway)
        (Ended anyway tables input listing)
        (resume deps input run repoId disposition) := by
  refine Block.meets_bind changes_transition fun saved => ?_
  have only {state : ResumeTables}
      : (∃ other, Transitioned anyway tables input listing saved other state) →
        Transitioned anyway tables input listing saved run state := by
    rintro ⟨other, transitioned⟩
    obtain rfl : other = run :=
      Option.some.inj (transitioned.1.found.symm.trans resumable.found)
    exact transitioned
  have makes : Changes anyway tables input listing
      (fun state => ∃ other, Transitioned anyway tables input listing saved other state)
      (fun _ state => Transitioned anyway tables input listing saved run state
        ∧ 0 < run.issueNumber)
      (Ended anyway tables input listing)
      (createResumeJob input run repoId saved.effectiveDisposition) := by
    refine (changes_fails changes_createResumeJob fun state failed => ?_).mono
      (fun _ _ holds => holds) fun _ _ _ holds => ⟨only holds.1, holds.2⟩
    obtain ⟨_, _, _, current, moved⟩ := only failed.1
    obtain ⟨_, own⟩ := RunRepository.findByUuid_eq_some resumable.found
    exact .inr ⟨run, resumable, .stuck failed.2 _ (moved.find resumable own) rfl⟩
  refine Block.meets_bind makes fun job => ?_
  refine Block.meets_bind changes_enqueueJob fun _ => ?_
  exact Block.meets_pure fun _ _ holds => holds

/-- How a call ends: where its job is refused it throws, and leaves what the rollback leaves. -/
theorem changes_execute
    : Changes anyway tables input listing (· = tables) (fun _ _ => anyway)
        (Ended anyway tables input listing) (execute deps input) := by
  refine Block.meets_bind (changes_fails changes_readResumable fun _ => .inl) fun found => ?_
  obtain ⟨run, repo⟩ := found
  refine changes_known fun resumable => ?_
  refine Block.meets_bind (changes_fails changes_resolveEffectiveDisposition fun _ => .inl)
    fun disposition => ?_
  refine Block.meets_bind (changes_fails changes_acquireLease fun _ => .inl) fun acquired => ?_
  refine Block.meets_attempt (Block.meets_bind (changes_resume resumable) fun result => ?_)
    fun error => ?_
  · refine Block.meets_bind (changes_fails changes_releaseLease fun _ => False.elim) fun _ => ?_
    exact Block.meets_pure fun _ _ holds => holds
  · exact Block.meets_bind (changes_fails changes_releaseLease fun _ => False.elim)
      fun _ => changes_throw fun _ holds => holds

end ResumeRun

section Atomic

variable {deps : ResumeRunDeps} {tables : ResumeTables} {input : ResumeRunInput}

/-- Where what is changed can be undone, whatever fails leaves the tables as they were. -/
theorem failsAtomically_of_reversible
    (reversible : ∀ run, Resumable tables input.runId run → Reversible tables input run)
    : FailsAtomically deps input tables := by
  intro error after execution
  have ensures := @ResumeRun.changes_execute deps True tables input [] () tables rfl
  unfold Block.Ensures at ensures
  have all : (ResumeRun.execute deps input ()).Exec (replies True tables input []) tables
      (.threw error, ()) after :=
    execution.mono fun _ _ _ _ replied => ⟨replied, fun calm => absurd trivial calm⟩
  rcases ensures.of_exec all with untouched | ⟨run, resumable, leaves⟩
  · exact untouched.1
  · have undone := reversible run resumable
    cases leaves with
    | stuck unnumbered => exact absurd undone.numbered (by omega)
    | unphased _ _ rolledBack => exact rolledBack.eq_of_reversible resumable.found undone
    | phased _ fromPhase named listed lists _ rolledBack =>
        have none := phasesLeft_of_reversible (undone.phase fromPhase named) lists
        rw [none] at rolledBack
        exact rolledBack.eq_of_reversible resumable.found undone

/-- There is a reply to each call that refuses the job. -/
theorem exists_refusing {listing : List Phase}
    (lists : PhaseRepository.ListsByRun tables.phases input.runId listing)
    (state : ResumeTables) (request : ResumeRequest)
    : ∃ reply after, replies False tables input listing state request reply after := by
  have answers (answer : request.Answer) (after : ResumeTables)
      (answered : state.Answers request (.ok answer) after)
      (refuses : Refuses tables input listing state request (.ok answer))
      : ∃ reply after, replies False tables input listing state request reply after :=
    ⟨.ok answer, after, answered, fun _ => refuses⟩
  cases request with
  | now => exact answers .epoch state rfl ⟨_, rfl⟩
  | findRun runId => exact answers _ state ⟨rfl, rfl⟩ ⟨_, rfl⟩
  | findRepository id => exact answers _ state ⟨rfl, rfl⟩ ⟨_, rfl⟩
  | inspectWorktree cwd => exact answers [] state rfl rfl
  | acquireLease lease =>
      exact answers {
        repoId := lease.repoId
        workerId := lease.workerId
        runId := lease.runId
        acquiredAt := .epoch
        heartbeatAt := .epoch
        expiresAt := .epoch
        leaseToken := ""
      } state rfl ⟨_, rfl⟩
  | releaseLease => exact answers () state rfl ⟨_, rfl⟩
  | listSteps runId => exact answers _ state ⟨.refl _, rfl⟩ ⟨_, rfl⟩
  | listPhases runId =>
      by_cases same : runId = input.runId ∧ state.phases = tables.phases
      · obtain ⟨rfl, phases⟩ := same
        exact answers listing state ⟨phases ▸ lists, rfl⟩ fun _ _ => rfl
      · obtain ⟨listed, lists⟩ := PhaseRepository.exists_listsByRun state.phases runId
        exact answers listed state ⟨lists, rfl⟩ fun own phases => absurd ⟨own, phases⟩ same
  | atomicUpdateRun uuid patch expected =>
      exact answers _ _ (.inl ⟨_, rfl, rfl⟩) rfl
  | upsertStep step =>
      cases written : StepRepository.upsert state.steps step with
      | some steps => exact answers () _ ⟨steps, written, rfl⟩ trivial
      | none => exact ⟨.error .dispositionRequired, state, ⟨written, rfl⟩, fun _ => trivial⟩
  | insertPhase phase => exact answers () _ rfl ⟨_, rfl⟩
  | updatePhase phase => exact answers () _ rfl ⟨_, rfl⟩
  | enqueueJob job =>
      exact ⟨.error .dispositionRequired, state, rfl, fun _ => ⟨_, rfl⟩⟩

/-- Some listing tells whether the phase can be undone. -/
theorem exists_listing (tables : ResumeTables) (input : ResumeRunInput)
    : ∃ listing, PhaseRepository.ListsByRun tables.phases input.runId listing
        ∧ ∀ fromPhase, truthy input.fromPhase = some fromPhase →
            phasesLeft tables.phases (resumedPhase input fromPhase) listing = tables.phases →
            PhaseReversible tables.phases (resumedPhase input fromPhase) := by
  by_cases irreversible : ∃ fromPhase, truthy input.fromPhase = some fromPhase
      ∧ ¬PhaseReversible tables.phases (resumedPhase input fromPhase)
  · obtain ⟨fromPhase, named, irreversible⟩ := irreversible
    obtain ⟨listing, lists, changed⟩ := exists_phasesLeft_ne irreversible
    refine ⟨listing, lists, fun other sameNamed same => absurd ?_ changed⟩
    obtain rfl := Option.some.inj (named.symm.trans sameNamed)
    exact same
  · push Not at irreversible
    obtain ⟨listing, lists⟩ := PhaseRepository.exists_listsByRun tables.phases input.runId
    exact ⟨listing, lists, fun fromPhase named _ => irreversible fromPhase named⟩

/-- Where a change cannot be undone, a refused job leaves it. -/
theorem reversible_of_failsAtomically (fails : FailsAtomically deps input tables) {run : Run}
    (resumable : Resumable tables input.runId run)
    : Reversible tables input run := by
  obtain ⟨listing, lists, tells⟩ := exists_listing tables input
  obtain ⟨⟨completion, locals⟩, after, execution⟩ := Program.exists_exec
    (exists_refusing lists) (ResumeRun.execute deps input ()) tables
  have ensures := @ResumeRun.changes_execute deps False tables input listing () tables rfl
  unfold Block.Ensures at ensures
  have ended := ensures.of_exec execution
  cases completion with
  | normal result => exact False.elim ended
  | returned result => exact False.elim ended
  | threw error =>
      have same : after = tables :=
        fails error after (execution.mono fun _ _ _ _ replied => replied.1)
      rcases ended with ⟨-, never | none⟩ | ⟨other, resumableToo, leaves⟩
      · exact never.elim
      · exact absurd resumable (none run)
      · obtain rfl : other = run :=
          Option.some.inj (resumableToo.found.symm.trans resumable.found)
        cases leaves with
        | stuck unnumbered row found running =>
            rw [same, ResumeRun.find_of_resumable resumable] at found
            obtain rfl := Option.some.inj found
            have stopped := resumable.stopped
            simp [Run.canResume, running] at stopped
        | unphased numbered whole rolledBack =>
            obtain ⟨named, steps, -⟩ := rolledBack.reversible same resumable.found
            refine ⟨numbered.resolve_left id, named, steps, fun fromPhase some => ?_⟩
            exact nomatch (whole.resolve_left id).symm.trans some
        | phased numbered fromPhase phaseNamed listed _ chosen rolledBack =>
            obtain ⟨named, steps, phases⟩ := rolledBack.reversible same resumable.found
            refine ⟨numbered, named, steps, fun other some => ?_⟩
            obtain rfl := Option.some.inj (phaseNamed.symm.trans some)
            exact tells fromPhase some (chosen id ▸ phases)

/-- A failed call leaves the tables as they were exactly where its changes can be undone. -/
theorem failsAtomically_iff_reversible (deps : ResumeRunDeps) (input : ResumeRunInput)
    (tables : ResumeTables)
    : FailsAtomically deps input tables
      ↔ ∀ run, Resumable tables input.runId run → Reversible tables input run :=
  ⟨fun fails _ resumable => reversible_of_failsAtomically fails resumable,
    failsAtomically_of_reversible⟩

end Atomic

/-- A run that failed, of a repository that is enabled. -/
def stoppedRun : Run where
  uuid := "run-1"
  displayId := "issue-7-run-1"
  repoId := "repo-1"
  issueNumber := 7
  type := .issueToPr
  status := .failed
  completedPhases := []
  skippedPhases := []
  startedAt := .epoch

/-- The run is stored alone, and none of its phases has a row. -/
def stoppedTables : ResumeTables where
  repositories := [{
    id := "repo-1"
    fullName := "opsclawd/automation"
    localBasePath := "/repo"
    enabled := true
  }]
  runs := ⟨[stoppedRun], List.pairwise_singleton _ _⟩
  steps := .empty
  phases := .empty
  jobs := .empty

/-- The call that resumes the run from a phase. -/
def resumeFromImplement : ResumeRunInput where
  runId := "run-1"
  fromPhase := some "implement"
  workerId := "worker-1"

/-- A refused job leaves a row for the phase, which had none. -/
theorem resume_leaves_phase : ¬FailsAtomically {} resumeFromImplement stoppedTables := by
  intro fails
  have resumable : Resumable stoppedTables resumeFromImplement.runId stoppedRun :=
    ⟨by decide, by decide, _, rfl, rfl⟩
  obtain ⟨row, stored, -⟩ :=
    (reversible_of_failsAtomically fails resumable).phase "implement" (by decide)
  exact nomatch stored

end AiSdlc.Application
