import AiSdlc.Application.FairRepositoryScheduler

/-! What a step of the scheduler does: how a call goes on after an inspection, and which part of
the capacity its claims and its reservation take up.
-/

namespace AiSdlc.Application

open AiSdlc.Js
open AiSdlc.Domain
open AiSdlc.Transition

-----------------------------------------------------------------------------------------
-- Reservations and sequence numbers
-----------------------------------------------------------------------------------------

/-- A reservation is added, and at most one gives way to it, by induction over the entries. -/
theorem setReservation_perm (reservation : Reservation) (held : List Reservation)
    : ∃ kept, kept.Sublist held
        ∧ (setReservation reservation held).Perm (reservation :: kept) := by
  induction held with
  | nil => exact ⟨[], .slnil, .refl _⟩
  | cons first rest ih =>
      obtain ⟨kept, sublist, perm⟩ := ih
      unfold setReservation
      split
      · exact ⟨rest, .cons _ (.refl _), .refl _⟩
      · exact ⟨first :: kept, .cons_cons _ sublist, (perm.cons first).trans (.swap _ _ _)⟩

/-- A new key is added at the end, by induction over the entries. -/
theorem setReservation_of_fresh {reservation : Reservation} {held : List Reservation}
    (fresh : ∀ other ∈ held, other.workerId ≠ reservation.workerId)
    : setReservation reservation held = held ++ [reservation] := by
  induction held with
  | nil => rfl
  | cons first rest ih =>
      have differs := fresh first List.mem_cons_self
      have rest := ih fun other member => fresh other (List.mem_cons_of_mem _ member)
      simp [setReservation, differs, rest]

theorem setReservation_length_le (reservation : Reservation) (held : List Reservation)
    : (setReservation reservation held).length ≤ held.length + 1 := by
  obtain ⟨kept, sublist, perm⟩ := setReservation_perm reservation held
  have shorter := sublist.length_le
  rw [perm.length_eq, List.length_cons]
  omega

theorem mem_setReservation {reservation other : Reservation} {held : List Reservation}
    (member : other ∈ setReservation reservation held)
    : other = reservation ∨ other ∈ held := by
  obtain ⟨kept, sublist, perm⟩ := setReservation_perm reservation held
  exact (List.mem_cons.mp (perm.mem_iff.mp member)).imp_right fun hm => sublist.subset hm

/-- The next number is not in use: more numbers are tried than are in use. -/
theorem SchedulerState.getNextSeq_not_mem (state : SchedulerState) (repoId : RepositoryId)
    : state.getNextSeq repoId ∉ state.usedSeqs repoId := by
  have next : state.getNextSeq repoId
      = ((List.range ((state.usedSeqs repoId).length + 1)).find?
          (· ∉ state.usedSeqs repoId)).getD 0 := rfl
  cases found : (List.range ((state.usedSeqs repoId).length + 1)).find?
      (· ∉ state.usedSeqs repoId) with
  | some seq =>
      rw [next, found]
      simpa using List.find?_some found
  | none =>
      have used : (List.range ((state.usedSeqs repoId).length + 1)).Subset
          (state.usedSeqs repoId) := by
        intro seq member
        simpa using List.find?_eq_none.mp found seq member
      have bound := List.nodup_range.length_le_of_subset used
      rw [List.length_range] at bound
      omega

theorem SchedulerState.getNextSeq_fresh {state : SchedulerState} {repoId : RepositoryId}
    {held : Reservation} (member : held ∈ state.inFlight)
    : (held.repoId, held.seq) ≠ (repoId, state.getNextSeq repoId) := by
  intro same
  obtain ⟨sameRepo, sameSeq⟩ := Prod.mk.injEq .. ▸ same
  apply state.getNextSeq_not_mem repoId
  refine List.mem_map.mpr ⟨held, List.mem_filter.mpr ⟨member, ?_⟩, sameSeq⟩
  simpa using sameRepo

-----------------------------------------------------------------------------------------
-- How a call goes on
-----------------------------------------------------------------------------------------

def TickPhase.inspecting? : TickPhase → Option InspectingTick
  | inspecting tick => some tick
  | returned _ | threw _ => none

/-- A call ends and gives its committed claims back, or it claims a slot for another round. -/
inductive Tick.Continues (deps : SchedulerDeps) (tick : Tick) (state : SchedulerState)
    : SchedulerState → TickPhase → Prop
  | ended (telemetry : Telemetry) {phase : TickPhase} (final : phase.inspecting? = none)
      : Continues deps tick state ({ state with telemetry }.releaseCommitted tick) phase
  | claimed (more : tick.i < tick.sorted.length)
      (room : state.inFlight.length + state.claimedSlots < deps.globalConcurrency)
      : Continues deps tick state { state with claimedSlots := state.claimedSlots + 1 }
          (.inspecting { tick with more })

section Continues

variable {deps : SchedulerDeps} {tick : Tick} {state : SchedulerState} {aborted : Bool}

theorem Tick.finish_continues
    : tick.Continues deps state (tick.finish deps state).1 (tick.finish deps state).2 :=
  .ended _ rfl

theorem Tick.unwind_continues {error : ThrownValue}
    : tick.Continues deps state (tick.unwind error state).1 (tick.unwind error state).2 :=
  .ended state.telemetry rfl

theorem Tick.loop_continues
    : tick.Continues deps state (tick.loop deps aborted state).1
        (tick.loop deps aborted state).2 := by
  unfold Tick.loop
  split
  next more =>
    split
    · exact Tick.finish_continues
    · split
      · exact Tick.finish_continues
      next room => exact .claimed more (by omega)
  · exact Tick.finish_continues

end Continues

/-- The worker that is reserved for a candidate. -/
def InspectingTick.execution (tick : InspectingTick) (state : SchedulerState)
    (workerId : WorkerId)
    : Execution :=
  {
    repoId := tick.candidate.id
    workerId
    seq := state.getNextSeq tick.candidate.id
    abortController := state.controllers
    repositoryName := tick.candidate.fullName
  }

/-- The inspection finds the candidate fit, so that it is admitted. -/
def InspectingTick.Admits (deps : SchedulerDeps) (tick : InspectingTick)
    (state : SchedulerState) (answer : Except ThrownValue RepositoryWorkInspection)
    : Prop :=
  ∃ inspection, answer = .ok inspection ∧ state.verdict deps tick.candidate inspection = .accept

/-- What an inspected candidate comes to before its call goes on, and whether the loop does. -/
inductive InspectingTick.Passage (deps : SchedulerDeps)
    (answer : Except ThrownValue RepositoryWorkInspection) (ports : DispatchPorts)
    (tick : InspectingTick) (state : SchedulerState)
    : SchedulerState → Tick → Bool → Prop
  | lost {raised : ThrownValue} (answered : answer = .error (.unreadable raised))
      : Passage deps answer ports tick state state tick.toTick false
  | stopped (telemetry : Telemetry) (stopped : state.stopped = true)
      : Passage deps answer ports tick state { state with telemetry }.releaseClaim
          tick.toTick false
  | skipped (telemetry : Telemetry)
      (unfit : state.stopped = false ∧ ¬ tick.Admits deps state answer)
      : Passage deps answer ports tick state { state with telemetry }.releaseClaim
          tick.nextRound true
  | unnamed (telemetry : Telemetry) (fit : tick.Admits deps state answer) {error : ThrownValue}
      (threw
        : ports.workerIdFactory tick.candidate (state.getNextSeq tick.candidate.id)
          = .error error)
      : Passage deps answer ports tick state { state with telemetry } tick.toTick false
  | unstarted (telemetry : Telemetry) (fit : tick.Admits deps state answer)
      {workerId : WorkerId}
      (named
        : ports.workerIdFactory tick.candidate (state.getNextSeq tick.candidate.id)
          = .ok workerId)
      {error : ThrownValue} (threw : ports.runOne = .error error)
      : Passage deps answer ports tick state
          {
            state with
            inFlight :=
              setReservation (tick.execution state workerId).toReservation state.inFlight
            controllers := state.controllers + 1
            telemetry
          }
          tick.commit false
  | started (telemetry : Telemetry) (fit : tick.Admits deps state answer)
      {workerId : WorkerId}
      (named
        : ports.workerIdFactory tick.candidate (state.getNextSeq tick.candidate.id)
          = .ok workerId)
      (runs : ports.runOne = .ok ())
      : Passage deps answer ports tick state
          {
            state with
            inFlight :=
              setReservation (tick.execution state workerId).toReservation state.inFlight
            controllers := state.controllers + 1
            started := state.started ++ [tick.execution state workerId]
            running := state.running ++ [tick.execution state workerId]
            cursorId := some tick.candidate.id
            telemetry
          }
          tick.commit.accept.nextRound true

/-- A call whose loop does not go on ends. -/
def Tick.Resumes (deps : SchedulerDeps) (tick : Tick) (state : SchedulerState) (goesOn : Bool)
    (result : SchedulerState × TickPhase)
    : Prop :=
  tick.Continues deps state result.1 result.2
    ∧ (goesOn = false → result.2.inspecting? = none)

/-- The local variables of a call before its first round. -/
def SchedulerState.firstTick (deps : SchedulerDeps) (state : SchedulerState)
    (repos : List SchedulerRepository)
    : Tick :=
  let sorted := repos.insertionSort fun a b => deps.localeCompare a.id b.id ≤ 0
  {
    sorted
    startIndex := state.findStartIndex sorted
    i := 0
    committedByMe := 0
    admitted := 0
  }

section Resume

variable {deps : SchedulerDeps} {tick : InspectingTick} {state : SchedulerState}
  {answer : Except ThrownValue RepositoryWorkInspection} {ports : DispatchPorts} {aborted : Bool}

/-- An admission takes one of its three ways, by cases on the two ports. -/
theorem InspectingTick.admission_passage (telemetry : Telemetry)
    (fit : tick.Admits deps state answer)
    : ∃ middle round goesOn,
        tick.Passage deps answer ports state middle round goesOn
        ∧ round.Resumes deps middle goesOn
          (tick.admission deps ports aborted { state with telemetry }) := by
  unfold InspectingTick.admission
  cases named : ports.workerIdFactory tick.candidate (state.getNextSeq tick.candidate.id) with
  | error error =>
      have same : SchedulerState.getNextSeq { state with telemetry } tick.candidate.id
          = state.getNextSeq tick.candidate.id := rfl
      simp only [same, named]
      exact ⟨_, _, _, .unnamed telemetry fit named, Tick.unwind_continues, fun _ => rfl⟩
  | ok workerId =>
      have same : SchedulerState.getNextSeq { state with telemetry } tick.candidate.id
          = state.getNextSeq tick.candidate.id := rfl
      simp only [same, named]
      cases runs : ports.runOne with
      | error error =>
          exact ⟨_, _, _, .unstarted _ fit named runs, Tick.unwind_continues, fun _ => rfl⟩
      | ok =>
          exact ⟨_, _, _, .started _ fit named runs, Tick.loop_continues, nofun⟩

theorem inspectRepository_cases (deps : SchedulerDeps) (repo : SchedulerRepository)
    (answer : Except ThrownValue RepositoryWorkInspection) (state : SchedulerState)
    : (∃ raised, answer = .error (.unreadable raised)
        ∧ inspectRepository deps repo answer state = (state, .error raised))
      ∨ ∃ telemetry inspection,
          inspectRepository deps repo answer state = ({ state with telemetry }, .ok inspection)
          ∧ (answer = .ok inspection
            ∨ ∃ message, answer = .error (.readable message)
                ∧ inspection = .unavailable .unavailable message) := by
  cases answer with
  | error error =>
      cases error with
      | readable message => exact .inr ⟨_, _, rfl, .inr ⟨message, rfl, rfl⟩⟩
      | unreadable raised => exact .inl ⟨raised, rfl, rfl⟩
  | ok inspection => cases inspection <;> exact .inr ⟨_, _, rfl, .inl rfl⟩

theorem SchedulerState.verdict_eq_admit {repo : SchedulerRepository}
    {inspection : RepositoryWorkInspection}
    (admitted : state.verdict deps repo inspection = .accept)
    : ∃ queueDepth activeCount,
        inspection = .available queueDepth activeCount
        ∧ state.stopped = false ∧ queueDepth ≠ 0
        ∧ max activeCount (state.countReservedForRepo repo.id)
          < min repo.maxConcurrentRuns deps.globalConcurrency := by
  unfold SchedulerState.verdict at admitted
  split at admitted
  · contradiction
  next running =>
    cases inspection with
    | unavailable => contradiction
    | available queueDepth activeCount =>
        simp only at admitted
        split at admitted
        · contradiction
        next room =>
          split at admitted
          · contradiction
          next work => exact ⟨_, _, rfl, by simpa using running, work, by omega⟩

theorem SchedulerState.verdict_of_stopped {repo : SchedulerRepository}
    {inspection : RepositoryWorkInspection} (stopped : state.stopped = true)
    : state.verdict deps repo inspection = .stopped := by
  simp [verdict, stopped]

theorem SchedulerState.stopped_of_verdict {repo : SchedulerRepository}
    {inspection : RepositoryWorkInspection}
    (verdict : state.verdict deps repo inspection = .stopped)
    : state.stopped = true := by
  unfold SchedulerState.verdict at verdict
  split at verdict
  · assumption
  · split at verdict
    · contradiction
    · simp only at verdict
      split at verdict
      · contradiction
      · split at verdict <;> contradiction

/-- After an inspection the call takes one of these ways, by cases on the verdict. -/
theorem InspectingTick.resume_passage (deps : SchedulerDeps)
    (answer : Except ThrownValue RepositoryWorkInspection) (ports : DispatchPorts)
    (aborted : Bool) (tick : InspectingTick) (state : SchedulerState)
    : ∃ middle round goesOn,
        tick.Passage deps answer ports state middle round goesOn
        ∧ round.Resumes deps middle goesOn (tick.resume deps answer ports aborted state) := by
  unfold InspectingTick.resume
  rcases inspectRepository_cases deps tick.candidate answer state with
    ⟨raised, answered, inspected⟩ | ⟨telemetry, inspection, inspected, answered⟩
  · simp only [inspected]
    exact ⟨_, _, _, .lost answered, Tick.unwind_continues, fun _ => rfl⟩
  · have same : SchedulerState.verdict deps { state with telemetry } tick.candidate inspection
        = state.verdict deps tick.candidate inspection := rfl
    simp only [inspected, same]
    cases judged : state.verdict deps tick.candidate inspection with
    | stopped =>
        have stopped := SchedulerState.stopped_of_verdict judged
        exact ⟨_, _, _, .stopped telemetry stopped, Tick.finish_continues, fun _ => rfl⟩
    | skip records =>
        have unfit : ¬ tick.Admits deps state answer := by
          rintro ⟨other, same, fit⟩
          obtain ⟨_, _, rfl, _⟩ := SchedulerState.verdict_eq_admit fit
          rcases answered with rfl | ⟨_, rfl, _⟩
          · cases same
            rw [judged] at fit
            contradiction
          · contradiction
        have running : state.stopped = false := by
          refine Bool.eq_false_iff.mpr fun stopped => ?_
          rw [SchedulerState.verdict_of_stopped stopped] at judged
          contradiction
        exact ⟨_, _, _, .skipped (telemetry.safeRecordAll deps records) ⟨running, unfit⟩,
          Tick.loop_continues, nofun⟩
    | accept =>
        obtain ⟨_, _, rfl, _⟩ := SchedulerState.verdict_eq_admit judged
        rcases answered with rfl | ⟨_, rfl, impossible⟩
        · exact InspectingTick.admission_passage telemetry ⟨_, rfl, judged⟩
        · contradiction

theorem scheduleOnce_cases (deps : SchedulerDeps) (aborted : Bool)
    (listEnabled : Except ThrownValue (List SchedulerRepository)) (state : SchedulerState)
    : (∃ telemetry, (scheduleOnce deps aborted listEnabled state).1 = { state with telemetry }
        ∧ (scheduleOnce deps aborted listEnabled state).2.inspecting? = none)
      ∨ ∃ repos,
          listEnabled = .ok repos
          ∧ (state.firstTick deps repos).Continues deps state
            (scheduleOnce deps aborted listEnabled state).1
            (scheduleOnce deps aborted listEnabled state).2 := by
  unfold scheduleOnce
  split
  · exact .inl ⟨state.telemetry, rfl, rfl⟩
  · split
    · exact .inl ⟨state.telemetry, rfl, rfl⟩
    next running =>
      match listEnabled with
      | .error (.unreadable raised) => exact .inl ⟨state.telemetry, rfl, rfl⟩
      | .error (.readable message) => exact .inl ⟨_, rfl, rfl⟩
      | .ok repos =>
          simp only
          split
          · exact .inl ⟨state.telemetry, rfl, rfl⟩
          · exact .inr ⟨repos, rfl, Tick.loop_continues⟩

theorem InspectingTick.Passage.sorted {middle : SchedulerState} {round : Tick} {goesOn : Bool}
    (passage : tick.Passage deps answer ports state middle round goesOn)
    : round.sorted = tick.sorted := by
  cases passage <;> rfl

theorem Tick.Continues.inspecting {round : Tick} {after : SchedulerState} {phase : TickPhase}
    {next : InspectingTick} (continues : round.Continues deps state after phase)
    (inspecting : phase.inspecting? = some next)
    : next.toTick = round := by
  cases continues with
  | ended telemetry final =>
      rw [final] at inspecting
      contradiction
  | claimed more room =>
      cases inspecting
      rfl

theorem Tick.Continues.kept {round : Tick} {after : SchedulerState} {phase : TickPhase}
    (continues : round.Continues deps state after phase)
    : after.cursorId = state.cursorId ∧ after.started = state.started := by
  cases continues <;> exact ⟨rfl, rfl⟩

end Resume

-----------------------------------------------------------------------------------------
-- Steps of the whole
-----------------------------------------------------------------------------------------

/-- What a step of the scheduler does. -/
inductive SchedulerWorld.Takes (deps : SchedulerDeps) (world : SchedulerWorld)
    : SchedulerEvent → SchedulerWorld → Prop
  | refused (telemetry : Telemetry) {phase : TickPhase} (final : phase.inspecting? = none)
      {aborted : Bool} {listEnabled : Except ThrownValue (List SchedulerRepository)}
      : Takes deps world (.scheduleOnce aborted listEnabled)
          { state := { world.state with telemetry }, ticks := world.ticks ++ [phase] }
  | began {aborted : Bool} {repos : List SchedulerRepository} {state : SchedulerState}
      {phase : TickPhase}
      (continues
        : (world.state.firstTick deps repos).Continues deps world.state state phase)
      : Takes deps world (.scheduleOnce aborted (.ok repos))
          { state, ticks := world.ticks ++ [phase] }
  | inspected {index : Nat} {answer : Except ThrownValue RepositoryWorkInspection}
      {ports : DispatchPorts} {aborted : Bool} {tick : InspectingTick}
      (found : world.ticks[index]? = some (.inspecting tick)) {middle state : SchedulerState}
      {round : Tick} {goesOn : Bool} {phase : TickPhase}
      (passage : tick.Passage deps answer ports world.state middle round goesOn)
      (continues : round.Continues deps middle state phase)
      (ends : goesOn = false → phase.inspecting? = none)
      : Takes deps world (.inspected index answer ports aborted)
          { state, ticks := world.ticks.set index phase }
  | settled {execution : Execution} (running : execution ∈ world.state.running)
      {outcome : Except ThrownValue DispatchOutcome}
      : Takes deps world (.settled execution outcome)
          { world with state := world.state.settle deps execution outcome }
  | stopAdmission {reason : String}
      : Takes deps world (.stopAdmission reason)
          { world with state := world.state.stopAdmission reason }

/-- A step is one of these, by cases on the event. -/
theorem SchedulerWorld.takes_of_step {deps : SchedulerDeps} {world next : SchedulerWorld}
    {event : SchedulerEvent} (taken : world.step deps event = some next)
    : world.Takes deps event next := by
  cases event with
  | scheduleOnce aborted listEnabled =>
      have result : next = {
            state := (scheduleOnce deps aborted listEnabled world.state).1
            ticks := world.ticks ++ [(scheduleOnce deps aborted listEnabled world.state).2]
          } := (Option.some.inj taken).symm
      rw [result]
      rcases scheduleOnce_cases deps aborted listEnabled world.state with
        ⟨telemetry, same, final⟩ | ⟨repos, rfl, continues⟩
      · rw [same]
        exact .refused telemetry final
      · exact .began continues
  | inspected index answer ports aborted =>
      unfold SchedulerWorld.step at taken
      simp only at taken
      split at taken
      next tick found =>
        cases taken
        obtain ⟨middle, round, goesOn, passage, continues, ends⟩ :=
          tick.resume_passage deps answer ports aborted world.state
        exact .inspected found passage continues ends
      · contradiction
  | settled execution outcome =>
      unfold SchedulerWorld.step at taken
      simp only at taken
      split at taken
      next running =>
        cases taken
        exact .settled running
      · contradiction
  | stopAdmission reason =>
      cases taken
      exact .stopAdmission

end AiSdlc.Application
