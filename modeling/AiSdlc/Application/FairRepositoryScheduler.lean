import AiSdlc.Domain.Job
import AiSdlc.Js.Text
import AiSdlc.Transition.System
import Mathlib.Data.List.Sort

/-! `FairRepositoryScheduler`: calls of `scheduleOnce` admit work of the enabled repositories in
turn. A call is interrupted only where it awaits an inspection, so a step runs from one await
to the next; calls overlap with each other, with stops, and with settling executions.
-/

namespace AiSdlc.Application

open AiSdlc.Js
open AiSdlc.Domain
open AiSdlc.Transition

-----------------------------------------------------------------------------------------
-- What the ports take and answer
-----------------------------------------------------------------------------------------

/-- The fields of a registered repository that the scheduler reads. -/
structure SchedulerRepository where
  id : RepositoryId
  fullName : String
  maxConcurrentRuns : Nat
  deriving DecidableEq, Repr

/-- A thrown value, by what reading its message gives: a text, or another throw, as for null. -/
inductive ThrownValue
  | readable (message : String)
  | unreadable (raised : ThrownValue)
  deriving DecidableEq, Repr

inductive UnavailableReason
  | disabled
  | unhealthy
  | unavailable
  deriving DecidableEq, Repr

inductive RepositoryWorkInspection
  | available (queueDepth activeCount : Nat)
  | unavailable (reason : UnavailableReason) (detail : String)
  deriving DecidableEq, Repr

inductive DispatchOutcome
  | completed
  | noWork
  deriving DecidableEq, Repr

inductive SkipReason
  | unavailable (reason : UnavailableReason)
  | atCap
  | noWork
  deriving DecidableEq, Repr

inductive SchedulerTelemetryRecord
  | dispatchStarted (repositoryId : RepositoryId) (repositoryName : String)
      (workerId : WorkerId)
  | dispatchCompleted (repositoryId : RepositoryId) (repositoryName : String)
      (workerId : WorkerId)
  | dispatchFailed (repositoryId : RepositoryId) (repositoryName : String) (workerId : WorkerId)
      (error : String)
  | repositorySkipped (repositoryId : RepositoryId) (repositoryName : String)
      (reason : SkipReason) (detail : Option String)
  | tickFailed (error : String)
  | poolActive (count : Nat)
  | repositoryActive (repositoryId : RepositoryId) (repositoryName : String) (count : Nat)
  | repositoryQueueDepth (repositoryId : RepositoryId) (repositoryName : String) (depth : Nat)
  | dispatchTotal (count : Nat)
  deriving DecidableEq, Repr

/-- What the scheduler is built with. The telemetry port may throw, or reject, on any record
after any others.
-/
structure SchedulerDeps where
  globalConcurrency : Nat
  localeCompare : String → String → Int
  telemetry
    : List SchedulerTelemetryRecord → SchedulerTelemetryRecord → Except ThrownValue Unit

/-- How the two ports behave that an admission calls. -/
structure DispatchPorts where
  workerIdFactory : SchedulerRepository → Nat → Except ThrownValue WorkerId
  runOne : Except ThrownValue Unit

-----------------------------------------------------------------------------------------
-- Telemetry
-----------------------------------------------------------------------------------------

/-- The records handed to the telemetry port, and the errors that were logged instead. -/
structure Telemetry where
  records : List SchedulerTelemetryRecord
  failures : List ThrownValue
  deriving Repr

namespace Telemetry

/-- `safeRecord`: a record that fails is logged. -/
def safeRecord (deps : SchedulerDeps) (telemetry : Telemetry)
    (record : SchedulerTelemetryRecord)
    : Telemetry :=
  match deps.telemetry telemetry.records record with
  | .ok () => { telemetry with records := telemetry.records ++ [record] }
  | .error error =>
      {
        records := telemetry.records ++ [record]
        failures := telemetry.failures ++ [error]
      }

def safeRecordAll (deps : SchedulerDeps) (telemetry : Telemetry)
    (records : List SchedulerTelemetryRecord)
    : Telemetry :=
  records.foldl (safeRecord deps) telemetry

end Telemetry

/-- `recordRepositorySkipped`: only a failed inspection has a detail. -/
def SchedulerRepository.skipped (repo : SchedulerRepository) (reason : SkipReason)
    (detail : String)
    : SchedulerTelemetryRecord :=
  match reason with
  | .unavailable .unhealthy | .unavailable .unavailable =>
      .repositorySkipped repo.id repo.fullName reason (some detail)
  | .unavailable .disabled | .atCap | .noWork =>
      .repositorySkipped repo.id repo.fullName reason none

def SchedulerRepository.active (repo : SchedulerRepository) (count : Nat)
    : SchedulerTelemetryRecord :=
  .repositoryActive repo.id repo.fullName count

def SchedulerRepository.queueDepth (repo : SchedulerRepository) (depth : Nat)
    : SchedulerTelemetryRecord :=
  .repositoryQueueDepth repo.id repo.fullName depth

-----------------------------------------------------------------------------------------
-- The state of the scheduler and of its calls
-----------------------------------------------------------------------------------------

/-- A worker that works on a repository; abort controllers are numbered as they are made. -/
structure Reservation where
  repoId : RepositoryId
  workerId : WorkerId
  seq : Nat
  abortController : Nat
  deriving DecidableEq, Repr

/-- A call of `runOne` that has returned its promise. -/
structure Execution extends Reservation where
  repositoryName : String
  deriving DecidableEq, Repr

/-- The scheduler's fields, its map of workers in flight in the order of insertion. Beside them:
how many abort controllers were made, which of them are aborted, the executions that were
started, and those of them that have not settled.
-/
structure SchedulerState where
  cursorId : Option RepositoryId
  inFlight : List Reservation
  claimedSlots : Int
  stopped : Bool
  stopReason : String
  controllers : Nat
  aborted : List Nat
  started : List Execution
  running : List Execution
  telemetry : Telemetry
  deriving Repr

/-- The local variables of `scheduleOnce` in its loop. -/
structure Tick where
  sorted : List SchedulerRepository
  startIndex : Nat
  i : Nat
  committedByMe : Nat
  admitted : Nat
  deriving Repr

/-- A call that awaits the inspection of its next candidate. -/
structure InspectingTick extends Tick where
  more : i < sorted.length

structure ScheduleOnceResult where
  admitted : Nat
  cursorId : Option RepositoryId
  deriving DecidableEq, Repr

inductive TickPhase
  | inspecting (tick : InspectingTick)
  | returned (result : ScheduleOnceResult)
  | threw (error : ThrownValue)

/-- The scheduler and all calls of `scheduleOnce` so far. -/
structure SchedulerWorld where
  state : SchedulerState
  ticks : List TickPhase

def SchedulerWorld.start : SchedulerWorld :=
  {
    state := {
      cursorId := none
      inFlight := []
      claimedSlots := 0
      stopped := false
      stopReason := "shutdown"
      controllers := 0
      aborted := []
      started := []
      running := []
      telemetry := { records := [], failures := [] }
    }
    ticks := []
  }

-----------------------------------------------------------------------------------------
-- The scheduler's helpers
-----------------------------------------------------------------------------------------

/-- `Map.set` under the worker's id: a key that is there keeps its place. -/
def setReservation (reservation : Reservation) : List Reservation → List Reservation
  | [] => [reservation]
  | held :: rest =>
      if held.workerId = reservation.workerId then reservation :: rest
      else held :: setReservation reservation rest

namespace SchedulerState

def countReservedForRepo (state : SchedulerState) (repoId : RepositoryId) : Nat :=
  state.inFlight.countP (·.repoId = repoId)

def usedSeqs (state : SchedulerState) (repoId : RepositoryId) : List Nat :=
  (state.inFlight.filter (·.repoId = repoId)).map (·.seq)

/-- Counting up from zero, the first number not in use; one of as many numbers and one more
is free.
-/
def getNextSeq (state : SchedulerState) (repoId : RepositoryId) : Nat :=
  let used := state.usedSeqs repoId
  ((List.range (used.length + 1)).find? (· ∉ used)).getD 0

/-- The place after the cursor, where the cursor's repository is listed. -/
def findStartIndex (state : SchedulerState) (sorted : List SchedulerRepository) : Nat :=
  match state.cursorId with
  | none => 0
  | some cursorId =>
      match sorted.findIdx? (·.id = cursorId) with
      | some cursorIdx => (cursorIdx + 1) % sorted.length
      | none => (sorted.findIdx? (isGreater ·.id cursorId)).getD 0

def record (deps : SchedulerDeps) (state : SchedulerState)
    (records : List SchedulerTelemetryRecord)
    : SchedulerState :=
  { state with telemetry := state.telemetry.safeRecordAll deps records }

def releaseClaim (state : SchedulerState) : SchedulerState :=
  { state with claimedSlots := state.claimedSlots - 1 }

end SchedulerState

/-- The candidate of a round; a round begins only where the list has more. -/
def InspectingTick.candidate (tick : InspectingTick) : SchedulerRepository :=
  tick.sorted.get
    ⟨(tick.startIndex + tick.i) % tick.sorted.length,
      Nat.mod_lt _ (Nat.zero_lt_of_lt tick.more)⟩

def Tick.nextRound (tick : Tick) : Tick :=
  { tick with i := tick.i + 1 }

/-- An admission counts as committed before the execution is started. -/
def Tick.commit (tick : Tick) : Tick :=
  { tick with committedByMe := tick.committedByMe + 1 }

def Tick.accept (tick : Tick) : Tick :=
  { tick with admitted := tick.admitted + 1 }

-----------------------------------------------------------------------------------------
-- scheduleOnce, from one await to the next
-----------------------------------------------------------------------------------------

/-- The `finally` clause. -/
def SchedulerState.releaseCommitted (state : SchedulerState) (tick : Tick) : SchedulerState :=
  { state with claimedSlots := state.claimedSlots - tick.committedByMe }

/-- What follows the loop. -/
def Tick.finish (deps : SchedulerDeps) (tick : Tick) (state : SchedulerState)
    : SchedulerState × TickPhase :=
  let state :=
    state.record deps [.poolActive state.inFlight.length, .dispatchTotal tick.admitted]
  (state.releaseCommitted tick, .returned ⟨tick.admitted, state.cursorId⟩)

/-- An error that leaves the loop. -/
def Tick.unwind (tick : Tick) (error : ThrownValue) (state : SchedulerState)
    : SchedulerState × TickPhase :=
  (state.releaseCommitted tick, .threw error)

/-- The head of the loop: one slot is claimed before the candidate's inspection is awaited. -/
def Tick.loop (deps : SchedulerDeps) (aborted : Bool) (tick : Tick) (state : SchedulerState)
    : SchedulerState × TickPhase :=
  if more : tick.i < tick.sorted.length then
    if aborted then tick.finish deps state
    else if deps.globalConcurrency ≤ state.inFlight.length + state.claimedSlots then
      tick.finish deps state
    else
      ({ state with claimedSlots := state.claimedSlots + 1 }, .inspecting { tick with more })
  else tick.finish deps state

/-- `scheduleOnce` up to its first await. -/
def scheduleOnce (deps : SchedulerDeps) (aborted : Bool)
    (listEnabled : Except ThrownValue (List SchedulerRepository)) (state : SchedulerState)
    : SchedulerState × TickPhase :=
  if aborted then (state, .returned ⟨0, state.cursorId⟩)
  else if state.stopped then (state, .returned ⟨0, state.cursorId⟩)
  else
    match listEnabled with
    | .error (.unreadable raised) => (state, .threw raised)
    | .error (.readable message) =>
        (state.record deps [.tickFailed message], .returned ⟨0, state.cursorId⟩)
    | .ok repos =>
        if repos = [] then (state, .returned ⟨0, state.cursorId⟩)
        else
          let sorted := repos.insertionSort fun a b => deps.localeCompare a.id b.id ≤ 0
          let tick := {
            sorted
            startIndex := state.findStartIndex sorted
            i := 0
            committedByMe := 0
            admitted := 0
          }
          Tick.loop deps aborted tick state

/-- `inspectRepository`: a throw counts as unavailable where its message can be read. -/
def inspectRepository (deps : SchedulerDeps) (repo : SchedulerRepository)
    (answer : Except ThrownValue RepositoryWorkInspection) (state : SchedulerState)
    : SchedulerState × Except ThrownValue RepositoryWorkInspection :=
  match answer with
  | .ok (.unavailable reason detail) => (state, .ok (.unavailable reason detail))
  | .ok (.available queueDepth activeCount) =>
      (state.record deps [repo.active activeCount, repo.queueDepth queueDepth],
        .ok (.available queueDepth activeCount))
  | .error (.unreadable raised) => (state, .error raised)
  | .error (.readable message) =>
      (state.record deps [repo.skipped (.unavailable .unavailable) message],
        .ok (.unavailable .unavailable message))

/-- What an inspected candidate gets. -/
inductive Verdict
  | stopped
  | skip (records : List SchedulerTelemetryRecord)
  | accept

def SchedulerState.verdict (deps : SchedulerDeps) (state : SchedulerState)
    (repo : SchedulerRepository) (inspection : RepositoryWorkInspection)
    : Verdict :=
  if state.stopped then .stopped
  else
    match inspection with
    | .unavailable reason detail =>
        .skip [repo.skipped (.unavailable reason) detail, repo.queueDepth 0]
    | .available queueDepth activeCount =>
        let usage := max activeCount (state.countReservedForRepo repo.id)
        let cap := min repo.maxConcurrentRuns deps.globalConcurrency
        if cap ≤ usage then
          .skip [repo.skipped .atCap "", repo.queueDepth queueDepth, repo.active usage]
        else if queueDepth = 0 then .skip [repo.skipped .noWork "", repo.queueDepth 0]
        else .accept

/-- The reservation of a new worker, with a new abort controller. -/
def SchedulerState.reserve (deps : SchedulerDeps) (state : SchedulerState)
    (repo : SchedulerRepository) (reservation : Reservation)
    : SchedulerState :=
  let state := {
    state with
    inFlight := setReservation reservation state.inFlight
    controllers := state.controllers + 1
  }
  state.record deps [.dispatchStarted repo.id repo.fullName reservation.workerId]

/-- An execution is under way, and the cursor moves to its repository. -/
def SchedulerState.dispatch (state : SchedulerState) (execution : Execution)
    : SchedulerState :=
  {
    state with
    started := state.started ++ [execution]
    running := state.running ++ [execution]
    cursorId := some execution.repoId
  }

/-- The claim of an admitted candidate is kept; neither port's throw is caught. -/
def InspectingTick.admission (deps : SchedulerDeps) (ports : DispatchPorts) (aborted : Bool)
    (tick : InspectingTick) (state : SchedulerState)
    : SchedulerState × TickPhase :=
  let repo := tick.candidate
  let seq := state.getNextSeq repo.id
  match ports.workerIdFactory repo seq with
  | .error error => tick.unwind error state
  | .ok workerId =>
      let reservation :=
        { repoId := repo.id, workerId, seq, abortController := state.controllers }
      let state := state.reserve deps repo reservation
      match ports.runOne with
      | .error error => tick.commit.unwind error state
      | .ok () =>
          let execution := { reservation with repositoryName := repo.fullName }
          tick.commit.accept.nextRound.loop deps aborted (state.dispatch execution)

/-- `scheduleOnce` from the end of an inspection to the next await. -/
def InspectingTick.resume (deps : SchedulerDeps)
    (answer : Except ThrownValue RepositoryWorkInspection) (ports : DispatchPorts)
    (aborted : Bool) (tick : InspectingTick) (state : SchedulerState)
    : SchedulerState × TickPhase :=
  let repo := tick.candidate
  match inspectRepository deps repo answer state with
  | (state, .error error) => tick.unwind error state
  | (state, .ok inspection) =>
      match state.verdict deps repo inspection with
      | .stopped => tick.finish deps state.releaseClaim
      | .skip records =>
          tick.nextRound.loop deps aborted (state.releaseClaim.record deps records)
      | .accept => tick.admission deps ports aborted state

-----------------------------------------------------------------------------------------
-- Stops and settlements
-----------------------------------------------------------------------------------------

/-- `stopAdmission`: the first stop aborts every worker in flight. -/
def SchedulerState.stopAdmission (state : SchedulerState) (reason : String) : SchedulerState :=
  if state.stopped then state
  else
    {
      state with
      stopped := true
      stopReason := reason
      aborted := state.aborted ++ state.inFlight.map (·.abortController)
    }

/-- What the handlers of a settled execution record. -/
def Execution.settledRecords (execution : Execution)
    : Except ThrownValue DispatchOutcome → List SchedulerTelemetryRecord
  | .ok .completed =>
      [.dispatchCompleted execution.repoId execution.repositoryName execution.workerId]
  | .ok .noWork => []
  | .error (.readable message) =>
      [.dispatchFailed execution.repoId execution.repositoryName execution.workerId message]
  | .error (.unreadable _) => []

/-- An execution settles: its worker's entry is deleted. -/
def SchedulerState.settle (deps : SchedulerDeps) (state : SchedulerState)
    (execution : Execution) (outcome : Except ThrownValue DispatchOutcome)
    : SchedulerState :=
  let state := {
    state with
    inFlight := state.inFlight.filter (·.workerId ≠ execution.workerId)
    running := state.running.erase execution
  }
  state.record deps (execution.settledRecords outcome)

/-- What may happen next: a call begins, the inspection that a call awaits ends, an execution
settles, or admission is stopped. A call's abort signal is read where the source reads it.
-/
inductive SchedulerEvent
  | scheduleOnce (aborted : Bool) (listEnabled : Except ThrownValue (List SchedulerRepository))
  | inspected (tick : Nat) (answer : Except ThrownValue RepositoryWorkInspection)
      (ports : DispatchPorts) (aborted : Bool)
  | settled (execution : Execution) (outcome : Except ThrownValue DispatchOutcome)
  | stopAdmission (reason : String)

def SchedulerWorld.step (deps : SchedulerDeps) (world : SchedulerWorld)
    : SchedulerEvent → Option SchedulerWorld
  | .scheduleOnce aborted listEnabled =>
      let (state, phase) := scheduleOnce deps aborted listEnabled world.state
      some { state, ticks := world.ticks ++ [phase] }
  | .inspected index answer ports aborted =>
      match world.ticks[index]? with
      | some (.inspecting tick) =>
          let (state, phase) := tick.resume deps answer ports aborted world.state
          some { state, ticks := world.ticks.set index phase }
      | _ => none
  | .settled execution outcome =>
      if execution ∈ world.state.running then
        some { world with state := world.state.settle deps execution outcome }
      else none
  | .stopAdmission reason => some { world with state := world.state.stopAdmission reason }

/-- A scheduler that is used in any way. -/
abbrev schedulerSystem (deps : SchedulerDeps) : System SchedulerWorld SchedulerEvent :=
  .ofSteps (· = .start) (SchedulerWorld.step deps)

/-- A scheduler with one slot and silent telemetry. -/
def oneSlot : SchedulerDeps :=
  {
    globalConcurrency := 1
    localeCompare := compareCodeUnits
    telemetry := fun _ _ => .ok ()
  }

def onlyRepository : SchedulerRepository :=
  { id := "4f0c", fullName := "owner/name", maxConcurrentRuns := 1 }

/-- The ports of an admission that works. -/
def workingPorts (workerIdFactory : SchedulerRepository → Nat → WorkerId) : DispatchPorts :=
  { workerIdFactory := fun repo seq => .ok (workerIdFactory repo seq), runOne := .ok () }

end AiSdlc.Application
