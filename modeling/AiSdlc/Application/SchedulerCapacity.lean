import Mathlib.Algebra.BigOperators.Group.List.Basic
import Mathlib.Algebra.Ring.Int.Defs
import AiSdlc.Application.SchedulerSteps

/-! The capacity of the scheduler: claims of calls that await an inspection, claims that calls
have committed, and workers in flight. Their sum bounds what is admitted; a port that throws
may leave a claim, or a worker, behind for good.
-/

namespace AiSdlc.Application

open AiSdlc.Js
open AiSdlc.Domain
open AiSdlc.Transition

-----------------------------------------------------------------------------------------
-- What the calls hold
-----------------------------------------------------------------------------------------

/-- Exchanging one summand changes a sum by the difference, by induction over the list. -/
theorem sum_map_set {α : Type*} (value : α → Int) {items : List α} {index : Nat} {old : α}
    (found : items[index]? = some old) (new : α)
    : ((items.set index new).map value).sum = (items.map value).sum - value old + value new := by
  induction items generalizing index with
  | nil => simp at found
  | cons first rest ih =>
      cases index with
      | zero =>
          obtain rfl : first = old := by simpa using found
          simp only [List.set_cons_zero, List.map_cons, List.sum_cons]
          omega
      | succ index =>
          have rest := ih (by simpa using found)
          simp only [List.set_cons_succ, List.map_cons, List.sum_cons, rest]
          omega

/-- The claims that a call holds: its committed ones, and one for the awaited inspection. -/
def TickPhase.claims : TickPhase → Int
  | inspecting tick => 1 + tick.committedByMe
  | returned _ | threw _ => 0

/-- Whether a call is being executed. -/
def TickPhase.waiting : TickPhase → Int
  | inspecting _ => 1
  | returned _ | threw _ => 0

def SchedulerWorld.claims (world : SchedulerWorld) : Int :=
  (world.ticks.map TickPhase.claims).sum

def SchedulerWorld.waiting (world : SchedulerWorld) : Int :=
  (world.ticks.map TickPhase.waiting).sum

theorem TickPhase.waiting_le_claims (phase : TickPhase) : phase.waiting ≤ phase.claims := by
  cases phase with
  | inspecting tick =>
      simp only [waiting, claims]
      omega
  | returned | threw => exact le_refl _

/-- What calls hold covers that they wait, by induction over the calls. -/
theorem sum_waiting_le_sum_claims (phases : List TickPhase)
    : (phases.map TickPhase.waiting).sum ≤ (phases.map TickPhase.claims).sum := by
  induction phases with
  | nil => exact le_refl _
  | cons first rest ih =>
      have covered := first.waiting_le_claims
      simp only [List.map_cons, List.sum_cons]
      omega

/-- The number of waiting calls is not negative, by induction over the calls. -/
theorem sum_waiting_nonneg (phases : List TickPhase)
    : 0 ≤ (phases.map TickPhase.waiting).sum := by
  induction phases with
  | nil => exact le_refl _
  | cons first rest ih =>
      simp only [List.map_cons, List.sum_cons]
      cases first with
      | inspecting =>
          simp only [TickPhase.waiting]
          omega
      | returned | threw =>
          simp only [TickPhase.waiting]
          omega

theorem TickPhase.claims_of_final {phase : TickPhase} (final : phase.inspecting? = none)
    : phase.claims = 0 := by
  cases phase with
  | inspecting => contradiction
  | returned | threw => rfl

theorem TickPhase.waiting_of_final {phase : TickPhase} (final : phase.inspecting? = none)
    : phase.waiting = 0 := by
  cases phase with
  | inspecting => contradiction
  | returned | threw => rfl

section Account

variable {deps : SchedulerDeps} {tick : InspectingTick} {round : Tick}
  {state middle after : SchedulerState} {phase : TickPhase} {goesOn : Bool}
  {answer : Except ThrownValue RepositoryWorkInspection} {ports : DispatchPorts}

/-- Ending or claiming changes the counter by what the call then holds. -/
theorem Tick.Continues.account (continues : round.Continues deps state after phase)
    : after.claimedSlots - phase.claims = state.claimedSlots - round.committedByMe := by
  cases continues with
  | ended telemetry final =>
      simp only [SchedulerState.releaseCommitted, TickPhase.claims_of_final final]
      omega
  | claimed more room =>
      simp only [TickPhase.claims]
      omega

theorem InspectingTick.Passage.account_le
    (passage : tick.Passage deps answer ports state middle round goesOn)
    : state.claimedSlots - (1 + tick.committedByMe)
      ≤ middle.claimedSlots - round.committedByMe := by
  cases passage with
  | lost => omega
  | unnamed =>
      dsimp only
      omega
  | stopped | skipped =>
      dsimp only [SchedulerState.releaseClaim, Tick.nextRound]
      omega
  | unstarted | started =>
      dsimp only [Tick.commit, Tick.accept, Tick.nextRound]
      omega

/-- At most one worker more is in flight. -/
theorem InspectingTick.Passage.inFlight_le
    (passage : tick.Passage deps answer ports state middle round goesOn)
    : middle.inFlight.length ≤ state.inFlight.length + 1 := by
  cases passage with
  | lost | stopped | skipped | unnamed => exact Nat.le_succ _
  | unstarted | started => exact setReservation_length_le _ _

theorem Tick.Continues.inFlight (continues : round.Continues deps state after phase)
    : after.inFlight = state.inFlight := by
  cases continues <;> rfl

end Account

/-- The counter covers the claims of all calls, and there is room for each of them. -/
structure SchedulerWorld.Accounted (deps : SchedulerDeps) (world : SchedulerWorld) : Prop where
  claims : world.claims ≤ world.state.claimedSlots
  room : world.state.inFlight.length + world.waiting ≤ deps.globalConcurrency

section Accounted

variable {deps : SchedulerDeps} {world next : SchedulerWorld} {event : SchedulerEvent}

theorem SchedulerWorld.waiting_le_claims_beside {index : Nat} {tick : InspectingTick}
    (found : world.ticks[index]? = some (.inspecting tick))
    : world.waiting - 1 ≤ world.claims - (1 + tick.committedByMe) := by
  have waiting := sum_map_set TickPhase.waiting found (.returned ⟨0, none⟩)
  have claims := sum_map_set TickPhase.claims found (.returned ⟨0, none⟩)
  have covered := sum_waiting_le_sum_claims (world.ticks.set index (.returned ⟨0, none⟩))
  rw [waiting, claims] at covered
  simp only [TickPhase.waiting, TickPhase.claims] at covered
  simp only [SchedulerWorld.waiting, SchedulerWorld.claims]
  omega

theorem Tick.Continues.room {round : Tick} {middle state : SchedulerState} {phase : TickPhase}
    (continues : round.Continues deps middle state phase) {waiting : Int}
    (ending : middle.inFlight.length + waiting ≤ deps.globalConcurrency)
    (covered : waiting ≤ middle.claimedSlots - round.committedByMe)
    : state.inFlight.length + (waiting + phase.waiting) ≤ deps.globalConcurrency := by
  cases continues with
  | ended telemetry final =>
      rw [TickPhase.waiting_of_final final]
      simpa [SchedulerState.releaseCommitted] using ending
  | claimed more free =>
      simp only [TickPhase.waiting]
      omega

/-- A step keeps the account, by cases on what it does. -/
theorem SchedulerWorld.Accounted.of_takes (accounted : world.Accounted deps)
    (taken : world.Takes deps event next)
    : next.Accounted deps := by
  obtain ⟨claims, room⟩ := accounted
  cases taken with
  | refused telemetry final =>
      constructor
      · simpa [SchedulerWorld.claims, TickPhase.claims_of_final final] using claims
      · simpa [SchedulerWorld.waiting, TickPhase.waiting_of_final final] using room
  | @began aborted repos state phase continues =>
      have account := continues.account
      have covered : world.waiting ≤ world.claims := sum_waiting_le_sum_claims world.ticks
      simp only [SchedulerState.firstTick] at account
      have enough : world.waiting
          ≤ world.state.claimedSlots - (world.state.firstTick deps repos).committedByMe := by
        simp only [SchedulerState.firstTick]
        omega
      have free := continues.room room enough
      constructor
      · simp only [SchedulerWorld.claims, List.map_append, List.sum_append, List.map_cons,
          List.map_nil, List.sum_singleton] at claims ⊢
        omega
      · simpa [SchedulerWorld.waiting] using free
  | @inspected index answer ports aborted tick found middle state round goesOn phase passage
      continues ends =>
      have account := continues.account
      have passed := passage.account_le
      have beside := world.waiting_le_claims_beside found
      have flown := passage.inFlight_le
      have ending : middle.inFlight.length + (world.waiting - 1) ≤ deps.globalConcurrency := by
        omega
      have free := continues.room ending (by omega)
      constructor
      · simp only [SchedulerWorld.claims, sum_map_set _ found] at claims ⊢
        simp only [TickPhase.claims] at account ⊢
        omega
      · simp only [SchedulerWorld.waiting, sum_map_set _ found] at free ⊢
        simp only [TickPhase.waiting] at free ⊢
        omega
  | @settled execution running outcome =>
      have fewer := List.length_filter_le (·.workerId ≠ execution.workerId) world.state.inFlight
      constructor
      · exact claims
      · simp only [SchedulerState.settle, SchedulerState.record, SchedulerWorld.waiting] at room ⊢
        omega
  | stopAdmission =>
      unfold SchedulerState.stopAdmission
      split <;> exact ⟨claims, room⟩

end Accounted

-----------------------------------------------------------------------------------------
-- The workers in flight
-----------------------------------------------------------------------------------------

def Reservation.slot (reservation : Reservation) : RepositoryId × Nat :=
  (reservation.repoId, reservation.seq)

/-- The workers in flight respect the repositories' limits, have slots of their own, and are
told of a stop.
-/
structure SchedulerState.Bounded (deps : SchedulerDeps) (limit : RepositoryId → Nat)
    (state : SchedulerState)
    : Prop where
  capped
    : ∀ repoId, state.countReservedForRepo repoId ≤ min (limit repoId) deps.globalConcurrency
  slots : (state.inFlight.map Reservation.slot).Nodup
  raised : state.stopped = true → ∀ held ∈ state.inFlight, held.abortController ∈ state.aborted

section Bounded

variable {deps : SchedulerDeps} {limit : RepositoryId → Nat} {tick : InspectingTick}
  {round : Tick} {state middle after : SchedulerState} {phase : TickPhase} {goesOn : Bool}
  {answer : Except ThrownValue RepositoryWorkInspection} {ports : DispatchPorts}

theorem SchedulerState.Bounded.of_sublist (bounded : state.Bounded deps limit)
    (sublist : after.inFlight.Sublist state.inFlight) (stopped : after.stopped = state.stopped)
    (aborted : after.aborted = state.aborted)
    : after.Bounded deps limit := by
  constructor
  · intro repoId
    exact (sublist.countP_le).trans (bounded.capped repoId)
  · exact bounded.slots.sublist (sublist.map _)
  · intro stop held member
    rw [aborted]
    exact bounded.raised (stopped ▸ stop) held (sublist.subset member)

/-- A repository that has room for a worker keeps its limit with one more. -/
theorem SchedulerState.Bounded.reserve (bounded : state.Bounded deps limit)
    (listed : tick.candidate.maxConcurrentRuns ≤ limit tick.candidate.id)
    (fit : tick.Admits deps state answer) {workerId : WorkerId}
    (reserved
      : after.inFlight
        = setReservation (tick.execution state workerId).toReservation state.inFlight)
    (stopped : after.stopped = state.stopped)
    : after.Bounded deps limit := by
  obtain ⟨inspection, _, admitted⟩ := fit
  obtain ⟨_, _, _, running, _, room⟩ := SchedulerState.verdict_eq_admit admitted
  obtain ⟨kept, sublist, perm⟩ :=
    setReservation_perm (tick.execution state workerId).toReservation state.inFlight
  rw [← reserved] at perm
  constructor
  · intro repoId
    have fewer : kept.countP (·.repoId = repoId) ≤ state.countReservedForRepo repoId :=
      sublist.countP_le
    have counted : after.countReservedForRepo repoId
        = kept.countP (·.repoId = repoId) + if tick.candidate.id = repoId then 1 else 0 := by
      unfold SchedulerState.countReservedForRepo
      rw [perm.countP_eq, List.countP_cons]
      by_cases same : tick.candidate.id = repoId <;> simp [InspectingTick.execution, same]
    have capped := bounded.capped repoId
    rw [counted]
    split
    next same =>
      subst same
      omega
    · omega
  · refine (perm.map _).nodup_iff.mpr (List.nodup_cons.mpr ⟨?_, ?_⟩)
    · intro member
      obtain ⟨held, hm, same⟩ := List.mem_map.mp member
      exact SchedulerState.getNextSeq_fresh (sublist.subset hm) same
    · exact bounded.slots.sublist (sublist.map _)
  · intro stop
    rw [stopped, running] at stop
    contradiction

theorem Tick.Continues.bounded (continues : round.Continues deps state after phase)
    (bounded : state.Bounded deps limit)
    : after.Bounded deps limit := by
  cases continues <;> exact bounded.of_sublist (.refl _) rfl rfl

theorem InspectingTick.Passage.bounded
    (passage : tick.Passage deps answer ports state middle round goesOn)
    (bounded : state.Bounded deps limit)
    (listed : tick.candidate.maxConcurrentRuns ≤ limit tick.candidate.id)
    : middle.Bounded deps limit := by
  cases passage with
  | lost | stopped | skipped | unnamed => exact bounded.of_sublist (.refl _) rfl rfl
  | unstarted telemetry fit | started telemetry fit => exact bounded.reserve listed fit rfl rfl

theorem SchedulerState.Bounded.settle {execution : Execution}
    {outcome : Except ThrownValue DispatchOutcome} (bounded : state.Bounded deps limit)
    : (state.settle deps execution outcome).Bounded deps limit :=
  bounded.of_sublist List.filter_sublist rfl rfl

theorem SchedulerState.Bounded.stopAdmission {reason : String}
    (bounded : state.Bounded deps limit)
    : (state.stopAdmission reason).Bounded deps limit := by
  unfold SchedulerState.stopAdmission
  split
  · exact bounded
  · refine ⟨bounded.capped, bounded.slots, ?_⟩
    intro _ held member
    exact List.mem_append_right _ (List.mem_map_of_mem member)

end Bounded

-----------------------------------------------------------------------------------------
-- Workers in flight and running executions
-----------------------------------------------------------------------------------------

/-- The workers in flight are those of the running executions, and differ in their ids. -/
structure SchedulerState.Tracked (state : SchedulerState) : Prop where
  inFlight : state.inFlight = state.running.map (·.toReservation)
  keys : (state.inFlight.map (·.workerId)).Nodup

/-- An admitted candidate gets a worker that is not in flight, and its execution starts. -/
def InspectingTick.DispatchesSoundly (deps : SchedulerDeps)
    (answer : Except ThrownValue RepositoryWorkInspection) (ports : DispatchPorts)
    (tick : InspectingTick) (state : SchedulerState)
    : Prop :=
  tick.Admits deps state answer
    → ports.runOne = .ok ()
      ∧ ∃ workerId,
          ports.workerIdFactory tick.candidate (state.getNextSeq tick.candidate.id)
            = .ok workerId
          ∧ ∀ held ∈ state.inFlight, held.workerId ≠ workerId

section Tracked

variable {deps : SchedulerDeps} {tick : InspectingTick} {round : Tick}
  {state middle after : SchedulerState} {phase : TickPhase} {goesOn : Bool}
  {answer : Except ThrownValue RepositoryWorkInspection} {ports : DispatchPorts}

theorem Tick.Continues.tracked (continues : round.Continues deps state after phase)
    (tracked : state.Tracked)
    : after.Tracked := by
  cases continues <;> exact ⟨tracked.inFlight, tracked.keys⟩

/-- A passage in which the ports of an admission do not fail keeps track of its execution. -/
theorem InspectingTick.Passage.tracked
    (passage : tick.Passage deps answer ports state middle round goesOn)
    (sound : tick.DispatchesSoundly deps answer ports state) (tracked : state.Tracked)
    : middle.Tracked := by
  cases passage with
  | lost | stopped | skipped | unnamed => exact ⟨tracked.inFlight, tracked.keys⟩
  | unstarted telemetry fit named threw =>
      rw [(sound fit).1] at threw
      contradiction
  | @started telemetry fit workerId named runs =>
      obtain ⟨_, other, same, fresh⟩ := sound fit
      obtain rfl : workerId = other := Except.ok.inj (named.symm.trans same)
      have added : setReservation (tick.execution state workerId).toReservation state.inFlight
          = state.inFlight ++ [(tick.execution state workerId).toReservation] :=
        setReservation_of_fresh fresh
      constructor
      · rw [List.map_append, ← tracked.inFlight]
        exact added
      · simp only [added, List.map_append, List.map_cons, List.map_nil]
        refine List.nodup_append.mpr ⟨tracked.keys, List.nodup_singleton _, ?_⟩
        intro key member other single
        obtain ⟨held, hm, rfl⟩ := List.mem_map.mp member
        rw [List.mem_singleton.mp single]
        exact fresh held hm

/-- Worker ids differ, so that deleting by the id deletes the settled execution's entry. -/
theorem SchedulerState.Tracked.settle {execution : Execution}
    {outcome : Except ThrownValue DispatchOutcome} (tracked : state.Tracked)
    (running : execution ∈ state.running)
    : (state.settle deps execution outcome).Tracked := by
  have keys : (state.running.map (·.workerId)).Nodup := by
    have keys := tracked.keys
    rw [tracked.inFlight, List.map_map] at keys
    exact keys
  have erased : state.running.erase execution
      = state.running.filter (·.workerId ≠ execution.workerId) := by
    rw [keys.of_map.erase_eq_filter]
    refine List.filter_congr fun other member => ?_
    have same : other.workerId = execution.workerId ↔ other = execution :=
      ⟨fun same => List.inj_on_of_nodup_map keys member running same, fun same => same ▸ rfl⟩
    by_cases equal : other = execution <;> simp [same, equal]
  constructor
  · simp only [SchedulerState.settle, SchedulerState.record, erased, tracked.inFlight,
      List.filter_map]
    rfl
  · exact tracked.keys.sublist (List.filter_sublist.map _)

theorem SchedulerState.Tracked.stopAdmission {reason : String} (tracked : state.Tracked)
    : (state.stopAdmission reason).Tracked := by
  unfold SchedulerState.stopAdmission
  split <;> exact ⟨tracked.inFlight, tracked.keys⟩

end Tracked

-----------------------------------------------------------------------------------------
-- No capacity is lost where the ports do not fail an admission
-----------------------------------------------------------------------------------------

/-- The step is not the end of an inspection that fails with an unreadable error, and, where it
admits a candidate, the ports start an execution under a new worker id.
-/
def SchedulerWorld.KeepsAccounts (deps : SchedulerDeps) (world : SchedulerWorld)
    : SchedulerEvent → Prop
  | .inspected index answer ports _ =>
      ∀ tick, world.ticks[index]? = some (.inspecting tick)
        → (∀ raised, answer ≠ .error (.unreadable raised))
          ∧ tick.DispatchesSoundly deps answer ports world.state
  | .scheduleOnce _ _ | .settled _ _ | .stopAdmission _ => True

/-- The counter is what the calls hold, and every running execution is tracked. -/
structure SchedulerWorld.Balanced (world : SchedulerWorld) : Prop where
  claims : world.state.claimedSlots = world.claims
  tracked : world.state.Tracked

section Balanced

variable {deps : SchedulerDeps} {tick : InspectingTick} {round : Tick}
  {state middle : SchedulerState} {goesOn : Bool}
  {answer : Except ThrownValue RepositoryWorkInspection} {ports : DispatchPorts}
  {world next : SchedulerWorld} {event : SchedulerEvent}

theorem InspectingTick.Passage.account_eq
    (passage : tick.Passage deps answer ports state middle round goesOn)
    (readable : ∀ raised, answer ≠ .error (.unreadable raised))
    (sound : tick.DispatchesSoundly deps answer ports state)
    : middle.claimedSlots - round.committedByMe
      = state.claimedSlots - (1 + tick.committedByMe) := by
  cases passage with
  | lost answered => exact absurd answered (readable _)
  | unnamed telemetry fit threw =>
      obtain ⟨_, workerId, named, _⟩ := sound fit
      rw [threw] at named
      contradiction
  | stopped | skipped =>
      dsimp only [SchedulerState.releaseClaim, Tick.nextRound]
      omega
  | unstarted | started =>
      dsimp only [Tick.commit, Tick.accept, Tick.nextRound]
      omega

/-- A step that keeps the accounts keeps the balance, by cases on what it does. -/
theorem SchedulerWorld.Balanced.of_takes (balanced : world.Balanced)
    (keeps : world.KeepsAccounts deps event) (taken : world.Takes deps event next)
    : next.Balanced := by
  obtain ⟨claims, tracked⟩ := balanced
  cases taken with
  | refused telemetry final =>
      refine ⟨?_, tracked.inFlight, tracked.keys⟩
      simpa [SchedulerWorld.claims, TickPhase.claims_of_final final] using claims
  | @began aborted repos state phase continues =>
      refine ⟨?_, continues.tracked tracked⟩
      have account := continues.account
      simp only [SchedulerState.firstTick] at account
      simp only [SchedulerWorld.claims, List.map_append, List.sum_append, List.map_cons,
        List.map_nil, List.sum_singleton] at claims ⊢
      omega
  | @inspected index answer ports aborted tick found middle state round goesOn phase passage
      continues ends =>
      obtain ⟨readable, sound⟩ := keeps tick found
      refine ⟨?_, continues.tracked (passage.tracked sound tracked)⟩
      have account := continues.account
      have passed := passage.account_eq readable sound
      simp only [SchedulerWorld.claims, sum_map_set _ found] at claims ⊢
      simp only [TickPhase.claims] at account ⊢
      omega
  | settled running => exact ⟨claims, tracked.settle running⟩
  | stopAdmission =>
      refine ⟨?_, tracked.stopAdmission⟩
      unfold SchedulerState.stopAdmission
      split <;> exact claims

end Balanced

theorem SchedulerWorld.claims_of_idle {world : SchedulerWorld}
    (idle : ∀ phase ∈ world.ticks, phase.inspecting? = none)
    : world.claims = 0 := by
  apply List.sum_eq_zero
  intro claims member
  obtain ⟨phase, hm, rfl⟩ := List.mem_map.mp member
  exact TickPhase.claims_of_final (idle phase hm)

/-- While no inspection fails unreadably and every admission starts an execution under a new
worker id, nothing is left behind once no call is executing.
-/
theorem capacity_not_leaked {deps : SchedulerDeps} {events : List SchedulerEvent}
    {world : SchedulerWorld}
    (run
      : (schedulerSystem deps).RunWhere (fun _ world event => world.KeepsAccounts deps event)
          events world)
    (idle : ∀ phase ∈ world.ticks, phase.inspecting? = none)
    : world.state.claimedSlots = 0
      ∧ world.state.inFlight = world.state.running.map (·.toReservation) := by
  have balanced : world.Balanced := by
    refine run.invariant (fun _ world => world.Balanced) ?_ ?_
    · rintro _ rfl
      exact ⟨rfl, rfl, List.nodup_nil⟩
    · intro _ earlier event next balanced keeps taken
      exact balanced.of_takes keeps (SchedulerWorld.takes_of_step taken)
  exact ⟨balanced.claims.trans (SchedulerWorld.claims_of_idle idle), balanced.tracked.inFlight⟩

/-- The factory of the command line, for a process and a worker prefix. -/
def workerIdFactory (workerIdPrefix : String) (processId : Nat) (repo : SchedulerRepository)
    (seq : Nat)
    : WorkerId :=
  workerIdPrefix ++ "-" ++ toString processId ++ "-" ++ repo.id ++ "-" ++ toString seq

/-- A call that admits the only repository, the latest event first. -/
def admittingEvents : List SchedulerEvent :=
  [
    .inspected 0 (.ok (.available 2 0)) (workingPorts (workerIdFactory "worker" 7)) false,
    .scheduleOnce false (.ok [onlyRepository])
  ]

def admittedWorld : SchedulerWorld :=
  (takeAll (SchedulerWorld.step oneSlot) .start admittingEvents).get rfl

/-- In that run the ports do not fail, and nothing is left behind. -/
theorem capacity_not_leaked_admitted
    : admittedWorld.state.claimedSlots = 0
      ∧ admittedWorld.state.inFlight = admittedWorld.state.running.map (·.toReservation) := by
  have run : (schedulerSystem oneSlot).RunWhere
      (fun _ world event => world.KeepsAccounts oneSlot event) admittingEvents admittedWorld := by
    refine .next (.next (.start rfl) trivial rfl) ?_ rfl
    intro tick found
    refine ⟨nofun, fun _ => ⟨rfl, _, rfl, ?_⟩⟩
    exact fun _ member => absurd member List.not_mem_nil
  have idle : admittedWorld.ticks.all (·.inspecting?.isNone) = true := rfl
  apply capacity_not_leaked run
  intro phase member
  simpa using List.all_eq_true.mp idle phase member

/-- A call whose worker id factory throws, and another call after it. -/
def leakingEvents : List SchedulerEvent :=
  let ports :=
    { workerIdFactory := fun _ _ => .error (.readable "no worker id"), runOne := .ok () }
  [
    .scheduleOnce false (.ok [onlyRepository]),
    .inspected 0 (.ok (.available 2 0)) ports false,
    .scheduleOnce false (.ok [onlyRepository])
  ]

def leakedWorld : SchedulerWorld :=
  (takeAll (SchedulerWorld.step oneSlot) .start leakingEvents).get rfl

/-- The claim of a call that threw is left behind: nothing runs and no call is executing, and
yet the next call finds no capacity.
-/
theorem throwing_factory_leaks_slot
    : (schedulerSystem oneSlot).Run leakingEvents leakedWorld
      ∧ (∀ phase ∈ leakedWorld.ticks, phase.inspecting? = none)
      ∧ leakedWorld.state.running = []
      ∧ leakedWorld.state.claimedSlots ≠ 0
      ∧ leakedWorld.ticks[1]? = some (.returned ⟨0, none⟩) := by
  have idle : leakedWorld.ticks.all (·.inspecting?.isNone) = true := rfl
  refine ⟨?_, ?_, rfl, by decide, rfl⟩
  · refine System.run_takeAll ?_ (Option.some_get _).symm
    rfl
  · intro phase member
    simpa using List.all_eq_true.mp idle phase member

-----------------------------------------------------------------------------------------
-- Bounds of admission
-----------------------------------------------------------------------------------------

/-- The repositories that a call lists respect the limits. -/
def SchedulerEvent.ListsWithin (limit : RepositoryId → Nat) : SchedulerEvent → Prop
  | .scheduleOnce _ (.ok repos) => ∀ repo ∈ repos, repo.maxConcurrentRuns ≤ limit repo.id
  | .scheduleOnce _ (.error _) | .inspected _ _ _ _ | .settled _ _ | .stopAdmission _ => True

/-- An admission names its worker by the factory, and its execution starts. -/
def SchedulerEvent.NamesBy (factory : SchedulerRepository → Nat → WorkerId)
    : SchedulerEvent → Prop
  | .inspected _ _ ports _ => ports = workingPorts factory
  | .scheduleOnce _ _ | .settled _ _ | .stopAdmission _ => True

/-- Different repositories, and different sequence numbers, get different workers. -/
def InjectiveFactory (factory : SchedulerRepository → Nat → WorkerId) : Prop :=
  ∀ first seq second other,
    factory first seq = factory second other → first.id = second.id ∧ seq = other

/-- The workers in flight have the names that the factory gives them. -/
def SchedulerState.NamedBy (factory : SchedulerRepository → Nat → WorkerId)
    (state : SchedulerState)
    : Prop :=
  ∀ held ∈ state.inFlight, ∃ repo : SchedulerRepository,
    repo.id = held.repoId ∧ held.workerId = factory repo held.seq

/-- The bounds of every run: the account, the workers in flight, and the lists of the calls. -/
structure SchedulerWorld.Bounded (deps : SchedulerDeps) (limit : RepositoryId → Nat)
    (world : SchedulerWorld)
    : Prop where
  accounted : world.Accounted deps
  state : world.state.Bounded deps limit
  listed
    : ∀ phase ∈ world.ticks, ∀ tick, phase.inspecting? = some tick →
        ∀ repo ∈ tick.sorted, repo.maxConcurrentRuns ≤ limit repo.id

/-- The workers in flight are named by the factory, and their executions are tracked. -/
structure SchedulerWorld.Named (factory : SchedulerRepository → Nat → WorkerId)
    (world : SchedulerWorld)
    : Prop where
  tracked : world.state.Tracked
  named : world.state.NamedBy factory

section Bounds

variable {deps : SchedulerDeps} {limit : RepositoryId → Nat}
  {factory : SchedulerRepository → Nat → WorkerId} {world next : SchedulerWorld}
  {event : SchedulerEvent} {events : List SchedulerEvent} {tick : InspectingTick}

theorem InspectingTick.candidate_mem : tick.candidate ∈ tick.sorted :=
  List.get_mem _ _

/-- Whatever the ports do, a step keeps the bounds, by cases on what it does. -/
theorem SchedulerWorld.Bounded.of_takes (bounded : world.Bounded deps limit)
    (lists : event.ListsWithin limit) (taken : world.Takes deps event next)
    : next.Bounded deps limit := by
  obtain ⟨accounted, state, listed⟩ := bounded
  refine ⟨accounted.of_takes taken, ?_, ?_⟩
  · cases taken with
    | refused => exact state.of_sublist (.refl _) rfl rfl
    | began continues => exact continues.bounded state
    | inspected found passage continues ends =>
        have candidate := listed _ (List.mem_of_getElem? found) _ rfl _
          InspectingTick.candidate_mem
        exact continues.bounded (passage.bounded state candidate)
    | settled running => exact state.settle
    | stopAdmission => exact state.stopAdmission
  · intro phase member tick inspecting repo hm
    cases taken with
    | refused telemetry final =>
        rcases List.mem_append.mp member with old | new
        · exact listed phase old tick inspecting repo hm
        · obtain rfl := List.mem_singleton.mp new
          rw [final] at inspecting
          contradiction
    | began continues =>
        rcases List.mem_append.mp member with old | new
        · exact listed phase old tick inspecting repo hm
        · obtain rfl := List.mem_singleton.mp new
          have sorted : tick.sorted = _ := congrArg Tick.sorted (continues.inspecting inspecting)
          rw [sorted] at hm
          exact lists repo ((List.mem_insertionSort _).mp hm)
    | inspected found passage continues ends =>
        rcases List.mem_or_eq_of_mem_set member with old | rfl
        · exact listed phase old tick inspecting repo hm
        · have sorted : tick.sorted = _ := congrArg Tick.sorted (continues.inspecting inspecting)
          rw [sorted, passage.sorted] at hm
          exact listed _ (List.mem_of_getElem? found) _ rfl repo hm
    | settled | stopAdmission => exact listed phase member tick inspecting repo hm

/-- A new worker's name is in use only by a worker with the same repository and number. -/
theorem InspectingTick.dispatchesSoundly_of_namedBy {state : SchedulerState}
    {answer : Except ThrownValue RepositoryWorkInspection} (injective : InjectiveFactory factory)
    (named : state.NamedBy factory)
    : tick.DispatchesSoundly deps answer (workingPorts factory) state := by
  intro _
  refine ⟨rfl, _, rfl, fun held member same => ?_⟩
  obtain ⟨repo, sameRepo, name⟩ := named held member
  obtain ⟨sameId, sameSeq⟩ := injective _ _ _ _ (name.symm.trans same)
  exact SchedulerState.getNextSeq_fresh member
    (Prod.ext (sameRepo.symm.trans sameId) sameSeq)

theorem InspectingTick.Passage.namedBy {state middle : SchedulerState} {round : Tick}
    {goesOn : Bool} {answer : Except ThrownValue RepositoryWorkInspection}
    (passage : tick.Passage deps answer (workingPorts factory) state middle round goesOn)
    (named : state.NamedBy factory)
    : middle.NamedBy factory := by
  cases passage with
  | lost | stopped | skipped | unnamed => exact named
  | unstarted telemetry fit renamed threw => contradiction
  | @started telemetry fit workerId renamed runs =>
      intro held member
      rcases mem_setReservation member with rfl | old
      · exact ⟨tick.candidate, rfl, (Except.ok.inj renamed).symm⟩
      · exact named held old

/-- Where the ports of admissions work, a step keeps the names, by cases on what it does. -/
theorem SchedulerWorld.Named.of_takes (named : world.Named factory)
    (injective : InjectiveFactory factory) (names : event.NamesBy factory)
    (taken : world.Takes deps event next)
    : next.Named factory := by
  obtain ⟨tracked, named⟩ := named
  cases taken with
  | refused => exact ⟨⟨tracked.inFlight, tracked.keys⟩, named⟩
  | began continues =>
      refine ⟨continues.tracked tracked, fun held member => ?_⟩
      exact named held (continues.inFlight ▸ member)
  | inspected found passage continues ends =>
      obtain rfl : _ = workingPorts factory := names
      have passed := passage.tracked
        (InspectingTick.dispatchesSoundly_of_namedBy injective named) tracked
      refine ⟨continues.tracked passed, fun held member => ?_⟩
      exact passage.namedBy named held (continues.inFlight ▸ member)
  | settled running =>
      refine ⟨tracked.settle running, fun held member => ?_⟩
      exact named held (List.mem_of_mem_filter member)
  | stopAdmission =>
      refine ⟨tracked.stopAdmission, fun held member => named held ?_⟩
      unfold SchedulerState.stopAdmission at member
      split at member <;> exact member

/-- After a stop nothing is started, by cases on what a step does. -/
theorem SchedulerWorld.Takes.stopped (taken : world.Takes deps event next)
    (stopped : world.state.stopped = true)
    : next.state.stopped = true ∧ next.state.started = world.state.started := by
  cases taken with
  | refused => exact ⟨stopped, rfl⟩
  | began continues => cases continues <;> exact ⟨stopped, rfl⟩
  | inspected found passage continues ends =>
      cases passage with
      | lost | stopped | skipped | unnamed | unstarted =>
          cases continues <;> exact ⟨stopped, rfl⟩
      | started telemetry fit =>
          obtain ⟨_, _, admitted⟩ := fit
          rw [SchedulerState.verdict_of_stopped stopped] at admitted
          contradiction
  | settled => exact ⟨stopped, rfl⟩
  | stopAdmission =>
      unfold SchedulerState.stopAdmission
      split <;> exact ⟨by simp [stopped], rfl⟩

/-- A stop lasts, by the run invariant rule. -/
theorem SchedulerWorld.stopped_of_run (run : (schedulerSystem deps).Run events world)
    (stop : ∃ reason, .stopAdmission reason ∈ events)
    : world.state.stopped = true := by
  revert stop
  refine run.invariant
    (fun events world => (∃ reason, .stopAdmission reason ∈ events) → world.state.stopped = true)
    ?_ ?_
  · rintro _ _ ⟨_, member⟩
    contradiction
  · rintro earlier world event next ih taken ⟨reason, member⟩
    have taken := SchedulerWorld.takes_of_step taken
    rcases List.mem_cons.mp member with rfl | old
    · cases taken
      unfold SchedulerState.stopAdmission
      split
      · assumption
      · rfl
    · exact (taken.stopped (ih ⟨reason, old⟩)).1

/-- While admissions work, what runs stays within the global capacity and each repository's
limit, in slots of its own; after a stop everything that runs is aborted, and nothing starts.
-/
theorem admission_bounded (injective : InjectiveFactory factory)
    (run : (schedulerSystem deps).Run events world)
    (names : ∀ event ∈ events, event.NamesBy factory)
    (lists : ∀ event ∈ events, event.ListsWithin limit)
    : world.state.running.length ≤ deps.globalConcurrency
      ∧ (∀ repoId, world.state.running.countP (·.repoId = repoId)
          ≤ min (limit repoId) deps.globalConcurrency)
      ∧ (world.state.running.map fun execution => (execution.repoId, execution.seq)).Nodup
      ∧ ((∃ reason, .stopAdmission reason ∈ events) →
          (∀ execution ∈ world.state.running,
            execution.abortController ∈ world.state.aborted)
          ∧ ∀ later after, (schedulerSystem deps).Path world later after →
              after.state.started = world.state.started) := by
  have restricted : (schedulerSystem deps).RunWhere
      (fun _ _ event => event.NamesBy factory ∧ event.ListsWithin limit) events world :=
    run.runWhere fun event member _ _ => ⟨names event member, lists event member⟩
  have kept : world.Bounded deps limit ∧ world.Named factory := by
    refine restricted.invariant
      (fun _ world => world.Bounded deps limit ∧ world.Named factory) ?_ ?_
    · rintro _ rfl
      refine ⟨⟨⟨le_refl _, ?_⟩, ⟨?_, List.nodup_nil, nofun⟩, nofun⟩, ⟨rfl, List.nodup_nil⟩, nofun⟩
      · exact Int.natCast_nonneg _
      · exact fun _ => Nat.zero_le _
    · intro _ earlier event next ⟨bounded, named⟩ ⟨names, lists⟩ taken
      have taken := SchedulerWorld.takes_of_step taken
      exact ⟨bounded.of_takes lists taken, named.of_takes injective names taken⟩
  obtain ⟨⟨⟨claims, room⟩, state, _⟩, ⟨⟨inFlight, _⟩, _⟩⟩ := kept
  have waiting : 0 ≤ world.waiting := sum_waiting_nonneg world.ticks
  have capped := state.capped
  have slots := state.slots
  have raised := state.raised
  simp only [SchedulerState.countReservedForRepo, inFlight, List.countP_map, List.map_map,
    List.length_map] at capped slots raised room
  refine ⟨by omega, capped, slots, fun stop => ⟨fun execution member => ?_, ?_⟩⟩
  · exact raised (SchedulerWorld.stopped_of_run run stop) _ (List.mem_map_of_mem member)
  · intro later after path
    have stopped := SchedulerWorld.stopped_of_run run stop
    refine (path.invariant (fun reached => reached.state.stopped = true
      ∧ reached.state.started = world.state.started) ?_ ⟨stopped, rfl⟩).2
    intro reached event next ⟨stopped, same⟩ taken
    obtain ⟨stays, started⟩ := (SchedulerWorld.takes_of_step taken).stopped stopped
    exact ⟨stays, started.trans same⟩

end Bounds

/-- Two texts that end in a mark and texts without it: both parts agree. -/
theorem append_cons_inj_of_notMem_right {α : Type*} {mark : α} {left right after before : List α}
    (notAfter : mark ∉ after) (notBefore : mark ∉ before)
    (same : left ++ mark :: after = right ++ mark :: before)
    : left = right ∧ after = before := by
  rcases List.append_eq_append_iff.mp same with ⟨more, rfl, rest⟩ | ⟨more, rfl, rest⟩
  · cases more with
    | nil => exact ⟨by simp, (List.cons.inj rest).2⟩
    | cons first more =>
        have member : mark ∈ after := by simp [(List.cons.inj rest).2]
        contradiction
  · cases more with
    | nil => exact ⟨by simp, (List.cons.inj rest).2.symm⟩
    | cons first more =>
        have member : mark ∈ before := by simp [(List.cons.inj rest).2]
        contradiction

/-- The names end in the number, which has no dash, after the repository's id. -/
theorem workerIdFactory_injective (workerIdPrefix : String) (processId : Nat)
    : InjectiveFactory (workerIdFactory workerIdPrefix processId) := by
  intro first seq second other same
  have dash (number : Nat) : '-' ∉ (toString number).toList := by
    rw [Nat.toString_eq_repr, Nat.toList_repr]
    intro member
    have digit := Nat.isDigit_of_mem_toDigits (by decide) (by decide) member
    contradiction
  let start := workerIdPrefix.toList ++ '-' :: (toString processId).toList ++ ['-']
  have texts : (start ++ first.id.toList) ++ '-' :: (toString seq).toList
      = (start ++ second.id.toList) ++ '-' :: (toString other).toList := by
    simpa [workerIdFactory, start] using congrArg String.toList same
  obtain ⟨ids, numbers⟩ := append_cons_inj_of_notMem_right (dash seq) (dash other) texts
  have digits : Nat.toDigits 10 seq = Nat.toDigits 10 other := by
    simpa [Nat.toString_eq_repr] using numbers
  have sameNumber : seq = other := by
    simpa using congrArg (Nat.ofDigitChars 10 · 0) digits
  exact ⟨String.toList_inj.mp (List.append_cancel_left ids), sameNumber⟩

/-- With the command line's factory, a stopped scheduler with one execution under way. -/
theorem admission_bounded_stopped
    : let events := .stopAdmission "shutdown" :: admittingEvents
      let world := (takeAll (SchedulerWorld.step oneSlot) .start events).get rfl
      world.state.running.length ≤ 1
      ∧ ∀ execution ∈ world.state.running,
          execution.abortController ∈ world.state.aborted := by
  intro events world
  have run : (schedulerSystem oneSlot).Run events world := by
    refine System.run_takeAll ?_ (Option.some_get _).symm
    rfl
  have names : ∀ event ∈ events, event.NamesBy (workerIdFactory "worker" 7) := by
    simp [events, admittingEvents, SchedulerEvent.NamesBy]
  have lists : ∀ event ∈ events, event.ListsWithin fun _ => 1 := by
    simp [events, admittingEvents, SchedulerEvent.ListsWithin, onlyRepository]
  obtain ⟨bound, _, _, stopped⟩ :=
    admission_bounded (workerIdFactory_injective "worker" 7) run names lists
  exact ⟨bound, (stopped ⟨"shutdown", List.mem_cons_self⟩).1⟩

end AiSdlc.Application
