import AiSdlc.Application.Collation
import AiSdlc.Application.SchedulerSteps
import AiSdlc.Transition.RoundRobin

/-! Fairness of the scheduler: calls that do not overlap scan a fixed set of repositories as a
round robin, so that a repository which stays eligible waits for at most one admission of each
other one.
-/

namespace AiSdlc.Application

open AiSdlc.Js
open AiSdlc.Domain
open AiSdlc.Transition

-----------------------------------------------------------------------------------------
-- The order of the repositories
-----------------------------------------------------------------------------------------

/-- The order in which a call scans the repositories. -/
def SchedulerDeps.order (deps : SchedulerDeps) (ids : List RepositoryId) : List RepositoryId :=
  ids.insertionSort fun left right => deps.localeCompare left right ≤ 0

section Order

variable {deps : SchedulerDeps} {ids : List RepositoryId} {state : SchedulerState}
  {repos : List SchedulerRepository}

/-- However the repositories are listed, they are scanned in the same order. -/
theorem SchedulerState.firstTick_sorted (collation : Collation deps.localeCompare ids)
    (listed : (repos.map (·.id)).Perm ids)
    : (state.firstTick deps repos).sorted.map (·.id) = deps.order ids := by
  have mapped : (state.firstTick deps repos).sorted.map (·.id)
      = sortByLocale deps.localeCompare (repos.map (·.id)) :=
    List.map_insertionSort _ _ _ _ fun _ _ _ _ => Iff.rfl
  rw [mapped]
  exact sortByLocale_eq_of_perm collation listed fun _ member => member

/-- The scan begins after the cursor's repository. -/
theorem SchedulerState.findStartIndex_of_cursor {sorted : List SchedulerRepository} {place : Nat}
    {id : RepositoryId} (distinct : (sorted.map (·.id)).Nodup)
    (found : (sorted.map (·.id))[place]? = some id) (cursor : state.cursorId = some id)
    : state.findStartIndex sorted = (place + 1) % sorted.length := by
  have first : sorted.findIdx? (·.id = id) = some place := by
    obtain ⟨inside, same⟩ := List.getElem?_eq_some_iff.mp found
    have places : place < sorted.length := by simpa using inside
    refine List.findIdx?_eq_some_iff_getElem.mpr ⟨places, by simpa using same, ?_⟩
    intro earlier before equal
    have others : earlier < (sorted.map (·.id)).length := Nat.lt_trans before inside
    have twice : (sorted.map (·.id))[earlier] = (sorted.map (·.id))[place] := by
      rw [same]
      simpa using equal
    have collides := (distinct.getElem_inj_iff).mp twice
    omega
  simp [findStartIndex, cursor, first]

end Order

-----------------------------------------------------------------------------------------
-- Calls as scans
-----------------------------------------------------------------------------------------

/-- The place of a call's candidate. -/
def InspectingTick.place (tick : InspectingTick) : Nat :=
  (tick.startIndex + tick.i) % tick.sorted.length

/-- The scheduler stands at places of the order: the cursor at the last admission, and at most
one call at its candidate.
-/
structure SchedulerWorld.ScansAs (order : List RepositoryId) (world : SchedulerWorld)
    (scan : RoundRobin)
    : Prop where
  inside : scan.Inside order.length
  cursor : world.state.cursorId = scan.last.bind (order[·]?)
  calls
    : ∀ (index : Nat) (tick : InspectingTick), world.ticks[index]? = some (.inspecting tick) →
        tick.sorted.map (·.id) = order ∧ scan.looking = some tick.place
  alone
    : ∀ (index other : Nat) (tick others : InspectingTick),
        world.ticks[index]? = some (.inspecting tick) →
        world.ticks[other]? = some (.inspecting others) → index = other

/-- The calls do not overlap, and the enabled repositories are the given ones. -/
def SchedulerWorld.TakesTurns (ids : List RepositoryId) (world : SchedulerWorld)
    : SchedulerEvent → Prop
  | .scheduleOnce _ listEnabled =>
      (∀ phase ∈ world.ticks, phase.inspecting? = none)
      ∧ ∀ repos, listEnabled = .ok repos → (repos.map (·.id)).Perm ids
  | .inspected _ _ _ _ | .settled _ _ | .stopAdmission _ => True

/-- The inspection is available, there is work, and the usage is below the cap. -/
def InspectingTick.Eligible (deps : SchedulerDeps) (tick : InspectingTick)
    (state : SchedulerState) (answer : Except ThrownValue RepositoryWorkInspection)
    : Prop :=
  ∃ queueDepth activeCount,
    answer = .ok (.available queueDepth activeCount)
    ∧ 0 < queueDepth
    ∧ max activeCount (state.countReservedForRepo tick.candidate.id)
      < min tick.candidate.maxConcurrentRuns deps.globalConcurrency

/-- The repository is eligible where it is inspected. -/
def SchedulerWorld.KeepsEligible (deps : SchedulerDeps) (repoId : RepositoryId)
    (world : SchedulerWorld)
    : SchedulerEvent → Prop
  | .inspected index answer _ _ =>
      ∀ tick, world.ticks[index]? = some (.inspecting tick) →
        tick.candidate.id = repoId → tick.Eligible deps world.state answer
  | .scheduleOnce _ _ | .settled _ _ | .stopAdmission _ => True

section Scan

variable {deps : SchedulerDeps} {ids order : List RepositoryId} {world next : SchedulerWorld}
  {scan : RoundRobin} {event : SchedulerEvent} {tick : InspectingTick} {round : Tick}
  {state middle : SchedulerState} {phase : TickPhase} {goesOn : Bool} {index : Nat}
  {answer : Except ThrownValue RepositoryWorkInspection} {ports : DispatchPorts}

/-- An eligible candidate is admitted while the scheduler runs. -/
theorem InspectingTick.Eligible.admits (eligible : tick.Eligible deps state answer)
    (running : state.stopped = false)
    : tick.Admits deps state answer := by
  obtain ⟨queueDepth, activeCount, rfl, work, room⟩ := eligible
  refine ⟨_, rfl, ?_⟩
  have full : ¬ min tick.candidate.maxConcurrentRuns deps.globalConcurrency
      ≤ max activeCount (state.countReservedForRepo tick.candidate.id) := by omega
  have busy : queueDepth ≠ 0 := by omega
  simp only [SchedulerState.verdict, running, full, busy, Bool.false_eq_true, if_false]

theorem InspectingTick.candidate_at (sorted : tick.sorted.map (·.id) = order)
    : order[tick.place]? = some tick.candidate.id := by
  have inside : tick.place < tick.sorted.length :=
    Nat.mod_lt _ (Nat.zero_lt_of_lt tick.more)
  rw [← sorted, List.getElem?_map, List.getElem?_eq_getElem inside]
  rfl

/-- After the step of one call, no other call is executing. -/
theorem SchedulerWorld.ScansAs.only (scans : world.ScansAs order scan)
    (found : world.ticks[index]? = some (.inspecting tick)) {place : Nat}
    {reached : InspectingTick}
    (inspecting : (world.ticks.set index phase)[place]? = some (.inspecting reached))
    : place = index ∧ phase.inspecting? = some reached := by
  rcases Decidable.eq_or_ne index place with rfl | differs
  · have inside := (List.getElem?_eq_some_iff.mp found).1
    rw [List.getElem?_set_self inside] at inspecting
    cases inspecting
    exact ⟨rfl, rfl⟩
  · rw [List.getElem?_set_ne differs] at inspecting
    exact absurd (scans.alone _ _ _ _ found inspecting) differs

theorem Tick.Continues.looks (continues : round.Continues deps middle state phase)
    (sorted : round.sorted = tick.sorted) (start : round.startIndex = tick.startIndex)
    (further : round.i = tick.i + 1)
    : GoesOn tick.sorted.length tick.place (phase.inspecting?.map InspectingTick.place) := by
  cases looks : phase.inspecting? with
  | none => exact .inl rfl
  | some reached =>
      have same := continues.inspecting looks
      right
      simp only [Option.map_some, InspectingTick.place, same, sorted, start, further,
        Nat.mod_add_mod, Nat.add_assoc]

/-- The scan of a world after a call's step, from the step's effect. -/
theorem SchedulerWorld.ScansAs.follow (scans : world.ScansAs order scan)
    (found : world.ticks[index]? = some (.inspecting tick)) {last : Option Nat}
    (inside
      : RoundRobin.Inside order.length ⟨last, phase.inspecting?.map InspectingTick.place⟩)
    (cursor : state.cursorId = last.bind (order[·]?))
    (continues : round.Continues deps middle state phase) (sorted : round.sorted = tick.sorted)
    : SchedulerWorld.ScansAs order { state, ticks := world.ticks.set index phase }
        ⟨last, phase.inspecting?.map InspectingTick.place⟩ := by
  refine ⟨inside, cursor, ?_, ?_⟩
  · intro place reached inspecting
    obtain ⟨rfl, looks⟩ := scans.only found inspecting
    have same := congrArg Tick.sorted (continues.inspecting looks)
    rw [sorted] at same
    rw [looks, same]
    exact ⟨(scans.calls _ _ found).1, rfl⟩
  · intro place other reached others inspecting otherInspecting
    exact (scans.only found inspecting).1.trans (scans.only found otherInspecting).1.symm

/-- A step of the scheduler as an act of a scan: what is admitted stands at the act's place, and
a repository that is eligible is not passed.
-/
structure SchedulerWorld.Mirrors (deps : SchedulerDeps) (order : List RepositoryId)
    (world : SchedulerWorld) (scan : RoundRobin) (event : SchedulerEvent)
    (next : SchedulerWorld) (act : ScanAct) (reached : RoundRobin)
    : Prop where
  step : RoundRobin.Step order.length scan act reached
  scans : next.ScansAs order reached
  started
    : ∃ admitted, next.state.started = world.state.started ++ admitted
        ∧ admitted.map (·.repoId) = act.admitted?.toList.map (order.getD · "")
  kept
    : ∀ patient target, order[target]? = some patient →
        world.KeepsEligible deps patient event → act ≠ .pass target

/-- The end of an inspection is mirrored, by cases on how the call goes on. -/
theorem SchedulerWorld.ScansAs.mirror_inspected {aborted : Bool}
    (scans : world.ScansAs order scan)
    (found : world.ticks[index]? = some (.inspecting tick))
    (passage : tick.Passage deps answer ports world.state middle round goesOn)
    (continues : round.Continues deps middle state phase)
    (ends : goesOn = false → phase.inspecting? = none)
    : ∃ act reached,
        world.Mirrors deps order scan (.inspected index answer ports aborted)
          { state, ticks := world.ticks.set index phase } act reached := by
  obtain ⟨sorted, looking⟩ := scans.calls _ _ found
  obtain ⟨last, _⟩ := scan
  obtain rfl : _ = some tick.place := looking
  have size : tick.sorted.length = order.length := by simp [← sorted]
  obtain ⟨cursor, started⟩ := continues.kept
  have leaves (final : phase.inspecting? = none) (same : round.sorted = tick.sorted)
      (stays : middle.cursorId = world.state.cursorId)
      (keeps : middle.started = world.state.started)
      : world.Mirrors deps order ⟨last, some tick.place⟩ (.inspected index answer ports aborted)
          { state, ticks := world.ticks.set index phase } .leave ⟨last, none⟩ := by
    have step : RoundRobin.Step order.length ⟨last, some tick.place⟩ .leave ⟨last, none⟩ := .leave
    have inside : RoundRobin.Inside order.length
        ⟨last, phase.inspecting?.map InspectingTick.place⟩ := by
      rw [final]
      exact scans.inside.of_step step
    have follows :=
      scans.follow found inside ((cursor.trans stays).trans scans.cursor) continues same
    rw [final] at follows
    exact ⟨step, follows, ⟨[], by simp [started, keeps], rfl⟩, nofun⟩
  cases passage with
  | lost | stopped | unnamed | unstarted => exact ⟨_, _, leaves (ends rfl) rfl rfl rfl⟩
  | skipped telemetry unfit =>
      have goes : GoesOn tick.sorted.length tick.place
          (phase.inspecting?.map InspectingTick.place) :=
        continues.looks rfl rfl rfl
      rw [size] at goes
      have step : RoundRobin.Step order.length ⟨last, some tick.place⟩ (.pass tick.place)
          ⟨last, phase.inspecting?.map InspectingTick.place⟩ :=
        .pass goes
      have follows := scans.follow found (scans.inside.of_step step)
        (cursor.trans scans.cursor) continues rfl
      refine ⟨_, _, step, follows, ⟨[], started.trans (List.append_nil _).symm, rfl⟩, ?_⟩
      intro patient target stands eligible same
      obtain rfl : tick.place = target := by simpa using same
      have candidate : tick.candidate.id = patient := by
        simpa [tick.candidate_at sorted] using stands
      exact unfit.2 ((eligible tick found candidate).admits unfit.1)
  | @started telemetry fit workerId named runs =>
      have goes : GoesOn tick.sorted.length tick.place
          (phase.inspecting?.map InspectingTick.place) :=
        continues.looks rfl rfl rfl
      rw [size] at goes
      have step : RoundRobin.Step order.length ⟨last, some tick.place⟩ (.accept tick.place)
          ⟨some tick.place, phase.inspecting?.map InspectingTick.place⟩ :=
        .accept goes
      have follows := scans.follow found (scans.inside.of_step step)
        (cursor.trans (tick.candidate_at sorted).symm) continues rfl
      refine ⟨_, _, step, follows, ⟨[tick.execution world.state workerId], started, ?_⟩, nofun⟩
      have candidate : order.getD tick.place "" = tick.candidate.id := by
        simp [List.getD_eq_getElem?_getD, tick.candidate_at sorted]
      simp only [ScanAct.admitted?, Option.toList_some, List.map_cons, List.map_nil, candidate]
      rfl

/-- A step that neither admits nor moves a call is mirrored by no act. -/
theorem SchedulerWorld.ScansAs.mirror_idle (scans : world.ScansAs order scan)
    (cursor : next.state.cursorId = world.state.cursorId)
    (started : next.state.started = world.state.started)
    (calls
      : ∀ (place : Nat) (reached : InspectingTick),
          next.ticks[place]? = some (.inspecting reached) →
          world.ticks[place]? = some (.inspecting reached))
    : ∃ act reached, world.Mirrors deps order scan event next act reached := by
  refine ⟨.idle, scan, .idle, ⟨scans.inside, cursor.trans scans.cursor, ?_, ?_⟩, ?_, nofun⟩
  · intro place reached inspecting
    exact scans.calls place reached (calls place reached inspecting)
  · intro place other reached others inspecting otherInspecting
    exact scans.alone _ _ _ _ (calls _ _ inspecting) (calls _ _ otherInspecting)
  · exact ⟨[], started.trans (List.append_nil _).symm, rfl⟩

/-- A call among those before and a new one is one of those before or the new one. -/
theorem inspecting_of_append {ticks : List TickPhase} {place : Nat} {reached : InspectingTick}
    (inspecting : (ticks ++ [phase])[place]? = some (.inspecting reached))
    : ticks[place]? = some (.inspecting reached)
      ∨ place = ticks.length ∧ phase.inspecting? = some reached := by
  rw [List.getElem?_append] at inspecting
  split at inspecting
  · exact .inl inspecting
  · rw [List.getElem?_singleton] at inspecting
    split at inspecting
    next last =>
      cases inspecting
      exact .inr ⟨by omega, rfl⟩
    · contradiction

/-- A call that begins is mirrored, where no other call is executing. -/
theorem SchedulerWorld.ScansAs.mirror_began {aborted : Bool}
    {repos : List SchedulerRepository} (distinct : order.Nodup)
    (scans : world.ScansAs order scan) (idle : ∀ phase ∈ world.ticks, phase.inspecting? = none)
    (listed : (world.state.firstTick deps repos).sorted.map (·.id) = order)
    (continues : (world.state.firstTick deps repos).Continues deps world.state state phase)
    : ∃ act reached,
        world.Mirrors deps order scan (.scheduleOnce aborted (.ok repos))
          { state, ticks := world.ticks ++ [phase] } act reached := by
  obtain ⟨cursor, started⟩ := continues.kept
  have before {place : Nat} {reached : InspectingTick}
      (inspecting : world.ticks[place]? = some (.inspecting reached)) : False := by
    have none := idle _ (List.mem_of_getElem? inspecting)
    contradiction
  cases looks : phase.inspecting? with
  | none =>
      refine scans.mirror_idle cursor started fun place reached inspecting => ?_
      rcases inspecting_of_append inspecting with old | ⟨_, new⟩
      · exact old
      · rw [looks] at new
        contradiction
  | some first =>
      have same := continues.inspecting looks
      have sorted : first.sorted.map (·.id) = order := by
        rw [same]
        exact listed
      have size : first.sorted.length = order.length := by simp [← sorted]
      have places : first.place < order.length := by
        rw [← size]
        exact Nat.mod_lt _ (Nat.zero_lt_of_lt first.more)
      have after : ∀ place, scan.last = some place →
          first.place = (place + 1) % order.length := by
        intro place last
        obtain ⟨id, stands⟩ : ∃ id, order[place]? = some id :=
          ⟨_, List.getElem?_eq_getElem (scans.inside.last place last)⟩
        have cursorIs : world.state.cursorId = some id := by
          simp [scans.cursor, last, stands]
        rw [← sorted] at distinct stands
        have start := SchedulerState.findStartIndex_of_cursor distinct stands cursorIs
        have begins : first.startIndex = (place + 1) % first.sorted.length := by
          rw [same] at start ⊢
          exact start
        have round : first.i = 0 := by
          rw [same]
          rfl
        simp only [InspectingTick.place, begins, round, size, Nat.add_zero, Nat.mod_mod]
      have step : RoundRobin.Step order.length scan .begin ⟨scan.last, some first.place⟩ :=
        .begin places after
      refine ⟨_, _, step, ⟨scans.inside.of_step step, cursor.trans scans.cursor, ?_, ?_⟩,
        ⟨[], started.trans (List.append_nil _).symm, rfl⟩, nofun⟩
      · intro place reached inspecting
        rcases inspecting_of_append inspecting with old | ⟨_, new⟩
        · exact (before old).elim
        · obtain rfl := Option.some.inj (looks.symm.trans new)
          exact ⟨sorted, rfl⟩
      · intro place other reached others inspecting otherInspecting
        rcases inspecting_of_append inspecting with old | ⟨rfl, _⟩
        · exact (before old).elim
        · rcases inspecting_of_append otherInspecting with old | ⟨rfl, _⟩
          · exact (before old).elim
          · rfl

theorem SchedulerWorld.ScansAs.mirror (collation : Collation deps.localeCompare ids)
    (distinct : ids.Nodup) (scans : world.ScansAs (deps.order ids) scan)
    (turns : world.TakesTurns ids event) (taken : world.Takes deps event next)
    : ∃ act reached, world.Mirrors deps (deps.order ids) scan event next act reached := by
  cases taken with
  | refused telemetry final =>
      refine scans.mirror_idle rfl rfl fun place reached inspecting => ?_
      rcases inspecting_of_append inspecting with old | ⟨_, new⟩
      · exact old
      · rw [final] at new
        contradiction
  | @began aborted repos state phase continues =>
      have listed : (world.state.firstTick deps repos).sorted.map (·.id) = deps.order ids :=
        SchedulerState.firstTick_sorted collation (turns.2 _ rfl)
      have order : (deps.order ids).Nodup :=
        (List.perm_insertionSort _ _).nodup_iff.mpr distinct
      exact scans.mirror_began order turns.1 listed continues
  | inspected found passage continues ends =>
      exact scans.mirror_inspected found passage continues ends
  | settled running => exact scans.mirror_idle rfl rfl fun _ _ inspecting => inspecting
  | stopAdmission =>
      unfold SchedulerState.stopAdmission
      split <;> exact scans.mirror_idle rfl rfl fun _ _ inspecting => inspecting

end Scan

section Bypass

variable {deps : SchedulerDeps} {ids : List RepositoryId} {world after : SchedulerWorld}
  {scan : RoundRobin} {earlier events : List SchedulerEvent}

/-- A scheduler that is used by turns stands like a scan, by the run invariant rule. -/
theorem SchedulerWorld.scansAs_of_run (collation : Collation deps.localeCompare ids)
    (distinct : ids.Nodup)
    (run : ((schedulerSystem deps).restrict (SchedulerWorld.TakesTurns ids)).Run earlier world)
    : ∃ scan, world.ScansAs (deps.order ids) scan := by
  refine run.invariant (fun _ world => ∃ scan, world.ScansAs (deps.order ids) scan) ?_ ?_
  · rintro _ rfl
    exact ⟨⟨none, none⟩, ⟨nofun, nofun⟩, rfl, nofun, nofun⟩
  · intro _ before event next ⟨scan, scans⟩ ⟨turns, taken⟩
    obtain ⟨act, reached, mirrors⟩ :=
      scans.mirror collation distinct turns (SchedulerWorld.takes_of_step taken)
    exact ⟨reached, mirrors.scans⟩

/-- A window of steps by turns is a path of the scan that admits at the same places, and that
does not pass a repository which stays eligible, by induction over the window.
-/
theorem SchedulerWorld.ScansAs.path (collation : Collation deps.localeCompare ids)
    (distinct : ids.Nodup) {patient : RepositoryId} {target : Nat}
    (stands : (deps.order ids)[target]? = some patient)
    (scans : world.ScansAs (deps.order ids) scan)
    (window
      : ((schedulerSystem deps).restrict fun world event =>
          world.TakesTurns ids event ∧ world.KeepsEligible deps patient event).Path
          world events after)
    : ∃ acts reached admitted,
        ((roundRobin (deps.order ids).length).restrict fun _ act => act ≠ .pass target).Path
          scan acts reached
        ∧ after.ScansAs (deps.order ids) reached
        ∧ after.state.started = world.state.started ++ admitted
        ∧ admitted.map (·.repoId)
          = (admittedPlaces acts).map ((deps.order ids).getD · "") := by
  induction window with
  | stay => exact ⟨[], scan, [], .stay, scans, (List.append_nil _).symm, rfl⟩
  | next _ taken ih =>
      obtain ⟨acts, middle, admitted, path, middleScans, started, places⟩ := ih
      obtain ⟨⟨turns, eligible⟩, taken⟩ := taken
      obtain ⟨act, reached, mirrors⟩ :=
        middleScans.mirror collation distinct turns (SchedulerWorld.takes_of_step taken)
      obtain ⟨more, moreStarted, morePlaces⟩ := mirrors.started
      refine ⟨act :: acts, reached, admitted ++ more,
        .next path ⟨mirrors.kept patient target stands eligible, mirrors.step⟩, mirrors.scans,
        ?_, ?_⟩
      · rw [moreStarted, started, List.append_assoc]
      · rw [List.map_append, places, morePlaces, ← List.map_append, admittedPlaces_cons]

/-- While a repository stays eligible, no repository is admitted twice before it is. -/
theorem no_second_admission_before (collation : Collation deps.localeCompare ids)
    (distinct : ids.Nodup) {patient : RepositoryId} (enabled : patient ∈ ids)
    (run : ((schedulerSystem deps).restrict (SchedulerWorld.TakesTurns ids)).Run earlier world)
    (window
      : ((schedulerSystem deps).restrict fun world event =>
          world.TakesTurns ids event ∧ world.KeepsEligible deps patient event).Path
          world events after)
    : ∃ admitted,
        after.state.started = world.state.started ++ admitted
        ∧ ∀ before, before <+: admitted.map (·.repoId) → patient ∉ before → before.Nodup := by
  obtain ⟨scan, scans⟩ := SchedulerWorld.scansAs_of_run collation distinct run
  have ordered : patient ∈ deps.order ids := (List.mem_insertionSort _).mpr enabled
  obtain ⟨target, targets, stands⟩ := List.mem_iff_getElem.mp ordered
  have found : (deps.order ids)[target]? = some patient := by
    rw [List.getElem?_eq_getElem targets, stands]
  obtain ⟨acts, reached, admitted, path, _, started, places⟩ :=
    scans.path collation distinct found window
  have fair := RoundRobin.fair_of_path scans.inside targets path
  refine ⟨admitted, started, fun before starts absent => ?_⟩
  rw [places] at starts
  obtain ⟨prior, priorStarts, rfl⟩ := List.prefix_map_iff.mp starts
  have absentPlace : target ∉ prior := by
    intro member
    refine absent (List.mem_map.mpr ⟨target, member, ?_⟩)
    simp [List.getD_eq_getElem?_getD, found]
  have once := fair.once prior priorStarts absentPlace
  refine once.map_on fun first hf second hs same => ?_
  have firsts := fair.places first (priorStarts.subset hf)
  have seconds := fair.places second (priorStarts.subset hs)
  have order : (deps.order ids).Nodup := (List.perm_insertionSort _ _).nodup_iff.mpr distinct
  simp only [List.getD_eq_getElem?_getD, List.getElem?_eq_getElem firsts,
    List.getElem?_eq_getElem seconds, Option.getD_some] at same
  exact order.getElem_inj_iff.mp same

end Bypass

/-- Two repositories, and a scheduler with room for one of them. -/
def twoRepositories : List SchedulerRepository :=
  [onlyRepository, { id := "9a1d", fullName := "owner/other", maxConcurrentRuns := 1 }]

/-- A call that admits the first of two repositories, the latest event first. -/
def turnEvents : List SchedulerEvent :=
  let ports := workingPorts fun repo seq => repo.id ++ "-" ++ toString seq
  [
    .inspected 0 (.ok (.available 2 0)) ports false,
    .scheduleOnce false (.ok twoRepositories)
  ]

def turnWorld : SchedulerWorld :=
  (takeAll (SchedulerWorld.step oneSlot) .start turnEvents).get rfl

/-- In a window in which one repository is admitted, the other has waited for it once. -/
theorem no_second_admission_before_turn
    : ∃ admitted,
        turnWorld.state.started = SchedulerWorld.start.state.started ++ admitted
        ∧ ∀ before, before <+: admitted.map (·.repoId) → "9a1d" ∉ before → before.Nodup := by
  have collation : Collation oneSlot.localeCompare ["4f0c", "9a1d"] := by
    refine compareCodeUnits_collation ?_
    decide
  have window
      : ((schedulerSystem oneSlot).restrict fun world event =>
          world.TakesTurns ["4f0c", "9a1d"] event ∧ world.KeepsEligible oneSlot "9a1d" event).Path
          .start turnEvents turnWorld := by
    refine .next (.next .stay ⟨⟨⟨nofun, ?_⟩, trivial⟩, rfl⟩) ⟨⟨trivial, ?_⟩, rfl⟩
    · rintro _ ⟨⟩
      exact .refl _
    · intro tick found candidate
      obtain rfl := TickPhase.inspecting.inj (Option.some.inj found)
      have other : ¬ ("4f0c" : RepositoryId) = "9a1d" := by decide
      exact absurd candidate other
  exact no_second_admission_before collation (by decide) (by decide) (.start rfl) window

end AiSdlc.Application
