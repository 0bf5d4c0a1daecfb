import AiSdlc.Application.RevalidationPlan
import AiSdlc.Async.RunnerPool
import AiSdlc.Transition.System

/-! The validation commands of a run: tier after tier, and in each of them a bounded number of
commands side by side.
-/

namespace AiSdlc.Infrastructure

open AiSdlc.Application
open AiSdlc.Async
open AiSdlc.Transition

/-- The tiers, and one more with the commands that are in none of them. -/
def effectiveTiers (tiers : List (List String)) (commands : List ValidationCommand)
    : List (List ValidationCommand) :=
  let effective := tiers.map fun tier => tier.map .text
  let existingInTiers := effective.flatten.map ValidationCommand.line
  let extraCommands := commands.filter fun command => command.line ∉ existingInTiers
  if extraCommands.length > 0 then effective ++ [extraCommands] else effective

/-- `Math.max(1, Math.min(concurrency, items.length) || 1)`. -/
def effectiveConcurrency (concurrency : Int) (items : Nat) : Nat :=
  let fewest := min concurrency items
  (max 1 (if fewest = 0 then 1 else fewest)).toNat

/-- One call of `mapWithConcurrency`, for the commands of a tier. -/
structure TierWork (Command Result : Type) where
  offset : Nat
  commands : List Command
  pool : RunnerPool Result

structure TierRun (Command Result : Type) where
  globalIndex : Nat
  results : List (Option Result)
  current : Option (TierWork Command Result)
  remaining : List (List Command)
  /-- The calls of `executeSingleCommand` until now. -/
  executed : List (Command × Nat)
  /-- The results of these calls, in the order of their arrival. -/
  settled : List (Nat × Result)

inductive TierEvent (Result : Type)
  | beginTier
  | within (event : RunnerEvent Result)
  | endTier

section Steps

variable {Command Result : Type}

/-- The call that an event makes. -/
def TierWork.executedBy (work : TierWork Command Result)
    : RunnerEvent Result → List (Command × Nat)
  | .take _ =>
      match work.commands[work.pool.nextIndex]? with
      | some command => [(command, work.offset + work.pool.nextIndex)]
      | none => []
  | _ => []

/-- The result that an event brings. -/
def TierWork.settledBy (work : TierWork Command Result)
    : RunnerEvent Result → List (Nat × Result)
  | .settle runner result =>
      match work.pool.runners[runner]? with
      | some (.working index) => [(work.offset + index, result)]
      | _ => []
  | _ => []

def TierRun.start (tiers : List (List Command)) : TierRun Command Result :=
  {
    globalIndex := 0
    results := []
    current := none
    remaining := tiers
    executed := []
    settled := []
  }

/-- The indexes of a tier go on where the results of the earlier ones end. -/
def TierRun.step (concurrency : Int) (run : TierRun Command Result)
    : TierEvent Result → Option (TierRun Command Result)
  | .beginTier =>
      match run.current, run.remaining with
      | none, tier :: remaining =>
          some {
            run with
            globalIndex := run.globalIndex + tier.length
            current := some {
              offset := run.globalIndex
              commands := tier
              pool := .of (effectiveConcurrency concurrency tier.length) tier.length
            }
            remaining
          }
      | _, _ => none
  | .within event =>
      match run.current with
      | some work =>
          (work.pool.step event).map fun pool => {
            run with
            current := some { work with pool }
            executed := run.executed ++ work.executedBy event
            settled := run.settled ++ work.settledBy event
          }
      | none => none
  | .endTier =>
      match run.current with
      | some work =>
          if ∀ runner ∈ work.pool.runners, runner = .done then
            some { run with results := run.results ++ work.pool.results, current := none }
          else none
      | none => none

/-- The tiers are worked off in any order of events. -/
def tierSystem (concurrency : Int) (tiers : List (List Command))
    : System (TierRun Command Result) (TierEvent Result) :=
  .ofSteps (· = .start tiers) (TierRun.step concurrency)

/-- A call in progress accounts for the commands of its tier. -/
structure TierWork.Fits (concurrency : Int) (offset : Nat) (work : TierWork Command Result)
    : Prop where
  begins : work.offset = offset
  items : work.pool.results.length = work.commands.length
  runners : work.pool.runners.length = effectiveConcurrency concurrency work.commands.length
  accounts : work.pool.Accounts
  balanced : work.pool.Balanced

/-- The commands of the current tier. -/
def TierRun.tier (run : TierRun Command Result) : List (List Command) :=
  (run.current.map TierWork.commands).toList

/-- The commands of the current tier that runners took. -/
def TierRun.begun (run : TierRun Command Result) : List Command :=
  match run.current with
  | some work => work.commands.take work.pool.nextIndex
  | none => []

/-- The results that are written, with those of the current tier. -/
def TierRun.written (run : TierRun Command Result) : List (Option Result) :=
  match run.current with
  | some work => run.results ++ work.pool.results
  | none => run.results

/-- A run has worked off some tiers, and is at the next one or between two. -/
structure TierRun.Follows (concurrency : Int) (tiers past : List (List Command))
    (run : TierRun Command Result)
    : Prop where
  split : tiers = past ++ run.tier ++ run.remaining
  results : run.results.length = past.flatten.length
  complete : ∀ result ∈ run.results, result.isSome = true
  global : run.globalIndex = (past ++ run.tier).flatten.length
  fits : ∀ work, run.current = some work → work.Fits concurrency run.results.length
  executed : run.executed = (past.flatten ++ run.begun).zipIdx
  settled : ∀ index result,
    (index, result) ∈ run.settled ↔ run.written[index]? = some (some result)
  once : (run.settled.map Prod.fst).Nodup
  count : run.settled.length = (run.written.map filled).sum

variable {concurrency : Int} {tiers past : List (List Command)} {run next : TierRun Command Result}
  {work : TierWork Command Result} {event : TierEvent Result}

theorem effectiveConcurrency_pos (concurrency : Int) (items : Nat)
    : 0 < effectiveConcurrency concurrency items := by
  unfold effectiveConcurrency
  dsimp only
  split <;> omega

theorem effectiveConcurrency_le (concurrency : Int) (items : Nat)
    : (effectiveConcurrency concurrency items : Int) ≤ max 1 concurrency := by
  unfold effectiveConcurrency
  dsimp only
  split <;> omega

/-- What one event of a run does, with what it needs. -/
theorem TierRun.step_cases (taken : run.step concurrency event = some next)
    : (∃ tier remaining, run.current = none ∧ run.remaining = tier :: remaining ∧ next = {
          run with
          globalIndex := run.globalIndex + tier.length
          current := some {
            offset := run.globalIndex
            commands := tier
            pool := .of (effectiveConcurrency concurrency tier.length) tier.length
          }
          remaining
        })
      ∨ (∃ work within pool, run.current = some work ∧ work.pool.step within = some pool ∧ next = {
          run with
          current := some { work with pool }
          executed := run.executed ++ work.executedBy within
          settled := run.settled ++ work.settledBy within
        })
      ∨ ∃ work, run.current = some work ∧ (∀ runner ∈ work.pool.runners, runner = .done)
        ∧ next = { run with results := run.results ++ work.pool.results, current := none } := by
  cases event with
  | beginTier =>
      rw [step] at taken
      split at taken
      next tier remaining idle left =>
        cases taken
        exact .inl ⟨tier, remaining, idle, left, rfl⟩
      · cases taken
  | within event =>
      rw [step] at taken
      split at taken
      next work current =>
        obtain ⟨pool, stepped, rfl⟩ := Option.map_eq_some_iff.mp taken
        exact .inr (.inl ⟨work, event, pool, current, stepped, rfl⟩)
      · cases taken
  | endTier =>
      rw [step] at taken
      split at taken
      next work current =>
        split at taken
        next done =>
          cases taken
          exact .inr (.inr ⟨work, current, done, rfl⟩)
        · cases taken
      · cases taken

theorem TierRun.follows_start (concurrency : Int) (tiers : List (List Command))
    : (TierRun.start tiers : TierRun Command Result).Follows concurrency tiers [] := by
  constructor
  · rfl
  · rfl
  · exact fun _ held => absurd held List.not_mem_nil
  · rfl
  · intro work current
    cases current
  · rfl
  · exact fun index result => by simp [start, written]
  · exact List.nodup_nil
  · rfl

theorem getElem?_append_replicate {results : List (Option Result)} {items index : Nat}
    {result : Result}
    : (results ++ List.replicate items none)[index]? = some (some result)
      ↔ results[index]? = some (some result) := by
  rw [List.getElem?_append]
  split
  · rfl
  next beyond =>
    constructor
    · intro found
      cases List.eq_of_mem_replicate (List.mem_of_getElem? found)
    · exact fun found => absurd (List.getElem?_eq_some_iff.mp found).1 beyond

/-- A tier begins where the results of the earlier ones end. -/
theorem TierRun.Follows.beginTier (follows : run.Follows concurrency tiers past)
    {tier : List Command} {remaining : List (List Command)} (idle : run.current = none)
    (left : run.remaining = tier :: remaining)
    : TierRun.Follows concurrency tiers past {
      run with
      globalIndex := run.globalIndex + tier.length
      current := some {
        offset := run.globalIndex
        commands := tier
        pool := .of (effectiveConcurrency concurrency tier.length) tier.length
      }
      remaining
    } := by
  have split := follows.split
  have global := follows.global
  have executed := follows.executed
  have settled := follows.settled
  have count := follows.count
  simp only [TierRun.tier, TierRun.begun, TierRun.written, idle, left, Option.map_none,
    Option.toList_none, List.append_nil] at split global executed settled count
  constructor
  · simpa [TierRun.tier] using split
  · exact follows.results
  · exact follows.complete
  · simp only [TierRun.tier, Option.map_some, Option.toList_some, List.flatten_append,
      List.flatten_singleton, List.length_append, global]
  · intro work current
    cases current
    exact ⟨global.trans follows.results.symm, List.length_replicate, List.length_replicate,
      RunnerPool.accounts_of _ _, RunnerPool.balanced_of _ _⟩
  · simpa [TierRun.begun, RunnerPool.of] using executed
  · intro index result
    rw [settled]
    exact getElem?_append_replicate.symm
  · exact follows.once
  · simpa [TierRun.written, RunnerPool.of, filled] using count

/-- Where all its runners are done, a tier is worked off. -/
theorem TierRun.Follows.endTier (follows : run.Follows concurrency tiers past)
    (current : run.current = some work) (done : ∀ runner ∈ work.pool.runners, runner = .done)
    : TierRun.Follows concurrency tiers (past ++ [work.commands])
        { run with results := run.results ++ work.pool.results, current := none } := by
  have fits := follows.fits work current
  have nonempty : work.pool.runners ≠ [] := by
    intro none
    have positive := effectiveConcurrency_pos concurrency work.commands.length
    rw [← fits.runners, none] at positive
    exact Nat.lt_irrefl 0 positive
  obtain ⟨all, complete⟩ := fits.accounts.complete nonempty done
  rw [fits.items] at all
  have split := follows.split
  have global := follows.global
  have executed := follows.executed
  have settled := follows.settled
  have count := follows.count
  simp only [TierRun.tier, TierRun.begun, TierRun.written, current, Option.map_some,
    Option.toList_some] at split global executed settled count
  constructor
  · simpa [TierRun.tier] using split
  · simp [follows.results, fits.items]
  · exact fun result held => (List.mem_append.mp held).elim (follows.complete result)
      (complete result)
  · simpa [TierRun.tier] using global
  · intro work none
    cases none
  · simpa [TierRun.begun, List.take_of_length_le all] using executed
  · exact settled
  · exact follows.once
  · exact count

theorem TierWork.Fits.within {offset : Nat} (fits : work.Fits concurrency offset)
    {within : RunnerEvent Result} {pool : RunnerPool Result}
    (stepped : work.pool.step within = some pool)
    : TierWork.Fits concurrency offset { work with pool } := by
  have sizes : pool.results.length = work.pool.results.length
      ∧ pool.runners.length = work.pool.runners.length := by
    rcases RunnerPool.step_cases stepped with
      ⟨runner, -, -, rfl⟩ | ⟨runner, index, result, -, -, rfl⟩ | ⟨runner, index, -, -, rfl⟩
    · exact ⟨rfl, List.length_set⟩
    · exact ⟨List.length_set, List.length_set⟩
    · exact ⟨rfl, List.length_set⟩
  exact ⟨fits.begins, sizes.1.trans fits.items, sizes.2.trans fits.runners,
    fits.accounts.step stepped, fits.balanced.step fits.accounts stepped⟩

/-- The commands that were begun are executed in order. -/
theorem TierWork.executedBy_eq {within : RunnerEvent Result} {pool : RunnerPool Result}
    (stepped : work.pool.step within = some pool) (front : List Command)
    (begins : work.offset = front.length)
    : (front ++ work.commands.take work.pool.nextIndex).zipIdx ++ work.executedBy within
      = (front ++ work.commands.take pool.nextIndex).zipIdx := by
  rcases RunnerPool.step_cases stepped with
    ⟨runner, rfl, -, rfl⟩ | ⟨runner, index, result, rfl, -, rfl⟩ | ⟨runner, index, rfl, -, rfl⟩
  · rw [List.take_add_one, executedBy]
    cases found : work.commands[work.pool.nextIndex]? with
    | none => simp
    | some command =>
        have inside := (List.getElem?_eq_some_iff.mp found).1
        have length : (front ++ work.commands.take work.pool.nextIndex).length
            = work.offset + work.pool.nextIndex := by
          rw [List.length_append, List.length_take, begins]
          omega
        have last : (front ++ work.commands.take work.pool.nextIndex ++ [command]).zipIdx
            = (front ++ work.commands.take work.pool.nextIndex).zipIdx
              ++ [command].zipIdx (0 + (work.offset + work.pool.nextIndex)) := by
          rw [List.zipIdx_append, length]
        rw [Option.toList_some, ← List.append_assoc, last, Nat.zero_add]
        rfl
  · rw [executedBy, List.append_nil]
    intro runner same
    cases same
  · rw [executedBy, List.append_nil]
    intro runner same
    cases same

/-- A result is written where there was none. -/
theorem settles {results : List (Option Result)} {settled : List (Nat × Result)}
    {index : Nat} (vacant : results[index]? = some none) (result : Result)
    (same : ∀ index result, (index, result) ∈ settled ↔ results[index]? = some (some result))
    (once : (settled.map Prod.fst).Nodup) (count : settled.length = (results.map filled).sum)
    : (∀ position value, (position, value) ∈ settled ++ [(index, result)]
        ↔ (results.set index (some result))[position]? = some (some value))
      ∧ ((settled ++ [(index, result)]).map Prod.fst).Nodup
      ∧ (settled ++ [(index, result)]).length
        = ((results.set index (some result)).map filled).sum := by
  have absent (value : Result) : (index, value) ∉ settled := by
    rw [same, vacant]
    simp
  have inside := (List.getElem?_eq_some_iff.mp vacant).1
  refine ⟨fun position value => ?_, ?_, ?_⟩
  · rw [List.mem_append, List.mem_singleton, Prod.mk.injEq]
    by_cases here : position = index
    · subst here
      rw [List.getElem?_set_self inside]
      simp [absent, eq_comm]
    · rw [List.getElem?_set_ne (Ne.symm here), same]
      simp [here]
  · rw [List.map_append, List.nodup_append]
    refine ⟨once, List.nodup_singleton _, fun position before last also equal => ?_⟩
    obtain ⟨⟨_, value⟩, member, rfl⟩ := List.mem_map.mp before
    obtain rfl := List.mem_singleton.mp also
    exact absent value (equal ▸ member)
  · have moved := sum_map_set filled vacant (some result)
    simp only [filled] at moved
    rw [List.length_append, List.length_singleton]
    omega

/-- A result that arrives is written at the index of its command. -/
theorem TierWork.Fits.arrives {results : List (Option Result)} {settled : List (Nat × Result)}
    (fits : work.Fits concurrency results.length) {within : RunnerEvent Result}
    {pool : RunnerPool Result} (stepped : work.pool.step within = some pool)
    (same : ∀ index result,
      (index, result) ∈ settled ↔ (results ++ work.pool.results)[index]? = some (some result))
    (once : (settled.map Prod.fst).Nodup)
    (count : settled.length = ((results ++ work.pool.results).map filled).sum)
    : (∀ index result, (index, result) ∈ settled ++ work.settledBy within
        ↔ (results ++ pool.results)[index]? = some (some result))
      ∧ ((settled ++ work.settledBy within).map Prod.fst).Nodup
      ∧ (settled ++ work.settledBy within).length
        = ((results ++ pool.results).map filled).sum := by
  rcases RunnerPool.step_cases stepped with
    ⟨runner, rfl, -, rfl⟩ | ⟨runner, index, result, rfl, working, rfl⟩
    | ⟨runner, index, rfl, -, rfl⟩
  · simp only [settledBy, List.append_nil]
    exact ⟨same, once, count⟩
  · have written : (results ++ work.pool.results).set (work.offset + index) (some result)
        = results ++ work.pool.results.set index (some result) := by
      rw [fits.begins, List.set_append_right _ _ (Nat.le_add_right _ _), Nat.add_sub_cancel_left]
    have vacant : (results ++ work.pool.results)[work.offset + index]? = some none := by
      rw [fits.begins, List.getElem?_append_right (Nat.le_add_right _ _), Nat.add_sub_cancel_left]
      exact (fits.accounts.held _ _ (holds_working working)).2
    have own : work.settledBy (.settle runner result) = [(work.offset + index, result)] := by
      rw [settledBy, working]
    rw [own, ← written]
    exact settles vacant result same once count
  · simp only [settledBy, List.append_nil]
    exact ⟨same, once, count⟩

/-- An event among the runners. -/
theorem TierRun.Follows.within (follows : run.Follows concurrency tiers past)
    (current : run.current = some work) {within : RunnerEvent Result} {pool : RunnerPool Result}
    (stepped : work.pool.step within = some pool)
    : TierRun.Follows concurrency tiers past {
      run with
      current := some { work with pool }
      executed := run.executed ++ work.executedBy within
      settled := run.settled ++ work.settledBy within
    } := by
  have fits := follows.fits work current
  have begins := fits.begins.trans follows.results
  have executed := follows.executed
  have settled := follows.settled
  have once := follows.once
  have count := follows.count
  have split := follows.split
  have global := follows.global
  simp only [TierRun.tier, TierRun.begun, TierRun.written, current]
    at split global executed settled count
  have arrived := TierWork.Fits.arrives fits stepped settled once count
  constructor
  · exact split
  · exact follows.results
  · exact follows.complete
  · exact global
  · intro also same
    cases same
    exact fits.within stepped
  · simp only [TierRun.begun]
    rw [executed]
    exact TierWork.executedBy_eq stepped _ begins
  · exact arrived.1
  · exact arrived.2.1
  · exact arrived.2.2

theorem TierRun.Follows.step (follows : run.Follows concurrency tiers past)
    (taken : run.step concurrency event = some next)
    : ∃ past, next.Follows concurrency tiers past := by
  rcases TierRun.step_cases taken with
    ⟨tier, remaining, idle, left, rfl⟩ | ⟨work, within, pool, current, stepped, rfl⟩
    | ⟨work, current, done, rfl⟩
  · exact ⟨past, follows.beginTier idle left⟩
  · exact ⟨past, follows.within current stepped⟩
  · exact ⟨past ++ [work.commands], follows.endTier current done⟩

variable {events : List (TierEvent Result)}

theorem follows_of_run (reached : (tierSystem concurrency tiers).Run events run)
    : ∃ past, run.Follows concurrency tiers past := by
  refine reached.invariant (fun _ run => ∃ past, run.Follows concurrency tiers past) ?_ ?_
  · rintro _ rfl
    exact ⟨[], TierRun.follows_start concurrency tiers⟩
  · intro _ state event next before taken
    obtain ⟨past, follows⟩ := before
    exact follows.step taken

theorem TierRun.begun_prefix (run : TierRun Command Result) : run.begun <+: run.tier.flatten := by
  rw [begun, tier]
  cases run.current with
  | none => exact List.prefix_rfl
  | some work => simpa using List.take_prefix _ _

theorem TierRun.Follows.executed_length (follows : run.Follows concurrency tiers past)
    : run.executed.length = past.flatten.length + run.begun.length := by
  rw [follows.executed, List.length_zipIdx, List.length_append]

/-- The commands are executed in the order of the tiers, each of them once. -/
theorem TierRun.Follows.executed_prefix (follows : run.Follows concurrency tiers past)
    : run.executed <+: tiers.flatten.zipIdx := by
  obtain ⟨rest, front⟩ := run.begun_prefix
  have whole : tiers.flatten = past.flatten ++ run.begun ++ (rest ++ run.remaining.flatten) := by
    rw [follows.split]
    simp only [List.flatten_append, ← front, List.append_assoc]
  have joined : tiers.flatten.zipIdx = (past.flatten ++ run.begun).zipIdx ++ _ :=
    (congrArg List.zipIdx whole).trans List.zipIdx_append
  rw [follows.executed, joined]
  exact List.prefix_append _ _

theorem sum_filled {results : List (Option Result)}
    (complete : ∀ result ∈ results, result.isSome = true)
    : (results.map filled).sum = results.length := by
  induction results with
  | nil => rfl
  | cons first rest ih =>
      obtain ⟨some, others⟩ := List.forall_mem_cons.mp complete
      obtain ⟨result, rfl⟩ := Option.isSome_iff_exists.mp some
      rw [List.map_cons, List.sum_cons, ih others, List.length_cons, filled]
      omega

/-- The runners bound how many commands have no result yet. -/
theorem TierRun.Follows.in_flight (follows : run.Follows concurrency tiers past)
    : (run.executed.length : Int) ≤ run.settled.length + max 1 concurrency := by
  have length := follows.executed_length
  have count := follows.count
  have earlier := sum_filled follows.complete
  have fits := follows.fits
  rw [follows.results] at earlier
  unfold TierRun.begun at length
  unfold TierRun.written at count
  cases current : run.current with
  | none =>
      simp only [current, List.length_nil] at length count
      omega
  | some work =>
      have bound := (fits work current).balanced.bound
      have runners := (fits work current).runners
      have items := (fits work current).items
      have most := effectiveConcurrency_le concurrency work.commands.length
      simp only [current, List.map_append, List.sum_append, List.length_take] at length count
      omega

/-- A tier only starts once the earlier ones have their results. -/
theorem TierRun.Follows.barrier (follows : run.Follows concurrency tiers past)
    {before after : List (List Command)} {tier : List Command}
    (split : tiers = before ++ tier :: after)
    (started : before.flatten.length < run.executed.length) {index : Nat}
    (earlier : index < before.flatten.length)
    : ∃ result, (index, result) ∈ run.settled := by
  have starts : before <+: past := by
    have front : before <+: tiers := ⟨tier :: after, split.symm⟩
    have pasts : past ++ run.tier <+: tiers := ⟨run.remaining, follows.split.symm⟩
    rcases List.prefix_or_prefix_of_prefix front ((List.prefix_append _ _).trans pasts) with
      inside | beyond
    · exact inside
    · obtain ⟨more, rfl⟩ := beyond
      rw [follows.split, List.append_assoc, List.append_assoc, List.append_cancel_left_eq] at split
      have few : run.tier.length ≤ 1 := Option.length_toList_le
      by_cases none : more = []
      · rw [none, List.append_nil]
      · have length := follows.executed_length
        have begun := run.begun_prefix.length_le
        have current : run.tier <+: more := by
          refine List.prefix_of_prefix_length_le ⟨_, split⟩ (List.prefix_append _ _) ?_
          exact few.trans (List.length_pos_iff.mpr none)
        obtain ⟨rest, rfl⟩ := current
        simp only [List.flatten_append, List.length_append] at started
        omega
  obtain ⟨more, rfl⟩ := starts
  have inside : index < run.results.length := by
    rw [follows.results, List.flatten_append, List.length_append]
    omega
  obtain ⟨result, found⟩ :=
    Option.isSome_iff_exists.mp (follows.complete _ (List.getElem_mem inside))
  refine ⟨result, (follows.settled index result).mpr ?_⟩
  have written : run.results <+: run.written := by
    rw [TierRun.written]
    cases run.current with
    | none => exact List.prefix_rfl
    | some work => exact List.prefix_append _ _
  obtain ⟨rest, whole⟩ := written
  rw [← whole, List.getElem?_append_left inside, List.getElem?_eq_getElem inside, found]

/-- How many events a tier takes at most. -/
def tierCost (concurrency : Int) (tier : List Command) : Nat :=
  2 + effectiveConcurrency concurrency tier.length + 2 * tier.length

/-- How many events a run has left at most. -/
def TierRun.measure (concurrency : Int) (run : TierRun Command Result) : Nat :=
  (run.remaining.map (tierCost concurrency)).sum
    + match run.current with
      | some work => 1 + work.pool.measure
      | none => 0

theorem TierRun.measure_step (taken : run.step concurrency event = some next)
    : next.measure concurrency < run.measure concurrency := by
  rcases TierRun.step_cases taken with
    ⟨tier, remaining, idle, left, rfl⟩ | ⟨work, within, pool, current, stepped, rfl⟩
    | ⟨work, current, done, rfl⟩
  · have initial : (RunnerPool.of (effectiveConcurrency concurrency tier.length) tier.length
          : RunnerPool Result).measure
        = effectiveConcurrency concurrency tier.length + 2 * tier.length := by
      simp [RunnerPool.measure, RunnerPool.of, Runner.steps]
    simp only [TierRun.measure, idle, left, initial, List.map_cons, List.sum_cons, tierCost]
    omega
  · have smaller := RunnerPool.measure_step stepped
    simp only [TierRun.measure, current]
    omega
  · simp only [TierRun.measure, current]
    omega

/-- Where no command threw, the run is at its end or can go on. -/
theorem TierRun.exists_step (result : Result)
    (unharmed : ∀ work, run.current = some work
      → ∀ runner ∈ work.pool.runners, ∀ index, runner ≠ .failed index)
    (unfinished : ¬(run.current = none ∧ run.remaining = []))
    : ∃ event next, run.step concurrency event = some next := by
  cases current : run.current with
  | none =>
      obtain ⟨tier, remaining, left⟩ :=
        List.exists_cons_of_ne_nil fun none => unfinished ⟨current, none⟩
      exact ⟨.beginTier, _, by rw [step, current, left]⟩
  | some work =>
      by_cases done : ∀ runner ∈ work.pool.runners, runner = .done
      · exact ⟨.endTier, _, by simp only [step, current]; exact if_pos done⟩
      · push Not at done
        obtain ⟨runner, member, different⟩ := done
        have alive : 0 < runner.steps := by
          cases runner with
          | ready => exact Nat.one_pos
          | working index => exact Nat.two_pos
          | done => exact absurd rfl different
          | failed index => exact absurd rfl (unharmed work current _ member index)
        obtain ⟨event, pool, stepped⟩ := RunnerPool.exists_step member alive result
        refine ⟨.within event, ?_⟩
        simp only [step, current, stepped, Option.map_some]
        exact ⟨_, rfl⟩

/-- In every order of events, the commands are executed in the order of the tiers, each of them
once; no more than the concurrency are without a result; and a tier starts only when all
commands of the earlier tiers have theirs.
-/
theorem tiers_in_order (reached : (tierSystem concurrency tiers).Run events run)
    : run.executed <+: tiers.flatten.zipIdx
      ∧ (run.settled.map Prod.fst).Nodup
      ∧ (run.executed.length : Int) ≤ run.settled.length + max 1 concurrency
      ∧ ∀ before tier after, tiers = before ++ tier :: after
        → before.flatten.length < run.executed.length
        → ∀ index < before.flatten.length, ∃ result, (index, result) ∈ run.settled := by
  obtain ⟨past, follows⟩ := follows_of_run reached
  refine ⟨follows.executed_prefix, follows.once, follows.in_flight, ?_⟩
  intro before tier after split started index earlier
  exact follows.barrier split started earlier

/-- A run never goes on forever, and it does not stop before its end unless a command threw. -/
theorem tiers_terminate (reached : (tierSystem concurrency tiers).Run events run)
    (result : Result)
    : events.length ≤ (tiers.map (tierCost concurrency)).sum
      ∧ ((∀ event, run.step concurrency event = none)
        → (∀ work, run.current = some work
          → ∀ runner ∈ work.pool.runners, ∀ index, runner ≠ .failed index)
        → run.current = none ∧ run.remaining = []) := by
  have bounded : events.length + run.measure concurrency
      ≤ (tiers.map (tierCost concurrency)).sum := by
    refine reached.invariant
      (fun events run => events.length + run.measure concurrency ≤ _) ?_ ?_
    · rintro _ rfl
      simp [TierRun.measure, TierRun.start]
    · intro events state event next before taken
      have smaller := TierRun.measure_step taken
      rw [List.length_cons]
      omega
  refine ⟨by omega, fun stuck unharmed => ?_⟩
  by_contra unfinished
  obtain ⟨event, next, taken⟩ := TierRun.exists_step result unharmed unfinished
  rw [stuck event] at taken
  cases taken

section Instances

/-- Two tiers, worked off with two runners; the second command of the first tier is the first one
that has its result.
-/
def checkEvents : List (TierEvent Bool) :=
  [
    .endTier, .within (.take 0), .within (.settle 0 true), .within (.take 0), .beginTier,
    .endTier, .within (.take 0), .within (.settle 0 true), .within (.take 1),
    .within (.settle 1 false), .within (.take 1), .within (.take 0), .beginTier
  ]

def checkTiers : List (List String) :=
  [["lint", "test"]]

def checkCommands : List ValidationCommand :=
  [.text "test", .tokens ["pnpm", "build"]]

def checkRun : TierRun ValidationCommand Bool :=
  {
    globalIndex := 3
    results := [some true, some false, some true]
    current := none
    remaining := []
    executed := [(.text "lint", 0), (.text "test", 1), (.tokens ["pnpm", "build"], 2)]
    settled := [(1, false), (0, true), (2, true)]
  }

theorem checkRun_run
    : (tierSystem 2 (effectiveTiers checkTiers checkCommands)).Run checkEvents checkRun := by
  have starts : (tierSystem 2 (effectiveTiers checkTiers checkCommands)).initial
      (.start (effectiveTiers checkTiers checkCommands) : TierRun ValidationCommand Bool) :=
    rfl
  have taken : takeAll (TierRun.step 2) (.start (effectiveTiers checkTiers checkCommands))
      checkEvents = some checkRun := by
    rfl
  exact System.run_takeAll starts taken

theorem checkRun_in_order
    : checkRun.executed <+: (effectiveTiers checkTiers checkCommands).flatten.zipIdx :=
  (tiers_in_order checkRun_run).1

theorem checkRun_ends
    : checkEvents.length ≤ 13 ∧ checkRun.current = none ∧ checkRun.remaining = [] := by
  obtain ⟨bounded, ends⟩ := tiers_terminate checkRun_run true
  refine ⟨bounded, ends (fun event => ?_) fun _ working => ?_⟩
  · cases event <;> rfl
  · exact absurd working (Option.some_ne_none _).symm

end Instances

end Steps

section Commands

variable {Result : Type} {tiers : List (List String)} {commands : List ValidationCommand}

theorem exists_effective {command : ValidationCommand} (member : command ∈ commands)
    : ∃ other ∈ (effectiveTiers tiers commands).flatten, other.line = command.line := by
  simp only [effectiveTiers]
  by_cases existing : command.line
      ∈ (tiers.map fun tier => tier.map ValidationCommand.text).flatten.map ValidationCommand.line
  · obtain ⟨other, held, same⟩ := List.mem_map.mp existing
    refine ⟨other, ?_, same⟩
    split
    · rw [List.flatten_append]
      exact List.mem_append_left _ held
    · exact held
  · have extra : command ∈ commands.filter fun command => command.line
        ∉ (tiers.map fun tier => tier.map ValidationCommand.text).flatten.map
          ValidationCommand.line :=
      List.mem_filter.mpr ⟨member, decide_eq_true existing⟩
    refine ⟨command, ?_, rfl⟩
    rw [if_pos (List.length_pos_of_mem extra), List.flatten_append, List.flatten_singleton]
    exact List.mem_append_right _ extra

/-- At the end of a run, there is one result for each command of the tiers, at its index, and it
is what the call for that command gave; and no command that was asked for is left out.
-/
theorem results_of_tiers {concurrency : Int} {events : List (TierEvent Result)}
    {run : TierRun ValidationCommand Result}
    (reached : (tierSystem concurrency (effectiveTiers tiers commands)).Run events run)
    (idle : run.current = none) (finished : run.remaining = [])
    : run.executed = (effectiveTiers tiers commands).flatten.zipIdx
      ∧ run.results.length = run.executed.length
      ∧ (∀ index < run.results.length, ∃ result, run.results[index]? = some (some result)
        ∧ (index, result) ∈ run.settled)
      ∧ ∀ command ∈ commands, ∃ other index result, (other, index) ∈ run.executed
        ∧ other.line = command.line ∧ run.results[index]? = some (some result) := by
  obtain ⟨past, follows⟩ := follows_of_run reached
  have split := follows.split
  have settled := follows.settled
  have executed := follows.executed
  have length := follows.results
  simp only [TierRun.tier, TierRun.written, TierRun.begun, idle, finished, Option.map_none,
    Option.toList_none, List.append_nil] at split settled executed
  rw [← split] at executed length
  have each (index : Nat) (inside : index < run.results.length)
      : ∃ result, run.results[index]? = some (some result) ∧ (index, result) ∈ run.settled := by
    obtain ⟨result, found⟩ :=
      Option.isSome_iff_exists.mp (follows.complete _ (List.getElem_mem inside))
    have written : run.results[index]? = some (some result) :=
      (List.getElem?_eq_getElem inside).trans (congrArg some found)
    exact ⟨result, written, (settled index result).mpr written⟩
  refine ⟨executed, by rw [executed, List.length_zipIdx, length], each, fun command member => ?_⟩
  obtain ⟨other, held, same⟩ := exists_effective member
  obtain ⟨index, inside, found⟩ := List.mem_iff_getElem.mp held
  obtain ⟨result, written, -⟩ := each index (length ▸ inside)
  refine ⟨other, index, result, ?_, same, written⟩
  rw [executed, List.mk_mem_zipIdx_iff_getElem?, List.getElem?_eq_getElem inside, found]

theorem checkRun_results
    : ∃ other index result, (other, index) ∈ checkRun.executed ∧ other.line = "pnpm build"
        ∧ checkRun.results[index]? = some (some result) :=
  (results_of_tiers checkRun_run rfl rfl).2.2.2 (.tokens ["pnpm", "build"]) (by decide)

end Commands

end AiSdlc.Infrastructure
