import Mathlib.Algebra.GroupWithZero.Nat
import Mathlib.Data.List.Basic

/-! A bounded number of runners that work off the items of a list. Each takes the next index,
works on its item, and goes on to the next one, so the runners may be at any items at once.
-/

namespace AiSdlc.Async

inductive Runner
  | ready
  | working (index : Nat)
  | done
  | failed (index : Nat)
  deriving DecidableEq

/-- The item that a runner took and has no result for. -/
def Runner.held? : Runner → Option Nat
  | working index | failed index => some index
  | ready | done => none

/-- How many items a runner holds. -/
def Runner.load : Runner → Nat
  | working _ | failed _ => 1
  | ready | done => 0

/-- How many steps a runner can still take with what it has. -/
def Runner.steps : Runner → Nat
  | working _ => 2
  | ready => 1
  | done | failed _ => 0

structure RunnerPool (Result : Type) where
  runners : List Runner
  nextIndex : Nat
  results : List (Option Result)

inductive RunnerEvent (Result : Type)
  | take (runner : Nat)
  | settle (runner : Nat) (result : Result)
  | throw (runner : Nat)

section Pools

variable {Result : Type}

/-- So many runners that start on so many items. -/
def RunnerPool.of (count items : Nat) : RunnerPool Result :=
  {
    runners := .replicate count .ready
    nextIndex := 0
    results := .replicate items none
  }

/-- The index that a runner takes next, unless nothing is left. -/
def RunnerPool.upcoming (pool : RunnerPool Result) : Runner :=
  if pool.nextIndex < pool.results.length then .working pool.nextIndex else .done

def RunnerPool.step (pool : RunnerPool Result) : RunnerEvent Result → Option (RunnerPool Result)
  | .take runner =>
      if pool.runners[runner]? = some .ready then
        some {
          runners := pool.runners.set runner pool.upcoming
          nextIndex := pool.nextIndex + 1
          results := pool.results
        }
      else none
  | .settle runner result =>
      match pool.runners[runner]? with
      | some (.working index) =>
          some {
            pool with
            runners := pool.runners.set runner .ready
            results := pool.results.set index (some result)
          }
      | _ => none
  | .throw runner =>
      match pool.runners[runner]? with
      | some (.working index) =>
          some { pool with runners := pool.runners.set runner (.failed index) }
      | _ => none

/-- How many results an item has. -/
def filled : Option Result → Nat
  | some _ => 1
  | none => 0

/-- Whether some runner holds an item. -/
def RunnerPool.Holds (pool : RunnerPool Result) (runner index : Nat) : Prop :=
  pool.runners[runner]?.bind Runner.held? = some index

/-- Each item below the next index has a result, or is held by one runner. -/
structure RunnerPool.Accounts (pool : RunnerPool Result) : Prop where
  held : ∀ runner index, pool.Holds runner index
    → index < pool.nextIndex ∧ pool.results[index]? = some none
  apart : ∀ runner other index, pool.Holds runner index → pool.Holds other index → runner = other
  taken : ∀ index < pool.nextIndex, pool.results[index]? = some none
    → ∃ runner, pool.Holds runner index
  fresh : ∀ index result, pool.results[index]? = some (some result) → index < pool.nextIndex
  ended : .done ∈ pool.runners → pool.results.length ≤ pool.nextIndex

variable {pool next : RunnerPool Result} {runner other index : Nat} {result : Result}
  {event : RunnerEvent Result} {state : Runner}

/-- What one event does, with what it needs. -/
theorem RunnerPool.step_cases (taken : pool.step event = some next)
    : (∃ runner, event = .take runner ∧ pool.runners[runner]? = some .ready
        ∧ next = {
          runners := pool.runners.set runner pool.upcoming
          nextIndex := pool.nextIndex + 1
          results := pool.results
        })
      ∨ (∃ runner index result, event = .settle runner result
        ∧ pool.runners[runner]? = some (.working index)
        ∧ next = {
          pool with
          runners := pool.runners.set runner .ready
          results := pool.results.set index (some result)
        })
      ∨ ∃ runner index, event = .throw runner
        ∧ pool.runners[runner]? = some (.working index)
        ∧ next = { pool with runners := pool.runners.set runner (.failed index) } := by
  cases event with
  | take runner =>
      rw [step] at taken
      split at taken
      next ready =>
        cases taken
        exact .inl ⟨runner, rfl, ready, rfl⟩
      · cases taken
  | settle runner result =>
      rw [step] at taken
      split at taken
      next index working =>
        cases taken
        exact .inr (.inl ⟨runner, index, result, rfl, working, rfl⟩)
      · cases taken
  | throw runner =>
      rw [step] at taken
      split at taken
      next index working =>
        cases taken
        exact .inr (.inr ⟨runner, index, rfl, working, rfl⟩)
      · cases taken

theorem holds_set {results : List (Option Result)} {nextIndex : Nat}
    (present : pool.runners[runner]? = some state) {changed : Runner}
    : RunnerPool.Holds ⟨pool.runners.set runner changed, nextIndex, results⟩ other index
      ↔ if other = runner then changed.held? = some index else pool.Holds other index := by
  have inside : runner < pool.runners.length := (List.getElem?_eq_some_iff.mp present).1
  rw [RunnerPool.Holds, List.getElem?_set]
  by_cases same : other = runner
  · simp [same, inside]
  · rw [if_neg (Ne.symm same), if_neg same]
    rfl

theorem not_holds (present : pool.runners[runner]? = some state) (free : state.held? = none)
    : ¬pool.Holds runner index := by
  rw [RunnerPool.Holds, present, Option.bind_some, free]
  exact (Option.some_ne_none index).symm

theorem RunnerPool.accounts_of (count items : Nat)
    : (RunnerPool.of count items : RunnerPool Result).Accounts := by
  have free (runner index : Nat) : ¬(RunnerPool.of count items : RunnerPool Result).Holds
      runner index := by
    intro holds
    obtain ⟨state, present, held⟩ := Option.bind_eq_some_iff.mp holds
    rw [List.eq_of_mem_replicate (List.mem_of_getElem? present)] at held
    cases held
  constructor
  · exact fun runner index holds => absurd holds (free runner index)
  · exact fun runner _ index holds => absurd holds (free runner index)
  · exact fun index below => absurd below (Nat.not_lt_zero index)
  · intro index result found
    cases List.eq_of_mem_replicate (List.mem_of_getElem? found)
  · intro done
    cases List.eq_of_mem_replicate done

theorem upcoming_held : pool.upcoming.held? = some index
    ↔ index = pool.nextIndex ∧ pool.nextIndex < pool.results.length := by
  rw [RunnerPool.upcoming]
  split
  next left => simp [Runner.held?, left, eq_comm]
  next none => simp [Runner.held?, none]

theorem holds_working (present : pool.runners[runner]? = some (.working index))
    : pool.Holds runner index := by
  rw [RunnerPool.Holds, present]
  rfl

theorem done_of_mem_set {changed : Runner} (member : .done ∈ pool.runners.set runner changed)
    (busy : changed ≠ .done)
    : .done ∈ pool.runners :=
  (List.mem_or_eq_of_mem_set member).resolve_right busy.symm

/-- The runner that takes the next index is the only one at it. -/
theorem RunnerPool.Accounts.take (accounts : pool.Accounts)
    (ready : pool.runners[runner]? = some .ready)
    : RunnerPool.Accounts {
      runners := pool.runners.set runner pool.upcoming
      nextIndex := pool.nextIndex + 1
      results := pool.results
    } := by
  constructor
  · intro other index holds
    rw [holds_set ready] at holds
    split at holds
    · obtain ⟨rfl, left⟩ := upcoming_held.mp holds
      refine ⟨Nat.lt_succ_self _, ?_⟩
      cases found : pool.results[pool.nextIndex]? with
      | none => exact absurd (List.getElem?_eq_none_iff.mp found) (Nat.not_le_of_lt left)
      | some held =>
          cases held with
          | none => rfl
          | some result => exact absurd (accounts.fresh _ _ found) (Nat.lt_irrefl _)
    · obtain ⟨below, vacant⟩ := accounts.held other index holds
      exact ⟨Nat.lt_succ_of_lt below, vacant⟩
  · intro first second index holds also
    rw [holds_set ready] at holds also
    split at holds
    next same =>
      split at also
      next same' => exact same.trans same'.symm
      next =>
        obtain ⟨rfl, -⟩ := upcoming_held.mp holds
        exact absurd (accounts.held _ _ also).1 (Nat.lt_irrefl _)
    next =>
      split at also
      next =>
        obtain ⟨rfl, -⟩ := upcoming_held.mp also
        exact absurd (accounts.held _ _ holds).1 (Nat.lt_irrefl _)
      next => exact accounts.apart _ _ _ holds also
  · intro index below vacant
    by_cases earlier : index < pool.nextIndex
    · obtain ⟨other, holds⟩ := accounts.taken index earlier vacant
      have different : other ≠ runner := by
        rintro rfl
        exact not_holds ready rfl holds
      exact ⟨other, (holds_set ready).mpr (by rwa [if_neg different])⟩
    · obtain rfl : index = pool.nextIndex := by
        simp only at below
        omega
      have left := (List.getElem?_eq_some_iff.mp vacant).1
      refine ⟨runner, (holds_set ready).mpr ?_⟩
      rw [if_pos rfl]
      exact upcoming_held.mpr ⟨rfl, left⟩
  · exact fun index result found => Nat.lt_succ_of_lt (accounts.fresh index result found)
  · intro member
    rcases List.mem_or_eq_of_mem_set member with earlier | now
    · exact Nat.le_succ_of_le (accounts.ended earlier)
    · rw [RunnerPool.upcoming] at now
      split at now
      · cases now
      next none => exact Nat.le_succ_of_le (Nat.le_of_not_lt none)

/-- The runner that has a result lets go of its index. -/
theorem RunnerPool.Accounts.settle (accounts : pool.Accounts)
    (working : pool.runners[runner]? = some (.working index))
    : RunnerPool.Accounts {
      pool with
      runners := pool.runners.set runner .ready
      results := pool.results.set index (some result)
    } := by
  have own := holds_working working
  have kept {other : Nat} (different : other ≠ index)
      : (pool.results.set index (some result))[other]? = pool.results[other]? :=
    List.getElem?_set_ne different.symm
  have still {other position : Nat}
      (holds : RunnerPool.Holds
        ⟨pool.runners.set runner .ready, pool.nextIndex, pool.results.set index (some result)⟩
        other position)
      : other ≠ runner ∧ pool.Holds other position := by
    rw [holds_set working] at holds
    split at holds
    · cases holds
    next different => exact ⟨different, holds⟩
  constructor
  · intro other position holds
    obtain ⟨different, before⟩ := still holds
    obtain ⟨below, vacant⟩ := accounts.held other position before
    refine ⟨below, (kept fun same => ?_).trans vacant⟩
    exact different (accounts.apart _ _ _ (same ▸ before) own)
  · exact fun first second position holds also =>
      accounts.apart _ _ _ (still holds).2 (still also).2
  · intro position below vacant
    have different : position ≠ index := by
      rintro rfl
      have inside := (List.getElem?_eq_some_iff.mp (accounts.held _ _ own).2).1
      simp only [List.getElem?_set_self inside] at vacant
      cases vacant
    rw [kept different] at vacant
    obtain ⟨other, holds⟩ := accounts.taken position below vacant
    have elsewhere : other ≠ runner := by
      rintro rfl
      exact different (Option.some.inj (holds.symm.trans own))
    exact ⟨other, (holds_set working).mpr (by rwa [if_neg elsewhere])⟩
  · intro position found written
    by_cases same : position = index
    · rw [same]
      exact (accounts.held _ _ own).1
    · exact accounts.fresh position found ((kept same).symm.trans written)
  · intro member
    rw [List.length_set]
    exact accounts.ended (done_of_mem_set member (by simp))

theorem RunnerPool.Accounts.throw (accounts : pool.Accounts)
    (working : pool.runners[runner]? = some (.working index))
    : RunnerPool.Accounts { pool with runners := pool.runners.set runner (.failed index) } := by
  have same {other position : Nat}
      : RunnerPool.Holds
          ⟨pool.runners.set runner (.failed index), pool.nextIndex, pool.results⟩ other position
        ↔ pool.Holds other position := by
    rw [holds_set working]
    split
    next here =>
      subst here
      rw [RunnerPool.Holds, working]
      rfl
    · rfl
  constructor
  · exact fun other position holds => accounts.held other position (same.mp holds)
  · exact fun first second position holds also =>
      accounts.apart _ _ _ (same.mp holds) (same.mp also)
  · intro position below vacant
    obtain ⟨other, holds⟩ := accounts.taken position below vacant
    exact ⟨other, same.mpr holds⟩
  · exact accounts.fresh
  · exact fun member => accounts.ended (done_of_mem_set member (by simp))

theorem RunnerPool.Accounts.step (accounts : pool.Accounts) (taken : pool.step event = some next)
    : next.Accounts := by
  rcases RunnerPool.step_cases taken with
    ⟨runner, rfl, ready, rfl⟩ | ⟨runner, index, result, rfl, working, rfl⟩
    | ⟨runner, index, rfl, working, rfl⟩
  · exact accounts.take ready
  · exact accounts.settle working
  · exact accounts.throw working

theorem RunnerPool.Accounts.complete (accounts : pool.Accounts) (some_runner : pool.runners ≠ [])
    (done : ∀ runner ∈ pool.runners, runner = .done)
    : pool.results.length ≤ pool.nextIndex ∧ ∀ result ∈ pool.results, result.isSome = true := by
  obtain ⟨first, rest, runners⟩ := List.exists_cons_of_ne_nil some_runner
  have member : first ∈ pool.runners := runners ▸ List.mem_cons_self
  have all := accounts.ended (done first member ▸ member)
  refine ⟨all, fun result held => ?_⟩
  obtain ⟨index, inside, found⟩ := List.mem_iff_getElem.mp held
  cases result with
  | some result => rfl
  | none =>
      have vacant := List.getElem?_eq_some_iff.mpr ⟨inside, found⟩
      obtain ⟨runner, holds⟩ := accounts.taken index (Nat.lt_of_lt_of_le inside all) vacant
      obtain ⟨state, present, held⟩ := Option.bind_eq_some_iff.mp holds
      rw [done state (List.mem_of_getElem? present)] at held
      cases held

/-- A pool in which some runner is neither done nor failed can go on. -/
theorem RunnerPool.exists_step {state : Runner} (member : state ∈ pool.runners)
    (alive : 0 < state.steps) (result : Result)
    : ∃ event next, pool.step event = some next := by
  obtain ⟨runner, present⟩ := List.getElem?_of_mem member
  cases state with
  | ready => exact ⟨.take runner, _, if_pos present⟩
  | working index => exact ⟨.settle runner result, _, by rw [RunnerPool.step, present]⟩
  | done => cases alive
  | failed index => cases alive

theorem sum_map_set {α : Type} (weight : α → Nat) {values : List α} {position : Nat} {old : α}
    (present : values[position]? = some old) (changed : α)
    : ((values.set position changed).map weight).sum + weight old
      = (values.map weight).sum + weight changed := by
  induction values generalizing position with
  | nil => cases present
  | cons first rest ih =>
      cases position with
      | zero =>
          cases present
          simp only [List.set_cons_zero, List.map_cons, List.sum_cons]
          omega
      | succ position =>
          have later := ih present
          simp only [List.set_cons_succ, List.map_cons, List.sum_cons]
          omega

/-- The items below the next index are held, or have results. -/
def RunnerPool.Balanced (pool : RunnerPool Result) : Prop :=
  (pool.runners.map Runner.load).sum + (pool.results.map filled).sum
    = min pool.nextIndex pool.results.length

theorem RunnerPool.balanced_of (count items : Nat)
    : (RunnerPool.of count items : RunnerPool Result).Balanced := by
  simp [Balanced, RunnerPool.of, Runner.load, filled]

/-- Every event keeps the balance. -/
theorem RunnerPool.Balanced.step (balanced : pool.Balanced) (accounts : pool.Accounts)
    (taken : pool.step event = some next)
    : next.Balanced := by
  rw [Balanced] at balanced ⊢
  rcases RunnerPool.step_cases taken with
    ⟨runner, rfl, ready, rfl⟩ | ⟨runner, index, result, rfl, working, rfl⟩
    | ⟨runner, index, rfl, working, rfl⟩
  · have moved := sum_map_set Runner.load ready pool.upcoming
    by_cases left : pool.nextIndex < pool.results.length
    · have more : pool.upcoming.load = 1 := by
        rw [RunnerPool.upcoming, if_pos left]
        rfl
      rw [more] at moved
      simp only [Runner.load] at moved
      simp only
      omega
    · have none : pool.upcoming.load = 0 := by
        rw [RunnerPool.upcoming, if_neg left]
        rfl
      rw [none] at moved
      simp only [Runner.load] at moved
      simp only
      omega
  · have moved := sum_map_set Runner.load working .ready
    have written := sum_map_set filled (accounts.held _ _ (holds_working working)).2
      (some result)
    simp only [Runner.load] at moved
    simp only [filled] at written
    simp only [List.length_set]
    omega
  · have moved := sum_map_set Runner.load working (.failed index)
    simp only [Runner.load] at moved
    simp only
    omega

/-- The runners bound how many items are held. -/
theorem RunnerPool.Balanced.bound (balanced : pool.Balanced)
    : min pool.nextIndex pool.results.length
      ≤ (pool.results.map filled).sum + pool.runners.length := by
  have each (runner : Runner) : runner.load ≤ 1 := by
    cases runner <;> simp [Runner.load]
  have total : (pool.runners.map Runner.load).sum ≤ pool.runners.length := by
    induction pool.runners with
    | nil => exact Nat.le_refl 0
    | cons first rest ih =>
        have one := each first
        rw [List.map_cons, List.sum_cons, List.length_cons]
        omega
  rw [Balanced] at balanced
  omega

/-- How many events a pool has left at most. -/
def RunnerPool.measure (pool : RunnerPool Result) : Nat :=
  (pool.runners.map Runner.steps).sum + 2 * (pool.results.length - pool.nextIndex)

/-- Every event makes the measure smaller. -/
theorem RunnerPool.measure_step (taken : pool.step event = some next)
    : next.measure < pool.measure := by
  rcases RunnerPool.step_cases taken with
    ⟨runner, rfl, ready, rfl⟩ | ⟨runner, index, result, rfl, working, rfl⟩
    | ⟨runner, index, rfl, working, rfl⟩
  · have moved := sum_map_set Runner.steps ready pool.upcoming
    simp only [RunnerPool.measure]
    by_cases left : pool.nextIndex < pool.results.length
    · have more : pool.upcoming.steps = 2 := by
        rw [RunnerPool.upcoming, if_pos left]
        rfl
      rw [more] at moved
      simp only [Runner.steps] at moved
      omega
    · have none : pool.upcoming.steps = 0 := by
        rw [RunnerPool.upcoming, if_neg left]
        rfl
      rw [none] at moved
      simp only [Runner.steps] at moved
      omega
  · have moved := sum_map_set Runner.steps working .ready
    simp only [RunnerPool.measure, List.length_set]
    simp only [Runner.steps] at moved
    omega
  · have moved := sum_map_set Runner.steps working (.failed index)
    simp only [RunnerPool.measure]
    simp only [Runner.steps] at moved
    omega

end Pools

end AiSdlc.Async
