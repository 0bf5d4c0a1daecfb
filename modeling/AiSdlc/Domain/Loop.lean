import AiSdlc.Domain.Job
import AiSdlc.Js.Checked
import AiSdlc.Transition.System

/-! Loops of a phase, whose iterations are numbered, and closed before the next one starts. A loop
that is over stays so unless an iteration was open when it was exhausted.
-/

namespace AiSdlc.Domain

open AiSdlc.Js
open AiSdlc.Transition

abbrev PhaseName := String

inductive LoopType
  | reviewFix
  | implementStep
  | validateFix
  | planReview
  deriving DecidableEq, Repr

inductive LoopStatus
  | running
  | converged
  | convergedWithNotes
  | exhausted
  | failed
  deriving DecidableEq, Repr

def LoopStatus.text : LoopStatus → String
  | running => "running"
  | converged => "converged"
  | convergedWithNotes => "converged_with_notes"
  | exhausted => "exhausted"
  | failed => "failed"

instance : ToString LoopStatus := ⟨LoopStatus.text⟩

inductive LoopIterationOutcome
  | resolved
  | fixed
  | unresolved
  | failed
  | fixFailed
  | revalidationFailed
  deriving DecidableEq, Repr

inductive LoopIterationKind
  | review
  | deterministicFix
  deriving DecidableEq, Repr

structure LoopIteration where
  index : Nat
  kind : Option LoopIterationKind := none
  reviewInvocationId : Option String := none
  qualityReviewInvocationId : Option String := none
  fixInvocationId : Option String := none
  revalidationId : Option String := none
  outcome : Option LoopIterationOutcome := none
  startedAt : Date
  completedAt : Option Date := none
  deriving DecidableEq, Repr

structure Loop where
  id : String
  runId : RunId
  phaseId : PhaseName
  type : LoopType
  maxIterations : Int
  iterations : List LoopIteration
  status : LoopStatus
  startedAt : Date
  completedAt : Option Date := none
  deriving DecidableEq, Repr

/-- The fractional limits, which `createLoop` rejects like those below one, are left out. -/
structure CreateLoopInput where
  id : String
  runId : RunId
  phaseId : PhaseName
  type : LoopType
  maxIterations : Int
  now : Date
  deriving DecidableEq, Repr

def createLoop (input : CreateLoopInput) : Except String Loop :=
  if input.maxIterations < 1 then
    .error s!"maxIterations must be a positive integer, got {input.maxIterations}"
  else
    .ok {
      id := input.id
      runId := input.runId
      phaseId := input.phaseId
      type := input.type
      maxIterations := input.maxIterations
      iterations := []
      status := .running
      startedAt := input.now
    }

def Loop.canIterate (loop : Loop) : Bool :=
  loop.status = .running ∧ loop.iterations.length < loop.maxIterations

def Loop.openIteration (loop : Loop) : Option LoopIteration :=
  loop.iterations.getLast?.filter fun last => last.completedAt.isNone

/-- What an iteration starts with; a missing kind is that of a review. -/
inductive StartIterationInput
  | review (reviewInvocationId : String) (now : Date)
  | deterministicFix (fixInvocationId : String) (now : Date)
  deriving DecidableEq, Repr

def StartIterationInput.iteration (index : Nat) : StartIterationInput → LoopIteration
  | .review reviewInvocationId now =>
      {
        index
        kind := some .review
        startedAt := now
        reviewInvocationId := some reviewInvocationId
      }
  | .deterministicFix fixInvocationId now =>
      {
        index
        kind := some .deterministicFix
        startedAt := now
        fixInvocationId := some fixInvocationId
      }

def startIteration (loop : Loop) (input : StartIterationInput) : Except String Loop :=
  if loop.status ≠ .running then
    .error s!"cannot start iteration: loop {loop.id} is {loop.status}"
  else if loop.openIteration.isSome then
    .error s!"cannot start iteration: loop {loop.id} has an open iteration"
  else if loop.maxIterations ≤ loop.iterations.length then
    let limit := s!"reached maxIterations ({loop.maxIterations})"
    .error s!"cannot start iteration: loop {loop.id} {limit}"
  else
    let iteration := input.iteration (loop.iterations.length + 1)
    .ok { loop with iterations := loop.iterations ++ [iteration] }

structure CompleteIterationInput where
  outcome : LoopIterationOutcome
  fixInvocationId : Option String := none
  revalidationId : Option String := none
  now : Date
  deriving DecidableEq, Repr

/-- The status of a loop after an iteration with an outcome. -/
def LoopIterationOutcome.status : LoopIterationOutcome → LoopStatus
  | .resolved => .converged
  | .failed => .failed
  | _ => .running

/-- `completeIteration`, which sets the status anew. -/
def completeIteration (loop : Loop) (input : CompleteIterationInput) : Except String Loop :=
  match loop.openIteration with
  | none => .error s!"cannot complete iteration: loop {loop.id} has no open iteration"
  | some opened =>
      let updated := {
        opened with
        outcome := some input.outcome
        completedAt := some input.now
        fixInvocationId := input.fixInvocationId.or opened.fixInvocationId
        revalidationId := input.revalidationId.or opened.revalidationId
      }
      let status := input.outcome.status
      .ok {
        loop with
        iterations := loop.iterations.dropLast ++ [updated]
        status
        completedAt := if status ≠ .running then some input.now else loop.completedAt
      }

def updateOpenIteration (loop : Loop) (qualityReviewInvocationId : String)
    : Except String Loop :=
  match loop.openIteration with
  | none => .error s!"cannot update: loop {loop.id} has no open iteration"
  | some opened =>
      let updated :=
        { opened with qualityReviewInvocationId := some qualityReviewInvocationId }
      .ok { loop with iterations := loop.iterations.dropLast ++ [updated] }

def exhaust (loop : Loop) (now : Date) : Except String Loop :=
  if loop.status ≠ .running then
    .error s!"cannot exhaust loop {loop.id}: already {loop.status}"
  else
    .ok { loop with status := .exhausted, completedAt := some now }

/-- An operation on a loop with its arguments. -/
inductive LoopOperation
  | startIteration (input : StartIterationInput)
  | updateOpenIteration (qualityReviewInvocationId : String)
  | completeIteration (input : CompleteIterationInput)
  | exhaust (now : Date)
  deriving DecidableEq, Repr

def LoopOperation.apply (loop : Loop) : LoopOperation → Except String Loop
  | .startIteration input => Domain.startIteration loop input
  | .updateOpenIteration qualityReviewInvocationId =>
      Domain.updateOpenIteration loop qualityReviewInvocationId
  | .completeIteration input => Domain.completeIteration loop input
  | .exhaust now => Domain.exhaust loop now

/-- A loop that `createLoop` makes. -/
def Loop.Created (loop : Loop) : Prop :=
  ∃ input, createLoop input = .ok loop

/-- The created loops, and the successful operations on them. -/
def loopSystem : System Loop LoopOperation :=
  System.ofChecked Loop.Created LoopOperation.apply

/-- The iterations are numbered up to the limit, only the last one is open, and a loop tells when
it ended just when it is over.
-/
structure Loop.WellFormed (loop : Loop) : Prop where
  numbered
    : ∀ position iteration, loop.iterations[position]? = some iteration →
      iteration.index = position + 1
  limited : loop.iterations.length ≤ loop.maxIterations
  closed : ∀ iteration ∈ loop.iterations.dropLast, iteration.completedAt.isSome
  ended : loop.completedAt.isSome ↔ loop.status ≠ .running

/-- No operation changes the status of a loop that is over. -/
def Loop.Absorbing (loop : Loop) : Prop :=
  ∀ operation next, LoopOperation.apply loop operation = .ok next → loop.status ≠ .running →
    next.status = loop.status

/-- No iteration of a loop that is over is completed. -/
def LoopOperation.Careful (loop : Loop) : LoopOperation → Prop
  | .completeIteration _ => loop.status = .running
  | _ => True

instance LoopOperation.decidableCareful (loop : Loop) (operation : LoopOperation)
    : Decidable (operation.Careful loop) := by
  cases operation <;> unfold LoopOperation.Careful <;> infer_instance

section Results

variable {loop next : Loop}

theorem createLoop_eq_ok {input : CreateLoopInput}
    : createLoop input = .ok loop
      ↔ 1 ≤ input.maxIterations
        ∧ loop = {
          id := input.id
          runId := input.runId
          phaseId := input.phaseId
          type := input.type
          maxIterations := input.maxIterations
          iterations := []
          status := .running
          startedAt := input.now
        } := by
  simp [createLoop, @eq_comm _ loop]

theorem openIteration_eq_some {opened : LoopIteration}
    : loop.openIteration = some opened
      ↔ ∃ earlier, loop.iterations = earlier ++ [opened] ∧ opened.completedAt = none := by
  simp [Loop.openIteration, Option.filter_eq_some_iff, List.getLast?_eq_some_iff]

theorem startIteration_eq_ok {input : StartIterationInput}
    : startIteration loop input = .ok next
      ↔ loop.status = .running ∧ loop.openIteration = none
        ∧ loop.iterations.length < loop.maxIterations
        ∧ next = {
          loop with
          iterations := loop.iterations ++ [input.iteration (loop.iterations.length + 1)]
        } := by
  simp [startIteration, @eq_comm _ next]

theorem completeIteration_eq_ok {input : CompleteIterationInput}
    : completeIteration loop input = .ok next
      ↔ ∃ opened, loop.openIteration = some opened
        ∧ next = {
          loop with
          iterations := loop.iterations.dropLast ++ [{
            opened with
            outcome := some input.outcome
            completedAt := some input.now
            fixInvocationId := input.fixInvocationId.or opened.fixInvocationId
            revalidationId := input.revalidationId.or opened.revalidationId
          }]
          status := input.outcome.status
          completedAt :=
            if input.outcome.status ≠ .running then some input.now else loop.completedAt
        } := by
  unfold completeIteration
  cases loop.openIteration with
  | none => simp
  | some opened => simp [@eq_comm _ next]

theorem updateOpenIteration_eq_ok {qualityReviewInvocationId : String}
    : updateOpenIteration loop qualityReviewInvocationId = .ok next
      ↔ ∃ opened, loop.openIteration = some opened
        ∧ next = {
          loop with
          iterations := loop.iterations.dropLast
            ++ [{ opened with qualityReviewInvocationId := some qualityReviewInvocationId }]
        } := by
  unfold updateOpenIteration
  cases loop.openIteration with
  | none => simp
  | some opened => simp [@eq_comm _ next]

theorem exhaust_eq_ok {now : Date}
    : exhaust loop now = .ok next
      ↔ loop.status = .running
        ∧ next = { loop with status := .exhausted, completedAt := some now } := by
  simp [exhaust, @eq_comm _ next]

end Results

section Invariants

variable {loop next : Loop} {operation : LoopOperation} {earlier : List LoopIteration}
  {opened updated : LoopIteration}

/-- An iteration is open only while the loop runs, or since it was exhausted. -/
def Loop.OpenUntilExhausted (loop : Loop) : Prop :=
  loop.openIteration.isSome → loop.status = .running ∨ loop.status = .exhausted

/-- The iterations stay numbered, and the earlier ones closed, when the last one is replaced. -/
theorem Loop.WellFormed.replaceLast (wellFormed : loop.WellFormed)
    (last : loop.iterations = earlier ++ [opened])
    (replaced : next.iterations = earlier ++ [updated]) (index : updated.index = opened.index)
    (limit : next.maxIterations = loop.maxIterations)
    (ended : next.completedAt.isSome ↔ next.status ≠ .running)
    : next.WellFormed where
  numbered := by
    intro position iteration listed
    rw [replaced] at listed
    by_cases within : position < earlier.length
    · rw [List.getElem?_append_left within] at listed
      apply wellFormed.numbered
      rwa [last, List.getElem?_append_left within]
    · rw [List.getElem?_append_right (by omega), List.getElem?_singleton] at listed
      have here : position - earlier.length = 0 := by
        by_contra later
        simp [later] at listed
      rw [if_pos here] at listed
      rw [← Option.some.inj listed, index]
      apply wellFormed.numbered
      rw [last, List.getElem?_append_right (by omega), here]
      rfl
  limited := by
    have limited := wellFormed.limited
    rw [last] at limited
    rw [replaced, limit]
    simpa using limited
  closed := by
    have closed := wellFormed.closed
    rw [last] at closed
    rw [replaced]
    simpa using closed
  ended := ended

/-- A new iteration is numbered after the closed ones. -/
theorem Loop.WellFormed.append (wellFormed : loop.WellFormed)
    (closed : loop.openIteration = none) (below : loop.iterations.length < loop.maxIterations)
    {iteration : LoopIteration} (index : iteration.index = loop.iterations.length + 1)
    : { loop with iterations := loop.iterations ++ [iteration] : Loop }.WellFormed where
  numbered := by
    intro position found listed
    by_cases within : position < loop.iterations.length
    · rw [List.getElem?_append_left within] at listed
      exact wellFormed.numbered position found listed
    · rw [List.getElem?_append_right (by omega), List.getElem?_singleton] at listed
      by_cases here : position - loop.iterations.length = 0
      · rw [if_pos here] at listed
        rw [← Option.some.inj listed, index]
        omega
      · simp [here] at listed
  limited := by
    rw [List.length_append, List.length_singleton]
    push_cast
    omega
  closed := by
    rw [List.dropLast_concat]
    intro found member
    rcases List.eq_nil_or_concat loop.iterations with empty | ⟨earlier, last, split⟩
    · rw [empty] at member
      exact nomatch member
    · rw [List.concat_eq_append] at split
      rw [split] at member
      rcases List.mem_append.mp member with before | here
      · apply wellFormed.closed
        rwa [split, List.dropLast_concat]
      · obtain rfl := List.mem_singleton.mp here
        by_contra unfinished
        have opened : loop.openIteration = some found :=
          openIteration_eq_some.mpr ⟨earlier, split, by simpa using unfinished⟩
        exact nomatch closed.symm.trans opened
  ended := wellFormed.ended

/-- A successful operation on a well-formed loop keeps it well formed and its end where it is just
when no iteration of a loop that is over is completed, by cases over the operations.
-/
theorem Loop.WellFormed.apply_iff (wellFormed : loop.WellFormed)
    (opens : loop.OpenUntilExhausted) (applied : operation.apply loop = .ok next)
    : next.WellFormed ∧ (loop.status ≠ .running → next.status = loop.status)
      ↔ operation.Careful loop := by
  cases operation with
  | startIteration input =>
      obtain ⟨running, closed, below, rfl⟩ := startIteration_eq_ok.mp applied
      refine iff_of_true ⟨wellFormed.append closed below ?_, fun _ => rfl⟩ trivial
      cases input <;> rfl
  | updateOpenIteration qualityReviewInvocationId =>
      obtain ⟨opened, found, rfl⟩ := updateOpenIteration_eq_ok.mp applied
      obtain ⟨earlier, last, -⟩ := openIteration_eq_some.mp found
      have before : loop.iterations.dropLast = earlier := by simp [last]
      refine iff_of_true ⟨?_, fun _ => rfl⟩ trivial
      exact wellFormed.replaceLast last (congrArg (· ++ [_]) before) rfl rfl wellFormed.ended
  | completeIteration input =>
      obtain ⟨opened, found, rfl⟩ := completeIteration_eq_ok.mp applied
      obtain ⟨earlier, last, -⟩ := openIteration_eq_some.mp found
      constructor
      · rintro ⟨-, kept⟩
        by_contra isOver
        rcases opens (by simp [found]) with running | exhausted
        · exact isOver running
        · have same : input.outcome.status = .exhausted := (kept isOver).trans exhausted
          cases outcome : input.outcome <;> simp [outcome, LoopIterationOutcome.status] at same
      · intro (running : loop.status = .running)
        have before : loop.iterations.dropLast = earlier := by simp [last]
        refine ⟨wellFormed.replaceLast last (congrArg (· ++ [_]) before) rfl rfl ?_, ?_⟩
        · by_cases ends : input.outcome.status = .running
          · simpa [ends, running] using wellFormed.ended
          · simp [ends]
        · exact fun isOver => absurd running isOver
  | exhaust now =>
      obtain ⟨running, rfl⟩ := exhaust_eq_ok.mp applied
      refine iff_of_true ⟨⟨wellFormed.numbered, wellFormed.limited, wellFormed.closed, ?_⟩, ?_⟩
        trivial
      · simp
      · exact fun isOver => absurd running isOver

theorem Loop.OpenUntilExhausted.apply (opens : loop.OpenUntilExhausted)
    (careful : operation.Careful loop) (applied : operation.apply loop = .ok next)
    : next.OpenUntilExhausted := by
  cases operation with
  | startIteration input =>
      obtain ⟨running, closed, below, rfl⟩ := startIteration_eq_ok.mp applied
      exact fun _ => .inl running
  | updateOpenIteration qualityReviewInvocationId =>
      obtain ⟨opened, found, rfl⟩ := updateOpenIteration_eq_ok.mp applied
      exact fun _ => opens (by simp [found])
  | completeIteration input =>
      obtain ⟨opened, found, rfl⟩ := completeIteration_eq_ok.mp applied
      intro open'
      simp [Loop.openIteration] at open'
  | exhaust now =>
      obtain ⟨running, rfl⟩ := exhaust_eq_ok.mp applied
      exact fun _ => .inr rfl

/-- The loops that careful operations reach are well formed, by the run invariant rule. -/
theorem wellFormed_of_loopRun {operations : List LoopOperation}
    (run
      : (loopSystem.restrict fun loop operation => operation.Careful loop).Run operations loop)
    : loop.WellFormed ∧ loop.OpenUntilExhausted := by
  refine run.invariant (fun _ loop => loop.WellFormed ∧ loop.OpenUntilExhausted) ?_ ?_
  · rintro _ ⟨input, created⟩
    obtain ⟨positive, rfl⟩ := createLoop_eq_ok.mp created
    refine ⟨⟨?_, ?_, ?_, ?_⟩, fun _ => .inl rfl⟩
    · simp
    · simp
      omega
    · simp
    · simp
  · rintro _ loop operation next ⟨wellFormed, opens⟩ ⟨careful, applied⟩
    exact ⟨((wellFormed.apply_iff opens applied).mpr careful).1, opens.apply careful applied⟩

end Invariants

/-- Along every run in which no iteration of a finished loop is completed the loop is well formed,
and the next operation keeps this and the status of a finished loop just when it does not
complete an iteration of one.
-/
theorem loop_wellFormed {operations : List LoopOperation} {loop : Loop}
    (run
      : (loopSystem.restrict fun loop operation => operation.Careful loop).Run operations loop)
    : loop.WellFormed
      ∧ ∀ (operation : LoopOperation) (next : Loop), operation.apply loop = .ok next →
          (next.WellFormed ∧ (loop.status ≠ .running → next.status = loop.status)
            ↔ operation.Careful loop) := by
  obtain ⟨wellFormed, opens⟩ := wellFormed_of_loopRun run
  exact ⟨wellFormed, fun operation next applied => wellFormed.apply_iff opens applied⟩

/-- A loop that has just been created. -/
def freshLoop : Loop :=
  {
    id := "loop"
    runId := "run"
    phaseId := "review-fix"
    type := .reviewFix
    maxIterations := 2
    iterations := []
    status := .running
    startedAt := Date.epoch
  }

theorem created_freshLoop : freshLoop.Created :=
  ⟨{
    id := "loop"
    runId := "run"
    phaseId := "review-fix"
    type := .reviewFix
    maxIterations := 2
    now := Date.epoch
  }, rfl⟩

/-- A loop that converged with its second iteration. -/
theorem loop_wellFormed_converged
    : ∃ loop, loop.status = .converged ∧ loop.iterations.map (·.index) = [1, 2]
        ∧ loop.WellFormed
        ∧ ∀ (operation : LoopOperation) (next : Loop), operation.apply loop = .ok next →
            (next.WellFormed ∧ (loop.status ≠ .running → next.status = loop.status)
              ↔ operation.Careful loop) := by
  have converges : (applyAll LoopOperation.apply (fun loop operation => operation.Careful loop)
      freshLoop
      [
        .completeIteration { outcome := .resolved, now := Date.epoch },
        .updateOpenIteration "quality",
        .startIteration (.deterministicFix "fix" Date.epoch),
        .completeIteration { outcome := .fixed, now := Date.epoch },
        .startIteration (.review "review" Date.epoch)
      ]).map (fun loop => (loop.status, loop.iterations.map (·.index)))
      = some (.converged, [1, 2]) := by
    decide
  obtain ⟨loop, applied, told⟩ := Option.map_eq_some_iff.mp converges
  obtain ⟨status, indices⟩ := Prod.mk.inj told
  exact ⟨loop, status, indices,
    loop_wellFormed (System.run_applyAll created_freshLoop applied)⟩

/-- Completing the iteration of an exhausted loop makes it run again, although it has ended. -/
theorem exhausted_loop_runs_again
    : ¬∀ (operations : List LoopOperation) (loop : Loop), loopSystem.Run operations loop →
        loop.WellFormed ∧ loop.Absorbing := by
  intro claim
  have again : (applyAll LoopOperation.apply (fun _ _ => True) freshLoop
      [
        .completeIteration { outcome := .fixed, now := Date.epoch }, .exhaust Date.epoch,
        .startIteration (.review "review" Date.epoch)
      ]).map (fun loop => (loop.status, loop.completedAt)) = some (.running, some Date.epoch) := by
    decide
  obtain ⟨loop, applied, told⟩ := Option.map_eq_some_iff.mp again
  obtain ⟨status, completedAt⟩ := Prod.mk.inj told
  have run : loopSystem.Run _ loop :=
    (System.run_applyAll created_freshLoop applied).of_restrict
  have ended : loop.completedAt.isSome = true := by simp [completedAt]
  exact absurd status ((claim _ loop run).1.ended.mp ended)

end AiSdlc.Domain
