import AiSdlc.Application.ClaimReturns

/-! A job whose execution completed and that the worker gives back to the queue nevertheless: the
worker asks for the reason of an abort only after the execution has settled, and for a shutdown
it does not look at how it settled.
-/

namespace AiSdlc.Application

open Relation
open AiSdlc.Js
open AiSdlc.Domain
open AiSdlc.Async
open AiSdlc.Sqlite
open JobQueueRepository
open WorkerLoop
open ClaimedJob

namespace CompletedWork

/-- Once its execution has completed, the worker is told of a shutdown only when its claim does
not stand any more.
-/
def Timely (owner : JobOwnership)
    : (request : WorkerRequest) → request.Reply → ClaimedJobState → Prop
  | .getAbortReason, .ok (some .shutdown), next =>
      next.completed = true → ¬ClaimStands next.store owner
  | _, _, _ => True

/-- The surroundings of a worker that is told of shutdowns in time; where it is promised, the
stores fail as they should.
-/
def TimelyAnswers (promised : Prop) (deps : WorkerLoopDeps) (owner : JobOwnership)
    : Environment ClaimedJobState WorkerRequest WorkerRequest.Reply :=
  fun state request reply next =>
    Answers owner.workerId deps.repoId owner.claimToken state request reply next
    ∧ (promised → FailsAsStore request reply) ∧ Timely owner request reply next

/-- A job is given back only before its execution completed, or when its claim is lost. -/
def GivesBack (owner : JobOwnership) (state : ClaimedJobState) : WorkerRequest → Prop
  | .resetJobToQueued given | .releaseClaim given =>
      state.completed = true → given = owner ∧ ¬ClaimStands state.store owner
  | _ => True

section Steps

variable {promised : Prop} {deps : WorkerLoopDeps} {owner : JobOwnership}
  {state next : ClaimedJobState} {request : WorkerRequest} {reply : request.Reply}

theorem JobAnswers.requeued {queues : Bool} {outcome : JobChecked JobTable}
    {reply : Except WorkerError Unit} (answered : JobAnswers state queues outcome reply next)
    (kept : state.requeuedCompleted = false)
    (harmless : ∀ jobs, outcome = .ok jobs → (queues && state.completed) = false)
    : next.requeuedCompleted = false := by
  unfold JobAnswers at answered
  split at answered
  · obtain ⟨-, rfl⟩ := answered
    simp [kept, harmless _ rfl]
  · obtain ⟨-, rfl⟩ := answered
    exact kept
  · obtain ⟨-, rfl⟩ := answered
    exact kept

end Steps

-----------------------------------------------------------------------------------------
-- The statements, with what they know of the execution
-----------------------------------------------------------------------------------------

/-- Statements that give jobs back by the rule. -/
abbrev Gives {α : Type} (promised : Prop) (deps : WorkerLoopDeps) (owner : JobOwnership)
    (before : WorkerLocals → ClaimedJobState → Prop)
    (after : α → WorkerLocals → ClaimedJobState → Prop)
    (failing : WorkerError → WorkerLocals → ClaimedJobState → Prop)
    (statements : WorkerStatements α)
    : Prop :=
  Block.Settles (TimelyAnswers promised deps owner) (GivesBack owner) before after failing
    statements

/-- After a completed execution the claim does not stand. -/
def Over (owner : JobOwnership) (state : ClaimedJobState) : Prop :=
  state.completed = true → ¬ClaimStands state.store owner

/-- Statements that leave the claim of a completed execution settled, where the stores fail as
they should.
-/
abbrev Ends (promised : Prop) (owner : JobOwnership) (_ : WorkerLocals)
    (state : ClaimedJobState)
    : Prop :=
  promised → Over owner state

/-- After a completed execution, an error comes from settling the job. -/
def Thrown (owner : JobOwnership) (error : WorkerError) (locals : WorkerLocals)
    (state : ClaimedJobState)
    : Prop :=
  state.completed = true →
    locals.started = true
    ∧ ((∃ message, error = .error message)
      ∨ (∃ message, error = .jobOwnershipLost message) ∧ ¬ClaimStands state.store owner)

/-- What no exchange takes back, except for the execution. -/
def Keeps (deps : WorkerLoopDeps) (owner : JobOwnership)
    (fact : WorkerLocals → ClaimedJobState → Prop)
    : Prop :=
  ∀ locals state next, Follows deps owner state next → next.completed = state.completed →
    fact locals state → fact locals next

section Statements

variable {promised : Prop} {deps : WorkerLoopDeps} {owner : JobOwnership}
  {request : WorkerRequest} {fact : WorkerLocals → ClaimedJobState → Prop}

section Earlier

variable {started : WorkerLocals → Prop} {workerId : WorkerId} {job : Job}

end Earlier

section Settling

variable {started : WorkerLocals → Prop} {workerId : WorkerId} {job : Job}

end Settling

end Statements

end CompletedWork

end AiSdlc.Application
