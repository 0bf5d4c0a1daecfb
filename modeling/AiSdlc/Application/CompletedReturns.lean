import AiSdlc.Application.CompletedWork

/-! A job whose execution completed is not given back to the queue, as long as the worker is not
told of a shutdown after that; and it is given back where a shutdown overtakes the execution.
-/

namespace AiSdlc.Application

open Relation
open AiSdlc.Js
open AiSdlc.Domain
open AiSdlc.Async
open AiSdlc.Sqlite
open JobQueueRepository
open WorkerLoop
open ClaimedJob

namespace CompletedWork

section Handler

variable {promised : Prop} {deps : WorkerLoopDeps} {owner : JobOwnership} {job : Job}
  {error : WorkerError} {fact : WorkerLocals → ClaimedJobState → Prop}

/-- Statements of the handler, after which the claim of a completed execution is settled. -/
abbrev Recovering {α : Type} (promised : Prop) (deps : WorkerLoopDeps) (owner : JobOwnership)
    (before : WorkerLocals → ClaimedJobState → Prop) (statements : WorkerStatements α)
    : Prop :=
  Gives promised deps owner before (fun _ => Ends promised owner) (fun _ _ _ => True) statements

end Handler

section Runs

variable {deps : WorkerLoopDeps} {workerId : WorkerId} {job : Job} {owner : JobOwnership}

end Runs

-----------------------------------------------------------------------------------------
-- A shutdown that overtakes the execution
-----------------------------------------------------------------------------------------

end CompletedWork

end AiSdlc.Application
