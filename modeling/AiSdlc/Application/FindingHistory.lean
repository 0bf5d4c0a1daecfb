import AiSdlc.Application.FindingLedger
import AiSdlc.Transition.Streak

/-! What a ledger tells about its past: entries are never lost or renamed, and the counter of an
entry is the number of reviews that have lately given the same verdict on it.
-/

namespace AiSdlc.Application

open AiSdlc.Transition

section Histories

variable (library : LedgerLibrary)

/-- The evaluations that a call applies to the entry of an id. -/
def LedgerCall.applied (ledger : FindingLedger) (id : String)
    : LedgerCall → List FollowUpFindingEvaluation
  | append _ _ => []
  | update evaluations _ _ _ =>
      if id ∈ ledger.entries.map (·.id) then (evaluationOf evaluations id).toList else []

end Histories

section Verdicts

variable (library : LedgerLibrary)

/-- What a reviewer asserts when a finding is not resolved. -/
def FollowUpFindingEvaluation.verdict (evaluation : FollowUpFindingEvaluation)
    : Option String :=
  if evaluation.resolved then none
  else some (normalizeEvidenceForStaleDetection library evaluation.evidence)

/-- What an entry remembers of its evaluations: the evidence that the last one asserted, and for
how many of them it did not change.
-/
structure Remembers (evaluations : List FollowUpFindingEvaluation) (entry : FindingLedgerEntry)
    : Prop where
  evidence : entry.lastUnresolvedEvidence
    = lastVerdict (FollowUpFindingEvaluation.verdict library) evaluations
  count : ∃ length : Nat, entry.staleRepeatCount.getD 0 = length
    ∧ Streak (FollowUpFindingEvaluation.verdict library) evaluations length

end Verdicts

section Calls

variable {library : LedgerLibrary} {ledger created : FindingLedger} {call : LedgerCall}
  {evaluations : List FollowUpFindingEvaluation}
  {entry : FindingLedgerEntry} {calls : List LedgerCall}

end Calls

section Runs

variable {library : LedgerLibrary} {created : FindingLedger} {calls : List LedgerCall}

end Runs

end AiSdlc.Application
