import AiSdlc.Domain.CandidateApproval

/-! The tree that a batch holds for its candidate, against the captures of its run.
Promotion compares the source tree with it, so it should be the candidate's own tree.
-/

namespace AiSdlc.Domain

open AiSdlc.Js
open AiSdlc.Transition

/-- The latest operations of the run up to a capture of this commit with this tree captured
no other commit since.
-/
def CapturedTogether (ops : List BatchOp) (sha tree : String) : Prop :=
  ∃ later op earlier, ops = later ++ op :: earlier ∧ op.capture = some (sha, some tree)
    ∧ ∀ between ∈ later, ∀ other otherTree, between.capture = some (other, otherTree) →
      other = sha

/-- The tree of the batch was captured together with its current candidate. -/
def ReleaseBatch.OwnTree (batch : ReleaseBatch) (ops : List BatchOp) : Prop :=
  ∀ tree, batch.candidateTreeSha = some tree →
    ∃ sha, batch.candidateSha = some sha ∧ CapturedTogether ops sha tree

/-- The step captures a candidate with its tree, or leaves no tree of another one behind. -/
def CapturesOwnTree (batch : ReleaseBatch) : BatchOp → Prop
  | .transitionToAwaitingManualTest candidateSha candidateTreeSha _ =>
      candidateTreeSha ≠ none ∨ batch.candidateTreeSha = none
        ∨ batch.candidateSha = some candidateSha
  | _ => True

/-- The commit and tree of the latest capture of a run. -/
def lastCapture (ops : List BatchOp) : Option (String × Option String) :=
  ops.findSome? BatchOp.capture

/-- The latest capture is of a commit that was captured together with a tree and kept since,
by induction over the operations after that capture.
-/
theorem CapturedTogether.lastCapture {ops : List BatchOp} {sha tree : String}
    (together : CapturedTogether ops sha tree)
    : ∃ latest, Domain.lastCapture ops = some (sha, latest) := by
  obtain ⟨later, op, earlier, rfl, captured, since⟩ := together
  induction later with
  | nil => exact ⟨some tree, by simp [Domain.lastCapture, captured]⟩
  | cons last rest ih =>
      cases capture : last.capture with
      | none =>
          obtain ⟨latest, found⟩ := ih fun between member =>
            since between (List.mem_cons_of_mem _ member)
          exact ⟨latest, by simpa [Domain.lastCapture, capture] using found⟩
      | some pair =>
          have same := since last (by simp) pair.1 pair.2 capture
          exact ⟨pair.2, by simp [Domain.lastCapture, capture, ← same]⟩

/-- An operation that captures nothing, or the same commit, keeps a commit and a tree
captured together.
-/
theorem CapturedTogether.cons {ops : List BatchOp} {sha tree : String} {op : BatchOp}
    (together : CapturedTogether ops sha tree)
    (same : ∀ other otherTree, op.capture = some (other, otherTree) → other = sha)
    : CapturedTogether (op :: ops) sha tree := by
  obtain ⟨later, capture, earlier, rfl, captured, since⟩ := together
  refine ⟨op :: later, capture, earlier, rfl, captured, ?_⟩
  intro between member
  rcases List.mem_cons.mp member with rfl | member
  · exact same
  · exact since between member

/-- A step that captures its own tree keeps the batch with its candidate's own tree, by cases
on its candidate step.
-/
theorem CandidateStep.ownTree {op : BatchOp} {batch next : ReleaseBatch} {ops : List BatchOp}
    (step : CandidateStep batch op next) (own : CapturesOwnTree batch op)
    (held : batch.OwnTree ops)
    : next.OwnTree (op :: ops) := by
  intro tree present
  cases step with
  | kept quiet _ shas | advanced quiet _ _ _ shas =>
      obtain ⟨candidate, _, same⟩ := CandidateShas.mk.inj shas
      obtain ⟨sha, current, together⟩ := held tree (same ▸ present)
      exact ⟨sha, candidate ▸ current, together.cons (by simp [quiet.2])⟩
  | @captured captureSha captureTree _ _ _ _ shas =>
      obtain ⟨candidate, _, chosen⟩ := CandidateShas.mk.inj shas
      rw [chosen] at present
      cases captureTree with
      | some _ =>
          obtain rfl := Option.some.inj present
          exact ⟨captureSha, candidate, [], _, ops, rfl, rfl, by simp⟩
      | none =>
          obtain ⟨sha, current, together⟩ := held tree present
          have kept : batch.candidateSha = some captureSha := by
            simpa [CapturesOwnTree, show batch.candidateTreeSha = some tree from present]
              using own
          obtain rfl := Option.some.inj (current.symm.trans kept)
          exact ⟨sha, candidate, together.cons (by simp [BatchOp.capture])⟩
  | approved _ was _ shas =>
      obtain ⟨candidate, _, same⟩ := CandidateShas.mk.inj shas
      obtain ⟨sha, current, together⟩ := held tree (same ▸ present)
      exact ⟨sha, by rw [candidate, ← was, current], together.cons (by simp [BatchOp.capture])⟩
  | rejected _ _ _ shas =>
      obtain ⟨candidate, _, same⟩ := CandidateShas.mk.inj shas
      obtain ⟨sha, current, together⟩ := held tree (same ▸ present)
      exact ⟨sha, candidate ▸ current, together.cons (by simp [BatchOp.capture])⟩
  | remediated _ shas => simp [(CandidateShas.mk.inj shas).2.2] at present

/-- A capture of another candidate without a tree keeps the tree of the earlier one. -/
theorem not_ownTree_of_capture {batch next : ReleaseBatch} {ops : List BatchOp} {sha : String}
    {prNumber : Option Int}
    (applied : transitionToAwaitingManualTest batch sha none prNumber = .ok next)
    (held : batch.OwnTree ops) {tree : String} (left : batch.candidateTreeSha = some tree)
    (other : batch.candidateSha ≠ some sha)
    : ¬next.OwnTree (.transitionToAwaitingManualTest sha none prNumber :: ops) := by
  obtain ⟨_, _, _, _, rfl⟩ := transitionToAwaitingManualTest_eq_ok.mp applied
  intro own
  obtain ⟨_, candidate, later, capture, earlier, split, captured, since⟩ :=
    own tree (by simpa using left)
  obtain rfl := Option.some.inj candidate
  cases later with
  | nil =>
      obtain ⟨rfl, rfl⟩ := List.cons.inj split
      simp [BatchOp.capture] at captured
  | cons last rest =>
      -- The tree's capture is older, and the latest capture before it would be of both commits.
      obtain ⟨rfl, rfl⟩ := List.cons.inj split
      have together : CapturedTogether (rest ++ capture :: earlier) sha tree :=
        ⟨rest, capture, earlier, rfl, captured, fun between member =>
          since between (List.mem_cons_of_mem _ member)⟩
      obtain ⟨before, current, heldTogether⟩ := held tree left
      obtain ⟨_, latest⟩ := together.lastCapture
      obtain ⟨_, heldLatest⟩ := heldTogether.lastCapture
      have same := Option.some.inj (latest.symm.trans heldLatest)
      exact other (current.trans (congrArg some (Prod.mk.inj same).1.symm))

/-- A batch is created with default statuses and no candidate tree. -/
def CreateReleaseBatchInput.WithoutTree (input : CreateReleaseBatchInput) : Prop :=
  input.DefaultStatuses ∧ input.candidateTreeSha = none

/-- While every capture brings its tree, finds none or is of the same candidate, the batch
holds the tree of its own candidate, and it does after one more operation exactly when that
one captures so too.
-/
theorem ownTree_iff_capturesOwnTree {ops : List BatchOp} {batch : ReleaseBatch}
    (run : ((batchSystem CreateReleaseBatchInput.WithoutTree).restrict CapturesOwnTree).Run
      ops batch)
    : batch.OwnTree ops ∧ ∀ op next, op.apply batch = .ok next →
        (next.OwnTree (op :: ops) ↔ CapturesOwnTree batch op) := by
  have held : batch.OwnTree ops := by
    refine run.invariant (fun ops batch => batch.OwnTree ops) ?_ ?_
    · rintro batch ⟨input, ⟨_, without⟩, created⟩ tree present
      obtain ⟨_, _, _, _, _, _, rfl⟩ := createReleaseBatch_ok created
      simp [without] at present
    · rintro ops batch op next held ⟨own, applied⟩
      exact (BatchOp.candidate_step applied).ownTree own held
  refine ⟨held, fun op next applied => ⟨fun own => ?_, fun own => ?_⟩⟩
  · cases op with
    | transitionToAwaitingManualTest sha tree prNumber =>
        by_contra foreign
        simp only [CapturesOwnTree, not_or, not_not] at foreign
        obtain ⟨rfl, left, other⟩ := foreign
        obtain ⟨tree, left⟩ := Option.ne_none_iff_exists'.mp left
        exact not_ownTree_of_capture applied held left other own
    | _ => trivial
  · exact (BatchOp.candidate_step applied).ownTree own held

instance (batch : ReleaseBatch) (op : BatchOp) : Decidable (CapturesOwnTree batch op) :=
  match op with
  | .transitionToAwaitingManualTest candidateSha candidateTreeSha _ =>
      inferInstanceAs (Decidable (candidateTreeSha ≠ none ∨ batch.candidateTreeSha = none
        ∨ batch.candidateSha = some candidateSha))
  | .admitItem .. | .assignItemRun .. | .markItemWaitingMerge .. | .attachItemPr ..
  | .markItemMerged .. | .markItemBlocked .. | .markBatchBlocked .. | .unblockBatch
  | .unblockItem .. | .recordPromotionPr .. | .approveBatchCandidate ..
  | .rejectBatchCandidate .. | .appendRemediationItems .. | .attachPromotionPr ..
  | .recordPromotionCommit .. | .promoteBatch | .completeBatch .. | .cancelBatch .. =>
      .isTrue trivial

/-- A rejected candidate is captured again, as another commit with its tree. -/
def recaptureWithTree : List BatchOp :=
  mergeTwoIssues ++ [
    .transitionToAwaitingManualTest "a2" (some "t2") none,
    .rejectBatchCandidate (.text none),
    .transitionToAwaitingManualTest "a3" (some "t3") none
  ]

theorem ownTree_iff_capturesOwnTree_recapture
    : ∃ batch final, createReleaseBatch twoIssues = .ok batch
        ∧ applyWhile CapturesOwnTree batch recaptureWithTree = some final
        ∧ final.OwnTree (recaptureWithTree.reverse ++ []) := by
  obtain ⟨batch, final, created, applied⟩ : ∃ batch final,
      createReleaseBatch twoIssues = .ok batch
      ∧ applyWhile CapturesOwnTree batch recaptureWithTree = some final := ⟨_, _, rfl, rfl⟩
  have without : twoIssues.WithoutTree := by
    simp [CreateReleaseBatchInput.WithoutTree, CreateReleaseBatchInput.DefaultStatuses,
      CreateReleaseBatchInput.DefaultItemStatuses, twoIssues]
  have run := run_of_applyWhile (.start ⟨twoIssues, without, created⟩) applied
  exact ⟨batch, final, created, applied, (ownTree_iff_capturesOwnTree run).1⟩

/-- A rejected candidate is captured again, as another commit and without a tree. -/
def recaptureWithoutTree : List BatchOp :=
  mergeTwoIssues ++ [
    .transitionToAwaitingManualTest "a2" (some "t2") none,
    .rejectBatchCandidate (.text none),
    .transitionToAwaitingManualTest "a3" none none
  ]

/-- The second capture has no tree, and the batch keeps the tree of the first candidate. -/
theorem recapture_keeps_foreign_tree
    : ¬∀ ops batch, (batchSystem CreateReleaseBatchInput.DefaultStatuses).Run ops batch →
        batch.OwnTree ops := by
  intro own
  obtain ⟨batch, final, created, applied, candidate, tree⟩ : ∃ batch final,
      createReleaseBatch twoIssues = .ok batch
      ∧ applyWhile (fun _ _ => True) batch recaptureWithoutTree = some final
      ∧ final.candidateSha = some "a3" ∧ final.candidateTreeSha = some "t2" :=
    ⟨_, _, rfl, rfl, rfl, rfl⟩
  have default : twoIssues.DefaultStatuses := by
    simp [CreateReleaseBatchInput.DefaultStatuses, CreateReleaseBatchInput.DefaultItemStatuses,
      twoIssues]
  have run := (run_of_applyWhile (.start ⟨twoIssues, default, created⟩) applied).of_restrict
  obtain ⟨sha, current, together⟩ := own _ _ run "t2" tree
  obtain rfl := Option.some.inj (current.symm.trans candidate)
  obtain ⟨_, op, _, split, captured, _⟩ := together
  have member : op ∈ recaptureWithoutTree.reverse ++ [] := by rw [split]; simp
  simp only [recaptureWithoutTree, mergeTwoIssues, List.append_nil, List.mem_reverse,
    List.mem_append, List.mem_cons, List.not_mem_nil, or_false] at member
  rcases member with (rfl | rfl | rfl | rfl) | rfl | rfl | rfl <;>
    simp [BatchOp.capture] at captured

end AiSdlc.Domain
