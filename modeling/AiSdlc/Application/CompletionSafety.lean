import AiSdlc.Application.PromotionEvidence

/-! Completion is safe: a call that completes the batch started from its approved candidate
and verified the promotion, whatever git and GitHub answer or throw.
-/

namespace AiSdlc.Application

open AiSdlc.Js
open AiSdlc.Domain
open AiSdlc.Async
open AiSdlc.Transition

variable {surroundings : Surroundings} {deps : ReleaseBatchCoordinatorDeps}
  {first : ReleaseBatch}

/-- The promotion table leaves nothing but a sound completion. -/
theorem keeps_soundPromotion {now : Date} (consistent : first.CandidateConsistent)
    : (reconcilePromotionReadiness deps now).Keeps surroundings.Answers (fun _ _ => True)
        (bothBatches (Uncompleted first)) (sound deps first) := by
  intro locals world uncompleted
  simp only [reconcilePromotionReadiness, Block.ensures_bind, ensures_currentBatch,
    ensures_call, Completion.andThen_normal, Completion.andThen_threw]
  have quiet {after : World} {reply : (Request.findRepository locals.batch.repoId).Reply}
      (answered : surroundings.Answers world (.findRepository locals.batch.repoId) reply after)
      : bothBatches (Uncompleted first) locals after := by
    have same : after.batch = world.batch := answered.batch_eq (by simp)
    exact ⟨uncompleted.1, same ▸ uncompleted.2⟩
  refine ⟨trivial, fun found after answered => ?_, fun _ _ answered =>
    sound_of_uncompleted (quiet answered)⟩
  have leaves (locals : Locals) (world : World) (holds : sound deps first locals world)
      : sound deps first locals world := holds
  split
  · rename_i repo prNumber number
    have checked : (Block.ifThen deps.github
          (swallow (checkPromotionPr deps repo prNumber now))).Triple surroundings.Answers
        (fun _ _ => True) (Promoting first (CheckedPr repo prNumber)) (sound deps first)
        (sound deps first) := by
      intro locals world promoting
      refine Block.ensures_ifThen.mpr ⟨fun _ => ensures_swallow.mpr ?_,
        fun _ => sound_of_uncompleted promoting.uncompleted⟩
      refine (triple_checkPromotionPr consistent locals world promoting).mono ?_
      intro completion locals world ended
      cases completion with
      | normal _ | returned _ | threw _ => exact ended
    have promoting : Promoting first (CheckedPr repo prNumber) locals after :=
      ⟨quiet answered, answered.answered, (nonzero_eq_some.mp number).1⟩
    refine (checked locals after promoting).mono ?_
    intro completion locals world ended
    cases completion with
    | normal _ | returned _ | threw _ => exact ended
  · exact sound_of_uncompleted (quiet answered)

/-- An approved candidate has all items merged, so that a pass works on it and on its promotion
only.
-/
theorem approved_found {world : World} {now : Date} (consistent : first.CandidateConsistent)
    (uncompleted : Uncompleted first world.batch)
    (approved : world.batch.approvedCandidateSha ≠ none)
    : (reconcileFound deps now).Ensures surroundings.Answers (fun _ _ => True)
        (fun _ _ after => CompletesSoundly deps first after)
        { batch := world.batch, actions := [] } world := by
  obtain ⟨shas, items⟩ := uncompleted.candidate.resolve_left approved
  obtain ⟨_, approvedSha, _⟩ := CandidateShas.mk.inj shas
  obtain ⟨sha, present⟩ := Option.ne_none_iff_exists'.mp approved
  have captured := consistent.approved sha (approvedSha ▸ present)
  have merged : world.batch.allMerged = true := by
    rw [ReleaseBatch.allMerged, items]
    exact consistent.merged (by simp [captured])
  have steps : StepInvariant surroundings.Answers (fun _ _ => True)
      (fun kind => kind = .batch ∨ kind = .capture) (bothBatches (Uncompleted first)) :=
    uncompleted_invariant.steps fun _ _ _ => trivial
  have ends (locals : Locals) (world : World)
      (holds : bothBatches (Uncompleted first) locals world)
      : sound deps first locals world :=
    sound_of_uncompleted holds
  have both : bothBatches (Uncompleted first) { batch := world.batch, actions := [] } world :=
    ⟨uncompleted, uncompleted⟩
  refine (ensures_reconcileFound steps ends both ?_ (fun _ => ?_) ?_).mono ?_
  · exact fun _ _ => tolerates_other (fun _ _ _ => trivial) (by simp)
  · exact keeps_reconcileMergedBatch steps ends (.inl rfl) (.inr rfl)
      (keeps_soundPromotion consistent)
  · intro currentItem unmerged
    have open_ := List.find?_some unmerged
    have all := List.all_eq_true.mp merged _ (List.mem_of_find?_eq_some unmerged)
    simp [all] at open_
  intro completion locals world ended
  cases completion with
  | normal _ => exact ends _ _ ended
  | returned _ | threw _ => exact ended

/-- A pass that starts from an uncompleted batch leaves it so or completes it soundly. The
approval decides: without one nothing completes the batch, and with one all items are merged,
so that only the candidate and the promotion are worked on.
-/
theorem completesSoundly_passes (consistent : first.CandidateConsistent)
    (batchId : ReleaseBatchId)
    : PassInvariant surroundings.Answers (fun _ _ => True) deps batchId
        (CompletesSoundly deps first) where
  clock := by
    intro world holds
    refine ⟨trivial, fun reply after answered => ?_⟩
    have same : after.batch = world.batch := answered.batch_eq (by simp)
    rcases holds with uncompleted | completed
    · exact .inl (same ▸ uncompleted)
    · exact .inr (completed.of_batch_eq same answered.log_subset)
  lookup := by
    intro world holds
    refine ⟨trivial, fun reply after answered => ?_⟩
    have same : after.batch = world.batch := answered.batch_eq (by simp)
    rcases holds with uncompleted | completed
    · exact .inl (same ▸ uncompleted)
    · exact .inr (completed.of_batch_eq same answered.log_subset)
  found := by
    intro world batch after now holds answered
    have same : after.batch = world.batch := answered.batch_eq (by simp)
    obtain rfl : batch = after.batch := by rw [same, answered.of_findBatch.2 batch rfl]
    rcases holds with uncompleted | completed
    · rw [← same] at uncompleted
      by_cases unapproved : after.batch.approvedCandidateSha = none
      · have kept : (reconcileFound deps now).Ensures surroundings.Answers (fun _ _ => True)
            (fun _ _ after => after.batch.status ≠ .completed
              ∧ after.batch.approvedCandidateSha = none)
            { batch := after.batch, actions := [] } after :=
          unapproved_invariant.found (fun _ _ _ => trivial) (fun _ other => other)
            ⟨uncompleted.status, unapproved⟩
        exact kept.mono fun _ _ _ ended => .inl ⟨ended.1, .inl ended.2⟩
      · exact approved_found consistent uncompleted unapproved
    · -- A completed batch is terminal, so the pass is over at once.
      have terminal : after.batch.status.isTerminal = true := by
        rw [same, completed.status]
        rfl
      have kept := completed.of_batch_eq same answered.log_subset
      have leaves : CompletesSoundly deps first after := .inr kept
      simpa [reconcileFound, terminal, Completion.andThen] using leaves

theorem candidateConsistent_invariant
    : BatchInvariant (fun _ => True) ReleaseBatch.CandidateConsistent where
  applied _ _ _ _ consistent applied :=
    (BatchOp.candidate_step applied).candidateConsistent consistent
  building _ consistent := ⟨consistent.merged, consistent.approved⟩
  promoting _ consistent := ⟨consistent.merged, consistent.approved⟩

/-- In every run of the system, a call of `reconcile` that completes the batch started with
all items merged and with an approval of the captured candidate. It completed that candidate,
after the promotion was reported merged and, where git is configured, the source was verified
in that call.
-/
theorem completes_verified_promotion {labels : List CoordinatorLabel} {world final : World}
    {batchId : ReleaseBatchId} {fuel : Nat} {outcome : ReconcileOutcome}
    (run : (coordinatorSystem deps surroundings fun _ => True).Run labels world)
    (execution : (reconcile deps batchId fuel).Exec surroundings.Answers
      { world with log := [] } outcome final)
    (running : world.batch.status ≠ .completed)
    (completed : final.batch.status = .completed)
    : world.batch.allMerged = true
      ∧ (∃ sha, sha ≠ "" ∧ world.batch.approvedCandidateSha = some sha
          ∧ world.batch.candidateSha = some sha)
      ∧ final.batch.candidateShas = world.batch.candidateShas
      ∧ PromotionVerified deps final.batch final.log := by
  have consistent : world.batch.CandidateConsistent :=
    candidateConsistent_invariant.of_run
      (fun _ _ _ created => candidateConsistent_of_created created) run
  have started : CompletesSoundly deps world.batch { world with log := [] } :=
    .inl ⟨running, .inr ⟨rfl, rfl⟩⟩
  have passes : PassInvariant surroundings.Answers (fun _ _ => True) deps batchId
      (CompletesSoundly deps world.batch) :=
    completesSoundly_passes consistent batchId
  rcases (passes.reconcile fuel started).of_exec execution with uncompleted | sound
  · exact (uncompleted.status completed).elim
  · exact ⟨sound.merged, ReleaseBatch.approvalMatches_iff.mp sound.approved, sound.shas,
      sound.verified⟩

/-- The two issues are merged, and their candidate `a2` is approved and promoting. -/
def promotingTwoIssues : CreateReleaseBatchInput :=
  { twoIssues with
    status := some .promoting
    candidateSha := some "a2"
    approvedCandidateSha := some "a2"
    candidateTreeSha := some "t2"
    promotionPrNumber := some 7
    items := [
      { position := 1, issueNumber := 101, status := some .merged },
      { position := 2, issueNumber := 102, status := some .merged }
    ] }

def releaseRepository : Repository :=
  { fullName := "team/app", localBasePath := "/repos/app" }

/-- The promotion is merged as `m9`, the head of the source branch. -/
def mergedPromotion : (request : Request) → Option request.Reply
  | .now => some (.ok .epoch)
  | .findRepository _ => some (.ok (some releaseRepository))
  | .fetch _ _ _ => some (.ok ())
  | .resolveRef _ ref => some (.ok (some (if ref = "origin/main" then "m9" else "a2")))
  | .isAncestor _ ancestor descendant =>
      some (.ok (ancestor = some "a2" && descendant = "m9"))
  | .getPrMergeReadiness _ _ => some (.ok
      { state := .merged, isMerged := true, ciStatus := .passed, mergeCommitSha := some "m9" })
  | .publish _ _ => some (.ok ())
  | _ => none

/-- The promoting batch is completed by its next call, which verified the promotion. -/
theorem completes_verified_promotion_twoIssues
    : ∃ batch outcome final, createReleaseBatch promotingTwoIssues = .ok batch
        ∧ (reconcile { git := true, github := true } "batch-1" 1).Exec
            (tableSurroundings mergedPromotion).Answers ⟨batch, [], [], []⟩ outcome final
        ∧ final.batch.status = .completed ∧ batch.allMerged = true
        ∧ PromotionVerified { git := true, github := true } final.batch final.log := by
  obtain ⟨batch, outcome, final, created, ran, running, completed⟩ : ∃ batch outcome final,
      createReleaseBatch promotingTwoIssues = .ok batch
      ∧ (reconcile { git := true, github := true } "batch-1" 1).run
          (World.handle mergedPromotion) ⟨batch, [], [], []⟩
        = some (outcome, final)
      ∧ batch.status ≠ .completed ∧ final.batch.status = .completed :=
    ⟨_, _, _, rfl, rfl, by decide, rfl⟩
  have execution := World.exec_of_handle ran
  have run : (coordinatorSystem { git := true, github := true }
      (tableSurroundings mergedPromotion) fun _ => True).Run [] ⟨batch, [], [], []⟩ :=
    .start ⟨promotingTwoIssues, trivial, created⟩
  have verified := completes_verified_promotion run execution running completed
  exact ⟨batch, outcome, final, created, execution, completed, verified.1, verified.2.2.2⟩

end AiSdlc.Application
