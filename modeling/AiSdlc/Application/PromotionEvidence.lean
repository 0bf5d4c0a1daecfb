import AiSdlc.Application.CoordinatorSystem

/-! A batch is completed only from its approved candidate, with the evidence of its promotion
in the exchanges of the completing call.
-/

namespace AiSdlc.Application

open AiSdlc.Js
open AiSdlc.Domain
open AiSdlc.Async
open AiSdlc.Transition

/-- The request was answered so. -/
def Answered (log : List Exchange) (request : Request) (answer : request.Answer) : Prop :=
  (⟨request, .ok answer⟩ : Exchange) ∈ log

/-- The promotion pull request was reported merged. -/
def PromotionMerged (batch : ReleaseBatch) (repo : Repository) (log : List Exchange) : Prop :=
  ∃ prNumber readiness, batch.promotionPrNumber = some prNumber
    ∧ Answered log (.getPrMergeReadiness repo.fullName prNumber) readiness
    ∧ readiness.merged = true

/-- The source head was resolved, and it contains the approved candidate or has its tree. -/
def SourceVerified (batch : ReleaseBatch) (repo : Repository) (log : List Exchange) : Prop :=
  ∃ sourceSha,
    Answered log (.resolveRef repo.localBasePath s!"origin/{batch.sourceBranch}")
      (some sourceSha)
    ∧ (Answered log (.isAncestor repo.localBasePath batch.approvedCandidateSha sourceSha) true
      ∨ ∃ tree, batch.candidateTreeSha = some tree
        ∧ Answered log (.treeSha repo.localBasePath sourceSha) (some tree))

/-- What a completion rests on: the merged promotion and, when git is configured, the
verified source.
-/
def PromotionVerified (deps : ReleaseBatchCoordinatorDeps) (batch : ReleaseBatch)
    (log : List Exchange)
    : Prop :=
  ∃ repo, Answered log (.findRepository batch.repoId) (some repo)
    ∧ PromotionMerged batch repo log
    ∧ (deps.git = true → SourceVerified batch repo log)

variable {surroundings : Surroundings} {deps : ReleaseBatchCoordinatorDeps}
  {batch : ReleaseBatch} {repo : Repository} {log more : List Exchange}

theorem PromotionMerged.mono (merged : PromotionMerged batch repo log) (grows : log ⊆ more)
    : PromotionMerged batch repo more := by
  obtain ⟨prNumber, readiness, number, answered, isMerged⟩ := merged
  exact ⟨prNumber, readiness, number, grows answered, isMerged⟩

/-- Evidence stays evidence when more is exchanged. -/
theorem PromotionVerified.mono (verified : PromotionVerified deps batch log)
    (grows : log ⊆ more)
    : PromotionVerified deps batch more := by
  obtain ⟨repo, found, merged, source⟩ := verified
  refine ⟨repo, grows found, merged.mono grows, fun git => ?_⟩
  obtain ⟨sourceSha, resolved, contained⟩ := source git
  refine ⟨sourceSha, grows resolved, ?_⟩
  obtain ancestor | ⟨tree, candidate, same⟩ := contained
  · exact .inl (grows ancestor)
  · exact .inr ⟨tree, candidate, grows same⟩

/-- A batch in a call that started from `first`: not completed, and either unapproved or
still with the candidate and the items of the start.
-/
structure Uncompleted (first batch : ReleaseBatch) : Prop where
  status : batch.status ≠ .completed
  candidate : batch.approvedCandidateSha = none
    ∨ batch.candidateShas = first.candidateShas ∧ batch.items = first.items

/-- The stored batch was completed from the approved candidate of `first`. -/
structure CompletedFrom (deps : ReleaseBatchCoordinatorDeps) (first : ReleaseBatch)
    (world : World)
    : Prop where
  status : world.batch.status = .completed
  shas : world.batch.candidateShas = first.candidateShas
  merged : first.allMerged = true
  approved : first.approvalMatches = true
  verified : PromotionVerified deps world.batch world.log

/-- What holds of the world in a call that started from `first`. -/
def CompletesSoundly (deps : ReleaseBatchCoordinatorDeps) (first : ReleaseBatch)
    (world : World)
    : Prop :=
  Uncompleted first world.batch ∨ CompletedFrom deps first world

variable {first : ReleaseBatch}

/-- The operations on the batch and on its candidate leave it uncompleted. -/
theorem uncompleted_invariant
    : BatchInvariant (fun kind => kind = .batch ∨ kind = .capture) (Uncompleted first) where
  applied := by
    intro op kind batch next holds applied
    obtain ⟨running, candidate⟩ := holds
    cases op with
    | markBatchBlocked reason =>
        obtain ⟨_, rfl⟩ := markBatchBlocked_eq_ok.mp applied
        exact ⟨by simp, candidate⟩
    | recordPromotionPr prNumber =>
        obtain ⟨_, _, rfl⟩ := recordPromotionPr_eq_ok.mp applied
        exact ⟨running, candidate⟩
    | recordPromotionCommit sha =>
        obtain ⟨_, _, rfl⟩ := recordPromotionCommit_eq_ok.mp applied
        exact ⟨running, candidate⟩
    | transitionToAwaitingManualTest sha tree prNumber =>
        obtain ⟨_, _, _, _, rfl⟩ := transitionToAwaitingManualTest_eq_ok.mp applied
        exact ⟨by simp, .inl rfl⟩
    | _ => simp [stepKind] at kind
  building _ holds := ⟨by simp, holds.candidate⟩
  promoting _ holds := ⟨by simp, holds.candidate⟩

/-- Of the coordinator's operations only a completion completes the batch. -/
theorem status_ne_completed {op : BatchOp} {batch next : ReleaseBatch}
    (coordinated : stepKind op ≠ .other) (completes : stepKind op ≠ .completion)
    (applied : op.apply batch = .ok next) (running : batch.status ≠ .completed)
    : next.status ≠ .completed := by
  cases op with
  | admitItem position input clock =>
      obtain ⟨_, index, item, _, _, _, _, _, rfl⟩ := admitItem_eq_ok.mp applied
      by_cases waiting : batch.status = .queued ∨ batch.status = .blocked
      · simp [waiting]
      · simpa [waiting] using running
  | markItemWaitingMerge position prNumber =>
      obtain ⟨_, _, index, item, _, _, ⟨_, _, rfl⟩ | ⟨_, rfl⟩⟩ :=
        markItemWaitingMerge_eq_ok.mp applied <;> exact running
  | attachItemPr position prNumber =>
      obtain ⟨_, _, index, item, _, ⟨_, rfl⟩ | ⟨_, rfl⟩⟩ := attachItemPr_eq_ok.mp applied
        <;> exact running
  | markItemMerged position mergedCommitSha now clock =>
      obtain ⟨_, _, index, item, _, _, rfl⟩ := markItemMerged_eq_ok.mp applied
      exact running
  | markItemBlocked position reason =>
      obtain ⟨_, index, item, _, _, rfl⟩ := markItemBlocked_eq_ok.mp applied
      simp
  | unblockItem position =>
      obtain ⟨_, index, item, items, _, _, ⟨_, rfl⟩ | ⟨_, rfl⟩⟩ :=
        unblockItem_eq_ok.mp applied
      · exact running
      · cases resumed : batch.resumesWith items with
        | true => simp
        | false => simpa using running
  | markBatchBlocked reason =>
      obtain ⟨_, rfl⟩ := markBatchBlocked_eq_ok.mp applied
      simp
  | recordPromotionPr prNumber =>
      obtain ⟨_, _, rfl⟩ := recordPromotionPr_eq_ok.mp applied
      exact running
  | recordPromotionCommit sha =>
      obtain ⟨_, _, rfl⟩ := recordPromotionCommit_eq_ok.mp applied
      exact running
  | transitionToAwaitingManualTest sha tree prNumber =>
      obtain ⟨_, _, _, _, rfl⟩ := transitionToAwaitingManualTest_eq_ok.mp applied
      simp
  | completeBatch now clock => simp [stepKind] at completes
  | _ => simp [stepKind] at coordinated

/-- Without an approval every operation of the coordinator leaves the batch uncompleted. -/
theorem unapproved_invariant
    : BatchInvariant (fun kind => kind ≠ .other)
        (fun batch => batch.status ≠ .completed ∧ batch.approvedCandidateSha = none) where
  applied := by
    intro op kind batch next holds applied
    obtain ⟨running, unapproved⟩ := holds
    have approval : next.approvedCandidateSha = none := by
      cases BatchOp.candidate_step applied with
      | kept _ _ shas _ | advanced _ _ _ _ shas =>
          exact (CandidateShas.mk.inj shas).2.1.trans unapproved
      | captured _ _ shas _ => exact (CandidateShas.mk.inj shas).2.1
      | approved | rejected | remediated => simp [stepKind] at kind
    refine ⟨?_, approval⟩
    by_cases completes : stepKind op = .completion
    · cases op with
      | completeBatch now clock =>
          obtain ⟨_, matches_, _⟩ := completeBatch_eq_ok.mp applied
          simp [ReleaseBatch.approvalMatches, unapproved] at matches_
      | _ => simp [stepKind] at completes
    · exact status_ne_completed kind completes applied running
  building _ holds := ⟨by simp, holds.2⟩
  promoting _ holds := ⟨by simp, holds.2⟩

/-- What a call that started from `first` may leave behind, whatever its local batch. -/
def sound (deps : ReleaseBatchCoordinatorDeps) (first : ReleaseBatch) (_ : Locals)
    (world : World)
    : Prop :=
  CompletesSoundly deps first world

theorem sound_of_uncompleted {locals : Locals} {world : World}
    (holds : bothBatches (Uncompleted first) locals world)
    : sound deps first locals world :=
  .inl holds.2

/-- A completed batch stays so while nothing is stored but itself. -/
theorem CompletedFrom.of_batch_eq {world after : World}
    (completed : CompletedFrom deps first world) (same : after.batch = world.batch)
    (grows : world.log ⊆ after.log)
    : CompletedFrom deps first after := by
  obtain ⟨status, shas, merged, approved, verified⟩ := completed
  exact ⟨same ▸ status, same ▸ shas, merged, approved, same ▸ verified.mono grows⟩

/-- The completed batch is the local one, and no operation follows. -/
theorem completed_steps
    : StepInvariant surroundings.Answers (fun _ _ => True) (fun _ => False)
        (fun locals world => CompletedFrom deps first world ∧ locals.batch = world.batch) where
  quiet := by
    intro request quiet locals world holds
    refine ⟨trivial, fun reply after answered => ?_⟩
    have same : after.batch = world.batch := by rw [answered.of_quiet quiet, World.record_batch]
    exact ⟨holds.1.of_batch_eq same answered.log_subset, holds.2.trans same.symm⟩
  pushed _ _ _ holds := holds
  applied _ kind := kind.elim
  building kind := kind.elim
  promoting kind := kind.elim
  updated := by
    intro locals world batch _ holds
    have same (reply : (Request.updateBatch batch).Reply) (after : World)
        (answered : surroundings.Answers world (.updateBatch batch) reply after)
        : after.batch = world.batch := by
      rcases answered.batch_of_update with stored | kept
      · exact stored.trans holds.2
      · exact kept
    refine ⟨trivial, fun after answered => ?_, fun error after answered => ?_⟩
    · have completed := holds.1.of_batch_eq (same _ _ answered) answered.log_subset
      exact ⟨completed, holds.2.trans (same _ _ answered).symm⟩
    · have completed := holds.1.of_batch_eq (same _ _ answered) answered.log_subset
      rename_i kept
      exact ⟨⟨completed, kept.2.trans (same _ _ answered).symm⟩,
        completed, holds.2.trans (same _ _ answered).symm⟩

/-- A promotion in a call that started from `first`: neither the local nor the stored batch
is completed, and there is some evidence for the local one.
-/
structure Promoting (first : ReleaseBatch) (evidence : ReleaseBatch → List Exchange → Prop)
    (locals : Locals) (world : World)
    : Prop where
  uncompleted : bothBatches (Uncompleted first) locals world
  evidence : evidence locals.batch world.log

theorem Promoting.quiet {evidence : ReleaseBatch → List Exchange → Prop} {locals : Locals}
    {world after : World} {request : Request} {reply : request.Reply}
    (promoting : Promoting first evidence locals world)
    (answered : surroundings.Answers world request reply after)
    (quiet : request.isQuiet = true)
    (mono : ∀ batch log more, evidence batch log → log ⊆ more → evidence batch more)
    : Promoting first evidence locals after := by
  have same : after.batch = world.batch := by rw [answered.of_quiet quiet, World.record_batch]
  refine ⟨⟨promoting.uncompleted.1, ?_⟩, mono _ _ _ promoting.evidence answered.log_subset⟩
  exact same ▸ promoting.uncompleted.2

theorem completedFrom_of_completeBatch {locals : Locals} {world : World} {now : Date}
    {next : ReleaseBatch} (consistent : first.CandidateConsistent)
    (promoting : Promoting first (PromotionVerified deps) locals world)
    (applied : completeBatch locals.batch (some now) now = .ok next)
    : CompletedFrom deps first { world with batch := next } := by
  obtain ⟨_, matches_, rfl⟩ := completeBatch_eq_ok.mp applied
  obtain ⟨⟨⟨_, candidate⟩, _⟩, verified⟩ := promoting
  rcases candidate with unapproved | ⟨shas, items⟩
  · simp [ReleaseBatch.approvalMatches, unapproved] at matches_
  obtain ⟨candidateSha, approvedSha, _⟩ := CandidateShas.mk.inj shas
  have approved : first.approvalMatches = true := by
    rw [← matches_, ReleaseBatch.approvalMatches, ReleaseBatch.approvalMatches, candidateSha,
      approvedSha]
  refine ⟨rfl, shas, ?_, approved, verified⟩
  obtain ⟨sha, _, _, captured⟩ := ReleaseBatch.approvalMatches_iff.mp approved
  exact consistent.merged (by simp [captured])

theorem triple_announceCompletion {promoSha : Option String} {now : Date}
    : (announceCompletion deps promoSha now).Triple surroundings.Answers (fun _ _ => True)
        (fun locals world => CompletedFrom deps first world ∧ locals.batch = world.batch)
        (sound deps first) (sound deps first) := by
  have kept : (announceCompletion deps promoSha now).Keeps surroundings.Answers
      (fun _ _ => True)
      (fun locals world => CompletedFrom deps first world ∧ locals.batch = world.batch)
      (sound deps first) :=
    keeps_announceCompletion completed_steps fun _ _ holds => .inr holds.1
  exact kept.mono (fun _ _ holds => holds) (fun _ _ holds => .inr holds.1) fun _ _ holds => holds

/-- With the evidence at hand the completion is sound, whether or not it can be stored. -/
theorem triple_completePromotion {promoSha : Option String} {now : Date}
    (consistent : first.CandidateConsistent)
    : (completePromotion deps promoSha now).Triple surroundings.Answers (fun _ _ => True)
        (Promoting first (PromotionVerified deps)) (sound deps first) (sound deps first) := by
  have ends (locals : Locals) (world : World)
      (promoting : Promoting first (PromotionVerified deps) locals world)
      : sound deps first locals world :=
    sound_of_uncompleted promoting.uncompleted
  have recorded : (recordKnownCommit promoSha).Keeps surroundings.Answers (fun _ _ => True)
      (Promoting first (PromotionVerified deps)) (sound deps first) := by
    unfold recordKnownCommit
    split
    · intro locals world promoting
      refine ensures_applyOp.mpr ⟨fun next applied => ?_, fun _ _ => ends _ _ promoting⟩
      have kept := uncompleted_invariant.applied _ (.inl rfl) _ _ promoting.uncompleted.1 applied
      obtain ⟨_, _, rfl⟩ := recordPromotionCommit_eq_ok.mp applied
      exact ⟨⟨kept, promoting.uncompleted.2⟩, promoting.evidence⟩
    · exact Block.keeps_pure
  refine Block.triple_bind recorded fun _ => ?_
  refine Block.triple_bind keeps_currentBatch fun _ => ?_
  refine Block.triple_bind (Block.keeps_ifThen fun _ => Block.keeps_assign ?_) fun _ => ?_
  · intro locals world promoting
    obtain ⟨⟨local_, stored⟩, evidence⟩ := promoting
    exact ⟨⟨uncompleted_invariant.promoting _ local_, stored⟩, evidence⟩
  intro locals world promoting
  refine Block.ensures_bind.mpr (ensures_applyOp.mpr
    ⟨fun next applied => ?_, fun _ _ => ends _ _ promoting⟩)
  have completed := completedFrom_of_completeBatch consistent promoting applied
  rw [Completion.andThen_normal, Block.ensures_bind, ensures_updateBatch]
  refine ⟨trivial, fun after answered => ?_, fun error after answered => ?_⟩
  · have stored := answered.of_updateBatch.2
    refine triple_announceCompletion _ _ ⟨?_, by rw [stored, World.record_batch]⟩
    rw [stored]
    exact completed.of_batch_eq rfl (List.subset_cons_self _ _)
  · refine .inl ?_
    rw [answered.of_error, World.record_batch]
    exact promoting.uncompleted.2

/-- What the promotion rests on before the source is verified. -/
structure MergedEvidence (repo : Repository) (batch : ReleaseBatch) (log : List Exchange)
    : Prop where
  found : Answered log (.findRepository batch.repoId) (some repo)
  merged : PromotionMerged batch repo log

theorem MergedEvidence.mono (evidence : MergedEvidence repo batch log) (grows : log ⊆ more)
    : MergedEvidence repo batch more :=
  ⟨grows evidence.found, evidence.merged.mono grows⟩

/-- The last exchange is on record. -/
theorem Surroundings.Answers.answered {world after : World} {request : Request}
    {answer : request.Answer}
    (replied : surroundings.Answers world request (.ok answer) after)
    : Answered after.log request answer := by
  rw [Answered, replied.log_eq]
  exact List.mem_cons_self

theorem leaves_uncompleted {reason : String} {type : ReleaseBatchNotificationType}
    : (do
        blockBatchAndNotify deps reason type
        updateBatch
        push [.blocked]
        leave : Statements Unit).Leaves surroundings.Answers (fun _ _ => True)
        (bothBatches (Uncompleted first)) (sound deps first) :=
  leaves_blocked (uncompleted_invariant.steps fun _ _ _ => trivial)
    (fun _ _ holds => sound_of_uncompleted holds) (.inl rfl)

/-- The source check adds what the promotion lacks to be verified. -/
theorem Promoting.verified {locals : Locals} {world : World}
    (promoting : Promoting first (MergedEvidence repo) locals world)
    (source : deps.git = true → SourceVerified locals.batch repo world.log)
    : Promoting first (PromotionVerified deps) locals world :=
  ⟨promoting.uncompleted, repo, promoting.evidence.found, promoting.evidence.merged, source⟩

/-- The source is verified or the batch is left uncompleted. -/
theorem triple_verifyPromotedSource {promoSha : Option String}
    : (verifyPromotedSource deps repo promoSha).Triple surroundings.Answers (fun _ _ => True)
        (Promoting first (MergedEvidence repo)) (Promoting first (PromotionVerified deps))
        (sound deps first) := by
  have ends (locals : Locals) (world : World)
      (promoting : Promoting first (MergedEvidence repo) locals world)
      : sound deps first locals world :=
    sound_of_uncompleted promoting.uncompleted
  have quiet {locals : Locals} {world after : World} {request : Request}
      {reply : request.Reply} (promoting : Promoting first (MergedEvidence repo) locals world)
      (answered : surroundings.Answers world request reply after)
      (isQuiet : request.isQuiet = true)
      : Promoting first (MergedEvidence repo) locals after :=
    promoting.quiet answered isQuiet fun _ _ _ => MergedEvidence.mono
  have mismatch : (blockOnTreeMismatch deps).Leaves surroundings.Answers (fun _ _ => True)
      (bothBatches (Uncompleted first)) (sound deps first) :=
    leaves_uncompleted
  intro locals world promoting
  unfold verifyPromotedSource
  refine Block.ensures_ite.mpr ⟨fun git => ?_, fun noGit => ?_⟩
  · simp only [fetchHead, Block.ensures_bind, ensures_currentBatch, ensures_call,
      Completion.andThen_normal, Completion.andThen_threw]
    refine ⟨trivial, fun _ fetched answered => ?_, fun _ _ answered =>
      ends _ _ (quiet promoting answered rfl)⟩
    have promoting := quiet promoting answered rfl
    refine ⟨trivial, fun sourceSha resolved answered => ?_, fun _ _ answered =>
      ends _ _ (quiet promoting answered rfl)⟩
    have promoting := quiet promoting answered rfl
    have onRecord := answered.answered
    cases head : truthy sourceSha with
    | none => exact ends _ _ promoting
    | some sourceSha =>
        obtain ⟨rfl, _⟩ := truthy_eq_some.mp head
        simp only [Block.ensures_bind, ensures_call, Completion.andThen_normal,
          Completion.andThen_threw, Block.ensures_ifThen, Block.ensures_pure]
        refine ⟨trivial, fun isAncestor contained answered => ⟨fun foreign => ?_, fun own => ?_⟩,
          fun _ _ answered => ends _ _ (quiet promoting answered rfl)⟩
        · have promoting := quiet promoting answered rfl
          have resolved := answered.log_subset onRecord
          cases tree : truthy locals.batch.candidateTreeSha with
          | none =>
              exact mismatch.ensures_of_leaves promoting.uncompleted
                (fun _ _ _ holds => holds) fun _ _ _ holds => holds
          | some candidateTreeSha =>
              obtain ⟨candidate, _⟩ := truthy_eq_some.mp tree
              simp only [Block.ensures_bind, ensures_call, Completion.andThen_normal,
                Completion.andThen_threw, Block.ensures_ifThen]
              refine ⟨trivial, fun treeSha compared answered => ⟨fun _ => ?_, fun same => ?_⟩,
                fun _ _ answered => ends _ _ (quiet promoting answered rfl)⟩
              · have promoting := quiet promoting answered rfl
                exact mismatch.ensures_of_leaves promoting.uncompleted
                  (fun _ _ _ holds => holds) fun _ _ _ holds => holds
              · have promoting := quiet promoting answered rfl
                have same : treeSha = some candidateTreeSha := by simpa using same
                exact promoting.verified fun _ => ⟨sourceSha, answered.log_subset resolved,
                  .inr ⟨candidateTreeSha, candidate, same ▸ answered.answered⟩⟩
        · have promoting := quiet promoting answered rfl
          have own : isAncestor = true := by simpa using own
          exact promoting.verified fun _ => ⟨sourceSha, answered.log_subset onRecord,
            .inl (own ▸ answered.answered)⟩
  · exact promoting.verified fun git => (noGit git).elim

/-- The promotion pull request that the check is about. -/
structure CheckedPr (repo : Repository) (prNumber : Int) (batch : ReleaseBatch)
    (log : List Exchange)
    : Prop where
  found : Answered log (.findRepository batch.repoId) (some repo)
  number : batch.promotionPrNumber = some prNumber

theorem triple_checkPromotionPr {prNumber : Int} {now : Date}
    (consistent : first.CandidateConsistent)
    : (checkPromotionPr deps repo prNumber now).Triple surroundings.Answers (fun _ _ => True)
        (Promoting first (CheckedPr repo prNumber)) (sound deps first) (sound deps first) := by
  have ends (locals : Locals) (world : World)
      (uncompleted : bothBatches (Uncompleted first) locals world)
      : sound deps first locals world :=
    sound_of_uncompleted uncompleted
  have steps : StepInvariant surroundings.Answers (fun _ _ => True)
      (fun kind => kind = .batch ∨ kind = .capture) (bothBatches (Uncompleted first)) :=
    uncompleted_invariant.steps fun _ _ _ => trivial
  have leaves (reason : String)
      : (blockOnPromotionPr deps reason).Leaves surroundings.Answers (fun _ _ => True)
          (bothBatches (Uncompleted first)) (sound deps first) :=
    leaves_uncompleted
  have blocked (reason : String)
      : (blockOnPromotionPr deps reason).Triple surroundings.Answers (fun _ _ => True)
          (bothBatches (Uncompleted first)) (sound deps first) (sound deps first) :=
    (leaves reason).mono (fun _ _ holds => holds) (fun _ _ holds => holds.elim)
      fun _ _ holds => holds
  intro locals world promoting
  simp only [checkPromotionPr, Block.ensures_bind, ensures_currentBatch, ensures_call,
    Completion.andThen_normal, Completion.andThen_threw]
  refine ⟨trivial, fun readiness after answered => ?_, fun _ after answered => ?_⟩
  · have evidence := promoting.evidence
    have kept : Promoting first (CheckedPr repo prNumber) locals after :=
      promoting.quiet answered rfl fun _ _ _ evidence grows =>
        ⟨grows evidence.found, evidence.number⟩
    refine Block.ensures_ite.mpr ⟨fun merged => ?_, fun _ => ?_⟩
    · have verified : Promoting first (MergedEvidence repo) locals after :=
        ⟨kept.uncompleted, kept.evidence.found, prNumber, readiness, evidence.number,
          answered.answered, merged⟩
      exact Block.triple_bind triple_verifyPromotedSource
        (fun _ => triple_completePromotion consistent) _ _ verified
    refine Block.ensures_ite.mpr ⟨fun _ => blocked _ _ _ kept.uncompleted, fun _ => ?_⟩
    refine Block.ensures_ite.mpr ⟨fun _ => blocked _ _ _ kept.uncompleted, fun _ => ?_⟩
    have resumed : (do
          resumePromoting
          updateBatch : Statements Unit).Keeps surroundings.Answers (fun _ _ => True)
        (bothBatches (Uncompleted first)) (sound deps first) :=
      Block.keeps_bind (Block.keeps_assign fun _ _ holds =>
        ⟨uncompleted_invariant.promoting _ holds.1, holds.2⟩) fun _ => keeps_updateBatch steps ends
    exact ((Block.keeps_ifThen fun _ => resumed).mono (fun _ _ holds => holds) ends
      fun _ _ holds => holds) _ _ kept.uncompleted
  · refine ends _ _ (promoting.quiet answered rfl fun _ _ _ evidence grows =>
      ⟨grows evidence.found, evidence.number⟩).uncompleted

end AiSdlc.Application
