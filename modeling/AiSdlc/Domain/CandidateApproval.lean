import AiSdlc.Domain.ReleaseBatchRuns

/-! A candidate is captured from merged items, and only the approved candidate is promoted.
The invariant relates the status, the candidate, its approval and the items.
-/

namespace AiSdlc.Domain

open AiSdlc.Js
open AiSdlc.Transition

/-- The statuses in which a captured candidate is tested or promoted. -/
def ReleaseBatchStatus.hasCandidate (status : ReleaseBatchStatus) : Bool :=
  status ∈ [.awaitingManualTest, .testFailed, .approved, .promoting, .completed]

/-- The statuses that only an approval leads to. -/
def ReleaseBatchStatus.isApproved (status : ReleaseBatchStatus) : Bool :=
  status ∈ [.approved, .promoting, .completed]

theorem ReleaseBatchStatus.hasCandidate_of_isApproved {status : ReleaseBatchStatus}
    (approved : status.isApproved = true)
    : status.hasCandidate = true := by
  cases status <;> simp_all [isApproved, hasCandidate]

/-- What identifies the candidate of a batch: its commit, the approved one and its tree. -/
structure CandidateShas where
  candidateSha : Option String
  approvedCandidateSha : Option String
  candidateTreeSha : Option String
  deriving DecidableEq, Repr

def ReleaseBatch.candidateShas (batch : ReleaseBatch) : CandidateShas :=
  {
    candidateSha := batch.candidateSha
    approvedCandidateSha := batch.approvedCandidateSha
    candidateTreeSha := batch.candidateTreeSha
  }

/-- The SHA that an operation approves. -/
def BatchOp.approval : BatchOp → Option String
  | .approveBatchCandidate approvedCandidateSha => some approvedCandidateSha
  | _ => none

/-- The commit and the tree that an operation captures as the candidate. -/
def BatchOp.capture : BatchOp → Option (String × Option String)
  | .transitionToAwaitingManualTest candidateSha candidateTreeSha _ =>
      some (candidateSha, candidateTreeSha)
  | _ => none

/-- What a step may do to the candidate: leave it alone, capture it, approve or reject it,
promote what is approved, or drop it for remediation.
-/
inductive CandidateStep (batch : ReleaseBatch) : BatchOp → ReleaseBatch → Prop
  | kept {op : BatchOp} {next : ReleaseBatch}
      (quiet : op.approval = none ∧ op.capture = none)
      (status : next.status = batch.status ∨ next.status.hasCandidate = false)
      (shas : next.candidateShas = batch.candidateShas)
      (merged : batch.allMerged = true → next.allMerged = true)
      : CandidateStep batch op next
  | captured {sha : String} {tree : Option String} {prNumber : Option Int}
      {next : ReleaseBatch} (merged : batch.allMerged = true)
      (items : next.items = batch.items)
      (shas : next.candidateShas = ⟨some sha, none, tree <|> batch.candidateTreeSha⟩)
      (status : next.status = .awaitingManualTest)
      : CandidateStep batch (.transitionToAwaitingManualTest sha tree prNumber) next
  | approved {sha : String} {next : ReleaseBatch} (status : next.status = .approved)
      (candidate : batch.candidateSha = some sha) (items : next.items = batch.items)
      (shas : next.candidateShas = ⟨some sha, some sha, batch.candidateTreeSha⟩)
      : CandidateStep batch (.approveBatchCandidate sha) next
  | rejected {arguments : RejectArguments} {next : ReleaseBatch}
      (awaiting : batch.status = .awaitingManualTest) (status : next.status = .testFailed)
      (items : next.items = batch.items) (shas : next.candidateShas = batch.candidateShas)
      : CandidateStep batch (.rejectBatchCandidate arguments) next
  | advanced {op : BatchOp} {next : ReleaseBatch}
      (quiet : op.approval = none ∧ op.capture = none)
      (approved : batch.status.isApproved = true) (status : next.status.isApproved = true)
      (items : next.items = batch.items) (shas : next.candidateShas = batch.candidateShas)
      : CandidateStep batch op next
  | remediated {issueNumbers : List Int} {next : ReleaseBatch}
      (status : next.status = .building) (shas : next.candidateShas = ⟨none, none, none⟩)
      : CandidateStep batch (.appendRemediationItems issueNumbers) next

theorem allMerged_set {batch : ReleaseBatch} {index : Nat} {item next : ReleaseBatchItem}
    (found : batch.items[index]? = some item)
    (merged : item.isMerged = true → next.isMerged = true)
    (all : batch.allMerged = true)
    : (batch.items.set index next).all (·.isMerged) = true := by
  refine List.all_eq_true.mpr fun other hm => ?_
  have every := List.all_eq_true.mp all
  rcases List.mem_or_eq_of_mem_set hm with hm | rfl
  · exact every other hm
  · exact merged (every item (List.mem_of_getElem? found))

theorem BatchOp.allMerged {op : BatchOp} {batch next : ReleaseBatch}
    (applied : op.apply batch = .ok next)
    (noRemediation : ∀ issueNumbers, op ≠ .appendRemediationItems issueNumbers)
    (merged : batch.allMerged = true)
    : next.allMerged = true := by
  have step := items_step applied
  unfold ReleaseBatch.allMerged
  generalize next.items = items at step
  cases step with
  | unchanged => exact merged
  | updated found _ _ keepsMerged _ => exact allMerged_set found keepsMerged merged
  | appended remediation => exact (noRemediation _ remediation).elim

/-- Every successful operation makes a candidate step, by its inversion lemma. -/
theorem BatchOp.candidate_step {op : BatchOp} {batch next : ReleaseBatch}
    (applied : op.apply batch = .ok next)
    : CandidateStep batch op next := by
  have merged := allMerged applied
  cases op with
  | admitItem position input clock =>
      obtain ⟨_, index, item, _, _, _, _, _, rfl⟩ := admitItem_eq_ok.mp applied
      refine .kept ⟨rfl, rfl⟩ ?_ rfl (merged (by simp))
      by_cases waiting : batch.status = .queued ∨ batch.status = .blocked
      · exact .inr (by simp [waiting, ReleaseBatchStatus.hasCandidate])
      · exact .inl (by simp [waiting])
  | assignItemRun position runUuid =>
      obtain ⟨_, _, index, item, _, ⟨_, rfl⟩ | ⟨_, _, rfl⟩⟩ := assignItemRun_eq_ok.mp applied
        <;> exact .kept ⟨rfl, rfl⟩ (.inl rfl) rfl (merged (by simp))
  | markItemWaitingMerge position prNumber =>
      obtain ⟨_, _, index, item, _, _, ⟨_, _, rfl⟩ | ⟨_, rfl⟩⟩ :=
        markItemWaitingMerge_eq_ok.mp applied
        <;> exact .kept ⟨rfl, rfl⟩ (.inl rfl) rfl (merged (by simp))
  | attachItemPr position prNumber =>
      obtain ⟨_, _, index, item, _, ⟨_, rfl⟩ | ⟨_, rfl⟩⟩ := attachItemPr_eq_ok.mp applied
        <;> exact .kept ⟨rfl, rfl⟩ (.inl rfl) rfl (merged (by simp))
  | markItemMerged position mergedCommitSha now clock =>
      obtain ⟨_, _, index, item, _, _, rfl⟩ := markItemMerged_eq_ok.mp applied
      exact .kept ⟨rfl, rfl⟩ (.inl rfl) rfl (merged (by simp))
  | markItemBlocked position reason =>
      obtain ⟨_, index, item, _, _, rfl⟩ := markItemBlocked_eq_ok.mp applied
      exact .kept ⟨rfl, rfl⟩ (.inr rfl) rfl (merged (by simp))
  | markBatchBlocked reason =>
      obtain ⟨_, rfl⟩ := markBatchBlocked_eq_ok.mp applied
      exact .kept ⟨rfl, rfl⟩ (.inr rfl) rfl (merged (by simp))
  | unblockBatch =>
      obtain ⟨_, ⟨_, rfl⟩ | ⟨_, rfl⟩⟩ := unblockBatch_eq_ok.mp applied
      · exact .kept ⟨rfl, rfl⟩ (.inl rfl) rfl id
      · exact .kept ⟨rfl, rfl⟩ (.inr rfl) rfl (merged (by simp))
  | unblockItem position =>
      obtain ⟨_, index, item, items, _, _, ⟨_, rfl⟩ | ⟨_, rfl⟩⟩ :=
        unblockItem_eq_ok.mp applied
      · exact .kept ⟨rfl, rfl⟩ (.inl rfl) rfl id
      · refine .kept ⟨rfl, rfl⟩ ?_ rfl (merged (by simp))
        cases resumed : batch.resumesWith items with
        | true => exact .inr rfl
        | false => exact .inl rfl
  | transitionToAwaitingManualTest candidateSha candidateTreeSha promotionPrNumber =>
      obtain ⟨_, _, all, _, rfl⟩ := transitionToAwaitingManualTest_eq_ok.mp applied
      exact .captured all rfl rfl rfl
  | recordPromotionPr prNumber =>
      obtain ⟨_, _, rfl⟩ := recordPromotionPr_eq_ok.mp applied
      exact .kept ⟨rfl, rfl⟩ (.inl rfl) rfl (merged (by simp))
  | approveBatchCandidate approvedCandidateSha =>
      obtain ⟨_, _, candidate, rfl⟩ := approveBatchCandidate_eq_ok.mp applied
      exact .approved rfl candidate rfl (by simp [ReleaseBatch.candidateShas, candidate])
  | rejectBatchCandidate arguments =>
      obtain ⟨awaiting, _, rfl⟩ := rejectBatchCandidate_eq_ok.mp applied
      exact .rejected awaiting rfl rfl rfl
  | appendRemediationItems issueNumbers =>
      obtain ⟨_, _, _, _, rfl⟩ := appendRemediationItems_eq_ok.mp applied
      exact .remediated rfl rfl
  | attachPromotionPr prNumber =>
      obtain ⟨approved, _, rfl⟩ := attachPromotionPr_eq_ok.mp applied
      exact .advanced ⟨rfl, rfl⟩ (by rcases approved with h | h <;> rw [h] <;> rfl) rfl rfl rfl
  | recordPromotionCommit promotionCommitSha =>
      obtain ⟨_, _, rfl⟩ := recordPromotionCommit_eq_ok.mp applied
      exact .kept ⟨rfl, rfl⟩ (.inl rfl) rfl (merged (by simp))
  | promoteBatch =>
      obtain ⟨approved, _, rfl⟩ := promoteBatch_eq_ok.mp applied
      exact .advanced ⟨rfl, rfl⟩ (by rw [approved]; rfl) rfl rfl rfl
  | completeBatch now clock =>
      obtain ⟨approved, _, rfl⟩ := completeBatch_eq_ok.mp applied
      exact .advanced ⟨rfl, rfl⟩ (by rcases approved with h | h <;> rw [h] <;> rfl) rfl rfl rfl
  | cancelBatch reason now clock =>
      obtain ⟨_, ⟨_, rfl⟩ | ⟨_, rfl⟩⟩ := cancelBatch_eq_ok.mp applied
      · exact .kept ⟨rfl, rfl⟩ (.inl rfl) rfl id
      · exact .kept ⟨rfl, rfl⟩ (.inr rfl) rfl (merged (by simp))

/-- The relation between the status, the candidate, its approval and the items. -/
structure ReleaseBatch.CandidateSound (batch : ReleaseBatch) : Prop where
  merged : batch.candidateSha.isSome = true → batch.allMerged = true
  approved : ∀ sha, batch.approvedCandidateSha = some sha → batch.candidateSha = some sha
  captured : batch.status.hasCandidate = true → batch.candidateSha.isSome = true
  promoted : batch.status.isApproved = true → batch.approvedCandidateSha = batch.candidateSha

/-- A candidate step keeps the candidate sound, by cases on the step. -/
theorem CandidateStep.candidateSound {op : BatchOp} {batch next : ReleaseBatch}
    (step : CandidateStep batch op next) (sound : batch.CandidateSound)
    : next.CandidateSound := by
  obtain ⟨merged, approved, captured, promoted⟩ := sound
  cases step with
  | kept _ status shas keepsMerged =>
      obtain ⟨candidate, approval, _⟩ := CandidateShas.mk.inj shas
      have same (has : next.status.hasCandidate = true) : next.status = batch.status := by
        rcases status with same | without
        · exact same
        · simp [without] at has
      constructor
      · exact fun present => keepsMerged (merged (candidate ▸ present))
      · rwa [candidate, approval]
      · exact fun has => candidate ▸ captured (same has ▸ has)
      · intro has
        have status := same (ReleaseBatchStatus.hasCandidate_of_isApproved has)
        rw [candidate, approval]
        exact promoted (status ▸ has)
  | captured all items shas status =>
      obtain ⟨candidate, approval, _⟩ := CandidateShas.mk.inj shas
      constructor
      · exact fun _ => by rwa [ReleaseBatch.allMerged, items]
      · simp [approval]
      · simp [candidate]
      · simp [status, ReleaseBatchStatus.isApproved]
  | approved status was items shas =>
      obtain ⟨candidate, approval, _⟩ := CandidateShas.mk.inj shas
      constructor
      · intro _
        rw [ReleaseBatch.allMerged, items]
        exact merged (by simp [was])
      · simp [candidate, approval]
      · simp [candidate]
      · simp [candidate, approval]
  | rejected awaiting status items shas =>
      obtain ⟨candidate, approval, _⟩ := CandidateShas.mk.inj shas
      constructor
      · rwa [ReleaseBatch.allMerged, items, candidate]
      · rwa [candidate, approval]
      · exact fun _ => candidate ▸ captured (by simp [awaiting, ReleaseBatchStatus.hasCandidate])
      · simp [status, ReleaseBatchStatus.isApproved]
  | advanced _ wasApproved status items shas =>
      obtain ⟨candidate, approval, _⟩ := CandidateShas.mk.inj shas
      constructor
      · rwa [ReleaseBatch.allMerged, items, candidate]
      · rwa [candidate, approval]
      · exact fun _ => candidate ▸
          captured (ReleaseBatchStatus.hasCandidate_of_isApproved wasApproved)
      · rw [candidate, approval]
        exact fun _ => promoted wasApproved
  | remediated status shas =>
      obtain ⟨candidate, approval, _⟩ := CandidateShas.mk.inj shas
      constructor
      · simp [candidate]
      · simp [approval]
      · simp [status, ReleaseBatchStatus.hasCandidate]
      · simp [status, ReleaseBatchStatus.isApproved]

/-- The part of soundness that does not depend on the status: a candidate has all items
merged, and only the candidate is approved.
-/
structure ReleaseBatch.CandidateConsistent (batch : ReleaseBatch) : Prop where
  merged : batch.candidateSha.isSome = true → batch.allMerged = true
  approved : ∀ sha, batch.approvedCandidateSha = some sha → batch.candidateSha = some sha

theorem CandidateStep.candidateConsistent {op : BatchOp} {batch next : ReleaseBatch}
    (step : CandidateStep batch op next) (consistent : batch.CandidateConsistent)
    : next.CandidateConsistent := by
  obtain ⟨merged, approved⟩ := consistent
  cases step with
  | kept _ _ shas keepsMerged =>
      obtain ⟨candidate, approval, _⟩ := CandidateShas.mk.inj shas
      exact ⟨fun present => keepsMerged (merged (candidate ▸ present)),
        by rwa [candidate, approval]⟩
  | captured all items shas _ =>
      obtain ⟨candidate, approval, _⟩ := CandidateShas.mk.inj shas
      exact ⟨fun _ => by rwa [ReleaseBatch.allMerged, items], by simp [approval]⟩
  | approved _ was items shas =>
      obtain ⟨candidate, approval, _⟩ := CandidateShas.mk.inj shas
      refine ⟨fun _ => ?_, by simp [candidate, approval]⟩
      rw [ReleaseBatch.allMerged, items]
      exact merged (by simp [was])
  | rejected _ _ items shas | advanced _ _ _ items shas =>
      obtain ⟨candidate, approval, _⟩ := CandidateShas.mk.inj shas
      exact ⟨by rwa [ReleaseBatch.allMerged, items, candidate], by rwa [candidate, approval]⟩
  | remediated _ shas =>
      obtain ⟨candidate, approval, _⟩ := CandidateShas.mk.inj shas
      exact ⟨by simp [candidate], by simp [approval]⟩

theorem candidateConsistent_of_created {input : CreateReleaseBatchInput} {batch : ReleaseBatch}
    (created : createReleaseBatch input = .ok batch)
    : batch.CandidateConsistent := by
  obtain ⟨sorted, _, _, _, captured, approved, rfl⟩ := createReleaseBatch_ok created
  exact ⟨captured, approved⟩

theorem candidateSound_of_created {input : CreateReleaseBatchInput} {batch : ReleaseBatch}
    (default : input.DefaultStatuses) (created : createReleaseBatch input = .ok batch)
    : batch.CandidateSound ∧ batch.approvedCandidateSha = none := by
  obtain ⟨sorted, perm, nonempty, _, captured, approved, rfl⟩ := createReleaseBatch_ok created
  have uncaptured : input.candidateSha = none := by
    by_contra present
    have all := captured (Option.isSome_iff_ne_none.mpr present)
    obtain ⟨item, rest, rfl⟩ := List.exists_cons_of_ne_nil nonempty
    have pending := default.2 item (perm.mem_iff.mp (by simp))
    simp [ReleaseBatch.allMerged, createItem, pending, ReleaseBatchItem.isMerged] at all
  have unapproved : input.approvedCandidateSha = none := by
    by_contra present
    obtain ⟨sha, named⟩ := Option.ne_none_iff_exists'.mp present
    simp [approved sha named] at uncaptured
  refine ⟨⟨?_, ?_, ?_, ?_⟩, unapproved⟩
  · simp [uncaptured]
  · simp [unapproved]
  · simp [default.1, ReleaseBatchStatus.hasCandidate]
  · simp [default.1, ReleaseBatchStatus.isApproved]

/-- The SHA that the latest approval of a run approved. -/
def lastApproval (ops : List BatchOp) : Option String :=
  ops.findSome? BatchOp.approval

theorem CandidateStep.approvedCandidateSha {op : BatchOp} {batch next : ReleaseBatch}
    (step : CandidateStep batch op next) {sha : String}
    (approved : next.approvedCandidateSha = some sha)
    : op.approval = some sha ∨ op.approval = none ∧ batch.approvedCandidateSha = some sha := by
  cases step with
  | kept quiet _ shas | advanced quiet _ _ _ shas =>
      exact .inr ⟨quiet.1, (CandidateShas.mk.inj shas).2.1 ▸ approved⟩
  | approved _ _ _ shas =>
      exact .inl ((CandidateShas.mk.inj shas).2.1.symm.trans approved)
  | rejected _ _ _ shas => exact .inr ⟨rfl, (CandidateShas.mk.inj shas).2.1 ▸ approved⟩
  | captured _ _ shas | remediated _ shas =>
      simp [(CandidateShas.mk.inj shas).2.1] at approved

/-- Every batch of a run from default statuses has a sound candidate, and its approved SHA is
the one that the latest approval approved.
-/
theorem candidateSound_of_run {ops : List BatchOp} {batch : ReleaseBatch}
    (run : (batchSystem CreateReleaseBatchInput.DefaultStatuses).Run ops batch)
    : batch.CandidateSound
      ∧ ∀ sha, batch.approvedCandidateSha = some sha → lastApproval ops = some sha := by
  refine run.invariant (fun ops batch => batch.CandidateSound
    ∧ ∀ sha, batch.approvedCandidateSha = some sha → lastApproval ops = some sha) ?_ ?_
  · rintro batch ⟨input, default, created⟩
    obtain ⟨sound, unapproved⟩ := candidateSound_of_created default created
    exact ⟨sound, by simp [unapproved]⟩
  · rintro ops batch op next ⟨sound, approvals⟩ applied
    have step := BatchOp.candidate_step applied
    refine ⟨step.candidateSound sound, fun sha approved => ?_⟩
    rcases step.approvedCandidateSha approved with now | ⟨quiet, before⟩
    · simp [lastApproval, now]
    · simpa [lastApproval, quiet] using approvals sha before

/-- In every run from default statuses a candidate is captured from merged items only, an
approval is of the captured candidate, and a batch that is approved, promoting or completed
holds the candidate that the latest approval approved.
-/
theorem promotes_approved_candidate {ops : List BatchOp} {batch : ReleaseBatch}
    (run : (batchSystem CreateReleaseBatchInput.DefaultStatuses).Run ops batch)
    : (batch.candidateSha.isSome = true → batch.allMerged = true)
      ∧ (∀ sha, batch.approvedCandidateSha = some sha → batch.candidateSha = some sha)
      ∧ (batch.status.hasCandidate = true →
          batch.candidateSha.isSome = true ∧ batch.allMerged = true)
      ∧ (batch.status.isApproved = true →
          batch.approvedCandidateSha = batch.candidateSha
          ∧ ∃ sha, batch.candidateSha = some sha ∧ lastApproval ops = some sha) := by
  obtain ⟨⟨merged, approved, captured, promoted⟩, approvals⟩ := candidateSound_of_run run
  refine ⟨merged, approved, fun has => ⟨captured has, merged (captured has)⟩, fun has => ?_⟩
  have present := captured (ReleaseBatchStatus.hasCandidate_of_isApproved has)
  obtain ⟨sha, candidate⟩ := Option.isSome_iff_exists.mp present
  exact ⟨promoted has, sha, candidate, approvals sha ((promoted has).trans candidate)⟩

/-- The items of the two-issue batch are merged one after the other. -/
def mergeTwoIssues : List BatchOp :=
  [
    .admitItem 1 {} .epoch,
    .markItemMerged 1 "a1" none .epoch,
    .admitItem 2 {} .epoch,
    .markItemMerged 2 "a2" none .epoch
  ]

/-- Both issues are merged, their candidate is captured and approved, and it is promoted. -/
theorem promotes_approved_candidate_twoIssues
    : ∃ batch final, createReleaseBatch twoIssues = .ok batch
        ∧ applyWhile (fun _ _ => True) batch (mergeTwoIssues ++
            [.transitionToAwaitingManualTest "a2" (some "t2") none,
              .approveBatchCandidate "a2", .promoteBatch])
          = some final
        ∧ final.status = .promoting ∧ final.approvedCandidateSha = final.candidateSha := by
  obtain ⟨batch, final, created, applied, promoting⟩ : ∃ batch final,
      createReleaseBatch twoIssues = .ok batch
      ∧ applyWhile (fun _ _ => True) batch (mergeTwoIssues ++
          [.transitionToAwaitingManualTest "a2" (some "t2") none,
            .approveBatchCandidate "a2", .promoteBatch])
        = some final
      ∧ final.status = .promoting := ⟨_, _, rfl, rfl, rfl⟩
  have default : twoIssues.DefaultStatuses := by
    simp [CreateReleaseBatchInput.DefaultStatuses, CreateReleaseBatchInput.DefaultItemStatuses,
      twoIssues]
  have run := (run_of_applyWhile (.start ⟨twoIssues, default, created⟩) applied).of_restrict
  have approved := (promotes_approved_candidate run).2.2.2 (by simp [promoting,
    ReleaseBatchStatus.isApproved])
  exact ⟨batch, final, created, applied, promoting, approved.1⟩

end AiSdlc.Domain
