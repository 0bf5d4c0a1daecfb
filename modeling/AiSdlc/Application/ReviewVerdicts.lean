import AiSdlc.Application.FollowUpReview

/-! The verdicts on a whole change and on its fixes: what a reviewer answers is overridden by the
criteria, findings and evaluations that the answer lists.
-/

namespace AiSdlc.Application

open AiSdlc.Js

-----------------------------------------------------------------------------------------
-- Narrow verification
-----------------------------------------------------------------------------------------

structure FindingEvaluation where
  finding : String
  resolved : Bool
  evidence : String
  rationale : Option String := none
  deriving DecidableEq, Repr

structure NarrowVerificationResult where
  verdict : String
  findingsEvaluations : List FindingEvaluation := []
  obviousRegressions : List String := []
  summary : Option String := none
  deriving DecidableEq, Repr

inductive NarrowVerdict
  | pass
  | fail
  deriving DecidableEq, Repr

/-- A verdict; it was overridden where there is a reason. -/
structure EvaluatedNarrowVerificationVerdict where
  verdict : NarrowVerdict
  evaluations : List FindingEvaluation
  regressions : List String
  summary : Option String
  overrideReason : Option String := none
  deriving DecidableEq, Repr

/-- `verdictUpper === 'PASS' || verdictUpper === 'APPROVE'`. -/
def isPositiveVerdict (verdict : String) : Bool :=
  toUpperCase verdict = "PASS" || toUpperCase verdict = "APPROVE"

def evaluateNarrowVerificationVerdict (raw : NarrowVerificationResult)
    (originalFindingsCount : Option Int)
    : EvaluatedNarrowVerificationVerdict :=
  let normalizedVerdict := if isPositiveVerdict raw.verdict then NarrowVerdict.pass else .fail
  let evaluations := raw.findingsEvaluations
  let regressions := raw.obviousRegressions
  let summary := raw.summary
  if originalFindingsCount.getD 0 > 0 && evaluations.length = 0 then
    { verdict := .fail, evaluations, regressions, summary
      overrideReason := some
        "Empty findings evaluations — verifier must evaluate all original blocking findings" }
  else
    let unresolved := evaluations.filter fun evaluation => !evaluation.resolved
    if unresolved.length > 0 && normalizedVerdict = .pass then
      let named := joinTexts ", " (unresolved.map (·.finding))
      { verdict := .fail, evaluations, regressions, summary
        overrideReason := some s!"Unresolved blocking findings: {named}" }
    else if regressions.length > 0 && normalizedVerdict = .pass then
      let named := joinTexts "; " regressions
      { verdict := .fail, evaluations, regressions, summary
        overrideReason := some s!"Obvious regressions detected: {named}" }
    else if unresolved.length > 0 || regressions.length > 0 then
      { verdict := .fail, evaluations, regressions, summary }
    else { verdict := normalizedVerdict, evaluations, regressions, summary }

/-- All that was verified is resolved, and nothing has regressed. -/
structure FindingsResolved (raw : NarrowVerificationResult) : Prop where
  positive : isPositiveVerdict raw.verdict = true
  resolved : ∀ evaluation ∈ raw.findingsEvaluations, evaluation.resolved = true
  unregressed : raw.obviousRegressions = []

theorem unresolved_eq_nil {evaluations : List FindingEvaluation}
    : (evaluations.filter fun evaluation => !evaluation.resolved) = []
      ↔ ∀ evaluation ∈ evaluations, evaluation.resolved = true := by
  simp [List.filter_eq_nil_iff]

/-- A verification passes where all is resolved, unless nothing is evaluated of some findings. -/
theorem narrowVerification_pass_iff (raw : NarrowVerificationResult) (count : Option Int)
    : (evaluateNarrowVerificationVerdict raw count).verdict = .pass
      ↔ FindingsResolved raw ∧ (raw.findingsEvaluations = [] → count.getD 0 ≤ 0) := by
  by_cases omitted : 0 < count.getD 0 ∧ raw.findingsEvaluations = []
  case pos =>
    obtain ⟨some_, none_⟩ := omitted
    have failed : (evaluateNarrowVerificationVerdict raw count).verdict = .fail := by
      simp [evaluateNarrowVerificationVerdict, some_, none_]
    simpa [failed, none_] using fun _ => some_
  case neg =>
    have evaluated : raw.findingsEvaluations = [] → count.getD 0 ≤ 0 := by
      intro none_
      by_contra more
      exact omitted ⟨by omega, none_⟩
    have passed : (evaluateNarrowVerificationVerdict raw count).verdict = .pass
        ↔ (raw.findingsEvaluations.filter fun evaluation => !evaluation.resolved) = []
          ∧ raw.obviousRegressions = [] ∧ isPositiveVerdict raw.verdict = true := by
      unfold evaluateNarrowVerificationVerdict
      rw [if_neg (by simpa using omitted)]
      generalize (raw.findingsEvaluations.filter fun evaluation => !evaluation.resolved) = left
      cases left with
      | nil =>
        cases raw.obviousRegressions with
        | nil => cases isPositiveVerdict raw.verdict <;> simp
        | cons regression rest => cases isPositiveVerdict raw.verdict <;> simp
      | cons evaluation rest => cases isPositiveVerdict raw.verdict <;> simp
    rw [passed, unresolved_eq_nil]
    constructor
    · intro ⟨resolved, unregressed, positive⟩
      exact ⟨⟨positive, resolved, unregressed⟩, evaluated⟩
    · intro ⟨⟨positive, resolved, unregressed⟩, _⟩
      exact ⟨resolved, unregressed, positive⟩

-----------------------------------------------------------------------------------------
-- Whole changes
-----------------------------------------------------------------------------------------

/-- `AcceptanceCriterionCheck`, as the schema of the result admits it. -/
structure WholeChangeCriterionCheck where
  criterion : String
  result : String
  evidence : Option String := none
  deriving DecidableEq, Repr

structure WholeChangeReviewResult where
  verdict : String
  acceptanceCriteria : List WholeChangeCriterionCheck := []
  findings : List WholeChangeReviewFinding := []
  summary : Option String := none
  deriving DecidableEq, Repr

inductive WholeChangeVerdict
  | approve
  | requestChanges
  deriving DecidableEq, Repr

structure EvaluatedWholeChangeVerdict where
  verdict : WholeChangeVerdict
  acceptanceCriteria : List WholeChangeCriterionCheck
  findings : List WholeChangeReviewFinding
  summary : Option String
  overrideReason : Option String := none
  deriving DecidableEq, Repr

/-- The finding of a review that has evaluated no criteria. -/
def missingCriteria : WholeChangeReviewFinding where
  severity := "critical"
  files := []
  evidence := "No acceptance criteria evaluated in result.json"
  rationale := "Reviewer failed to evaluate acceptance criteria from issue.md"
  minimalCorrection :=
    "Enumerate each acceptance criterion from issue.md and evaluate PASS/FAIL"
  blocking := some true

/-- `c.result?.toUpperCase() === 'FAIL'`. -/
def WholeChangeCriterionCheck.fails (check : WholeChangeCriterionCheck) : Bool :=
  toUpperCase check.result = "FAIL"

/-- The filter of `blockingFindings`. -/
def WholeChangeReviewFinding.blocks (finding : WholeChangeReviewFinding) : Bool :=
  finding.blocking = some true || toLowerCase finding.severity = "critical"
  || toLowerCase finding.severity = "high" || toUpperCase finding.severity = "P0"
  || toUpperCase finding.severity = "P1"

def evaluateWholeChangeReviewVerdict (raw : WholeChangeReviewResult)
    (issueBodyPresent : Option Bool)
    : EvaluatedWholeChangeVerdict :=
  let normalizedVerdict :=
    if isPositiveVerdict raw.verdict then WholeChangeVerdict.approve else .requestChanges
  let acceptanceCriteria := raw.acceptanceCriteria
  let findings := raw.findings
  let summary := raw.summary
  if issueBodyPresent = some true && acceptanceCriteria.length = 0 then
    { verdict := .requestChanges, acceptanceCriteria, findings := missingCriteria :: findings
      summary
      overrideReason := some
        ("Empty acceptance criteria verification — whole-change review requires "
          ++ "explicit evaluation of acceptance criteria") }
  else
    let failingCriteria := acceptanceCriteria.filter WholeChangeCriterionCheck.fails
    let blockingFindings := findings.filter WholeChangeReviewFinding.blocks
    if failingCriteria.length > 0 && normalizedVerdict = .approve then
      let named := joinTexts ", " (failingCriteria.map (·.criterion))
      { verdict := .requestChanges, acceptanceCriteria, findings, summary
        overrideReason := some s!"Acceptance criteria failed: {named}" }
    else if blockingFindings.length > 0 && normalizedVerdict = .approve then
      let count := blockingFindings.length
      { verdict := .requestChanges, acceptanceCriteria, findings, summary
        overrideReason := some
          s!"Blocking findings present ({count} critical/high findings)" }
    else if failingCriteria.length > 0 || blockingFindings.length > 0 then
      { verdict := .requestChanges, acceptanceCriteria, findings, summary }
    else { verdict := normalizedVerdict, acceptanceCriteria, findings, summary }

/-- The reviewer approves, no criterion fails, nothing blocks, and criteria are evaluated. -/
structure Approvable (raw : WholeChangeReviewResult) (issueBodyPresent : Option Bool)
    : Prop where
  positive : isPositiveVerdict raw.verdict = true
  passing : ∀ criterion ∈ raw.acceptanceCriteria, criterion.fails = false
  unblocked : ∀ finding ∈ raw.findings, finding.blocks = false
  enumerated : issueBodyPresent = some true → raw.acceptanceCriteria ≠ []

theorem filter_fails_eq_nil {criteria : List WholeChangeCriterionCheck}
    : criteria.filter WholeChangeCriterionCheck.fails = []
      ↔ ∀ criterion ∈ criteria, criterion.fails = false := by
  simp [List.filter_eq_nil_iff]

theorem filter_blocks_eq_nil {findings : List WholeChangeReviewFinding}
    : findings.filter WholeChangeReviewFinding.blocks = []
      ↔ ∀ finding ∈ findings, finding.blocks = false := by
  simp [List.filter_eq_nil_iff]

theorem wholeChangeReview_approve_iff (raw : WholeChangeReviewResult)
    (issueBodyPresent : Option Bool)
    : (evaluateWholeChangeReviewVerdict raw issueBodyPresent).verdict = .approve
      ↔ Approvable raw issueBodyPresent := by
  by_cases omitted : issueBodyPresent = some true ∧ raw.acceptanceCriteria = []
  case pos =>
    have requested : (evaluateWholeChangeReviewVerdict raw issueBodyPresent).verdict
        = .requestChanges := by
      simp [evaluateWholeChangeReviewVerdict, omitted]
    rw [requested]
    constructor
    · intro approved
      exact nomatch approved
    · intro approvable
      exact absurd omitted.2 (approvable.enumerated omitted.1)
  case neg =>
    have approved : (evaluateWholeChangeReviewVerdict raw issueBodyPresent).verdict = .approve
        ↔ raw.acceptanceCriteria.filter WholeChangeCriterionCheck.fails = []
          ∧ raw.findings.filter WholeChangeReviewFinding.blocks = []
          ∧ isPositiveVerdict raw.verdict = true := by
      unfold evaluateWholeChangeReviewVerdict
      rw [if_neg (by simpa using omitted)]
      generalize raw.acceptanceCriteria.filter WholeChangeCriterionCheck.fails = failing
      generalize raw.findings.filter WholeChangeReviewFinding.blocks = blocking
      cases failing with
      | nil =>
        cases blocking with
        | nil => cases isPositiveVerdict raw.verdict <;> simp
        | cons finding rest => cases isPositiveVerdict raw.verdict <;> simp
      | cons criterion rest => cases isPositiveVerdict raw.verdict <;> simp
    rw [approved, filter_fails_eq_nil, filter_blocks_eq_nil]
    constructor
    · intro ⟨passing, unblocked, positive⟩
      exact ⟨positive, passing, unblocked, fun present none_ => omitted ⟨present, none_⟩⟩
    · intro approvable
      exact ⟨approvable.passing, approvable.unblocked, approvable.positive⟩

-----------------------------------------------------------------------------------------
-- What the verdicts cover
-----------------------------------------------------------------------------------------

/-- A verification of `count` findings passes only where that many are evaluated and all is
resolved; a whole change is approved exactly where it is approvable.
-/
structure VerdictsCover (raw : NarrowVerificationResult) (count : Option Int) : Prop where
  narrow : (evaluateNarrowVerificationVerdict raw count).verdict = .pass
    → FindingsResolved raw ∧ count.getD 0 ≤ raw.findingsEvaluations.length
  whole : ∀ review issueBodyPresent,
    (evaluateWholeChangeReviewVerdict review issueBodyPresent).verdict = .approve
      ↔ Approvable review issueBodyPresent

/-- A resolved verification that evaluates some of the findings evaluates all of them. -/
def EvaluatesAll (raw : NarrowVerificationResult) (count : Option Int) : Prop :=
  FindingsResolved raw → raw.findingsEvaluations ≠ []
  → count.getD 0 ≤ raw.findingsEvaluations.length

theorem verdictsCover_iff (raw : NarrowVerificationResult) (count : Option Int)
    : VerdictsCover raw count ↔ EvaluatesAll raw count := by
  constructor
  · intro covers resolved evaluated
    have passed : (evaluateNarrowVerificationVerdict raw count).verdict = .pass :=
      (narrowVerification_pass_iff raw count).mpr
        ⟨resolved, fun none_ => absurd none_ evaluated⟩
    exact (covers.narrow passed).2
  · intro all
    refine ⟨?_, wholeChangeReview_approve_iff⟩
    intro passed
    obtain ⟨resolved, omitted⟩ := (narrowVerification_pass_iff raw count).mp passed
    refine ⟨resolved, ?_⟩
    rcases Classical.em (raw.findingsEvaluations = []) with none_ | evaluated
    · rw [none_]
      exact omitted none_
    · exact all resolved evaluated

/-- One resolved evaluation passes for two findings. -/
def oneOfTwo : NarrowVerificationResult where
  verdict := "PASS"
  findingsEvaluations :=
    [{ finding := "missing null check", resolved := true, evidence := "guard added" }]

theorem oneOfTwo_passes : ¬VerdictsCover oneOfTwo (some 2) := by
  intro covers
  have passed : (evaluateNarrowVerificationVerdict oneOfTwo (some 2)).verdict = .pass := by
    decide
  have covered : ((some 2 : Option Int).getD 0) ≤ oneOfTwo.findingsEvaluations.length :=
    (covers.narrow passed).2
  exact absurd covered (by decide)

end AiSdlc.Application
