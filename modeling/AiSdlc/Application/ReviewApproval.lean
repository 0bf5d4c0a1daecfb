import AiSdlc.Js.Patterns
import Mathlib.Data.List.Perm.Subperm

/-! The approvals of the specification review and of the architecture review. Both dispose of each
item of the requirements ledger: the checks name it exactly once.
-/

namespace AiSdlc.Application

open AiSdlc.Js

-----------------------------------------------------------------------------------------
-- The reviews and their ledger
-----------------------------------------------------------------------------------------

/-- The verdicts, without the case of their letters. -/
inductive ApprovalVerdict
  | PASS
  | FAIL
  | APPROVE
  | REQUEST_CHANGES
  deriving DecidableEq, Repr

/-- `result?.toUpperCase()`. -/
inductive CheckResult
  | PASS
  | FAIL
  deriving DecidableEq, Repr

inductive FindingSeverity
  | critical
  | high
  | medium
  | low
  | P0
  | P1
  | P2
  | P3
  deriving DecidableEq, Repr

inductive RequirementCategory
  | acceptanceCriteria
  | goal
  | anchoredDesign
  | trapNonGoal
  | comment
  | consumerRequirement
  | general
  deriving DecidableEq, Repr

structure RequirementLedgerItem where
  id : String
  category : RequirementCategory
  hardGate : Option Bool := none

structure RequirementsLedger where
  items : List RequirementLedgerItem

/-- What an approval reads of a finding. -/
structure GatedFinding where
  severity : FindingSeverity
  blocking : Option Bool := none

/-- A check of the specification review; its schema has no empty id. -/
structure PostImplementationRequirementCheck where
  requirementId : String
  nonempty : requirementId ≠ ""
  result : CheckResult
  counterexampleConsidered : Option String := none

structure PostImplementationSpecReviewResult where
  verdict : ApprovalVerdict
  requirementsChecks : List PostImplementationRequirementCheck
  findings : List GatedFinding

structure ArchitectureRequirementsCheck where
  requirementId : Option String := none
  requirement : String
  result : CheckResult
  evidence : Option String := none

structure WitnessScenario where
  requirementIds : Option (List String) := none
  requirementId : Option String := none
  scenario : String
  result : CheckResult
  evidence : String

structure ArchitectureReviewResult where
  verdict : ApprovalVerdict
  requirementsChecks : List ArchitectureRequirementsCheck
  witnessScenarios : List WitnessScenario
  findings : List GatedFinding

-----------------------------------------------------------------------------------------
-- The gates
-----------------------------------------------------------------------------------------

def ApprovalVerdict.approves (verdict : ApprovalVerdict) : Bool :=
  verdict = .PASS ∨ verdict = .APPROVE

def GatedFinding.isBlocking (finding : GatedFinding) : Bool :=
  finding.blocking = some true ∨ finding.severity ∈ [.critical, .high, .P0, .P1]

/-- What a requirement about provenance speaks of. -/
def provenancePatterns : List (List PatternPart) :=
  [
    [.word "provenance"],
    [.word "measured"],
    [.word "probe"],
    [.word "stream", .space false, .word "metadata"],
    [.word "executed", .space false, .word "and", .space false, .word "measured"],
    [.word "actual", .space false, .word "output"]
  ]

/-- How an evidence names a profile. -/
def profilePatterns : List (List PatternPart) :=
  [
    [.word "assembly", .space true, .word "profile"],
    [.word "profile", .space true, .word "id"],
    [.word "versioned", .space true, .word "profile"],
    [.word "profile", .space false, .word "identif"],
    [.word "profile", .space false, .word "version"],
    [.word "profile", .space false, .word "name"]
  ]

/-- What it takes the profile to do. -/
def proofPatterns : List (List PatternPart) :=
  [
    [.word "identif"],
    [.word "proves"],
    [.word "guarantees"],
    [.word "specifies"],
    [.word "sufficient"],
    [.word "measures"],
    [.word "substitut"],
    [.word "verif"]
  ]

def hasProvenanceConflationEvidence (requirementText : String) (evidenceText : Option String)
    : Bool :=
  match truthy evidenceText with
  | none => false
  | some evidenceText =>
      if !searches provenancePatterns requirementText.toList then false
      else searchesInLine profilePatterns proofPatterns evidenceText.toList

example :
    hasProvenanceConflationEvidence "Stream  metadata is MEASURED"
        (some "The assembly profile id identifies the output.") = true
      ∧ hasProvenanceConflationEvidence "Stream  metadata is MEASURED"
        (some "The profile id\nidentifies the output.") = false := by
  decide +kernel

/-- The loop that collects the ledger ids that checks name, unless one is named again. -/
def seenLedgerIds (ledgerIds : List String) : List String → List String → Option (List String)
  | seen, [] => some seen
  | seen, id :: rest =>
      if id ∈ ledgerIds then
        if id ∈ seen then none else seenLedgerIds ledgerIds (id :: seen) rest
      else seenLedgerIds ledgerIds seen rest

/-- The exact disposition of the ledger. -/
def disposesOf (ledgerIds checkIds : List String) : Bool :=
  match seenLedgerIds ledgerIds [] checkIds with
  | some seen => seen.length = ledgerIds.length
  | none => false

section Gates

variable (upperCase : String → String)

/-- `id.toUpperCase().trim()`. -/
def normId (id : String) : String :=
  trim (upperCase id)

def RequirementsLedger.ids (ledger : RequirementsLedger) : List String :=
  ledger.items.map fun item => normId upperCase item.id

def PostImplementationSpecReviewResult.checkIds (review : PostImplementationSpecReviewResult)
    : List String :=
  review.requirementsChecks.map fun check => normId upperCase check.requirementId

def ArchitectureReviewResult.checkIds (review : ArchitectureReviewResult) : List String :=
  (review.requirementsChecks.filterMap fun check => truthy check.requirementId).map
    (normId upperCase)

/-- Whether the first check of an item considers a counterexample. -/
def considersCounterexample (review : PostImplementationSpecReviewResult)
    (item : RequirementLedgerItem)
    : Bool :=
  match review.requirementsChecks.find? fun check =>
      normId upperCase check.requirementId = normId upperCase item.id with
  | some check => (check.counterexampleConsidered.map fun text => !isBlank text).getD false
  | none => false

/-- The gate of a ledger that has items, with what a review asks for beside its disposition. -/
def meetsLedger (ledger : Option RequirementsLedger) (checkIds : List String)
    (further : RequirementsLedger → Bool)
    : Bool :=
  match ledger with
  | some ledger =>
      if ledger.items = [] then true
      else disposesOf (ledger.ids upperCase) checkIds && further ledger
  | none => true

/-- The hard-gate items of a ledger have their counterexamples. -/
def considersHardGates (review : PostImplementationSpecReviewResult) (ledger : RequirementsLedger)
    : Bool :=
  ledger.items.all fun item =>
    if item.hardGate = some true then considersCounterexample upperCase review item else true

def isApprovedSpecReview (review : PostImplementationSpecReviewResult)
    (ledger : Option RequirementsLedger)
    : Bool :=
  if !review.verdict.approves then false
  else if review.requirementsChecks = [] then false
  else if !review.requirementsChecks.all (·.result = .PASS) then false
  else if !meetsLedger upperCase ledger (review.checkIds upperCase)
      (considersHardGates upperCase review) then false
  else !review.findings.any (·.isBlocking)

/-- The ids that a witness scenario covers. -/
def WitnessScenario.coveredIds (witness : WitnessScenario) : List String :=
  ((witness.requirementIds.getD []) ++ (truthy witness.requirementId).toList).map
    (normId upperCase)

/-- The ids that passing witness scenarios cover. -/
def coveredRequirementIds (witnesses : List WitnessScenario) : List String :=
  (witnesses.filter (·.result = .PASS)).flatMap (WitnessScenario.coveredIds upperCase)

/-- Whether the consumer requirements of a ledger have their witness scenarios. -/
def witnessesConsumers (review : ArchitectureReviewResult) (ledger : RequirementsLedger) : Bool :=
  let consumerItems := ledger.items.filter (·.category = .consumerRequirement)
  if consumerItems = [] then true
  else if review.witnessScenarios = [] then false
  else consumerItems.all fun item =>
    normId upperCase item.id ∈ coveredRequirementIds upperCase review.witnessScenarios

def isApprovedArchitectureReview (review : ArchitectureReviewResult)
    (ledger : Option RequirementsLedger)
    : Bool :=
  if !review.verdict.approves then false
  else if review.requirementsChecks = [] then false
  else if !review.requirementsChecks.all (·.result = .PASS) then false
  else if !meetsLedger upperCase ledger (review.checkIds upperCase)
      (witnessesConsumers upperCase review) then false
  else if review.witnessScenarios ≠ []
      ∧ !review.witnessScenarios.all fun witness =>
        witness.result = .PASS && !isBlank witness.evidence then false
  else if review.requirementsChecks.any fun check =>
      hasProvenanceConflationEvidence check.requirement check.evidence then false
  else if review.witnessScenarios.any fun witness =>
      hasProvenanceConflationEvidence witness.scenario (some witness.evidence) then false
  else !review.findings.any (·.isBlocking)

end Gates

section Disposition

variable {ledgerIds checkIds seen : List String}

/-- The loop collects what the checks name, where it names nothing twice. -/
theorem seenLedgerIds_eq (once : seen.Nodup)
    : seenLedgerIds ledgerIds seen checkIds
      = if ((checkIds.filter (· ∈ ledgerIds)).reverse ++ seen).Nodup
        then some ((checkIds.filter (· ∈ ledgerIds)).reverse ++ seen) else none := by
  induction checkIds generalizing seen with
  | nil => simp [seenLedgerIds, once]
  | cons id rest ih =>
      rw [seenLedgerIds]
      by_cases inLedger : id ∈ ledgerIds
      · have named : (id :: rest).filter (· ∈ ledgerIds) = id :: rest.filter (· ∈ ledgerIds) :=
          List.filter_cons_of_pos (decide_eq_true inLedger)
        rw [if_pos inLedger, named, List.reverse_cons, List.append_assoc, List.singleton_append]
        by_cases again : id ∈ seen
        · have twice : ¬((rest.filter (· ∈ ledgerIds)).reverse ++ id :: seen).Nodup := by
            intro nodup
            exact (List.nodup_cons.mp (List.nodup_append.mp nodup).2.1).1 again
          rw [if_pos again, if_neg twice]
        · rw [if_neg again, ih (List.nodup_cons.mpr ⟨again, once⟩)]
      · have other : (id :: rest).filter (· ∈ ledgerIds) = rest.filter (· ∈ ledgerIds) :=
          List.filter_cons_of_neg (by simpa using inLedger)
        rw [if_neg inLedger, other, ih once]

/-- The ledger is disposed of where its ids differ, and each is named exactly once: what is named
is as long as the ledger, and a part of it.
-/
theorem disposesOf_iff
    : disposesOf ledgerIds checkIds = true
      ↔ ledgerIds.Nodup ∧ ∀ id ∈ ledgerIds, checkIds.count id = 1 := by
  have counted {id : String} (member : id ∈ ledgerIds)
      : (checkIds.filter (· ∈ ledgerIds)).count id = checkIds.count id :=
    List.count_filter (decide_eq_true member)
  have form : disposesOf ledgerIds checkIds = true
      ↔ (checkIds.filter (· ∈ ledgerIds)).Nodup
        ∧ (checkIds.filter (· ∈ ledgerIds)).length = ledgerIds.length := by
    rw [disposesOf, seenLedgerIds_eq List.nodup_nil, List.append_nil]
    by_cases nodup : (checkIds.filter (· ∈ ledgerIds)).Nodup
    · rw [if_pos (List.nodup_reverse.mpr nodup)]
      simp [nodup]
    · rw [if_neg fun reversed => nodup (List.nodup_reverse.mp reversed)]
      simp [nodup]
  rw [form]
  constructor
  · intro disposed
    obtain ⟨nodup, length⟩ := disposed
    have inside : checkIds.filter (· ∈ ledgerIds) ⊆ ledgerIds := by
      intro id member
      exact of_decide_eq_true (List.mem_filter.mp member).2
    have same : (checkIds.filter (· ∈ ledgerIds)).Perm ledgerIds :=
      (nodup.subperm inside).perm_of_length_le (Nat.le_of_eq length.symm)
    refine ⟨same.nodup_iff.mp nodup, fun id member => ?_⟩
    rw [← counted member]
    exact List.count_eq_one_of_mem nodup (same.mem_iff.mpr member)
  · intro disposed
    obtain ⟨distinct, once⟩ := disposed
    have nodup : (checkIds.filter (· ∈ ledgerIds)).Nodup := by
      refine List.nodup_iff_count_le_one.mpr fun id => ?_
      by_cases member : id ∈ ledgerIds
      · rw [counted member, once id member]
      · have absent : id ∉ checkIds.filter (· ∈ ledgerIds) := fun held =>
          member (of_decide_eq_true (List.mem_filter.mp held).2)
        rw [List.count_eq_zero_of_not_mem absent]
        exact Nat.zero_le 1
    refine ⟨nodup, ((List.perm_ext_iff_of_nodup nodup distinct).mpr fun id => ?_).length_eq⟩
    rw [List.mem_filter, decide_eq_true_eq]
    constructor
    · exact fun held => held.2
    · intro member
      have named : 0 < checkIds.count id := by
        rw [once id member]
        exact Nat.one_pos
      exact ⟨List.count_pos_iff.mp named, member⟩

theorem eq_of_count_one {α : Type} {values : List α} {key : α → String} {id : String}
    (once : (values.map key).count id = 1) {first second : α} (first_in : first ∈ values)
    (second_in : second ∈ values) (first_key : key first = id) (second_key : key second = id)
    : first = second := by
  rw [List.count_eq_countP, List.countP_map, List.countP_eq_length_filter] at once
  obtain ⟨only, single⟩ := List.length_eq_one_iff.mp once
  have alone {value : α} (held : value ∈ values) (same : key value = id) : value = only := by
    have kept : value ∈ values.filter ((· == id) ∘ key) :=
      List.mem_filter.mpr ⟨held, by simp [same]⟩
    rwa [single, List.mem_singleton] at kept
  exact (alone first_in first_key).trans (alone second_in second_key).symm

end Disposition

-----------------------------------------------------------------------------------------
-- What an approval says
-----------------------------------------------------------------------------------------

/-- The items of a ledger, where there is one. -/
def itemsOf (ledger : Option RequirementsLedger) : List RequirementLedgerItem :=
  (ledger.map RequirementsLedger.items).getD []

/-- The ids of the items differ, and each is named by exactly one of the checks. -/
structure DisposesExactly (upperCase : String → String) (ledger : Option RequirementsLedger)
    (checkIds : List String)
    : Prop where
  distinct : ((itemsOf ledger).map fun item => normId upperCase item.id).Nodup
  once : ∀ item ∈ itemsOf ledger, checkIds.count (normId upperCase item.id) = 1

/-- The criteria of the specification review. -/
structure MeetsSpecCriteria (upperCase : String → String)
    (review : PostImplementationSpecReviewResult) (ledger : Option RequirementsLedger)
    : Prop where
  verdict : review.verdict = .PASS ∨ review.verdict = .APPROVE
  some_check : review.requirementsChecks ≠ []
  passes : ∀ check ∈ review.requirementsChecks, check.result = .PASS
  disposes : DisposesExactly upperCase ledger (review.checkIds upperCase)
  counterexamples : ∀ item ∈ itemsOf ledger, item.hardGate = some true →
    ∃ check ∈ review.requirementsChecks,
      normId upperCase check.requirementId = normId upperCase item.id
      ∧ ∃ text, check.counterexampleConsidered = some text ∧ isBlank text = false
  unblocked : ∀ finding ∈ review.findings, finding.isBlocking = false

/-- A requirement speaks of provenance, and a line of the evidence names a profile and takes it to
prove something.
-/
def ConflatesProvenance (requirement : String) (evidence : Option String) : Prop :=
  (∃ parts ∈ provenancePatterns, ∃ before spoken after,
    requirement.toList = before ++ (spoken ++ after) ∧ Matches parts spoken)
  ∧ ∃ text, evidence = some text
    ∧ ∃ profile ∈ profilePatterns, ∃ proof ∈ proofPatterns, ∃ before named gap proves after,
      text.toList = before ++ (named ++ (gap ++ (proves ++ after)))
      ∧ Matches profile named ∧ (∀ char ∈ gap, isDotCharacter char = true)
      ∧ Matches proof proves

/-- The criteria of the architecture review. -/
structure MeetsArchitectureCriteria (upperCase : String → String)
    (review : ArchitectureReviewResult) (ledger : Option RequirementsLedger)
    : Prop where
  verdict : review.verdict = .PASS ∨ review.verdict = .APPROVE
  some_check : review.requirementsChecks ≠ []
  passes : ∀ check ∈ review.requirementsChecks, check.result = .PASS
  disposes : DisposesExactly upperCase ledger (review.checkIds upperCase)
  witnessed : ∀ item ∈ itemsOf ledger, item.category = .consumerRequirement →
    ∃ witness ∈ review.witnessScenarios, witness.result = .PASS
      ∧ normId upperCase item.id ∈ witness.coveredIds upperCase
  witnesses : ∀ witness ∈ review.witnessScenarios,
    witness.result = .PASS ∧ isBlank witness.evidence = false
  provenance : (∀ check ∈ review.requirementsChecks,
      ¬ConflatesProvenance check.requirement check.evidence)
    ∧ ∀ witness ∈ review.witnessScenarios,
      ¬ConflatesProvenance witness.scenario (some witness.evidence)
  unblocked : ∀ finding ∈ review.findings, finding.isBlocking = false

section Criteria

variable {upperCase : String → String} {ledger : Option RequirementsLedger}

/-- The gate of the ledger: without items, there is nothing to dispose of. -/
theorem meetsLedger_iff {checkIds : List String} {further : RequirementsLedger → Bool}
    {property : RequirementLedgerItem → Prop}
    (asks : ∀ given, disposesOf (given.ids upperCase) checkIds = true →
      (further given = true ↔ ∀ item ∈ given.items, property item))
    : meetsLedger upperCase ledger checkIds further = true
      ↔ DisposesExactly upperCase ledger checkIds ∧ ∀ item ∈ itemsOf ledger, property item := by
  have vacuous (empty : itemsOf ledger = [])
      : DisposesExactly upperCase ledger checkIds ∧ ∀ item ∈ itemsOf ledger, property item := by
    refine ⟨⟨?_, ?_⟩, ?_⟩
    · rw [empty]
      exact List.nodup_nil
    all_goals
      intro item held
      rw [empty] at held
      exact absurd held List.not_mem_nil
  cases ledger with
  | none => exact iff_of_true rfl (vacuous rfl)
  | some given =>
      have disposes : DisposesExactly upperCase (some given) checkIds
          ↔ disposesOf (given.ids upperCase) checkIds = true := by
        rw [disposesOf_iff]
        constructor
        · intro exactly
          refine ⟨exactly.distinct, fun id member => ?_⟩
          obtain ⟨item, held, rfl⟩ := List.mem_map.mp member
          exact exactly.once item held
        · intro disposed
          exact ⟨disposed.1, fun item held => disposed.2 _ (List.mem_map_of_mem held)⟩
      rw [meetsLedger]
      split
      next empty => exact iff_of_true rfl (vacuous empty)
      · rw [disposes, Bool.and_eq_true]
        exact and_congr_right (asks given)

/-- Where an item is named once, the check that names it decides. -/
theorem considersCounterexample_iff {review : PostImplementationSpecReviewResult}
    {item : RequirementLedgerItem}
    (once : (review.checkIds upperCase).count (normId upperCase item.id) = 1)
    : considersCounterexample upperCase review item = true
      ↔ ∃ check ∈ review.requirementsChecks,
        normId upperCase check.requirementId = normId upperCase item.id
        ∧ ∃ text, check.counterexampleConsidered = some text ∧ isBlank text = false := by
  have considers (check : PostImplementationRequirementCheck)
      : (check.counterexampleConsidered.map fun text => !isBlank text).getD false = true
        ↔ ∃ text, check.counterexampleConsidered = some text ∧ isBlank text = false := by
    cases check.counterexampleConsidered <;> simp
  unfold considersCounterexample
  split
  next check found =>
    have held := List.mem_of_find?_eq_some found
    have named : normId upperCase check.requirementId = normId upperCase item.id := by
      simpa using List.find?_some found
    rw [considers]
    constructor
    · exact fun text => ⟨check, held, named, text⟩
    · intro other
      obtain ⟨other, other_held, other_named, text⟩ := other
      rwa [eq_of_count_one once held other_held named other_named]
  next missing =>
    refine iff_of_false Bool.false_ne_true fun other => ?_
    obtain ⟨other, held, named, -⟩ := other
    have absent := List.find?_eq_none.mp missing other held
    simp [named] at absent

theorem considersHardGates_iff {review : PostImplementationSpecReviewResult}
    (given : RequirementsLedger)
    (disposed : disposesOf (given.ids upperCase) (review.checkIds upperCase) = true)
    : considersHardGates upperCase review given = true
      ↔ ∀ item ∈ given.items, item.hardGate = some true →
        ∃ check ∈ review.requirementsChecks,
          normId upperCase check.requirementId = normId upperCase item.id
          ∧ ∃ text, check.counterexampleConsidered = some text ∧ isBlank text = false := by
  have once := (disposesOf_iff.mp disposed).2
  rw [considersHardGates, List.all_eq_true]
  refine forall₂_congr fun item held => ?_
  split
  next hard =>
    rw [considersCounterexample_iff (once _ (List.mem_map_of_mem held))]
    exact ⟨fun considered _ => considered, fun considered => considered hard⟩
  next soft => exact iff_of_true rfl fun hard => absurd hard soft

/-- The consumer requirements ask for a passing witness scenario that names them. -/
theorem witnessesConsumers_iff {review : ArchitectureReviewResult} (given : RequirementsLedger)
    : witnessesConsumers upperCase review given = true
      ↔ ∀ item ∈ given.items, item.category = .consumerRequirement →
        ∃ witness ∈ review.witnessScenarios, witness.result = .PASS
          ∧ normId upperCase item.id ∈ witness.coveredIds upperCase := by
  have covers (id : String)
      : id ∈ coveredRequirementIds upperCase review.witnessScenarios
        ↔ ∃ witness ∈ review.witnessScenarios, witness.result = .PASS
          ∧ id ∈ witness.coveredIds upperCase := by
    simp [coveredRequirementIds, and_assoc]
  have consumers (property : RequirementLedgerItem → Prop)
      : (∀ item ∈ given.items.filter (·.category = .consumerRequirement), property item)
        ↔ ∀ item ∈ given.items, item.category = .consumerRequirement → property item := by
    simp
  rw [witnessesConsumers, ← consumers]
  split
  next empty =>
    rw [empty]
    exact iff_of_true rfl fun item held => absurd held List.not_mem_nil
  next some_item =>
    split
    next empty =>
      refine iff_of_false Bool.false_ne_true fun witnessed => ?_
      obtain ⟨item, rest, items⟩ := List.exists_cons_of_ne_nil some_item
      obtain ⟨witness, held, -⟩ := witnessed item (items ▸ List.mem_cons_self)
      rw [empty] at held
      exact List.not_mem_nil held
    · rw [List.all_eq_true]
      exact forall₂_congr fun item _ => decide_eq_true_iff.trans (covers _)

theorem unless_iff {condition : Prop} [Decidable condition] {rest : Bool}
    : (if condition then false else rest) = true ↔ ¬condition ∧ rest = true := by
  by_cases holds : condition
  · simp [holds]
  · simp [holds]

theorem not_not_eq_true {value : Bool} : ¬(!value) = true ↔ value = true := by
  cases value <;> simp

theorem approves_iff {verdict : ApprovalVerdict}
    : verdict.approves = true ↔ verdict = .PASS ∨ verdict = .APPROVE :=
  decide_eq_true_iff

theorem none_blocking_iff {findings : List GatedFinding}
    : (!findings.any (·.isBlocking)) = true
      ↔ ∀ finding ∈ findings, finding.isBlocking = false := by
  simp

/-- The specification review is approved exactly where its criteria are met. -/
theorem isApprovedSpecReview_iff (upperCase : String → String)
    (review : PostImplementationSpecReviewResult) (ledger : Option RequirementsLedger)
    : isApprovedSpecReview upperCase review ledger = true
      ↔ MeetsSpecCriteria upperCase review ledger := by
  simp only [isApprovedSpecReview, unless_iff, not_not_eq_true, approves_iff,
    none_blocking_iff, List.all_eq_true, decide_eq_true_eq, meetsLedger_iff considersHardGates_iff]
  constructor
  · intro approved
    obtain ⟨verdict, some_check, passes, ⟨disposes, counterexamples⟩, unblocked⟩ := approved
    exact ⟨verdict, some_check, passes, disposes, counterexamples, unblocked⟩
  · intro meets
    exact ⟨meets.verdict, meets.some_check, meets.passes, ⟨meets.disposes, meets.counterexamples⟩,
      meets.unblocked⟩

/-- The patterns find what conflates provenance; an empty evidence names no profile. -/
theorem hasProvenanceConflationEvidence_iff {requirement : String} {evidence : Option String}
    : hasProvenanceConflationEvidence requirement evidence = true
      ↔ ConflatesProvenance requirement evidence := by
  unfold hasProvenanceConflationEvidence ConflatesProvenance
  split
  next untold =>
    refine iff_of_false Bool.false_ne_true ?_
    rintro ⟨-, text, rfl, profile, listed, proof, -, before, named, gap, proves, after, split,
      matched, -⟩
    have empty : text = "" := by
      by_contra filled
      rw [truthy_eq_some.mpr ⟨rfl, filled⟩] at untold
      exact absurd untold (Option.some_ne_none _)
    rw [empty] at split
    obtain ⟨-, rest⟩ := List.append_eq_nil_iff.mp split.symm
    obtain ⟨rfl, -⟩ := List.append_eq_nil_iff.mp rest
    simp only [profilePatterns, List.mem_cons, List.not_mem_nil, or_false] at listed
    rcases listed with rfl | rfl | rfl | rfl | rfl | rfl <;>
      exact matched.ne_nil (by decide) rfl
  next text told =>
    obtain ⟨rfl, -⟩ := truthy_eq_some.mp told
    rw [← searches_iff]
    simp only [Option.some_inj, exists_eq_left', ← searchesInLine_iff]
    cases searches provenancePatterns requirement.toList <;> simp

/-- The architecture review is approved exactly where its criteria are met. -/
theorem isApprovedArchitectureReview_iff (upperCase : String → String)
    (review : ArchitectureReviewResult) (ledger : Option RequirementsLedger)
    : isApprovedArchitectureReview upperCase review ledger = true
      ↔ MeetsArchitectureCriteria upperCase review ledger := by
  have witnesses : (¬(review.witnessScenarios ≠ []
        ∧ (!review.witnessScenarios.all fun witness =>
          witness.result = .PASS && !isBlank witness.evidence) = true))
      ↔ ∀ witness ∈ review.witnessScenarios,
        witness.result = .PASS ∧ isBlank witness.evidence = false := by
    rw [not_and, not_not_eq_true, List.all_eq_true]
    simp only [Bool.and_eq_true, decide_eq_true_eq, Bool.not_eq_true']
    constructor
    · intro evident witness held
      exact evident (List.ne_nil_of_mem held) witness held
    · exact fun evident _ => evident
  have told (requirement : String) (evidence : Option String)
      : hasProvenanceConflationEvidence requirement evidence = false
        ↔ ¬ConflatesProvenance requirement evidence := by
    rw [← hasProvenanceConflationEvidence_iff, Bool.not_eq_true]
  simp only [isApprovedArchitectureReview, unless_iff, not_not_eq_true, approves_iff,
    none_blocking_iff, List.all_eq_true, decide_eq_true_eq, witnesses,
    meetsLedger_iff fun given _ => witnessesConsumers_iff given]
  constructor
  · intro approved
    obtain ⟨verdict, some_check, passes, ⟨disposes, witnessed⟩, evident, checks, scenarios,
      unblocked⟩ := approved
    exact ⟨verdict, some_check, passes, disposes, witnessed, evident,
      ⟨by simpa [← told] using checks, by simpa [← told] using scenarios⟩, unblocked⟩
  · intro meets
    exact ⟨meets.verdict, meets.some_check, meets.passes, ⟨meets.disposes, meets.witnessed⟩,
      meets.witnesses, by simpa [← told] using meets.provenance.1,
      by simpa [← told] using meets.provenance.2, meets.unblocked⟩

end Criteria

end AiSdlc.Application
