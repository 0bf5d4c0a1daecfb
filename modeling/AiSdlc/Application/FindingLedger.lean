import Mathlib.Data.List.Nodup
import AiSdlc.Js.TextOperations
import AiSdlc.Transition.System

/-! The ledger of review findings: findings are entered once, under a fingerprint of their
content, and later reviews resolve them or assert them again.
-/

namespace AiSdlc.Application

open AiSdlc.Js
open AiSdlc.Transition

inductive FindingProvenanceSource
  | specReview
  | qualityReview
  deriving DecidableEq, Repr

inductive FindingStatus
  | unresolved
  | resolved
  deriving DecidableEq, Repr

structure FindingLedgerEntry where
  id : String
  status : FindingStatus
  severity : String
  files : List String
  evidence : String
  rationale : String
  minimalCorrection : String
  sourceIteration : Int
  source : FindingProvenanceSource
  resolvedInIteration : Option Int := none
  resolutionEvidence : Option String := none
  isAcceptanceCriterionFailure : Option Bool := none
  lastUnresolvedEvidence : Option String := none
  staleRepeatCount : Option Int := none
  deriving DecidableEq, Repr

structure FindingLedger where
  iterationCount : Int
  entries : List FindingLedgerEntry
  deriving DecidableEq, Repr

/-- A finding as a reviewer reports it. -/
structure ReviewFinding where
  severity : Option String := none
  files : Option (List String) := none
  evidence : Option String := none
  rationale : Option String := none
  minimalCorrection : Option String := none
  deriving DecidableEq, Repr

structure AcceptanceCriterionCheck where
  criterion : Option String := none
  requirement : Option String := none
  result : Option String := none
  evidence : Option String := none
  deriving DecidableEq, Repr

structure FollowUpFindingEvaluation where
  findingId : String
  resolved : Bool
  evidence : String
  deriving DecidableEq, Repr

/-- The functions on texts that a ledger takes from its host: the digest in hexadecimal digits, and
the case mappings, which know the letters of every script.
-/
structure LedgerLibrary where
  sha256 : String → String
  toLowerCase : String → String
  toUpperCase : String → String

def normalizeEvidenceForStaleDetection (library : LedgerLibrary) (evidence : String) : String :=
  collapseWhitespace (library.toLowerCase (trim evidence))

/-- The text that is hashed: the parts of the content, normalized. -/
def findingContent (library : LedgerLibrary) (finding : ReviewFinding) : String :=
  let normFiles := joinTexts "," (sortTexts (finding.files.getD []))
  let normRationale := library.toLowerCase (trim (finding.rationale.getD ""))
  let normCorrection := library.toLowerCase (trim (finding.minimalCorrection.getD ""))
  let normEvidence := sliceTo (library.toLowerCase (trim (finding.evidence.getD ""))) 100
  s!"{normFiles}|{normRationale}|{normCorrection}|{normEvidence}"

def computeFindingFingerprint (library : LedgerLibrary) (finding : ReviewFinding)
    (fallbackIndex : Nat)
    : String :=
  let raw := findingContent library finding
  if 3 < (codeUnits raw).length then s!"F-{sliceTo (library.sha256 raw) 8}"
  else s!"F-{fallbackIndex + 1}"

def isHexDigit (char : Char) : Bool :=
  char.isDigit || ('a' ≤ char && char ≤ 'f') || ('A' ≤ char && char ≤ 'F')

/-- `/^F-[0-9a-f]{8}$/i.test(id)`. -/
def isContentFingerprint (id : String) : Bool :=
  match id.toList with
  | first :: dash :: digits =>
      (first = 'F' || first = 'f') && dash = '-' && digits.length = 8 && digits.all isHexDigit
  | _ => false

def withSuffix (id : String) (suffix : Nat) : String :=
  s!"{id}-{suffix}"

/-- The id itself, or the first one with a suffix that was not seen. -/
def unseenId (seenIds : List String) (id : String) : String :=
  if id ∈ seenIds then
    (((List.range (seenIds.length + 1)).map fun index => withSuffix id (index + 1)).find?
      (· ∉ seenIds)).getD id
  else id

/-- The entry of a finding that is reported for the first time. -/
def entryOf (finding : ReviewFinding) (id : String) (source : FindingProvenanceSource)
    (iteration : Int)
    : FindingLedgerEntry :=
  {
    id
    status := .unresolved
    severity := orElse finding.severity "high"
    files := finding.files.getD []
    evidence := orElse finding.evidence ""
    rationale := orElse finding.rationale ""
    minimalCorrection := orElse finding.minimalCorrection ""
    sourceIteration := iteration
    source
    isAcceptanceCriterionFailure := some false
  }

section Ledger

variable (library : LedgerLibrary)

/-- The loop of `appendFindingsToLedger`, with the entries that it adds. -/
def addedEntries (source : FindingProvenanceSource) (iteration : Int) (index : Nat)
    (seenIds : List String)
    : List ReviewFinding → List FindingLedgerEntry
  | [] => []
  | finding :: rest =>
      let fingerprint := computeFindingFingerprint library finding index
      if isContentFingerprint fingerprint && fingerprint ∈ seenIds then
        addedEntries source iteration (index + 1) seenIds rest
      else
        let id := unseenId seenIds fingerprint
        entryOf finding id source iteration
          :: addedEntries source iteration (index + 1) (id :: seenIds) rest

def appendFindingsToLedger (entries : List FindingLedgerEntry) (findings : List ReviewFinding)
    (source : FindingProvenanceSource) (iteration : Int) (seenIds : List String)
    : List FindingLedgerEntry :=
  entries ++ addedEntries library source iteration entries.length seenIds findings

/-- The text of a criterion or a requirement. -/
def AcceptanceCriterionCheck.text (check : AcceptanceCriterionCheck) : String :=
  (check.criterion <|> check.requirement).getD ""

/-- The loop over the acceptance criteria that failed. -/
def criterionEntries (index : Nat) (seenIds : List String)
    : List AcceptanceCriterionCheck → List FindingLedgerEntry
  | [] => []
  | check :: rest =>
      let id := unseenId seenIds s!"AC-{index + 1}"
      {
        id
        status := .unresolved
        severity := "high"
        files := []
        evidence := orElse check.evidence "Requirement not satisfied"
        rationale := s!"Failed requirement: {check.text}"
        minimalCorrection := s!"Implement requirement to satisfy: {check.text}"
        sourceIteration := 0
        source := .specReview
        isAcceptanceCriterionFailure := some true
      } :: criterionEntries (index + 1) (id :: seenIds) rest

def createFindingLedger (findings : List ReviewFinding)
    (acceptanceCriteria : List AcceptanceCriterionCheck) (source : FindingProvenanceSource)
    : FindingLedger :=
  let failingACs := acceptanceCriteria.filter fun check =>
    (check.result.map library.toUpperCase) = some "FAIL"
  let entries := criterionEntries 0 [] failingACs
  {
    iterationCount := 0
    entries := appendFindingsToLedger library entries findings source 0 (entries.map (·.id))
  }

def appendFindingLedgerEntries (ledger : FindingLedger) (findings : List ReviewFinding)
    (source : FindingProvenanceSource)
    : FindingLedger :=
  {
    ledger with
    entries := appendFindingsToLedger library ledger.entries findings source
      ledger.iterationCount (ledger.entries.map (·.id))
  }

/-- The evaluation of a finding: the last one for its id. -/
def evaluationOf (evaluations : List FollowUpFindingEvaluation) (id : String)
    : Option FollowUpFindingEvaluation :=
  evaluations.reverse.find? (·.findingId = id)

/-- An entry after a follow-up review. -/
def evaluateEntry (evaluations : List FollowUpFindingEvaluation) (iterationIndex : Int)
    (entry : FindingLedgerEntry)
    : FindingLedgerEntry :=
  match evaluationOf evaluations entry.id with
  | none => entry
  | some evaluation =>
      if evaluation.resolved then
        {
          entry with
          status := .resolved
          resolvedInIteration := some iterationIndex
          resolutionEvidence := some evaluation.evidence
          lastUnresolvedEvidence := none
          staleRepeatCount := none
        }
      else
        let normalized := normalizeEvidenceForStaleDetection library evaluation.evidence
        let isRepeat := entry.lastUnresolvedEvidence = some normalized
        {
          entry with
          status := .unresolved
          lastUnresolvedEvidence := some normalized
          staleRepeatCount :=
            some (if isRepeat then entry.staleRepeatCount.getD 1 + 1 else 1)
        }

def updateFindingLedger (ledger : FindingLedger)
    (evaluations : List FollowUpFindingEvaluation) (newFindings : List ReviewFinding)
    (iterationIndex : Int) (newFindingsSource : FindingProvenanceSource)
    : FindingLedger :=
  let updatedEntries := ledger.entries.map (evaluateEntry library evaluations iterationIndex)
  {
    iterationCount := iterationIndex
    entries := appendFindingsToLedger library updatedEntries newFindings newFindingsSource
      iterationIndex (ledger.entries.map (·.id))
  }

def hasUnresolvedBlockingFindings (ledger : FindingLedger) : Bool :=
  ledger.entries.any (·.status = .unresolved)

/-- `STALE_REPEAT_THRESHOLD`. -/
def staleRepeatThreshold : Int :=
  3

/-- The open findings whose evidence was asserted unchanged too often. -/
def getStaleRepeatedFindings (ledger : FindingLedger)
    (threshold : Int := staleRepeatThreshold)
    : List FindingLedgerEntry :=
  ledger.entries.filter fun entry =>
    entry.status = .unresolved && threshold ≤ entry.staleRepeatCount.getD 0

def FindingProvenanceSource.text : FindingProvenanceSource → String
  | specReview => "spec-review"
  | qualityReview => "quality-review"

/-- The lines about an open finding. -/
def unresolvedLines (entry : FindingLedgerEntry) : List String :=
  let files := joinTexts ", " entry.files
  [s!"- **[{entry.id}] [{library.toUpperCase entry.severity}]** {entry.rationale}"]
  ++ (if entry.files = [] then [] else [s!"  Files: {files}"])
  ++ [
    s!"  Evidence: {entry.evidence}",
    s!"  Required Fix: {entry.minimalCorrection}",
    s!"  Source: {entry.source.text} (iteration {entry.sourceIteration})",
    ""
  ]

/-- The lines about a resolved finding. -/
def resolvedLines (entry : FindingLedgerEntry) : List String :=
  let iteration := (entry.resolvedInIteration.map toString).getD "?"
  [s!"- **[{entry.id}] [RESOLVED in iter {iteration}]** {entry.rationale}"]
  ++ ((truthy entry.resolutionEvidence).map fun evidence =>
    s!"  Resolution Evidence: {evidence}").toList
  ++ [s!"  Source: {entry.source.text}", ""]

def formatLedgerForPrompt (ledger : FindingLedger) : String :=
  if ledger.entries = [] then
    "No review findings recorded."
  else
    let unresolved := ledger.entries.filter (·.status = .unresolved)
    let resolved := ledger.entries.filter (·.status = .resolved)
    joinTexts "\n"
      ((if unresolved = [] then []
        else "### UNRESOLVED BLOCKING FINDINGS:" :: unresolved.flatMap (unresolvedLines library))
      ++ (if resolved = [] then []
        else
          "### PREVIOUSLY RESOLVED FINDINGS (REGRESSION CHECKLIST):"
            :: resolved.flatMap resolvedLines))

/-- The lines that tell a fixer about an open finding. -/
def fixLines (entry : FindingLedgerEntry) : List String :=
  let files := joinTexts ", " entry.files
  [s!"- **[{entry.id}] [{library.toUpperCase entry.severity}]** {entry.rationale}"]
  ++ (if entry.files = [] then [] else [s!"  Files: {files}"])
  ++ [
    s!"  Evidence: {entry.evidence}",
    s!"  Required Fix: {entry.minimalCorrection}",
    s!"  Source: {entry.source.text}",
    ""
  ]

def formatLedgerForFixPrompt (ledger : FindingLedger) : String :=
  let unresolved := ledger.entries.filter (·.status = .unresolved)
  if unresolved = [] then
    "No unresolved findings."
  else
    joinTexts "\n" ("### FINDINGS TO RESOLVE:" :: unresolved.flatMap (fixLines library))

/-- The calls that build a ledger. -/
inductive LedgerCall
  | append (findings : List ReviewFinding) (source : FindingProvenanceSource)
  | update (evaluations : List FollowUpFindingEvaluation) (newFindings : List ReviewFinding)
      (iterationIndex : Int) (newFindingsSource : FindingProvenanceSource)
  deriving DecidableEq, Repr

def LedgerCall.perform (ledger : FindingLedger) : LedgerCall → FindingLedger
  | append findings source => appendFindingLedgerEntries library ledger findings source
  | update evaluations newFindings iterationIndex newFindingsSource =>
      updateFindingLedger library ledger evaluations newFindings iterationIndex newFindingsSource

/-- A ledger is created and then changed by any calls. -/
abbrev ledgerSystem : System FindingLedger LedgerCall :=
  .ofSteps
    (fun ledger => ∃ findings acceptanceCriteria source,
      ledger = createFindingLedger library findings acceptanceCriteria source)
    fun ledger call => some (call.perform library ledger)

end Ledger

-----------------------------------------------------------------------------------------
-- Ids
-----------------------------------------------------------------------------------------

theorem withSuffix_injective (id : String) : Function.Injective (withSuffix id) := by
  intro first second same
  have texts : (toString first) = toString second := by
    simpa [withSuffix, String.append_assoc] using same
  exact repr_injective texts

theorem unseenId_not_mem (seenIds : List String) (id : String)
    : unseenId seenIds id ∉ seenIds := by
  unfold unseenId
  split
  · rename_i seen
    cases found : ((List.range (seenIds.length + 1)).map fun index =>
        withSuffix id (index + 1)).find? (· ∉ seenIds) with
    | some fresh => simpa using List.find?_some found
    | none =>
        have all := List.find?_eq_none.mp found
        have within : ((List.range (seenIds.length + 1)).map fun index =>
            withSuffix id (index + 1)) ⊆ seenIds := by
          intro text member
          simpa using all text member
        have distinct : ((List.range (seenIds.length + 1)).map fun index =>
            withSuffix id (index + 1)).Nodup :=
          List.nodup_range.map fun first second same =>
            Nat.succ_injective (withSuffix_injective id same)
        have short := (List.subperm_of_subset distinct within).length_le
        rw [List.length_map, List.length_range] at short
        omega
  · rename_i unseen
    exact unseen

/-- The ids that an entry of a fingerprint may have: a fallback fingerprint may get a suffix. -/
def Carries (fingerprint id : String) : Prop :=
  id = fingerprint
  ∨ isContentFingerprint fingerprint = false ∧ ∃ suffix, id = withSuffix fingerprint suffix

theorem unseenId_of_not_mem {seenIds : List String} {id : String} (unseen : id ∉ seenIds)
    : unseenId seenIds id = id :=
  if_neg unseen

theorem carries_unseenId {seenIds : List String} {fingerprint : String}
    (free : isContentFingerprint fingerprint = true → fingerprint ∉ seenIds)
    : Carries fingerprint (unseenId seenIds fingerprint) := by
  by_cases seen : fingerprint ∈ seenIds
  · have fallback : isContentFingerprint fingerprint = false := by
      cases content : isContentFingerprint fingerprint with
      | false => rfl
      | true => exact absurd seen (free content)
    unfold unseenId
    rw [if_pos seen]
    cases found : ((List.range (seenIds.length + 1)).map fun index =>
        withSuffix fingerprint (index + 1)).find? (· ∉ seenIds) with
    | none => exact .inl rfl
    | some fresh =>
        obtain ⟨index, -, rfl⟩ := List.mem_map.mp (List.mem_of_find?_eq_some found)
        exact .inr ⟨fallback, index + 1, rfl⟩
  · exact .inl (unseenId_of_not_mem seen)

section Added

variable {library : LedgerLibrary} {source : FindingProvenanceSource} {iteration : Int}

theorem addedEntries_unresolved {findings : List ReviewFinding} {index : Nat}
    {seenIds : List String}
    : ∀ entry ∈ addedEntries library source iteration index seenIds findings,
        entry.status = .unresolved := by
  induction findings generalizing index seenIds with
  | nil => simp [addedEntries]
  | cons finding rest ih =>
      intro entry member
      simp only [addedEntries] at member
      split at member
      · exact ih entry member
      · rcases List.mem_cons.mp member with rfl | later
        · rfl
        · exact ih entry later

/-- The added entries have ids of their own, by induction over the findings. -/
theorem addedEntries_ids {findings : List ReviewFinding} {index : Nat} {seenIds : List String}
    (seen : seenIds.Nodup)
    : (seenIds ++ (addedEntries library source iteration index seenIds findings).map
        (·.id)).Nodup := by
  induction findings generalizing index seenIds with
  | nil => simpa [addedEntries] using seen
  | cons finding rest ih =>
      simp only [addedEntries]
      split
      · exact ih seen
      · have fresh := unseenId_not_mem seenIds (computeFindingFingerprint library finding index)
        exact (List.perm_middle.nodup_iff).mpr (ih (List.nodup_cons.mpr ⟨fresh, seen⟩))

theorem addedEntries_fresh {findings : List ReviewFinding} {index : Nat}
    {seenIds : List String} (seen : seenIds.Nodup) {entry : FindingLedgerEntry}
    (added : entry ∈ addedEntries library source iteration index seenIds findings)
    : entry.id ∉ seenIds := by
  intro before
  exact List.disjoint_of_nodup_append (addedEntries_ids seen) before (List.mem_map_of_mem added)

/-- Every finding gets an entry, unless its content fingerprint was seen before, by induction
over the findings.
-/
theorem addedEntries_represent {findings : List ReviewFinding} {index : Nat}
    {seenIds : List String} {position : Nat} {finding : ReviewFinding}
    (reported : findings[position]? = some finding) {fingerprint : String}
    (printed : computeFindingFingerprint library finding (index + position) = fingerprint)
    : isContentFingerprint fingerprint = true ∧ fingerprint ∈ seenIds
      ∨ ∃ entry ∈ addedEntries library source iteration index seenIds findings,
          Carries fingerprint entry.id := by
  induction findings generalizing index seenIds position with
  | nil => simp at reported
  | cons first rest ih =>
      simp only [addedEntries]
      cases position with
      | zero =>
          cases reported
          rw [Nat.add_zero] at printed
          rw [printed]
          split
          · rename_i skipped
            exact .inl (by simpa using skipped)
          · rename_i kept
            refine .inr ⟨_, List.mem_cons_self, carries_unseenId fun content seen => ?_⟩
            exact kept (by simp [content, seen])
      | succ position =>
          have shifted : computeFindingFingerprint library finding (index + 1 + position)
              = fingerprint := by
            rw [← printed, Nat.add_right_comm, Nat.add_assoc]
          split
          · exact ih reported shifted
          · rcases ih reported shifted with ⟨content, seen⟩ | ⟨entry, member, carries⟩
            · rcases List.mem_cons.mp seen with same | before
              · exact .inr ⟨_, List.mem_cons_self, .inl same.symm⟩
              · exact .inl ⟨content, before⟩
            · exact .inr ⟨entry, List.mem_cons_of_mem _ member, carries⟩

end Added

-----------------------------------------------------------------------------------------
-- Ledgers
-----------------------------------------------------------------------------------------

/-- Every entry has an id of its own. -/
def FindingLedger.Keyed (ledger : FindingLedger) : Prop :=
  (ledger.entries.map (·.id)).Nodup

section Ledgers

variable {library : LedgerLibrary} {ledger : FindingLedger} {labels : List LedgerCall}

theorem keyed_appendFindingsToLedger {entries : List FindingLedgerEntry}
    {findings : List ReviewFinding} {source : FindingProvenanceSource} {iteration : Int}
    {seenIds : List String} (keyed : seenIds.Nodup) (seen : entries.map (·.id) = seenIds)
    : ((appendFindingsToLedger library entries findings source iteration seenIds).map
        (·.id)).Nodup := by
  simp only [appendFindingsToLedger, List.map_append, seen]
  exact addedEntries_ids keyed

theorem criterionEntries_ids {checks : List AcceptanceCriterionCheck} {index : Nat}
    {seenIds : List String} (seen : seenIds.Nodup)
    : (seenIds ++ (criterionEntries index seenIds checks).map (·.id)).Nodup := by
  induction checks generalizing index seenIds with
  | nil => simpa [criterionEntries] using seen
  | cons check rest ih =>
      have fresh := unseenId_not_mem seenIds s!"AC-{index + 1}"
      exact (List.perm_middle.nodup_iff).mpr (ih (List.nodup_cons.mpr ⟨fresh, seen⟩))

theorem evaluateEntry_id {evaluations : List FollowUpFindingEvaluation} {iteration : Int}
    (entry : FindingLedgerEntry)
    : (evaluateEntry library evaluations iteration entry).id = entry.id := by
  unfold evaluateEntry
  split
  · rfl
  · split <;> rfl

theorem evaluateEntries_ids {evaluations : List FollowUpFindingEvaluation} {iteration : Int}
    {entries : List FindingLedgerEntry}
    : (entries.map (evaluateEntry library evaluations iteration)).map (·.id)
      = entries.map (·.id) := by
  rw [List.map_map]
  exact List.map_congr_left fun entry _ => evaluateEntry_id entry

theorem keyed_perform (keyed : ledger.Keyed) (call : LedgerCall)
    : (call.perform library ledger).Keyed := by
  cases call with
  | append findings source => exact keyed_appendFindingsToLedger keyed rfl
  | update evaluations newFindings iteration source =>
      exact keyed_appendFindingsToLedger keyed evaluateEntries_ids

/-- The ids of a ledger stay apart, by the run invariant rule. -/
theorem keyed_of_run (run : (ledgerSystem library).Run labels ledger) : ledger.Keyed := by
  refine run.invariant (fun _ ledger => ledger.Keyed) ?_ ?_
  · rintro _ ⟨findings, criteria, source, rfl⟩
    exact keyed_appendFindingsToLedger (by simpa using criterionEntries_ids List.nodup_nil) rfl
  · intro _ ledger call next keyed taken
    cases taken
    exact keyed_perform keyed call

/-- An entry that is unresolved after the evaluations. -/
def StaysUnresolved (evaluations : List FollowUpFindingEvaluation) (entry : FindingLedgerEntry)
    : Prop :=
  match evaluationOf evaluations entry.id with
  | some evaluation => evaluation.resolved = false
  | none => entry.status = .unresolved

theorem evaluateEntry_unresolved {evaluations : List FollowUpFindingEvaluation}
    {iteration : Int} {entry : FindingLedgerEntry}
    : (evaluateEntry library evaluations iteration entry).status = .unresolved
      ↔ StaysUnresolved evaluations entry := by
  unfold evaluateEntry StaysUnresolved
  cases evaluationOf evaluations entry.id with
  | none => exact Iff.rfl
  | some evaluation => cases evaluation with | mk findingId resolved evidence =>
      cases resolved <;> simp

/-- Every new finding has an unresolved entry under its fingerprint. -/
def Represents (library : LedgerLibrary) (ledger updated : FindingLedger)
    (newFindings : List ReviewFinding)
    : Prop :=
  ∀ position finding, newFindings[position]? = some finding →
    ∃ entry ∈ updated.entries, entry.status = .unresolved
      ∧ Carries (computeFindingFingerprint library finding (ledger.entries.length + position))
          entry.id

/-- No new finding has the content fingerprint of an entry that was resolved, or that the same
review resolves.
-/
def NoneResolved (library : LedgerLibrary) (ledger : FindingLedger)
    (evaluations : List FollowUpFindingEvaluation) (newFindings : List ReviewFinding)
    : Prop :=
  ∀ position finding fingerprint, newFindings[position]? = some finding →
    computeFindingFingerprint library finding (ledger.entries.length + position) = fingerprint →
    isContentFingerprint fingerprint = true →
    ∀ entry ∈ ledger.entries, entry.id = fingerprint → StaysUnresolved evaluations entry

theorem mem_updateFindingLedger {evaluations : List FollowUpFindingEvaluation}
    {newFindings : List ReviewFinding} {iterationIndex : Int}
    {source : FindingProvenanceSource} {entry : FindingLedgerEntry}
    : entry ∈ (updateFindingLedger library ledger evaluations newFindings iterationIndex
          source).entries
      ↔ (∃ old ∈ ledger.entries, evaluateEntry library evaluations iterationIndex old = entry)
        ∨ entry ∈ addedEntries library source iterationIndex ledger.entries.length
            (ledger.entries.map (·.id)) newFindings := by
  simp [updateFindingLedger, appendFindingsToLedger]

/-- The entry that carries a content fingerprint was there, or it is added with a new id. -/
theorem stays_of_represents (keyed : ledger.Keyed)
    {evaluations : List FollowUpFindingEvaluation} {newFindings : List ReviewFinding}
    {iterationIndex : Int} {source : FindingProvenanceSource}
    (represents : Represents library ledger
      (updateFindingLedger library ledger evaluations newFindings iterationIndex source)
      newFindings)
    : NoneResolved library ledger evaluations newFindings := by
  intro position finding fingerprint reported printed content entry member same
  obtain ⟨other, there, unresolved, carries⟩ := represents position finding reported
  rw [printed] at carries
  have sameId : other.id = entry.id := by
    rcases carries with given | ⟨fallback, -⟩
    · exact given.trans same.symm
    · rw [content] at fallback
      contradiction
  rcases mem_updateFindingLedger.mp there with ⟨old, stored, rfl⟩ | added
  · rw [evaluateEntry_id] at sameId
    obtain rfl := List.inj_on_of_nodup_map keyed stored member sameId
    exact evaluateEntry_unresolved.mp unresolved
  · refine absurd ?_ (addedEntries_fresh keyed added)
    rw [sameId]
    exact List.mem_map_of_mem member

theorem represents_of_stays {evaluations : List FollowUpFindingEvaluation}
    {newFindings : List ReviewFinding} {iterationIndex : Int}
    {source : FindingProvenanceSource}
    (stays : NoneResolved library ledger evaluations newFindings)
    : Represents library ledger
        (updateFindingLedger library ledger evaluations newFindings iterationIndex source)
        newFindings := by
  intro position finding reported
  generalize printed : computeFindingFingerprint library finding
    (ledger.entries.length + position) = fingerprint
  rcases addedEntries_represent reported printed with ⟨content, seen⟩ | ⟨entry, added, carries⟩
  · obtain ⟨entry, member, same⟩ := List.mem_map.mp seen
    refine ⟨_, mem_updateFindingLedger.mpr (.inl ⟨entry, member, rfl⟩), ?_, .inl ?_⟩
    · exact evaluateEntry_unresolved.mpr
        (stays position finding fingerprint reported printed content entry member same)
    · rw [evaluateEntry_id, same]
  · exact ⟨entry, mem_updateFindingLedger.mpr (.inr added),
      addedEntries_unresolved entry added, carries⟩

/-- In every ledger that is reached, an update represents the new findings if and only if none
of them is one that was resolved; and then a ledger without unresolved findings means that
nothing new was reported.
-/
theorem update_represents_new_findings (run : (ledgerSystem library).Run labels ledger)
    (evaluations : List FollowUpFindingEvaluation) (newFindings : List ReviewFinding)
    (iterationIndex : Int) (source : FindingProvenanceSource)
    : let updated :=
        updateFindingLedger library ledger evaluations newFindings iterationIndex source
      (Represents library ledger updated newFindings
        ↔ NoneResolved library ledger evaluations newFindings)
      ∧ (NoneResolved library ledger evaluations newFindings →
          hasUnresolvedBlockingFindings updated = false → newFindings = []) := by
  refine ⟨⟨stays_of_represents (keyed_of_run run), represents_of_stays⟩, ?_⟩
  intro stays converged
  cases newFindings with
  | nil => rfl
  | cons finding rest =>
      obtain ⟨entry, member, unresolved, -⟩ := represents_of_stays stays 0 finding rfl
      have blocking := List.any_eq_false.mp converged entry member
      simp [unresolved] at blocking

end Ledgers

-----------------------------------------------------------------------------------------
-- A resolved finding comes back
-----------------------------------------------------------------------------------------

def catchFinding : ReviewFinding :=
  {
    severity := some "high"
    files := some ["packages/app.ts"]
    evidence := some "missing error handling"
    rationale := some "unhandled exception"
    minimalCorrection := some "add try/catch"
  }

/-- The digest of the finding's content, and the case mappings of its letters. -/
def catchLibrary : LedgerLibrary :=
  {
    sha256 := fun _ => "944ee0eb5933d421d6b3a1f68ff425dfa4ad9557166498aebf3192cd85673992"
    toLowerCase
    toUpperCase
  }

def catchLedger : FindingLedger :=
  createFindingLedger catchLibrary [catchFinding] [] .specReview

/-- The first follow-up review resolves the finding. -/
def catchResolved : LedgerCall :=
  .update [{ findingId := "F-944ee0eb", resolved := true, evidence := "try/catch added" }] []
    1 .specReview

/-- The second follow-up review reports the same finding as new, but the ledger has no
unresolved one.
-/
theorem resolved_finding_is_forgotten
    : ¬∀ (labels : List LedgerCall) (ledger : FindingLedger),
        (ledgerSystem catchLibrary).Run labels ledger →
        ∀ evaluations newFindings iterationIndex source,
          let updated :=
            updateFindingLedger catchLibrary ledger evaluations newFindings iterationIndex source
          Represents catchLibrary ledger updated newFindings
          ∧ (hasUnresolvedBlockingFindings updated = false → newFindings = []) := by
  intro claim
  have run : (ledgerSystem catchLibrary).Run [catchResolved]
      (catchResolved.perform catchLibrary catchLedger) :=
    .next (.start ⟨_, _, _, rfl⟩) rfl
  have forgotten := (claim _ _ run [] [catchFinding] 2 .specReview).2 (by decide +kernel)
  exact List.cons_ne_nil _ _ forgotten

/-- A finding that is reported again before it is resolved keeps its entry. -/
theorem update_represents_new_findings_again
    : Represents catchLibrary catchLedger
        (updateFindingLedger catchLibrary catchLedger [] [catchFinding] 1 .specReview)
        [catchFinding] := by
  have run : (ledgerSystem catchLibrary).Run [] catchLedger := .start ⟨_, _, _, rfl⟩
  refine (update_represents_new_findings run [] [catchFinding] 1 .specReview).1.mpr ?_
  intro position finding fingerprint reported printed content entry member same
  have entries : catchLedger.entries.all (·.status = .unresolved) = true := by
    decide +kernel
  have unresolved : entry.status = .unresolved := by
    simpa using List.all_eq_true.mp entries entry member
  exact unresolved

end AiSdlc.Application
