import AiSdlc.Application.FollowUpReview
import AiSdlc.Async.Reach

/-! When an approval covers the whole ledger. The reviewer has to be shown the stored ledger, so
the read must not fail where entries are stored; and a new finding must not be taken for a
resolved one, whose id it has.
-/

namespace AiSdlc.Application

open AiSdlc.Js
open AiSdlc.Domain
open AiSdlc.Async
open FollowUpReviewHandler

/-- The replies to one follow-up review, with the answer to the read of the ledger and the
result of the reviewer; the other replies are free.
-/
def FollowUpRequest.replies (answered : Except HandlerError LedgerText)
    (result : FollowUpReviewResult)
    : Environment Unit FollowUpRequest FollowUpRequest.Reply
  | _, .readLedger, reply, _ => reply = answered
  | _, .runSingleShotAgentPhase _, .ok (.passed given), _ => given = result
  | _, _, _, _ => True

/-- The stored ledger: an empty one before any is written, and none where the content cannot be
parsed.
-/
def storedLedger : Option LedgerText → Option FindingLedger
  | none => some emptyLedger
  | some (.json ledger) => some ledger
  | some .malformed => none

/-- What an approval promises about the findings. -/
structure Approval (ledger : FindingLedger) (result : FollowUpReviewResult) : Prop where
  approves : FollowUpReviewResult.approves result = true
  resolves : ∀ entry ∈ ledger.entries, entry.status = .unresolved →
    ∃ evaluation, evaluationOf result.ledgerEvaluations entry.id = some evaluation
      ∧ evaluation.resolved = true
  nothingNew : ∀ finding ∈ result.newFindings, finding.blocking = some false

/-- The same finding, whatever has become of it. -/
def SameFinding (kept entry : FindingLedgerEntry) : Prop :=
  entry = {
    kept with
    status := entry.status
    resolvedInIteration := entry.resolvedInIteration
    resolutionEvidence := entry.resolutionEvidence
    lastUnresolvedEvidence := entry.lastUnresolvedEvidence
    staleRepeatCount := entry.staleRepeatCount
  }

/-- The reviewer is shown the stored ledger, which can be read; an approval that is written
keeps its promise about it; and the ledger that is written back has all its entries.
-/
def Covered (library : FollowUpLibrary) (stored : Option LedgerText) (result : FollowUpReviewResult)
    : FollowUpRequest → Prop
  | .runSingleShotAgentPhase config =>
      ∃ ledger, storedLedger stored = some ledger
        ∧ config.vars.lookup "finding_ledger"
          = some (formatLedgerForPrompt library.toLedgerLibrary ledger)
  | .writeReview review =>
      review.verdict = .APPROVE →
        ∃ ledger, storedLedger stored = some ledger ∧ Approval ledger result
  | .writeLedger updated =>
      ∃ ledger, storedLedger stored = some ledger
        ∧ ∀ entry ∈ ledger.entries, ∃ kept ∈ updated.entries, SameFinding kept entry
  | _ => True

/-- The stored ledger can be parsed, and it is read where it has entries. -/
def LedgerShown (stored : Option LedgerText) (answered : Except HandlerError LedgerText)
    (ledger : FindingLedger)
    : Prop :=
  storedLedger stored = some ledger ∧ (ledger.entries = [] ∨ answered = .ok (.json ledger))

/-- A finding whose fingerprint is that of an entry. -/
def IsRepeated (library : LedgerLibrary) (seenIds : List String) (index : Nat)
    (finding : ReviewFinding)
    : Prop :=
  isContentFingerprint (computeFindingFingerprint library finding index) = true
  ∧ computeFindingFingerprint library finding index ∈ seenIds

/-- Where a result approves, leaves no entry open, and reports a blocking finding, some finding
has not the fingerprint of an entry.
-/
def NoticesFindings (library : LedgerLibrary) (ledger : FindingLedger)
    (result : FollowUpReviewResult)
    : Prop :=
  FollowUpReviewResult.approves result = true →
  (∀ entry ∈ ledger.entries, ¬StaysUnresolved result.ledgerEvaluations entry) →
  (∃ finding ∈ result.newFindings, finding.blocking ≠ some false) →
  ∃ position finding, result.ledgerFindings[position]? = some finding
    ∧ ¬IsRepeated library (ledger.entries.map (·.id)) (ledger.entries.length + position) finding

section Ledger

variable {library : LedgerLibrary} {source : FindingProvenanceSource} {iteration : Int}
  {evaluations : List FollowUpFindingEvaluation} {entry : FindingLedgerEntry}

/-- No entry is added where every finding is repeated, by induction over the findings. -/
theorem addedEntries_eq_nil {findings : List ReviewFinding} {index : Nat}
    {seenIds : List String}
    : addedEntries library source iteration index seenIds findings = []
      ↔ ∀ position finding, findings[position]? = some finding →
        IsRepeated library seenIds (index + position) finding := by
  induction findings generalizing index with
  | nil => simp [addedEntries]
  | cons first rest ih =>
      simp only [addedEntries]
      constructor
      · intro nothing position finding reported
        split at nothing
        · rename_i skipped
          cases position with
          | zero =>
              cases reported
              simpa [IsRepeated] using skipped
          | succ position =>
              have later := ih.mp nothing position finding reported
              rwa [Nat.add_right_comm] at later
        · exact absurd nothing (List.cons_ne_nil _ _)
      · intro repeated
        have skipped : IsRepeated library seenIds index first := repeated 0 first rfl
        rw [if_pos (by simpa [IsRepeated] using skipped)]
        refine ih.mpr fun position finding reported => ?_
        have later := repeated (position + 1) finding reported
        rwa [Nat.add_right_comm]

theorem sameFinding_evaluateEntry
    : SameFinding (evaluateEntry library evaluations iteration entry) entry := by
  unfold evaluateEntry
  cases evaluationOf evaluations entry.id with
  | none => exact rfl
  | some evaluation =>
      simp only
      split
      · exact rfl
      · exact rfl

theorem resolved_of_not_stays (closed : ¬StaysUnresolved evaluations entry)
    (unresolved : entry.status = .unresolved)
    : ∃ evaluation, evaluationOf evaluations entry.id = some evaluation
      ∧ evaluation.resolved = true := by
  unfold StaysUnresolved at closed
  cases found : evaluationOf evaluations entry.id with
  | none => exact absurd unresolved (by simpa [found] using closed)
  | some evaluation => exact ⟨evaluation, rfl, by simpa [found] using closed⟩

/-- The effective verdict approves where the reviewer does, nothing stays open, and every new
finding is repeated.
-/
theorem effectiveVerdict_eq_approve {library : FollowUpLibrary} {ledger : FindingLedger}
    {result : FollowUpReviewResult} {currentIteration : Int}
    : effectiveVerdict result (updatedLedger library ledger result currentIteration) = .APPROVE
      ↔ FollowUpReviewResult.approves result = true
        ∧ (∀ entry ∈ ledger.entries, ¬StaysUnresolved result.ledgerEvaluations entry)
        ∧ ∀ position finding, result.ledgerFindings[position]? = some finding →
          IsRepeated library.toLedgerLibrary (ledger.entries.map (·.id))
            (ledger.entries.length + position) finding := by
  have open_ : hasUnresolvedBlockingFindings
        (updatedLedger library ledger result currentIteration) = false
      ↔ (∀ entry ∈ ledger.entries, ¬StaysUnresolved result.ledgerEvaluations entry)
        ∧ addedEntries library.toLedgerLibrary .specReview currentIteration ledger.entries.length
          (ledger.entries.map (·.id)) result.ledgerFindings = [] := by
    unfold hasUnresolvedBlockingFindings updatedLedger
    rw [List.any_eq_false]
    constructor
    · intro closed
      refine ⟨fun entry member stays => ?_, List.eq_nil_iff_forall_not_mem.mpr ?_⟩
      · have evaluated : (evaluateEntry library.toLedgerLibrary result.ledgerEvaluations
            currentIteration entry).status = .unresolved :=
          evaluateEntry_unresolved.mpr stays
        exact closed _ (mem_updateFindingLedger.mpr (.inl ⟨entry, member, rfl⟩))
          (decide_eq_true evaluated)
      · intro entry added
        exact closed entry (mem_updateFindingLedger.mpr (.inr added))
          (decide_eq_true (addedEntries_unresolved entry added))
    · rintro ⟨closed, nothing⟩ entry member unresolved
      rcases mem_updateFindingLedger.mp member with ⟨old, stored, rfl⟩ | added
      · exact closed old stored (evaluateEntry_unresolved.mp (of_decide_eq_true unresolved))
      · rw [nothing] at added
        contradiction
  rw [addedEntries_eq_nil] at open_
  unfold effectiveVerdict
  cases FollowUpReviewResult.approves result with
  | false => simp
  | true =>
      rw [← open_]
      cases hasUnresolvedBlockingFindings
        (updatedLedger library ledger result currentIteration) <;> simp

end Ledger

-----------------------------------------------------------------------------------------
-- The prompt
-----------------------------------------------------------------------------------------

theorem joinTexts_cons (separator text : String) (texts : List String)
    : ∃ rest, joinTexts separator (text :: texts) = text ++ rest := by
  cases texts with
  | nil => exact ⟨"", by simp [joinTexts, String.intercalate_singleton]⟩
  | cons next rest =>
      refine ⟨separator ++ joinTexts separator (next :: rest), ?_⟩
      rw [joinTexts, String.intercalate_cons_cons, String.append_assoc]
      rfl

/-- The prompt shows whether the ledger has entries. -/
theorem formatLedgerForPrompt_eq_empty {library : LedgerLibrary} {ledger : FindingLedger}
    (shown : formatLedgerForPrompt library ledger = formatLedgerForPrompt library emptyLedger)
    : ledger.entries = [] := by
  by_contra entries
  have headed : ∃ heading rest, formatLedgerForPrompt library ledger = heading ++ rest
      ∧ heading.toList.head? = some '#' := by
    unfold formatLedgerForPrompt
    rw [if_neg entries]
    by_cases unresolved : ledger.entries.filter (·.status = .unresolved) = []
    · have resolved : ledger.entries.filter (·.status = .resolved) ≠ [] := by
        obtain ⟨entry, member⟩ := List.exists_mem_of_ne_nil _ entries
        refine List.ne_nil_of_mem (a := entry) (List.mem_filter.mpr ⟨member, ?_⟩)
        have closed := List.filter_eq_nil_iff.mp unresolved entry member
        cases status : entry.status <;> simp [status] at closed ⊢
      simp only [unresolved, resolved, if_true, if_false, List.nil_append]
      obtain ⟨rest, joined⟩ := joinTexts_cons "\n"
        "### PREVIOUSLY RESOLVED FINDINGS (REGRESSION CHECKLIST):" _
      exact ⟨_, rest, joined, by decide⟩
    · simp only [unresolved, if_false, List.cons_append]
      obtain ⟨rest, joined⟩ := joinTexts_cons "\n" "### UNRESOLVED BLOCKING FINDINGS:" _
      exact ⟨_, rest, joined, by decide⟩
  obtain ⟨heading, rest, formatted, starts⟩ := headed
  have empty : formatLedgerForPrompt library emptyLedger = "No review findings recorded." := rfl
  rw [formatted, empty] at shown
  have heads := congrArg (fun text => text.toList.head?) shown
  have other : "No review findings recorded.".toList.head? = some 'N' := by decide
  simp only [String.toList_append, List.head?_append, starts, Option.some_or, other] at heads
  exact absurd heads (by decide)

section Statements

variable {stored : Option LedgerText} {answered : Except HandlerError LedgerText}
  {result : FollowUpReviewResult} {library : FollowUpLibrary}
  {opts : FollowUpReviewHandlerOpts} {ctx : PhaseHandlerContext}

/-- The calls that neither tell the ledger nor are about it. -/
def FollowUpRequest.isPlain : FollowUpRequest → Bool
  | readLedger | runSingleShotAgentPhase _ | writeReview _ | writeLedger _ => false
  | _ => true

/-- Statements that keep the promise, with what is known about their value. -/
abbrev Quiet {α : Type} (library : FollowUpLibrary) (stored : Option LedgerText)
    (answered : Except HandlerError LedgerText) (result : FollowUpReviewResult)
    (after : α → Prop) (statements : FollowUpStatements α)
    : Prop :=
  statements.Yields (FollowUpRequest.replies answered result)
    (fun _ => Covered library stored result) (fun _ _ => True) (fun value _ _ => after value)
    fun _ _ => True

/-- Statements that may complete normally, with what their value may be. -/
abbrev Passes {α : Type} (answered : Except HandlerError LedgerText)
    (result : FollowUpReviewResult) (after : α → Prop) (statements : FollowUpStatements α)
    : Prop :=
  statements.Passes (FollowUpRequest.replies answered result) (fun _ _ => True)
    fun value _ _ => after value

theorem quiet_pure {α : Type} {value : α} {after : α → Prop} (holds : after value)
    : Quiet library stored answered result after (pure value) :=
  Block.yields_pure fun _ _ _ => holds

theorem quiet_bind {α β : Type} {middle : α → Prop} {after : β → Prop}
    {first : FollowUpStatements α} {next : α → FollowUpStatements β}
    (quiet : Quiet library stored answered result middle first)
    (rest : ∀ value, middle value → Quiet library stored answered result after (next value))
    : Quiet library stored answered result after (first >>= next) :=
  Block.yields_bind quiet fun value locals state holds => rest value holds locals state trivial

theorem quiet_attempt {α : Type} {after : α → Prop} {statements : FollowUpStatements α}
    {recover : HandlerError → FollowUpStatements α}
    (tried : Quiet library stored answered result after statements)
    (recovered : ∀ error, Quiet library stored answered result after (recover error))
    : Quiet library stored answered result after (Block.attempt statements recover) :=
  Block.yields_attempt tried recovered fun _ _ _ => trivial

theorem quiet_call {asked : FollowUpRequest} (covered : Covered library stored result asked)
    : Quiet library stored answered result (fun _ => True) (FollowUpReviewHandler.call asked) :=
  Block.yields_call (fun _ _ _ => covered) (fun _ _ _ _ _ _ => trivial)
    fun _ _ _ _ _ _ => trivial

theorem passes_call {asked : FollowUpRequest} {after : asked.Answer → Prop}
    (plain : asked.isPlain = true) (answer : asked.Answer) (holds : after answer)
    : Passes answered result after (FollowUpReviewHandler.call asked) := by
  refine Block.passes_call fun _ _ _ => ⟨answer, (), ?_, holds⟩
  cases asked <;> trivial

/-- Statements that are not about the ledger: they keep the promise, and may complete. -/
structure Plain {α : Type} (library : FollowUpLibrary) (stored : Option LedgerText)
    (answered : Except HandlerError LedgerText) (result : FollowUpReviewResult)
    (statements : FollowUpStatements α)
    : Prop where
  quiet : Quiet library stored answered result (fun _ => True) statements
  passes : Passes answered result (fun _ => True) statements

theorem plain_pure {α : Type} {value : α} : Plain library stored answered result (pure value) :=
  { quiet := quiet_pure trivial, passes := Block.passes_pure fun _ _ _ => trivial }

theorem plain_bind {α β : Type} {first : FollowUpStatements α}
    {next : α → FollowUpStatements β} (plain : Plain library stored answered result first)
    (rest : ∀ value, Plain library stored answered result (next value))
    : Plain library stored answered result (first >>= next) :=
  {
    quiet := quiet_bind plain.quiet fun value _ => (rest value).quiet
    passes := Block.passes_bind plain.passes fun value => (rest value).passes
  }

theorem plain_attempt {α : Type} {statements : FollowUpStatements α}
    {recover : HandlerError → FollowUpStatements α}
    (tried : Plain library stored answered result statements)
    (recovered : ∀ error, Quiet library stored answered result (fun _ => True) (recover error))
    : Plain library stored answered result (Block.attempt statements recover) :=
  {
    quiet := quiet_attempt tried.quiet recovered
    passes := Block.passes_attempt tried.passes
  }

theorem plain_call {asked : FollowUpRequest} (plain : asked.isPlain = true)
    : Plain library stored answered result (FollowUpReviewHandler.call asked) := by
  have covered : Covered library stored result asked := by
    cases asked <;> trivial
  have answer : Nonempty asked.Answer := by
    cases asked with
    | readLedger => exact ⟨.malformed⟩
    | readCriticalFiles => exact ⟨.other⟩
    | now => exact ⟨Date.epoch⟩
    | verifyValidationFreshness => exact ⟨{ fresh := true }⟩
    | runSingleShotAgentPhase => exact ⟨.notPassed .passed⟩
    | readArtifact | diff | resolveProfile | loadPromptTemplate | headCommitSha => exact ⟨""⟩
    | listOrchestratorOwnedUntrackedPaths => exact ⟨[]⟩
    | publish | writeArtifact | writeReview | writeLedger => exact ⟨()⟩
  exact { quiet := quiet_call covered, passes := passes_call plain answer.some trivial }

theorem plain_map {α β : Type} {f : α → β} {statements : FollowUpStatements α}
    (plain : Plain library stored answered result statements)
    : Plain library stored answered result (f <$> statements) :=
  plain_bind plain fun _ => plain_pure

theorem plain_ite {α : Type} {condition : Prop} [Decidable condition]
    {first second : FollowUpStatements α}
    (taken : condition → Plain library stored answered result first)
    (skipped : ¬condition → Plain library stored answered result second)
    : Plain library stored answered result (if condition then first else second) := by
  by_cases holds : condition
  · simpa [holds] using taken holds
  · simpa [holds] using skipped holds

theorem plain_emit {type message : String} {level : EventLevel}
    : Plain library stored answered result (emit ctx type level message) :=
  plain_bind (plain_call rfl) fun _ => plain_call rfl

theorem plain_fail {kind : FailureKind} {message suggestedAction : String}
    : Plain library stored answered result (fail ctx kind message suggestedAction) :=
  plain_bind (plain_call rfl) fun _ => plain_bind plain_emit fun _ => plain_pure

theorem plain_conclude {review : FollowUpReviewResult} {updated : FindingLedger}
    : Plain library stored answered result (conclude ctx review updated) := by
  refine plain_ite (fun _ => ?_) fun _ => plain_ite (fun _ => ?_) fun _ => ?_
  · exact plain_bind (plain_call rfl) fun _ => plain_bind plain_emit fun _ => plain_pure
  · exact plain_bind plain_emit fun _ => plain_pure
  · exact plain_bind plain_emit fun _ => plain_bind plain_emit fun _ => plain_pure

theorem plain_collectDiffs : Plain library stored answered result (collectDiffs ctx) := by
  refine plain_attempt (plain_bind (plain_call rfl) fun completeDiff => ?_)
    fun _ => quiet_pure trivial
  refine plain_bind (plain_attempt (plain_map (plain_call rfl)) fun _ => quiet_pure trivial)
    fun priorHeadSha => ?_
  split
  · exact plain_bind (plain_call rfl) fun _ => plain_pure
  · exact plain_pure

theorem plain_resolveFirst {phases : List String}
    : Plain library stored answered result (resolveFirst opts phases) := by
  induction phases with
  | nil => exact plain_pure
  | cons phase rest ih =>
      have resolves : Plain library stored answered result (resolve phase) := by
        refine plain_attempt (plain_map (plain_call rfl)) fun error => ?_
        cases error with
        | pinnedRuntimeResolution => exact Block.yields_throw fun _ _ _ => trivial
        | artifactNotFound => exact quiet_pure trivial
        | error => exact quiet_pure trivial
      refine plain_bind resolves fun profile => ?_
      cases profile with
      | some profile => exact plain_pure
      | none => exact ih

theorem plain_loadTemplate : Plain library stored answered result (loadTemplate ctx) := by
  unfold loadTemplate
  cases truthy ctx.promptsRoot with
  | none => exact plain_pure
  | some promptsRoot =>
      exact plain_attempt (plain_map (plain_call rfl)) fun _ => quiet_pure trivial

theorem plain_loadCriticalFiles : Plain library stored answered result loadCriticalFiles := by
  refine plain_attempt (plain_bind (plain_call rfl) fun raw => ?_) fun _ => quiet_pure trivial
  cases raw with
  | json files => exact plain_pure
  | other => exact plain_pure

theorem plain_ifThen {condition : Bool} {statements : FollowUpStatements Unit}
    (plain : Plain library stored answered result statements)
    : Plain library stored answered result (Block.ifThen condition statements) := by
  cases condition with
  | true => exact plain
  | false => exact plain_pure

theorem quiet_readIssue : Quiet library stored answered result (fun _ => True) readIssue := by
  refine quiet_attempt (plain_bind (plain_call rfl) fun _ => plain_pure).quiet fun error => ?_
  cases error with
  | artifactNotFound => exact quiet_pure trivial
  | pinnedRuntimeResolution => exact quiet_pure trivial
  | error => exact quiet_pure trivial

theorem passes_readIssue : Passes answered result (· = none) readIssue := by
  have reads : Passes answered result (fun _ => True)
      (FollowUpReviewHandler.call (.readArtifact "issue.md")) :=
    passes_call rfl "" trivial
  exact Block.passes_attempt (Block.passes_bind reads fun _ => Block.passes_pure fun _ _ _ => rfl)

/-- The ledger that the handler goes on with. -/
def seenLedger : Except HandlerError LedgerText → FindingLedger
  | .ok (.json ledger) => ledger
  | _ => emptyLedger

theorem quiet_loadLedger
    : Quiet library stored answered result (· = seenLedger answered) loadLedger := by
  intro locals state _
  unfold loadLedger
  refine Block.ensures_attempt.mpr (Block.ensures_bind.mpr (Block.ensures_call.mpr ?_))
  refine ⟨trivial, fun answer _ told => ?_, fun error _ told => ?_⟩
  · cases answer with
    | json ledger => exact told ▸ rfl
    | malformed => exact told ▸ rfl
  · exact told ▸ rfl

theorem passes_loadLedger
    : Passes answered result (· = seenLedger answered) loadLedger := by
  intro locals state _
  refine ⟨seenLedger answered, locals, state, ?_, rfl⟩
  cases answered with
  | error error => exact .ask rfl .done
  | ok text =>
      cases text with
      | json ledger => exact .ask rfl .done
      | malformed => exact .ask rfl .done

-----------------------------------------------------------------------------------------
-- The reviewer and what is recorded
-----------------------------------------------------------------------------------------

theorem lookup_promptVars {ledger : FindingLedger} {freshness : ValidationFreshnessResult}
    {completeDiff fixDiff : String} {criticalFiles : List ValidationCriticalFile}
    {ownedPaths : List String}
    : (promptVars library ctx ledger freshness completeDiff fixDiff criticalFiles
        ownedPaths).lookup "finding_ledger"
      = some (formatLedgerForPrompt library.toLedgerLibrary ledger) :=
  rfl

/-- The answers to the read come from the store. -/
def FromStore (stored : Option LedgerText) (answered : Except HandlerError LedgerText) : Prop :=
  ∀ text, answered = .ok text → stored = some text

theorem LedgerShown.entries {ledger : FindingLedger} (shown : LedgerShown stored answered ledger)
    (fromStore : FromStore stored answered)
    : (seenLedger answered).entries = ledger.entries := by
  obtain ⟨kept, empty | read⟩ := shown
  · cases answered with
    | error error => exact empty.symm
    | ok text =>
        rw [fromStore text rfl] at kept
        cases text with
        | json seen => exact Option.some.inj kept ▸ rfl
        | malformed => contradiction
  · rw [read]
    rfl

/-- Only a ledger that can be read, or has no entries, is shown to the reviewer. -/
theorem ledgerShown_of_shown {ledger : FindingLedger} (kept : storedLedger stored = some ledger)
    (fromStore : FromStore stored answered)
    (shown : formatLedgerForPrompt library.toLedgerLibrary (seenLedger answered)
      = formatLedgerForPrompt library.toLedgerLibrary ledger)
    : LedgerShown stored answered ledger := by
  refine ⟨kept, ?_⟩
  cases answered with
  | error error => exact .inl (formatLedgerForPrompt_eq_empty shown.symm)
  | ok text =>
      rw [fromStore text rfl] at kept
      cases text with
      | json seen => exact .inr (Option.some.inj kept ▸ rfl)
      | malformed => contradiction

theorem formatLedgerForPrompt_congr {ledger other : FindingLedger}
    (same : ledger.entries = other.entries)
    : formatLedgerForPrompt library.toLedgerLibrary ledger
      = formatLedgerForPrompt library.toLedgerLibrary other := by
  unfold formatLedgerForPrompt
  rw [same]

section Recorded

variable {ledger : FindingLedger} (shown : LedgerShown stored answered ledger)
  (fromStore : FromStore stored answered)
include shown fromStore

/-- Where the findings are noticed, an approval that is written keeps its promise. -/
theorem covered_writeReview {currentIteration : Int}
    (notices : NoticesFindings library.toLedgerLibrary ledger result)
    : let updated := updatedLedger library (seenLedger answered) result currentIteration
      Covered library stored result
        (.writeReview { result with verdict := effectiveVerdict result updated }) := by
  intro updated approved
  obtain ⟨approves, closed, repeated⟩ := effectiveVerdict_eq_approve.mp approved
  rw [shown.entries fromStore] at closed repeated
  refine ⟨ledger, shown.1, approves, fun entry member unresolved => ?_, ?_⟩
  · exact resolved_of_not_stays (closed entry member) unresolved
  · intro finding reported
    by_contra blocking
    obtain ⟨position, other, there, fresh⟩ := notices approves closed ⟨finding, reported, blocking⟩
    exact fresh (repeated position other there)

theorem covered_writeLedger {currentIteration : Int}
    : Covered library stored result
        (.writeLedger (updatedLedger library (seenLedger answered) result currentIteration)) := by
  refine ⟨ledger, shown.1, fun entry member => ?_⟩
  rw [← shown.entries fromStore] at member
  exact ⟨_, mem_updateFindingLedger.mpr (.inl ⟨entry, member, rfl⟩), sameFinding_evaluateEntry⟩

theorem quiet_recordReview {currentIteration : Int}
    (notices : NoticesFindings library.toLedgerLibrary ledger result)
    : Quiet library stored answered result (fun _ => True)
        (recordReview library ctx (seenLedger answered) result currentIteration) := by
  have persists : Quiet library stored answered result (fun _ => True)
      (persist library { result with
        verdict := effectiveVerdict result
          (updatedLedger library (seenLedger answered) result currentIteration) }
        (updatedLedger library (seenLedger answered) result currentIteration)) := by
    refine quiet_bind (quiet_call trivial) fun _ _ => ?_
    refine quiet_bind (quiet_call (covered_writeReview shown fromStore notices)) fun _ _ => ?_
    refine quiet_bind (quiet_call (covered_writeLedger shown fromStore)) fun _ _ => ?_
    refine quiet_bind (plain_attempt (plain_map (plain_call rfl)) fun _ =>
      quiet_pure trivial).quiet fun _ _ => ?_
    split
    · exact quiet_call trivial
    · exact quiet_pure trivial
  have tried : Quiet library stored answered result (fun _ => True)
      (tryPersist library { result with
        verdict := effectiveVerdict result
          (updatedLedger library (seenLedger answered) result currentIteration) }
        (updatedLedger library (seenLedger answered) result currentIteration)) :=
    quiet_attempt (quiet_bind persists fun _ _ => quiet_pure trivial) fun _ => quiet_pure trivial
  refine quiet_bind tried fun failure _ => ?_
  cases failure with
  | some error => exact plain_fail.quiet
  | none => exact plain_conclude.quiet

end Recorded

theorem Plain.advance {α β : Type} {first : FollowUpStatements α}
    {next : α → FollowUpStatements β}
    {post : Completion HandlerError Empty β → Unit → Unit → Prop} {locals state : Unit}
    (plain : Plain library stored answered result first)
    (ensured : (first >>= next).Ensures (FollowUpRequest.replies answered result)
      (fun _ => Covered library stored result) post locals state)
    : ∃ value, (next value).Ensures (FollowUpRequest.replies answered result)
        (fun _ => Covered library stored result) post () () := by
  obtain ⟨value, _, _, -, rest⟩ := ensured.advance plain.passes trivial
  exact ⟨value, rest⟩

/-- An execution of the record writes the review with the effective verdict. -/
theorem covered_of_recordReview {ledger : FindingLedger} {currentIteration : Int}
    {post : Completion HandlerError Empty PhaseResult → Unit → Unit → Prop}
    {locals state : Unit}
    (ensured : (recordReview library ctx ledger result currentIteration).Ensures
      (FollowUpRequest.replies answered result) (fun _ => Covered library stored result) post locals
      state)
    : let updated := updatedLedger library ledger result currentIteration
      Covered library stored result
        (.writeReview { result with verdict := effectiveVerdict result updated }) := by
  have attempted := Block.ensures_attempt.mp (Block.ensures_bind.mp ensured)
  have persisted := Block.ensures_bind.mp (Block.ensures_bind.mp attempted)
  have summarized := (Block.ensures_call.mp persisted).2.1 () () trivial
  exact (Block.ensures_call.mp (Block.ensures_bind.mp summarized)).1

/-- Where a review is ensured to keep the promise, the reviewer is shown the stored ledger, and
an approval keeps its promise.
-/
theorem covered_of_review {ledger : FindingLedger} {currentIteration : Int}
    {completeDiff fixDiff : String} {freshness : ValidationFreshnessResult}
    {post : Completion HandlerError Empty PhaseResult → Unit → Unit → Prop}
    {locals state : Unit} (resolves : ctx.resolvesProfiles = true)
    (ensured : (review library opts ctx ledger currentIteration completeDiff fixDiff
      freshness).Ensures (FollowUpRequest.replies answered result)
      (fun _ => Covered library stored result) post locals state)
    : (∃ kept, storedLedger stored = some kept
        ∧ formatLedgerForPrompt library.toLedgerLibrary ledger
          = formatLedgerForPrompt library.toLedgerLibrary kept)
      ∧ let updated := updatedLedger library ledger result currentIteration
        Covered library stored result
          (.writeReview { result with verdict := effectiveVerdict result updated }) := by
  unfold review at ensured
  rw [resolves] at ensured
  have resolved : Plain library stored answered result (resolveFirst opts
      ["follow-up-review", "spec-review", "quality-review", "pr-reviewer", "implement"]) :=
    plain_resolveFirst
  have listed : Plain library stored answered result
      (FollowUpReviewHandler.call .listOrchestratorOwnedUntrackedPaths) :=
    plain_call rfl
  have cut : Plain library stored answered result
      (Block.ifThen (exceedsBudget completeDiff || exceedsBudget fixDiff)
        (emit ctx "follow_up_review.diff_truncated" .warn
          "diff text truncated to fit prompt budget")) :=
    plain_ifThen plain_emit
  obtain ⟨profile, ensured⟩ := resolved.advance ensured
  obtain ⟨template, ensured⟩ := plain_loadTemplate.advance ensured
  obtain ⟨ownedPaths, ensured⟩ := listed.advance ensured
  obtain ⟨criticalFiles, ensured⟩ := plain_loadCriticalFiles.advance ensured
  obtain ⟨_, ensured⟩ := cut.advance ensured
  have asked := Block.ensures_call.mp (Block.ensures_bind.mp ensured)
  refine ⟨?_, covered_of_recordReview (asked.2.1 (.passed result) () rfl)⟩
  obtain ⟨kept, there, shown⟩ := asked.1
  rw [lookup_promptVars] at shown
  exact ⟨kept, there, Option.some.inj shown⟩

theorem quiet_review {ledger : FindingLedger} {currentIteration : Int}
    {completeDiff fixDiff : String} {freshness : ValidationFreshnessResult}
    (shown : LedgerShown stored answered ledger) (fromStore : FromStore stored answered)
    (notices : NoticesFindings library.toLedgerLibrary ledger result)
    : Quiet library stored answered result (fun _ => True)
        (review library opts ctx (seenLedger answered) currentIteration completeDiff fixDiff
          freshness) := by
  refine Block.yields_ite (fun _ => plain_fail.quiet) fun _ => ?_
  refine quiet_bind plain_resolveFirst.quiet fun profile _ => ?_
  refine quiet_bind plain_loadTemplate.quiet fun template _ => ?_
  refine quiet_bind (plain_call rfl).quiet fun ownedPaths _ => ?_
  refine quiet_bind plain_loadCriticalFiles.quiet fun criticalFiles _ => ?_
  refine quiet_bind (plain_ifThen plain_emit).quiet fun _ _ => ?_
  have asked : Quiet library stored answered result
      (fun ended => ∀ given, ended = .passed given → given = result)
      (FollowUpReviewHandler.call (.runSingleShotAgentPhase {
        profile
        template := truthy template
        vars := promptVars library ctx (seenLedger answered) freshness completeDiff fixDiff
          criticalFiles ownedPaths
      })) := by
    refine Block.yields_call (fun _ _ _ => ⟨ledger, shown.1, ?_⟩) ?_ fun _ _ _ _ _ _ => trivial
    · rw [lookup_promptVars, formatLedgerForPrompt_congr (shown.entries fromStore)]
    · rintro _ _ _ ended - replied given rfl
      exact replied
  refine quiet_bind asked fun runResult told => ?_
  cases runResult with
  | notPassed failed => exact (plain_bind plain_emit fun _ => plain_pure).quiet
  | passed given =>
      rw [told given rfl]
      exact quiet_recordReview shown fromStore notices

/-- A review that covers the ledger was shown the stored one, and notices the findings that have
the fingerprint of a resolved one.
-/
theorem shown_of_covers (fromStore : FromStore stored answered)
    (resolves : ctx.resolvesProfiles = true)
    (whole : (run library opts ctx).Ensures (FollowUpRequest.replies answered result)
      (fun _ => Covered library stored result) (fun _ _ _ => True) () ())
    : ∃ ledger, LedgerShown stored answered ledger
        ∧ NoticesFindings library.toLedgerLibrary ledger result := by
  have fresh : Passes answered result (fun freshness => freshness.fresh = true)
      (FollowUpReviewHandler.call .verifyValidationFreshness) :=
    passes_call rfl { fresh := true } rfl
  obtain ⟨_, loads⟩ := plain_emit.advance whole
  obtain ⟨ledger, _, _, rfl, reads⟩ := loads.advance passes_loadLedger trivial
  obtain ⟨missing, _, _, rfl, collects⟩ := reads.advance passes_readIssue trivial
  obtain ⟨diffs, verifies⟩ := plain_collectDiffs.advance collects
  obtain ⟨freshness, _, _, isFresh, reviews⟩ := verifies.advance fresh trivial
  rw [if_neg (by simp [isFresh])] at reviews
  obtain ⟨⟨ledger, kept, shown⟩, covered⟩ := covered_of_review resolves reviews
  have seen := ledgerShown_of_shown kept fromStore shown
  refine ⟨ledger, seen, fun approves closed ⟨finding, reported, blocking⟩ => ?_⟩
  by_contra unnoticed
  have repeated (position : Nat) (other : ReviewFinding)
      (there : result.ledgerFindings[position]? = some other)
      : IsRepeated library.toLedgerLibrary (ledger.entries.map (·.id))
          (ledger.entries.length + position) other := by
    by_contra fresh
    exact unnoticed ⟨position, other, there, fresh⟩
  rw [← seen.entries fromStore] at closed repeated
  obtain ⟨_, _, approval⟩ := covered (effectiveVerdict_eq_approve.mpr ⟨approves, closed, repeated⟩)
  exact blocking (approval.nothingNew finding reported)

theorem covers_of_shown (fromStore : FromStore stored answered)
    (covers : ctx.resolvesProfiles = true → ∃ ledger, LedgerShown stored answered ledger
      ∧ NoticesFindings library.toLedgerLibrary ledger result)
    : Quiet library stored answered result (fun _ => True) (run library opts ctx) := by
  refine quiet_bind plain_emit.quiet fun _ _ => ?_
  refine quiet_bind quiet_loadLedger fun ledger seen => ?_
  subst seen
  refine quiet_bind quiet_readIssue fun missingIssue _ => ?_
  cases missingIssue with
  | some message => exact plain_fail.quiet
  | none =>
      refine quiet_bind plain_collectDiffs.quiet fun diffs _ => ?_
      refine quiet_bind (plain_call rfl).quiet fun freshness _ => ?_
      refine Block.yields_ite (fun _ => plain_fail.quiet) fun _ => ?_
      cases resolves : ctx.resolvesProfiles with
      | true =>
          obtain ⟨ledger, shown, notices⟩ := covers resolves
          exact quiet_review shown fromStore notices
      | false =>
          refine Block.yields_ite (fun _ => plain_fail.quiet) fun available => ?_
          rw [resolves] at available
          contradiction

/-- A follow-up review covers the whole ledger if and only if it shows the stored one to the
reviewer, and notices the findings that have the fingerprint of a resolved one.
-/
theorem follow_up_review_covers_ledger (library : FollowUpLibrary)
    (opts : FollowUpReviewHandlerOpts) (ctx : PhaseHandlerContext)
    {stored : Option LedgerText} {answered : Except HandlerError LedgerText}
    (fromStore : FromStore stored answered) (result : FollowUpReviewResult)
    : Program.Ensures (FollowUpRequest.replies answered result)
        (fun _ => Covered library stored result) (fun _ _ => True) (run library opts ctx ()) ()
      ↔ (ctx.resolvesProfiles = true → ∃ ledger, LedgerShown stored answered ledger
          ∧ NoticesFindings library.toLedgerLibrary ledger result) := by
  constructor
  · intro ensured resolves
    exact shown_of_covers fromStore resolves ensured
  · intro covers
    exact Program.Ensures.mono (covers_of_shown fromStore covers () () trivial)
      (fun _ _ covered => covered) fun _ _ _ => trivial

end Statements

-----------------------------------------------------------------------------------------
-- A ledger that cannot be read
-----------------------------------------------------------------------------------------

def digestLibrary : FollowUpLibrary :=
  { catchLibrary with toLocaleString := toString }

def reviewContext : PhaseHandlerContext :=
  { runId := "run", runUuid := "uuid", issueNumber := 1, cwd := "worktree" }

/-- The reviewer resolves the finding of the stored ledger, and reports nothing new. -/
def resolvingResult : FollowUpReviewResult :=
  {
    verdict := .APPROVE
    evaluations := [{ findingId := "F-944ee0eb", resolved := true, evidence := "try/catch added" }]
  }

/-- The read of a stored ledger with an open finding fails, and the reviewer, who is shown an
empty one, approves.
-/
theorem unreadable_ledger_is_approved
    : ¬∀ (library : FollowUpLibrary) (opts : FollowUpReviewHandlerOpts)
        (ctx : PhaseHandlerContext) (ledger : FindingLedger)
        (answered : Except HandlerError LedgerText) (result : FollowUpReviewResult),
        ledger.Keyed → FromStore (some (.json ledger)) answered →
        Program.Ensures (FollowUpRequest.replies answered result)
          (fun _ => Covered library (some (.json ledger)) result) (fun _ _ => True)
          (run library opts ctx ()) () := by
  intro claim
  have keyed : catchLedger.Keyed := by
    have run : (ledgerSystem catchLibrary).Run [] catchLedger := .start ⟨_, _, _, rfl⟩
    exact keyed_of_run run
  have fromStore : FromStore (some (.json catchLedger)) (.error (.error "EIO")) := nofun
  have ensured := claim digestLibrary {} reviewContext catchLedger _ { verdict := .APPROVE } keyed
    fromStore
  obtain ⟨ledger, ⟨kept, empty | read⟩, -⟩ := shown_of_covers fromStore rfl ensured
  · rw [← Option.some.inj kept] at empty
    exact absurd empty (by decide +kernel)
  · exact nomatch read

/-- The stored ledger is read, and its finding is resolved. -/
theorem follow_up_review_covers_ledger_resolved
    : Program.Ensures
        (FollowUpRequest.replies (.ok (.json catchLedger)) resolvingResult)
        (fun _ => Covered digestLibrary (some (.json catchLedger)) resolvingResult)
        (fun _ _ => True) (run digestLibrary {} reviewContext ()) () := by
  have fromStore : FromStore (some (.json catchLedger)) (.ok (.json catchLedger)) := by
    rintro text ⟨⟩
    rfl
  refine (follow_up_review_covers_ledger digestLibrary {} reviewContext fromStore
    resolvingResult).mpr fun _ => ⟨catchLedger, ⟨rfl, .inr rfl⟩, ?_⟩
  rintro - - ⟨finding, reported, -⟩
  contradiction

end AiSdlc.Application
