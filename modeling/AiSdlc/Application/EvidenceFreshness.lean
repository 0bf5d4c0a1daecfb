import AiSdlc.Async.Beside
import AiSdlc.Application.SourceFingerprint
import AiSdlc.Transition.System

/-! What a fresh verification tells about the worktree: it has the sources of one for which the
passed validation was recorded, while git can be asked; a status that git does not tell counts as
that of a clean worktree.
-/

namespace AiSdlc.Application

open AiSdlc.Js
open AiSdlc.Async
open AiSdlc.Transition

/-- What happens to a run: its worktree is edited or committed, its validation is recorded or
invalidated, or another artifact than the fingerprint is written.
-/
inductive EvidenceStep
  | edit (worktree : WorktreeState)
  | record (phaseId : String)
  | invalidate (phaseId : String)
  | write (relativePath contents : String)

section Histories

variable (quoted : String → List Char) (decode : List Nat → String) (sha256 : String → String)

def EvidenceStep.takes (condition : ReplyCondition) (state : EvidenceState)
    : EvidenceStep → EvidenceState → Prop
  | .edit worktree, next => next = { state with worktree }
  | .record phaseId, next =>
      ∃ ended, (ValidationEvidence.recordValidationEvidence decode sha256 phaseId []).Exec
        (EvidenceState.Answers quoted condition) state ended next
  | .invalidate phaseId, next =>
      ∃ ended, (ValidationEvidence.invalidateValidationEvidence phaseId []).Exec
        (EvidenceState.Answers quoted condition) state ended next
  | .write relativePath contents, next =>
      relativePath ≠ validationFingerprintArtifact
      ∧ next = {
        state with artifacts := Function.update state.artifacts relativePath (some contents)
      }

/-- A run starts without evidence. -/
def evidenceSystem (condition : ReplyCondition) : System EvidenceState EvidenceStep :=
  {
    initial := fun state => (∀ relativePath, state.artifacts relativePath = none)
      ∧ state.standing = []
    step := fun state step next => step.takes quoted decode sha256 condition state next
  }

end Histories

section Runs

open ValidationEvidence

variable {quoted : String → List Char} {decode : List Nat → String} {sha256 : String → String}
  {condition : ReplyCondition} {state : EvidenceState}

/-- The recorded fingerprint shows one of the standing worktrees, but its HEAD may be missing. -/
def Vouched (quoted : String → List Char) (decode : List Nat → String)
    (sha256 : String → String) (state : EvidenceState)
    : Prop :=
  ∀ contents, state.artifacts validationFingerprintArtifact = some contents →
    trim contents ≠ "" → ∃ recorded ∈ state.standing, recorded.Readable quoted decode
      ∧ ∃ headSha, (headSha = recorded.head ∨ headSha = "")
        ∧ trim contents = recorded.fingerprint sha256 headSha

theorem Vouched.of_same {next : EvidenceState} (vouched : Vouched quoted decode sha256 state)
    (same : next.artifacts validationFingerprintArtifact
      = state.artifacts validationFingerprintArtifact)
    (kept : ∀ recorded ∈ state.standing, recorded ∈ next.standing)
    : Vouched quoted decode sha256 next := by
  intro contents found filled
  obtain ⟨recorded, stands, shown⟩ := vouched contents (same ▸ found) filled
  exact ⟨recorded, kept recorded stands, shown⟩

theorem EvidenceState.artifacts_written {relativePath contents : String}
    : (state.written relativePath contents).artifacts relativePath = some contents := by
  simp [EvidenceState.written]

theorem EvidenceState.artifacts_completed {relativePath contents : String}
    : (state.completed relativePath contents).artifacts relativePath = some contents := by
  unfold EvidenceState.completed
  split <;> exact EvidenceState.artifacts_written

theorem EvidenceState.standing_written {relativePath contents : String} {recorded : WorktreeState}
    (stands : recorded ∈ state.standing)
    : recorded ∈ (state.written relativePath contents).standing := by
  unfold EvidenceState.written
  dsimp only
  split
  · exact List.mem_cons_of_mem _ stands
  · exact stands

theorem Vouched.written (vouched : Vouched quoted decode sha256 state)
    {relativePath contents : String} (other : relativePath ≠ validationFingerprintArtifact)
    : Vouched quoted decode sha256 (state.written relativePath contents) := by
  exact vouched.of_same (Function.update_of_ne other.symm _ _)
    fun _ stands => EvidenceState.standing_written stands

theorem EvidenceState.completed_of_other {relativePath contents : String}
    (other : relativePath ≠ validationFingerprintArtifact)
    : state.completed relativePath contents = state.written relativePath contents :=
  if_neg fun same => other same.1

/-- A fingerprint that was taken back shows nothing. -/
theorem vouched_of_empty
    (empty : state.artifacts validationFingerprintArtifact = some "")
    : Vouched quoted decode sha256 state := by
  intro contents found filled
  obtain rfl := Option.some.inj (empty.symm.trans found)
  exact absurd (by decide) filled

theorem trim_append_newline {text : String}
    (plain : ∀ char ∈ text.toList, isWhitespace char = false)
    : trim (text ++ "\n") = text := by
  have space : isWhitespace '\n' = true := by decide
  have ends : text.toList.rdropWhile isWhitespace = text.toList := by
    rw [List.rdropWhile_eq_self_iff]
    intro nonempty
    simp [plain _ (List.getLast_mem nonempty)]
  have starts : (text.toList ++ ['\n']).dropWhile isWhitespace
      = if text.toList = [] then [] else text.toList ++ ['\n'] := by
    cases chars : text.toList with
    | nil => simp [space]
    | cons first rest => simp [plain first (by simp [chars])]
  rw [trim, String.toList_append]
  change String.ofList (((text.toList ++ ['\n']).dropWhile isWhitespace).rdropWhile isWhitespace)
    = text
  rw [starts]
  split
  next empty => simpa using (String.toList_injective (by simpa using empty.symm))
  next => rw [List.rdropWhile_concat_pos _ _ _ space, ends, String.ofList_toList]

theorem vouched_of_fingerprint (digests : Digests sha256) {recorded : WorktreeState}
    {headSha : String} (stands : recorded ∈ state.standing)
    (readable : recorded.Readable quoted decode)
    (told : headSha = recorded.head ∨ headSha = "")
    (written : state.artifacts validationFingerprintArtifact
      = some s!"{recorded.fingerprint sha256 headSha}\n")
    : Vouched quoted decode sha256 state := by
  intro contents found filled
  obtain rfl := Option.some.inj (written.symm.trans found)
  have digits : ∀ char ∈ "0123456789abcdef".toList, isWhitespace char = false := by decide
  have plain : ∀ char ∈ (recorded.fingerprint sha256 headSha).toList,
      isWhitespace char = false :=
    fun char held => digits char ((digests.hexadecimal _).2 char held)
  exact ⟨recorded, stands, readable, headSha, told, trim_append_newline plain⟩

/-- A write is completed, or throws and may have taken effect. -/
theorem triple_write {phaseId relativePath contents : String}
    {before after exit : EvidenceState → Prop}
    (completes : ∀ state, before state → after (state.completed relativePath contents))
    (writes : ∀ state, before state → exit (state.written relativePath contents))
    (keeps : ∀ state, before state → exit state)
    : (call (.writeArtifact phaseId relativePath contents)).Triple
        (EvidenceState.Answers quoted condition) (fun _ _ => True) (fun _ => before)
        (fun _ => after) fun _ => exit := by
  intro locals state holds
  refine Block.ensures_call.mpr ⟨trivial, ?_, ?_⟩
  · rintro answer next ⟨-, rfl⟩
    exact completes state holds
  · rintro error next ⟨-, rfl | rfl⟩
    · exact keeps _ holds
    · exact writes state holds

/-- An invalidation keeps what vouches for the fingerprint, or takes the fingerprint back. -/
theorem triple_invalidate (condition : ReplyCondition) (phaseId : String)
    : (invalidateValidationEvidence phaseId).Triple (EvidenceState.Answers quoted condition)
        (fun _ _ => True) (fun _ => Vouched quoted decode sha256)
        (fun _ => Vouched quoted decode sha256) fun _ => Vouched quoted decode sha256 := by
  have other : validationResultArtifact ≠ validationFingerprintArtifact := by decide
  refine Block.keeps_attempt (Block.keeps_bind (triple_write ?_ ?_ ?_) fun _ =>
    triple_write ?_ ?_ ?_) (fun _ => Block.keeps_pure) fun _ _ vouched => vouched
  · intro state vouched
    rw [EvidenceState.completed_of_other other]
    exact vouched.written other
  · exact fun state vouched => vouched.written other
  · exact fun _ vouched => vouched
  · exact fun state _ => vouched_of_empty EvidenceState.artifacts_completed
  · exact fun state _ => vouched_of_empty EvidenceState.artifacts_written
  · exact fun _ vouched => vouched

theorem standing_of_passed (state : EvidenceState)
    : state.worktree ∈ (state.written validationResultArtifact "passed\n").standing := by
  rw [EvidenceState.written, if_pos ⟨rfl, rfl⟩]
  exact List.mem_cons_self

theorem EvidenceState.completed_of_filled {relativePath contents : String}
    (filled : contents ≠ "")
    : state.completed relativePath contents = state.written relativePath contents :=
  if_neg fun same => filled same.2

/-- The three writes of a record, for the fingerprint of its worktree. -/
theorem triple_writes {phaseId currentSha headSha : String} (digests : Digests sha256)
    (vouched : Vouched quoted decode sha256 state)
    (readable : state.worktree.Readable quoted decode)
    (told : headSha = state.worktree.head ∨ headSha = "")
    : (do
        call (.writeArtifact phaseId validationHeadshaArtifact s!"{currentSha}\n")
        call (.writeArtifact phaseId validationResultArtifact "passed\n")
        call (.writeArtifact phaseId validationFingerprintArtifact
          s!"{state.worktree.fingerprint sha256 headSha}\n")
        : EvidenceStatements Unit).Triple (EvidenceState.Answers quoted condition)
        (fun _ _ => True) (fun _ after => after = state)
        (fun _ => Vouched quoted decode sha256) fun _ => Vouched quoted decode sha256 := by
  have head : validationHeadshaArtifact ≠ validationFingerprintArtifact := by decide
  have passed : validationResultArtifact ≠ validationFingerprintArtifact := by decide
  let opened (after : EvidenceState) : Prop :=
    Vouched quoted decode sha256 after ∧ after.worktree = state.worktree
  let recorded (after : EvidenceState) : Prop :=
    Vouched quoted decode sha256 after ∧ state.worktree ∈ after.standing
  have first : (call (.writeArtifact phaseId validationHeadshaArtifact s!"{currentSha}\n")).Triple
      (EvidenceState.Answers quoted condition) (fun _ _ => True) (fun _ after => after = state)
      (fun _ => opened) fun _ => Vouched quoted decode sha256 := by
    refine triple_write ?_ ?_ ?_
    · rintro after rfl
      rw [EvidenceState.completed_of_other head]
      exact ⟨vouched.written head, rfl⟩
    · rintro after rfl
      exact vouched.written head
    · rintro after rfl
      exact vouched
  have second : (call (.writeArtifact phaseId validationResultArtifact "passed\n")).Triple
      (EvidenceState.Answers quoted condition) (fun _ _ => True) (fun _ => opened)
      (fun _ => recorded) fun _ => Vouched quoted decode sha256 := by
    refine triple_write ?_ ?_ ?_
    · rintro after ⟨holds, same⟩
      rw [EvidenceState.completed_of_other passed]
      exact ⟨holds.written passed, same ▸ standing_of_passed after⟩
    · exact fun _ holds => holds.1.written passed
    · exact fun _ holds => holds.1
  have written (after : EvidenceState) (holds : recorded after)
      : Vouched quoted decode sha256 (after.written validationFingerprintArtifact
        s!"{state.worktree.fingerprint sha256 headSha}\n") :=
    vouched_of_fingerprint digests (EvidenceState.standing_written holds.2) readable told
      EvidenceState.artifacts_written
  refine Block.triple_bind first fun _ => Block.triple_bind second fun _ => triple_write ?_ ?_ ?_
  · intro after holds
    rw [EvidenceState.completed_of_filled]
    · exact written after holds
    · intro empty
      have chars := congrArg String.toList empty
      rw [String.toList_append] at chars
      exact absurd (List.append_eq_nil_iff.mp chars).2 (by decide)
  · exact written
  · exact fun _ holds => holds.1

/-- A record by a careful git port vouches for the fingerprint that it writes. -/
theorem triple_record (phaseId : String) (quotes : Quotes quoted) (digests : Digests sha256)
    (careful : ∀ state request reply, condition state request reply →
      Examined quoted decode state request reply)
    : (recordValidationEvidence decode sha256 phaseId).Triple
        (EvidenceState.Answers quoted condition) (fun _ _ => True)
        (fun _ => Vouched quoted decode sha256) (fun _ => Vouched quoted decode sha256)
        fun _ => Vouched quoted decode sha256 := by
  intro locals state vouched
  have asks : (call .headCommitSha).Yields (EvidenceState.Answers quoted condition)
      (fun _ _ => True) (fun _ after => after = state) (fun _ _ after => after = state)
      fun _ after => after = state := by
    apply Block.yields_call
    · exact fun _ _ _ => trivial
    · rintro locals _ next answer rfl ⟨-, -, rfl⟩
      rfl
    · rintro locals _ next error rfl ⟨-, rfl⟩
      rfl
  have unchanged (locals : List String) (after : EvidenceState) (same : after = state)
      : Vouched quoted decode sha256 after :=
    same ▸ vouched
  have records : Block.Triple (EvidenceState.Answers quoted condition) (fun _ _ => True)
      (fun _ after => after = state) (fun _ => Vouched quoted decode sha256)
      (fun _ => Vouched quoted decode sha256)
      (do
        let headSha ← call .headCommitSha
        let currentSha := trim headSha
        let fingerprint ← computeWorktreeSourceFingerprint decode sha256
        call (.writeArtifact phaseId validationHeadshaArtifact s!"{currentSha}\n")
        call (.writeArtifact phaseId validationResultArtifact "passed\n")
        call (.writeArtifact phaseId validationFingerprintArtifact s!"{fingerprint}\n")) := by
    apply Block.Yields.triple
    refine Block.yields_bind (asks.mono (fun _ _ same => same) (fun _ _ _ same => same) unchanged)
      fun headSha => ?_
    refine Block.yields_bind ((yields_computeWorktreeSourceFingerprint sha256 quotes
      (careful state)).mono (fun _ _ same => same) (fun _ _ _ same => same) unchanged)
      fun fingerprint => ?_
    rintro locals after ⟨⟨readable, shown, told, rfl⟩, same⟩
    exact (triple_writes digests vouched readable (told.imp_right And.left)).yields locals after
      same
  exact Block.leads_attempt records (fun _ => Block.keeps_pure) locals state rfl

/-- Every step of a history keeps what vouches for the recorded fingerprint. -/
theorem Vouched.step {step : EvidenceStep} {next : EvidenceState} (quotes : Quotes quoted)
    (digests : Digests sha256)
    (careful : ∀ state request reply, condition state request reply →
      Examined quoted decode state request reply)
    (vouched : Vouched quoted decode sha256 state)
    (taken : step.takes quoted decode sha256 condition state next)
    : Vouched quoted decode sha256 next := by
  cases step with
  | edit worktree =>
      obtain rfl := taken
      exact vouched
  | record phaseId =>
      obtain ⟨⟨completion, locals⟩, execution⟩ := taken
      have ends := triple_record phaseId quotes digests careful [] state vouched
      unfold Block.Ensures at ends
      have ended := ends.of_exec execution
      cases completion with
      | normal | threw => exact ended
      | returned result => exact result.elim
  | invalidate phaseId =>
      obtain ⟨⟨completion, locals⟩, execution⟩ := taken
      have ends := triple_invalidate condition phaseId [] state vouched
      unfold Block.Ensures at ends
      have ended := ends.of_exec execution
      cases completion with
      | normal | threw => exact ended
      | returned result => exact result.elim
  | write relativePath contents =>
      obtain ⟨other, rfl⟩ := taken
      exact vouched.of_same (Function.update_of_ne other.symm _ _) fun _ stands => stands

theorem vouched_of_run {steps : List EvidenceStep} (quotes : Quotes quoted)
    (digests : Digests sha256)
    (run : (evidenceSystem quoted decode sha256 (Examined quoted decode)).Run steps state)
    : Vouched quoted decode sha256 state := by
  refine run.invariant (fun _ => Vouched quoted decode sha256) ?_ ?_
  · intro state begins contents found
    exact nomatch (begins.1 _).symm.trans found
  · exact fun _ _ _ _ vouched taken => vouched.step quotes digests (fun _ _ _ meets => meets) taken

-----------------------------------------------------------------------------------------
-- Verification
-----------------------------------------------------------------------------------------

/-- The text of an artifact that could be read is the trimmed one. -/
theorem yields_readTrimmed (condition : ReplyCondition) (relativePath : String)
    : (readTrimmed relativePath).Yields (EvidenceState.Answers quoted condition)
        (fun _ _ => True) (fun _ after => after = state)
        (fun text _ after =>
          (∀ trimmed, text = some trimmed →
            ∃ contents, state.artifacts relativePath = some contents ∧ trim contents = trimmed)
          ∧ after = state)
        fun _ after => after = state := by
  have asks : (call (.readArtifact relativePath)).Yields (EvidenceState.Answers quoted condition)
      (fun _ _ => True) (fun _ after => after = state)
      (fun contents _ after => state.artifacts relativePath = some contents ∧ after = state)
      fun _ after => after = state := by
    apply Block.yields_call
    · exact fun _ _ _ => trivial
    · rintro locals _ next contents rfl ⟨-, found, rfl⟩
      exact ⟨found, rfl⟩
    · rintro locals _ next error rfl ⟨-, rfl⟩
      rfl
  refine Block.yields_attempt_of_empty
    (Block.yields_bind asks fun contents => Block.yields_pure ?_) fun error =>
      Block.yields_pure ?_
  · rintro locals after ⟨found, same⟩
    refine ⟨?_, same⟩
    rintro _ ⟨⟩
    exact ⟨contents, found, rfl⟩
  · intro locals after same
    exact ⟨(fun trimmed absent => nomatch absent), same⟩

/-- What a fresh verification has established of the recorded fingerprint. -/
def Compared (quoted : String → List Char) (decode : List Nat → String)
    (sha256 : String → String) (condition : ReplyCondition) (state : EvidenceState)
    (verified : VerifiedFreshness)
    : Prop :=
  verified.fresh = true → ∃ contents,
    state.artifacts validationFingerprintArtifact = some contents ∧ trim contents ≠ ""
    ∧ Fingerprinted quoted decode sha256 condition state (trim contents)

theorem yields_stale (condition : ReplyCondition) (reason : String)
    : (pure (stale reason) : EvidenceStatements VerifiedFreshness).Yields
        (EvidenceState.Answers quoted condition) (fun _ _ => True) (fun _ after => after = state)
        (fun verified _ after =>
          Compared quoted decode sha256 condition state verified ∧ after = state)
        fun _ after => after = state :=
  Block.yields_pure fun _ _ same => ⟨(fun fresh => nomatch fresh), same⟩

/-- The comparison is fresh only where the recorded fingerprint is that of the worktree. -/
theorem yields_compareFingerprints (sha256 : String → String) (quotes : Quotes quoted)
    (careful : ∀ request reply, condition state request reply →
      Examined quoted decode state request reply)
    {contents : String}
    (found : state.artifacts validationFingerprintArtifact = some contents)
    (filled : trim contents ≠ "")
    : (compareFingerprints decode sha256 (trim contents)).Yields
        (EvidenceState.Answers quoted condition) (fun _ _ => True) (fun _ after => after = state)
        (fun verified _ after =>
          Compared quoted decode sha256 condition state verified ∧ after = state)
        fun _ after => after = state := by
  let told (inspected : Except String String) : Prop :=
    ∀ value, inspected = .ok value → Fingerprinted quoted decode sha256 condition state value
  have inspects : (Block.attempt
        (do
          let currentFingerprint ← computeWorktreeSourceFingerprint decode sha256
          pure (Except.ok currentFingerprint))
        fun error => pure (Except.error error)).Yields (EvidenceState.Answers quoted condition)
      (fun _ _ => True) (fun _ after => after = state)
      (fun inspected _ after => told inspected ∧ after = state) fun _ after => after = state := by
    refine Block.yields_attempt_of_empty
      (Block.yields_bind (yields_computeWorktreeSourceFingerprint sha256 quotes careful)
        fun value => Block.yields_pure ?_) fun error => Block.yields_pure ?_
    · rintro locals after ⟨shown, same⟩
      refine ⟨?_, same⟩
      rintro _ ⟨⟩
      exact shown
    · exact fun _ _ same => ⟨(fun _ ended => nomatch ended), same⟩
  refine Block.yields_bind inspects fun inspected => ?_
  cases inspected with
  | error message => exact fun locals after holds => yields_stale _ _ locals after holds.2
  | ok currentFingerprint =>
      refine Block.yields_ite (fun _ => Block.yields_pure ?_) fun same => Block.yields_pure ?_
      · exact fun _ _ holds => ⟨(fun fresh => nomatch fresh), holds.2⟩
      · rintro locals after ⟨shown, here⟩
        refine ⟨fun _ => ⟨contents, found, filled, ?_⟩, here⟩
        exact shown _ (congrArg Except.ok (not_not.mp same))

/-- A verification is fresh only where the recorded fingerprint is that of the worktree. -/
theorem yields_verifyValidationFreshness (sha256 : String → String) (quotes : Quotes quoted)
    (careful : ∀ request reply, condition state request reply →
      Examined quoted decode state request reply)
    : (verifyValidationFreshness decode sha256).Yields
        (EvidenceState.Answers quoted condition) (fun _ _ => True) (fun _ after => after = state)
        (fun verified _ after =>
          Compared quoted decode sha256 condition state verified ∧ after = state)
        fun _ after => after = state := by
  refine Block.yields_bind (yields_readTrimmed condition _) fun valResult => ?_
  cases valResult with
  | none => exact fun locals after holds => yields_stale _ _ locals after holds.2
  | some valResult =>
      refine Block.yields_ite (fun _ => ?_) fun _ => ?_
      · exact fun locals after holds => yields_stale _ _ locals after holds.2
      · intro locals after holds
        refine Block.yields_bind (yields_readTrimmed condition _) (fun recorded => ?_) locals after
          holds.2
        cases recorded with
        | none => exact fun locals after holds => yields_stale _ _ locals after holds.2
        | some recorded =>
            refine Block.yields_ite (fun _ => ?_) fun filled => ?_
            · exact fun locals after holds => yields_stale _ _ locals after holds.2
            · rintro locals after ⟨read, here⟩
              obtain ⟨contents, found, rfl⟩ := read recorded rfl
              exact yields_compareFingerprints sha256 quotes careful found filled locals after here

theorem examined_of_verifiable {request : EvidenceRequest} {reply : request.Reply}
    (meets : Verifiable quoted decode state request reply)
    : Examined quoted decode state request reply := by
  cases request with
  | headCommitSha => trivial
  | status | worktreeFileContent | writeArtifact | readArtifact => exact meets

/-- While git can be asked, a fresh verification finds the sources of a worktree whose validation
passed and was not taken back since.
-/
theorem fresh_evidence_sound (quotes : Quotes quoted) (digests : Digests sha256)
    {steps : List EvidenceStep}
    (run : (evidenceSystem quoted decode sha256 (Examined quoted decode)).Run steps state)
    {verified : VerifiedFreshness} {locals : List String} {final : EvidenceState}
    (verification : (verifyValidationFreshness decode sha256 []).Exec
      (EvidenceState.Answers quoted (Verifiable quoted decode)) state (.normal verified, locals)
      final)
    (fresh : verified.fresh = true)
    : ∃ recorded ∈ state.standing, recorded.SameSources state.worktree := by
  have careful (request : EvidenceRequest) (reply : request.Reply)
      : Verifiable quoted decode state request reply → Examined quoted decode state request reply :=
    examined_of_verifiable
  have ends := yields_verifyValidationFreshness sha256 quotes careful [] state rfl
  unfold Block.Ensures at ends
  obtain ⟨compared, -⟩ := ends.of_exec verification
  obtain ⟨contents, found, filled, readable, headSha, told, shown⟩ := compared fresh
  obtain ⟨recorded, stands, legible, recordedSha, recordedHead, same⟩ :=
    vouched_of_run quotes digests run contents found filled
  have head : headSha = state.worktree.head := by
    rcases told with head | ⟨-, error, impossible⟩
    · exact head
    · exact impossible.elim
  refine ⟨recorded, stands, ?_⟩
  exact sameSources_of_fingerprint digests legible readable recordedHead
    (same.symm.trans (head ▸ shown))

end Runs

-----------------------------------------------------------------------------------------
-- A recorded validation
-----------------------------------------------------------------------------------------

/-- The digests of the recorded texts, and a digest without collisions for every other text. -/
def recordedDigests : List (String × String) :=
  [
    ("c0ffee\n", "d611fcacaac48cc0166dc792b8c53813c1579a222139d4b6e540c5619091763d"),
    ("let a = 1\n", "d6447d6f631d17aaf8b0db0adf1470646e991a3af22c6f8f7f6041de42b6d213"),
    (
      "c0ffee\n M:src/a.ts:d6447d6f631d17aaf8b0db0adf1470646e991a3af22c6f8f7f6041de42b6d213",
      "be6091d1b2adcd757fe9a459b1c35dd5780ebf1103194c9d3b2c100f4a00ece4"
    )
  ]

def unaryDigits (chars : List Char) : List Char :=
  chars.flatMap fun char => List.replicate char.toNat '1' ++ ['0']

def digestOf (text : String) : String :=
  (recordedDigests.lookup text).getD (.ofList ('f' :: unaryDigits text.toList))

theorem unaryDigits_inj {first second : List Char}
    (same : unaryDigits first = unaryDigits second)
    : first = second := by
  induction first generalizing second with
  | nil =>
      cases second with
      | nil => rfl
      | cons char rest => simp [unaryDigits] at same
  | cons char rest ih =>
      cases second with
      | nil => simp [unaryDigits] at same
      | cons other others =>
          have apart (char : Char) : '0' ∉ List.replicate char.toNat '1' := by
            simp [List.mem_replicate]
          simp only [unaryDigits, List.flatMap_cons, List.append_assoc] at same
          obtain ⟨heads, tails⟩ := separator_append_inj (apart char) (apart other) same
          have numbers : char.toNat = other.toNat := by
            simpa using congrArg List.length heads
          rw [Char.toNat_inj.mp numbers, ih tails]

theorem digestOf_cases (text : String)
    : (∃ digest, (text, digest) ∈ recordedDigests ∧ digestOf text = digest)
      ∨ digestOf text = .ofList ('f' :: unaryDigits text.toList) := by
  unfold digestOf
  cases found : recordedDigests.lookup text with
  | none => exact .inr rfl
  | some digest =>
      obtain ⟨before, after, same, -⟩ := List.lookup_eq_some_iff.mp found
      exact .inl ⟨digest, by simp [same], rfl⟩

theorem digests_digestOf : Digests digestOf := by
  have known : ∀ pair ∈ recordedDigests, pair.2.toList.head? ≠ some 'f' ∧ pair.2 ≠ ""
      ∧ ∀ char ∈ pair.2.toList, char ∈ "0123456789abcdef".toList := by
    decide +kernel
  have apart : ∀ pair ∈ recordedDigests, ∀ other ∈ recordedDigests,
      pair.2 = other.2 → pair.1 = other.1 := by
    decide +kernel
  constructor
  · intro first second same
    rcases digestOf_cases first with ⟨digest, recorded, told⟩ | coded <;>
      rcases digestOf_cases second with ⟨other, found, shown⟩ | text
    · exact apart _ recorded _ found (told.symm.trans (same.trans shown))
    · refine absurd ?_ (known _ recorded).1
      rw [← told, same, text, String.toList_ofList]
      rfl
    · refine absurd ?_ (known _ found).1
      rw [← shown, ← same, coded, String.toList_ofList]
      rfl
    · have chars := congrArg String.toList (coded.symm.trans (same.trans text))
      rw [String.toList_ofList, String.toList_ofList] at chars
      exact String.toList_injective (unaryDigits_inj (List.cons.inj chars).2)
  · intro text
    rcases digestOf_cases text with ⟨digest, recorded, told⟩ | coded
    · exact told ▸ (known _ recorded).2
    · rw [coded]
      refine ⟨fun empty => ?_, fun char held => ?_⟩
      · exact nomatch String.toList_ofList.symm.trans (congrArg String.toList empty)
      rw [String.toList_ofList] at held
      rcases List.mem_cons.mp held with rfl | later
      · decide
      · obtain ⟨source, -, member⟩ := List.mem_flatMap.mp later
        rcases List.mem_append.mp member with one | zero
        · rw [List.eq_of_mem_replicate one]
          decide
        · rw [List.mem_singleton.mp zero]
          decide

/-- A clean worktree. -/
def cleanWorktree : WorktreeState :=
  {
    head := "c0ffee"
    entries := []
    content := fun _ => none
    commit := by decide
    wellFormed := by simp
    letters := by simp
    named := by simp
  }

/-- The worktree with a modified source. -/
def editedWorktree : WorktreeState :=
  {
    head := "c0ffee"
    entries := [{ statusX := ' ', statusY := 'M', path := "src/a.ts" }]
    content := fun path => if path = "src/a.ts" then some "let a = 1\n" else none
    commit := by decide
    wellFormed := by simp [StatusEntry.WellFormed, isRenameOrCopy]
    letters := by decide
    named := by decide
  }

instance (worktree : WorktreeState)
    : Decidable (worktree.Readable quotedPlain fun _ => "") :=
  inferInstanceAs (Decidable (∀ entry ∈ worktree.entries, ∀ path ∈ entry.paths, _ ∧ (_ → _)))

/-- Answers the calls; git may fail to tell the status. -/
def evidenceReplies (tells : Bool) (state : EvidenceState)
    : (request : EvidenceRequest) → Option (request.Reply × EvidenceState)
  | .headCommitSha => some (.ok state.worktree.head, state)
  | .status =>
      if tells then
        if state.worktree.Readable quotedPlain fun _ => "" then
          some (.ok (printedStatus quotedPlain state.worktree.entries), state)
        else none
      else some (.error "spawn git EAGAIN", state)
  | .worktreeFileContent relPath => some (.ok (state.worktree.content relPath), state)
  | .writeArtifact _ relativePath contents =>
      some (.ok (), state.completed relativePath contents)
  | .readArtifact relativePath =>
      match state.artifacts relativePath with
      | some contents => some (.ok contents, state)
      | none => some (.error "ENOENT", state)

/-- The handler gives replies that meet a condition, where it holds of what git tells. -/
theorem evidenceReplies_answers (tells : Bool) {condition : ReplyCondition}
    (meets : ∀ state request reply,
      (tells = true → Verifiable quotedPlain (fun _ => "") state request reply) →
        condition state request reply)
    (state : EvidenceState) (request : EvidenceRequest) (reply : request.Reply)
    (after : EvidenceState) (handled : evidenceReplies tells state request = some (reply, after))
    : EvidenceState.Answers quotedPlain condition state request reply after := by
  cases request with
  | headCommitSha | worktreeFileContent =>
      obtain ⟨rfl, rfl⟩ := Prod.mk.inj (Option.some.inj handled)
      exact ⟨meets _ _ _ fun _ => trivial, rfl, rfl⟩
  | writeArtifact =>
      obtain ⟨rfl, rfl⟩ := Prod.mk.inj (Option.some.inj handled)
      exact ⟨meets _ _ _ fun _ => trivial, rfl⟩
  | readArtifact relativePath =>
      cases found : state.artifacts relativePath with
      | none | some =>
          simp only [evidenceReplies, found] at handled
          obtain ⟨rfl, rfl⟩ := Prod.mk.inj (Option.some.inj handled)
          exact ⟨meets _ _ _ fun _ => trivial, by simp [EvidenceState.Replies, found]⟩
  | status =>
      cases tells with
      | false =>
          obtain ⟨rfl, rfl⟩ := Prod.mk.inj (Option.some.inj handled)
          exact ⟨meets _ _ _ (fun told => nomatch told), rfl⟩
      | true =>
          by_cases readable : state.worktree.Readable quotedPlain fun _ => ""
          · simp only [evidenceReplies, if_true, if_pos readable] at handled
            obtain ⟨rfl, rfl⟩ := Prod.mk.inj (Option.some.inj handled)
            exact ⟨meets _ _ _ fun _ => readable, rfl, rfl⟩
          · simp [evidenceReplies, readable] at handled

/-- The validation of a worktree is recorded, and verified after an edit of the worktree. -/
def recordedThenVerified (recorded edited : WorktreeState) (tells : Bool)
    : Option (EvidenceState × (Completion String Empty VerifiedFreshness × List String)
        × EvidenceState) :=
  match (ValidationEvidence.recordValidationEvidence (fun _ => "") digestOf "validate" []).run
    (evidenceReplies true) { worktree := recorded } with
  | some (_, after) =>
      let state := { after with worktree := edited }
      ((ValidationEvidence.verifyValidationFreshness (fun _ => "") digestOf []).run
        (evidenceReplies tells) state).map fun (ended, final) => (state, ended, final)
  | none => none

/-- Such a history is a run, whose verification meets the conditions on what git tells. -/
theorem run_of_recordedThenVerified {recorded edited : WorktreeState} {tells : Bool}
    (recordCondition condition : ReplyCondition)
    (records : ∀ state request reply,
      Verifiable quotedPlain (fun _ => "") state request reply →
        recordCondition state request reply)
    (meets : ∀ state request reply,
      (tells = true → Verifiable quotedPlain (fun _ => "") state request reply) →
        condition state request reply)
    {state final : EvidenceState}
    {ended : Completion String Empty VerifiedFreshness × List String}
    (ran : recordedThenVerified recorded edited tells = some (state, ended, final))
    : (evidenceSystem quotedPlain (fun _ => "") digestOf recordCondition).Run
          [.edit edited, .record "validate"] state
      ∧ (ValidationEvidence.verifyValidationFreshness (fun _ => "") digestOf []).Exec
          (EvidenceState.Answers quotedPlain condition) state ended final := by
  unfold recordedThenVerified at ran
  split at ran
  next outcome after first =>
    obtain ⟨⟨last, reached⟩, second, same⟩ := Option.map_eq_some_iff.mp ran
    obtain ⟨rfl, rfl, rfl⟩
        : { after with worktree := edited } = state ∧ last = ended ∧ reached = final := by
      simpa using same
    have recording := Program.exec_of_run (evidenceReplies_answers true
      fun state request reply told => records state request reply (told rfl)) first
    refine ⟨.next (.next (.start ⟨fun _ => rfl, rfl⟩) ⟨_, recording⟩) rfl, ?_⟩
    exact Program.exec_of_run (evidenceReplies_answers tells meets) second
  next => contradiction

/-- The verification answered that the evidence is fresh. -/
def endsFresh : Completion String Empty VerifiedFreshness × List String → Bool
  | (.normal verified, _) => verified.fresh
  | _ => false

/-- An edited worktree whose validation is recorded is verified as fresh. -/
theorem fresh_evidence_sound_recorded
    : ∃ state : EvidenceState, state.worktree.head = "c0ffee"
        ∧ ∃ recorded ∈ state.standing, recorded.SameSources state.worktree := by
  have verifies : ((recordedThenVerified editedWorktree editedWorktree true).map
      fun history => (history.1.worktree.head, endsFresh history.2.1))
      = some ("c0ffee", true) := by
    decide +kernel
  obtain ⟨⟨state, ⟨completion, locals⟩, final⟩, ran, same⟩ := Option.map_eq_some_iff.mp verifies
  obtain ⟨head, fresh⟩ := Prod.mk.inj same
  cases completion with
  | normal verified =>
      obtain ⟨run, verification⟩ := run_of_recordedThenVerified
        (Examined quotedPlain fun _ => "") (Verifiable quotedPlain fun _ => "")
        (fun _ _ _ meets => examined_of_verifiable meets) (fun _ _ _ told => told rfl) ran
      exact ⟨state, head,
        fresh_evidence_sound quotes_quotedPlain digests_digestOf run verification fresh⟩
  | threw | returned => cases fresh

/-- A status that git does not tell counts as that of a clean worktree: an edit since the record
is not noticed.
-/
theorem untold_status_verifies_edited
    : ¬∀ (quoted : String → List Char) (decode : List Nat → String) (sha256 : String → String)
        (steps : List EvidenceStep) (state final : EvidenceState) (verified : VerifiedFreshness)
        (locals : List String),
        Quotes quoted → Digests sha256 →
        (evidenceSystem quoted decode sha256 fun _ _ _ => True).Run steps state →
        (ValidationEvidence.verifyValidationFreshness decode sha256 []).Exec
          (EvidenceState.Answers quoted fun _ _ _ => True) state (.normal verified, locals)
          final →
        verified.fresh = true →
        ∃ recorded ∈ state.standing, recorded.SameSources state.worktree := by
  intro claim
  have verifies : ((recordedThenVerified cleanWorktree editedWorktree false).map
      fun history =>
        (decide (history.1.standing.all fun recorded => recorded.entries.isEmpty),
          history.1.worktree.entries.map fun entry => entry.path, endsFresh history.2.1))
      = some (true, ["src/a.ts"], true) := by
    decide +kernel
  obtain ⟨⟨state, ⟨completion, locals⟩, final⟩, ran, same⟩ := Option.map_eq_some_iff.mp verifies
  obtain ⟨unchanged, rest⟩ := Prod.mk.inj same
  obtain ⟨changed, fresh⟩ := Prod.mk.inj rest
  cases completion with
  | normal verified =>
      obtain ⟨run, verification⟩ := run_of_recordedThenVerified (fun _ _ _ => True)
        (fun _ _ _ => True) (fun _ _ _ _ => trivial) (fun _ _ _ _ => trivial) ran
      obtain ⟨recorded, stands, sources⟩ := claim _ _ _ _ _ _ _ _ quotes_quotedPlain
        digests_digestOf run verification fresh
      have source : state.worktree.IsSource "src/a.ts" := by
        refine ⟨by decide, ?_⟩
        obtain ⟨entry, listed, named⟩ := List.mem_map.mp (changed ▸ List.mem_singleton_self _)
        exact ⟨entry, listed, by simp [StatusEntry.paths, named]⟩
      obtain ⟨⟨-, entry, listed, -⟩, -⟩ := (sources.2 "src/a.ts" _).mpr ⟨source, rfl⟩
      have empty : recorded.entries.isEmpty = true :=
        List.all_eq_true.mp (of_decide_eq_true unchanged) recorded stands
      rw [List.isEmpty_iff.mp empty] at listed
      cases listed
  | threw | returned => cases fresh

end AiSdlc.Application
