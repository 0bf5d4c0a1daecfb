import AiSdlc.Application.ValidationEvidence

/-! What the fingerprint of a worktree tells: HEAD and the uncommitted sources, while git tells the
status and the deleted files, and the paths are read back as they are.
-/

namespace AiSdlc.Application

open AiSdlc.Js
open AiSdlc.Async

/-- The letters that git uses for the status of a path. -/
def statusLetters : List Char :=
  [' ', 'M', 'T', 'A', 'D', 'R', 'C', 'U', '?', '!']

/-- A worktree: the commit that HEAD names, what git tells of the uncommitted changes, and the
files' contents.
-/
structure WorktreeState where
  head : String
  entries : List StatusEntry
  content : String → Option String
  commit : head ≠ "" ∧ ∀ char ∈ head.toList, isWhitespace char = false
  wellFormed : ∀ entry ∈ entries, entry.WellFormed
  letters
    : ∀ entry ∈ entries, entry.statusX ∈ statusLetters ∧ entry.statusY ∈ statusLetters
  named : ∀ entry ∈ entries, ∀ path ∈ entry.paths, path ≠ ""

/-- A deleted path may be missing. -/
def StatusEntry.isDeletion (entry : StatusEntry) : Bool :=
  entry.statusX = 'D' || entry.statusY = 'D'

/-- An uncommitted path that is no artifact of the orchestrator. -/
def WorktreeState.IsSource (worktree : WorktreeState) (path : String) : Prop :=
  isOrchestratorArtifactPattern path = false ∧ ∃ entry ∈ worktree.entries, path ∈ entry.paths

/-- The same HEAD, and the same uncommitted sources with the same contents. -/
def WorktreeState.SameSources (first second : WorktreeState) : Prop :=
  first.head = second.head
  ∧ ∀ path content, first.IsSource path ∧ first.content path = content
      ↔ second.IsSource path ∧ second.content path = content

/-- Digests in hexadecimal digits, without collisions. -/
structure Digests (sha256 : String → String) : Prop where
  collisionFree : Function.Injective sha256
  hexadecimal
    : ∀ text, sha256 text ≠ "" ∧ ∀ char ∈ (sha256 text).toList,
        char ∈ "0123456789abcdef".toList

/-- The worktree and the artifacts of a run, with the worktrees of the records that wrote that
the validation passed and were not followed by a successful invalidation.
-/
structure EvidenceState where
  worktree : WorktreeState
  artifacts : String → Option String := fun _ => none
  standing : List WorktreeState := []

/-- The state after a write that took effect. -/
def EvidenceState.written (state : EvidenceState) (relativePath contents : String)
    : EvidenceState :=
  {
    state with
    artifacts := Function.update state.artifacts relativePath (some contents)
    standing :=
      if relativePath = validationResultArtifact ∧ contents = "passed\n" then
        state.worktree :: state.standing
      else state.standing
  }

/-- The state after a write that did not throw; an invalidation succeeds with its last one. -/
def EvidenceState.completed (state : EvidenceState) (relativePath contents : String)
    : EvidenceState :=
  if relativePath = validationFingerprintArtifact ∧ contents = "" then
    { state.written relativePath contents with standing := [] }
  else state.written relativePath contents

/-- The replies of a truthful git port, and of an artifact store: every call may throw, and a
write that throws may have taken effect.
-/
def EvidenceState.Replies (quoted : String → List Char) (state : EvidenceState)
    : (request : EvidenceRequest) → request.Reply → EvidenceState → Prop
  | .headCommitSha, .ok sha, after => sha = state.worktree.head ∧ after = state
  | .status, .ok status, after =>
      status = printedStatus quoted state.worktree.entries ∧ after = state
  | .worktreeFileContent relPath, .ok content, after =>
      content = state.worktree.content relPath ∧ after = state
  | .writeArtifact _ relativePath contents, .ok _, after =>
      after = state.completed relativePath contents
  | .writeArtifact _ relativePath contents, .error _, after =>
      after = state ∨ after = state.written relativePath contents
  | .readArtifact relativePath, .ok contents, after =>
      state.artifacts relativePath = some contents ∧ after = state
  | .headCommitSha, .error _, after | .status, .error _, after
  | .worktreeFileContent _, .error _, after | .readArtifact _, .error _, after => after = state

/-- A condition on the replies to the calls. -/
abbrev ReplyCondition : Type :=
  EvidenceState → (request : EvidenceRequest) → request.Reply → Prop

/-- The replies that meet a condition. -/
def EvidenceState.Answers (quoted : String → List Char) (condition : ReplyCondition)
    : Environment EvidenceState EvidenceRequest EvidenceRequest.Reply :=
  fun state request reply after =>
    condition state request reply ∧ state.Replies quoted request reply after

section Conditions

variable (quoted : String → List Char) (decode : List Nat → String)

/-- Every path is read back as it is, and the sources' paths have no newlines. -/
def WorktreeState.Readable (worktree : WorktreeState) : Prop :=
  ∀ entry ∈ worktree.entries, ∀ path ∈ entry.paths,
    unquoteGitPath decode (.ofList (quoted path)) = path
    ∧ (isOrchestratorArtifactPattern path = false → '\n' ∉ path.toList)

/-- Git tells the status, of a worktree whose paths are readable, and it tells the content of
every file that is there at a deleted path.
-/
def Examined : ReplyCondition
  | state, .status, .ok _ => state.worktree.Readable quoted decode
  | _, .status, .error _ => False
  | state, .worktreeFileContent relPath, .error _ =>
      state.worktree.content relPath = none
      ∨ ∀ entry ∈ state.worktree.entries, relPath ∈ entry.paths → entry.isDeletion = false
  | _, _, _ => True

/-- Git tells HEAD, too. -/
def Verifiable : ReplyCondition
  | _, .headCommitSha, .error _ => False
  | state, request, reply => Examined quoted decode state request reply

end Conditions

section Fingerprints

open ValidationEvidence

variable {quoted : String → List Char} {decode : List Nat → String} {sha256 : String → String}
  {condition : ReplyCondition} {state : EvidenceState} {entry : StatusEntry}
  {worktree : WorktreeState} {path : String}

/-- The status letters of an entry. -/
def StatusEntry.code (entry : StatusEntry) : String :=
  .ofList [entry.statusX, entry.statusY]

/-- The paths of an entry that are sources. -/
def StatusEntry.sources (entry : StatusEntry) : List String :=
  entry.paths.filter fun path => !isOrchestratorArtifactPattern path

/-- What stands for the content of a path. -/
def WorktreeState.mark (sha256 : String → String) (worktree : WorktreeState) (path : String)
    : String :=
  match worktree.content path with
  | some content => sha256 content
  | none => "DELETED"

/-- The source entry of a path. -/
def WorktreeState.sourceText (sha256 : String → String) (worktree : WorktreeState)
    (entry : StatusEntry) (path : String)
    : String :=
  s!"{entry.code}:{path}:{worktree.mark sha256 path}"

/-- The source entries of a worktree, as git lists them. -/
def WorktreeState.sourceTexts (sha256 : String → String) (worktree : WorktreeState)
    : List String :=
  worktree.entries.flatMap fun entry => entry.sources.map (worktree.sourceText sha256 entry)

theorem nonArtifactPaths_line (quotes : Quotes quoted) (wellFormed : entry.WellFormed)
    (named : ∀ path ∈ entry.paths, path ≠ "")
    (readable : ∀ path ∈ entry.paths, unquoteGitPath decode (.ofList (quoted path)) = path)
    : nonArtifactPaths decode (.ofList (entry.line quoted)) = entry.sources := by
  have unquoted : (entry.paths.map fun path => String.ofList (quoted path)).map
      (unquoteGitPath decode) = entry.paths := by
    rw [List.map_map]
    exact (List.map_congr_left readable).trans (List.map_id _)
  have kept : entry.paths.filter (· ≠ "") = entry.paths :=
    List.filter_eq_self.mpr fun path member => by simpa using named path member
  rw [nonArtifactPaths, entry.parse_line quotes wellFormed, unquoted, kept]
  rfl

theorem toNat_of_statusLetters {letter : Char} (known : letter ∈ statusLetters)
    : letter.toNat < 0x10000 := by
  simp only [statusLetters, List.mem_cons, List.not_mem_nil, or_false] at known
  rcases known with rfl | rfl | rfl | rfl | rfl | rfl | rfl | rfl | rfl | rfl <;> decide

/-- A printed line adds the source entries of its paths. -/
theorem sourceLine_line (quotes : Quotes quoted) (readable : worktree.Readable quoted decode)
    (listed : entry ∈ worktree.entries)
    : sourceLine decode sha256 (.ofList (entry.line quoted))
      = Block.forEach entry.sources (sourcePath sha256 entry.code entry.isDeletion) := by
  have trimmed : String.ofList
      (dropCarriageReturn (String.ofList (entry.line quoted)).toList)
      = .ofList (entry.line quoted) := by
    rw [String.toList_ofList, dropCarriageReturn, if_neg]
    intro last
    exact absurd (entry.getLast_line quotes _ last) (by decide)
  obtain ⟨statusX, statusY⟩ := worktree.letters entry listed
  have code : sliceTo (.ofList (entry.line quoted)) 2 = entry.code := by
    rw [sliceTo, String.toList_ofList, StatusEntry.line_eq, takeCodeUnits,
      if_pos (toNat_of_statusLetters statusX), takeCodeUnits,
      if_pos (toNat_of_statusLetters statusY), takeCodeUnits]
    rfl
  have long : ¬textLength (.ofList (entry.line quoted)) < 3 := by
    have units (char : Char) : 0 < (charUnits char).length :=
      List.length_pos_iff.mpr (charUnits_ne_nil char)
    change ¬((String.ofList (entry.line quoted)).toList.flatMap charUnits).length < 3
    simp only [String.toList_ofList, StatusEntry.line_eq, List.flatMap_cons, List.length_append]
    have letters := units entry.statusX
    have others := units entry.statusY
    have space := units ' '
    omega
  have deletion : includes entry.code "D" = entry.isDeletion := by
    rw [Bool.eq_iff_iff, includes, decide_eq_true_iff]
    refine (List.singleton_infix_iff 'D' _).trans ?_
    rw [StatusEntry.code, String.toList_ofList]
    simp only [StatusEntry.isDeletion, Bool.or_eq_true, decide_eq_true_eq, List.mem_cons,
      List.not_mem_nil, or_false]
    exact or_congr eq_comm eq_comm
  unfold sourceLine
  rw [trimmed]
  dsimp only
  rw [if_neg long, code, deletion, nonArtifactPaths_line quotes
    (worktree.wellFormed entry listed) (worktree.named entry listed)
    fun path member => (readable entry listed path member).1]

/-- What a careful git port is asked for a path adds the source entry of the path. -/
theorem triple_sourcePath (sha256 : String → String) (texts : List String)
    (careful : ∀ request reply, condition state request reply →
      Examined quoted decode state request reply)
    (listed : entry ∈ state.worktree.entries) (within : path ∈ entry.paths)
    : (sourcePath sha256 entry.code entry.isDeletion path).Triple
        (EvidenceState.Answers quoted condition) (fun _ _ => True)
        (fun sourceEntries after => sourceEntries = texts ∧ after = state)
        (fun sourceEntries after =>
          sourceEntries = texts ++ [state.worktree.sourceText sha256 entry path] ∧ after = state)
        fun _ after => after = state := by
  have reads : (Block.attempt (call (.worktreeFileContent path)) fun error =>
        if entry.isDeletion then pure none
        else Block.throw (unreadable path ++ ": " ++ error)).Yields
      (EvidenceState.Answers quoted condition) (fun _ _ => True)
      (fun sourceEntries after => sourceEntries = texts ∧ after = state)
      (fun content sourceEntries after => content = state.worktree.content path
        ∧ sourceEntries = texts ∧ after = state)
      fun _ after => after = state := by
    let failed (sourceEntries : List String) (after : EvidenceState) : Prop :=
      (state.worktree.content path = none ∨ entry.isDeletion = false)
      ∧ sourceEntries = texts ∧ after = state
    have asks : (call (.worktreeFileContent path)).Yields (EvidenceState.Answers quoted condition)
        (fun _ _ => True) (fun sourceEntries after => sourceEntries = texts ∧ after = state)
        (fun content sourceEntries after => content = state.worktree.content path
          ∧ sourceEntries = texts ∧ after = state)
        failed := by
      apply Block.yields_call
      · exact fun _ _ _ => trivial
      · rintro sourceEntries _ next content ⟨same, rfl⟩ ⟨-, told, rfl⟩
        exact ⟨told, same, rfl⟩
      · rintro sourceEntries _ next error ⟨same, rfl⟩ ⟨meets, rfl⟩
        refine ⟨?_, same, rfl⟩
        exact (careful _ _ meets).imp_right fun kept => kept entry listed within
    refine Block.yields_attempt_of_empty asks fun error => Block.yields_ite ?_ ?_
    · rintro deletion sourceEntries after ⟨missing, same, rfl⟩
      refine ⟨(missing.resolve_right ?_).symm, same, rfl⟩
      simp [deletion]
    · rintro - sourceEntries after ⟨-, -, rfl⟩
      rfl
  apply Block.Yields.triple
  refine Block.yields_bind reads fun content => ?_
  cases content with
  | some content =>
      rintro sourceEntries after ⟨told, rfl, rfl⟩
      refine ⟨?_, rfl⟩
      simp [WorktreeState.sourceText, WorktreeState.mark, ← told]
  | none =>
      refine Block.yields_ite ?_ ?_
      · rintro deletion sourceEntries after ⟨told, rfl, rfl⟩
        refine ⟨?_, rfl⟩
        simp [WorktreeState.sourceText, WorktreeState.mark, ← told]
      · rintro - sourceEntries after ⟨-, -, rfl⟩
        rfl

/-- The loop over the printed lines collects the source entries. -/
theorem triple_sourceLines (sha256 : String → String) (quotes : Quotes quoted)
    (readable : state.worktree.Readable quoted decode)
    (careful : ∀ request reply, condition state request reply →
      Examined quoted decode state request reply)
    : (Block.forEach state.worktree.entries fun entry =>
          sourceLine decode sha256 (.ofList (entry.line quoted))).Triple
        (EvidenceState.Answers quoted condition) (fun _ _ => True)
        (fun sourceEntries after => sourceEntries = [] ∧ after = state)
        (fun sourceEntries after =>
          sourceEntries = state.worktree.sourceTexts sha256 ∧ after = state)
        fun _ after => after = state := by
  refine Block.triple_collects (fun entry listed earlier => ?_) []
  rw [sourceLine_line quotes readable listed, List.map_eq_flatMap]
  refine Block.triple_collects (fun path member earlier => ?_) earlier
  exact triple_sourcePath sha256 earlier careful listed (List.mem_of_mem_filter member)

theorem trim_of_plain {text : String} (plain : ∀ char ∈ text.toList, isWhitespace char = false)
    : trim text = text := by
  have kept : text.toList.dropWhile isWhitespace = text.toList := by
    rw [List.dropWhile_eq_self_iff]
    intro nonempty
    simp [plain _ (List.getElem_mem nonempty)]
  have ends : text.toList.rdropWhile isWhitespace = text.toList := by
    rw [List.rdropWhile_eq_self_iff]
    intro nonempty
    simp [plain _ (List.getLast_mem nonempty)]
  rw [trim, kept, ends, String.ofList_toList]

/-- The fingerprint of a worktree, with the HEAD that git tells. -/
def WorktreeState.fingerprint (sha256 : String → String) (headSha : String)
    (worktree : WorktreeState)
    : String :=
  sha256 (fingerprintPayload headSha (worktree.sourceTexts sha256))

/-- A fingerprint that shows a readable worktree: HEAD is missing only where git does not tell
it.
-/
def Fingerprinted (quoted : String → List Char) (decode : List Nat → String)
    (sha256 : String → String) (condition : ReplyCondition) (state : EvidenceState)
    (value : String)
    : Prop :=
  state.worktree.Readable quoted decode ∧ ∃ headSha,
    (headSha = state.worktree.head
      ∨ headSha = "" ∧ ∃ error, condition state .headCommitSha (.error error))
    ∧ value = state.worktree.fingerprint sha256 headSha

/-- The fingerprint that a careful git port gives. -/
theorem yields_computeWorktreeSourceFingerprint (sha256 : String → String)
    (quotes : Quotes quoted)
    (careful : ∀ request reply, condition state request reply →
      Examined quoted decode state request reply)
    : (computeWorktreeSourceFingerprint decode sha256).Yields
        (EvidenceState.Answers quoted condition) (fun _ _ => True) (fun _ after => after = state)
        (fun value _ after => Fingerprinted quoted decode sha256 condition state value
          ∧ after = state)
        fun _ after => after = state := by
  let starts (sourceEntries : List String) (after : EvidenceState) : Prop :=
    sourceEntries = [] ∧ after = state
  have tells : (Block.attempt
        (do
          let headSha ← call .headCommitSha
          pure (trim headSha))
        fun _ => pure "").Yields (EvidenceState.Answers quoted condition) (fun _ _ => True) starts
      (fun headSha sourceEntries after => (headSha = state.worktree.head
          ∨ headSha = "" ∧ ∃ error, condition state .headCommitSha (.error error))
        ∧ starts sourceEntries after)
      fun _ after => after = state := by
    have asks : (call .headCommitSha).Yields (EvidenceState.Answers quoted condition)
        (fun _ _ => True) starts
        (fun headSha sourceEntries after => headSha = state.worktree.head
          ∧ starts sourceEntries after)
        (fun sourceEntries after => (∃ error, condition state .headCommitSha (.error error))
          ∧ starts sourceEntries after) := by
      apply Block.yields_call
      · exact fun _ _ _ => trivial
      · rintro sourceEntries _ next headSha ⟨same, rfl⟩ ⟨-, told, rfl⟩
        exact ⟨told, same, rfl⟩
      · rintro sourceEntries _ next error ⟨same, rfl⟩ ⟨meets, rfl⟩
        exact ⟨⟨error, meets⟩, same, rfl⟩
    refine Block.yields_attempt_of_empty
      (Block.yields_bind asks fun headSha => Block.yields_pure ?_) fun error =>
        Block.yields_pure ?_
    · rintro sourceEntries after ⟨rfl, begins⟩
      exact ⟨.inl (trim_of_plain state.worktree.commit.2), begins⟩
    · rintro sourceEntries after ⟨threw, begins⟩
      exact ⟨.inr ⟨rfl, threw⟩, begins⟩
  have lists : (Block.attempt (call .status) fun _ => pure "").Yields
      (EvidenceState.Answers quoted condition) (fun _ _ => True) starts
      (fun status sourceEntries after =>
        (status = printedStatus quoted state.worktree.entries
          ∧ state.worktree.Readable quoted decode)
        ∧ starts sourceEntries after)
      fun _ after => after = state := by
    have asks : (call .status).Yields (EvidenceState.Answers quoted condition) (fun _ _ => True)
        starts
        (fun status sourceEntries after =>
          (status = printedStatus quoted state.worktree.entries
            ∧ state.worktree.Readable quoted decode)
          ∧ starts sourceEntries after)
        fun _ _ => False := by
      apply Block.yields_call
      · exact fun _ _ _ => trivial
      · rintro sourceEntries _ next status ⟨same, rfl⟩ ⟨meets, told, rfl⟩
        exact ⟨⟨told, careful _ _ meets⟩, same, rfl⟩
      · rintro sourceEntries _ next error ⟨same, rfl⟩ ⟨meets, rfl⟩
        exact careful _ _ meets
    exact Block.yields_attempt_of_empty asks fun _ _ _ impossible => impossible.elim
  have resets : (Block.assign fun _ => [] : EvidenceStatements Unit).Yields
      (EvidenceState.Answers quoted condition) (fun _ _ => True) (fun _ after => after = state)
      (fun _ => starts) fun _ after => after = state :=
    fun _ _ here => ⟨rfl, here⟩
  refine Block.yields_bind resets fun _ => ?_
  refine Block.yields_bind tells fun headSha => ?_
  rintro sourceEntries after ⟨told, begins⟩
  refine Block.yields_bind lists (fun status => ?_) sourceEntries after begins
  rintro sourceEntries after ⟨⟨rfl, readable⟩, begins⟩
  rw [statusLines_printedStatus quotes state.worktree.wellFormed, Block.forEach_map]
  refine Block.yields_bind (triple_sourceLines sha256 quotes readable careful).yields
    (fun _ => ?_) sourceEntries after begins
  rintro sourceEntries after ⟨rfl, rfl⟩
  exact ⟨⟨readable, headSha, told, rfl⟩, rfl⟩

theorem toList_sourceText (sha256 : String → String) (worktree : WorktreeState)
    (entry : StatusEntry) (path : String)
    : (worktree.sourceText sha256 entry path).toList
      = entry.statusX :: entry.statusY :: ':'
        :: (path.toList ++ ':' :: (worktree.mark sha256 path).toList) := by
  have text : worktree.sourceText sha256 entry path
      = entry.code ++ ":" ++ path ++ ":" ++ worktree.mark sha256 path :=
    rfl
  simp [text, StatusEntry.code]

/-- A mark has letters and digits only. -/
theorem mark_chars (digests : Digests sha256) {char : Char}
    (held : char ∈ (worktree.mark sha256 path).toList)
    : char ≠ ':' ∧ char ≠ '\n' := by
  unfold WorktreeState.mark at held
  split at held
  next content found =>
    have digit := (digests.hexadecimal content).2 char held
    constructor <;> rintro rfl <;> exact absurd digit (by decide)
  next => constructor <;> rintro rfl <;> exact absurd held (by decide)

theorem mark_inj (digests : Digests sha256) {other : WorktreeState}
    (same : worktree.mark sha256 path = other.mark sha256 path)
    : worktree.content path = other.content path := by
  have apart (content : String) : sha256 content ≠ "DELETED" := by
    intro deleted
    have digit := (digests.hexadecimal content).2 'D' (by rw [deleted]; decide)
    exact absurd digit (by decide)
  unfold WorktreeState.mark at same
  cases first : worktree.content path with
  | none =>
      cases second : other.content path with
      | none => rfl
      | some content =>
          rw [first, second] at same
          exact absurd same.symm (apart content)
  | some content =>
      cases second : other.content path with
      | none =>
          rw [first, second] at same
          exact absurd same (apart content)
      | some later =>
          rw [first, second] at same
          exact congrArg some (digests.collisionFree same)

/-- The source entries are lines of their own. -/
theorem sourceTexts_lines (digests : Digests sha256) (readable : worktree.Readable quoted decode)
    : ∀ text ∈ worktree.sourceTexts sha256, text ≠ "" ∧ '\n' ∉ text.toList := by
  intro text member
  obtain ⟨entry, listed, member⟩ := List.mem_flatMap.mp member
  obtain ⟨path, within, rfl⟩ := List.mem_map.mp member
  obtain ⟨named, source⟩ := List.mem_filter.mp within
  have chars := toList_sourceText sha256 worktree entry path
  constructor
  · intro empty
    rw [empty] at chars
    exact nomatch chars
  · have letters := worktree.wellFormed entry listed
    have plain : '\n' ∉ path.toList := (readable entry listed path named).2 (by simpa using source)
    have marked : '\n' ∉ (worktree.mark sha256 path).toList := fun held =>
      (mark_chars digests held).2 rfl
    rw [chars]
    simp [letters.1.symm, letters.2.1.symm, plain, marked]

/-- Worktrees with the same source entries have the same sources with the same contents. -/
theorem source_of_same (digests : Digests sha256) {other : WorktreeState} {content : Option String}
    (same : ∀ text ∈ worktree.sourceTexts sha256, text ∈ other.sourceTexts sha256)
    (source : worktree.IsSource path ∧ worktree.content path = content)
    : other.IsSource path ∧ other.content path = content := by
  obtain ⟨⟨artifact, entry, listed, named⟩, rfl⟩ := source
  have told : worktree.sourceText sha256 entry path ∈ worktree.sourceTexts sha256 := by
    refine List.mem_flatMap.mpr ⟨entry, listed, List.mem_map_of_mem ?_⟩
    exact List.mem_filter.mpr ⟨named, by simp [artifact]⟩
  obtain ⟨there, found, member⟩ := List.mem_flatMap.mp (same _ told)
  obtain ⟨again, within, text⟩ := List.mem_map.mp member
  obtain ⟨kept, source⟩ := List.mem_filter.mp within
  have chars := congrArg String.toList text
  rw [toList_sourceText, toList_sourceText] at chars
  have rest := (List.cons.inj (List.cons.inj (List.cons.inj chars).2).2).2
  obtain ⟨paths, marks⟩ := append_separator_inj (fun held => (mark_chars digests held).1 rfl)
    (fun held => (mark_chars digests held).1 rfl) rest
  obtain rfl := String.toList_injective paths
  refine ⟨⟨artifact, there, found, kept⟩, ?_⟩
  exact mark_inj digests (String.toList_injective marks)

/-- A fingerprint shows HEAD and the sources. -/
theorem sameSources_of_fingerprint (digests : Digests sha256) {other : WorktreeState}
    {headSha : String} (readable : worktree.Readable quoted decode)
    (legible : other.Readable quoted decode) (told : headSha = worktree.head ∨ headSha = "")
    (same : worktree.fingerprint sha256 headSha = other.fingerprint sha256 other.head)
    : worktree.SameSources other := by
  have plain (worktree : WorktreeState) : '\n' ∉ worktree.head.toList := fun held =>
    absurd (worktree.commit.2 _ held) (by decide)
  have text (headSha : String) (sourceEntries : List String)
      : (fingerprintPayload headSha sourceEntries).toList
        = headSha.toList ++ '\n' :: (joinTexts "\n" (sortTexts sourceEntries)).toList := by
    have joined : fingerprintPayload headSha sourceEntries
        = headSha ++ "\n" ++ joinTexts "\n" (sortTexts sourceEntries) :=
      rfl
    simp [joined]
  have payload := congrArg String.toList (digests.collisionFree same)
  have unbroken : '\n' ∉ headSha.toList := by
    rcases told with rfl | rfl
    · exact plain worktree
    · simp
  rw [text, text] at payload
  obtain ⟨heads, lines⟩ := separator_append_inj unbroken (plain other) payload
  have sorted : sortTexts (worktree.sourceTexts sha256) = sortTexts (other.sourceTexts sha256) := by
    have joined : joinTexts (.singleton '\n') _ = joinTexts (.singleton '\n') _ :=
      String.toList_injective lines
    refine joinTexts_inj (fun text member => ?_) joined
    rcases List.mem_append.mp member with first | second
    · exact sourceTexts_lines digests readable text ((perm_sortTexts _).mem_iff.mp first)
    · exact sourceTexts_lines digests legible text ((perm_sortTexts _).mem_iff.mp second)
  have alike (text : String)
      : text ∈ worktree.sourceTexts sha256 ↔ text ∈ other.sourceTexts sha256 := by
    rw [← (perm_sortTexts (worktree.sourceTexts sha256)).mem_iff, sorted,
      (perm_sortTexts (other.sourceTexts sha256)).mem_iff]
  obtain rfl := String.toList_injective heads
  refine ⟨?_, fun path content => ⟨?_, ?_⟩⟩
  · exact (told.resolve_right other.commit.1).symm
  · exact source_of_same digests fun text held => (alike text).mp held
  · exact source_of_same digests fun text held => (alike text).mpr held

end Fingerprints

end AiSdlc.Application
