import AiSdlc.Application.FixReview
import AiSdlc.Async.Block

/-! What the guards of the targeted fix miss. A protected file of the baseline is always noticed;
a governance file and a critical one are not where git fails, where a read gives nothing for a
file that is there, or where the status listing does not show the file.
-/

namespace AiSdlc.Application

open AiSdlc.Js
open AiSdlc.Async
open FixReviewHandler

/-- The worktree that a fixer edits: the files of the commits, those before the fix and after it,
what git lists afterwards, and the critical files that are recorded.
-/
structure WorktreeEdit where
  committed : String → String → Option String
  before : String → Option String
  after : String → Option String
  entries : List StatusEntry
  quoted : String → List Char
  recorded : List ValidationCriticalFile

/-- A failure of a port: a call threw, or a read gave nothing for a file that is there. -/
inductive PortFailure
  | threw (request : FixReviewRequest)
  | silent (request : FixReviewRequest)
  deriving DecidableEq

/-- What git and the stored list of critical files tell; the status before the fix is free. -/
def WorktreeEdit.Tells (edit : WorktreeEdit) : (request : FixReviewRequest) → request.Answer → Prop
  | .readCriticalFiles, .json files => files = edit.recorded
  | .readCriticalFiles, .other => edit.recorded = []
  | .status occasion, output =>
      occasion = .beforeFix ∨ output = printedStatus edit.quoted edit.entries
  | .listFilesAtCommit commitSha, files =>
      ∀ path, path ∈ files ↔ (edit.committed commitSha path).isSome
  | .worktreeFileContent _ path, content => content = edit.after path
  | .fileContent _ ref path, content => edit.committed ref path = some content
  | _, _ => True

/-- The answer of a read that gives nothing. -/
def FixReviewRequest.IsSilent : (request : FixReviewRequest) → request.Answer → Prop
  | .worktreeFileContent _ _, content => content = none
  | _, _ => False

/-- The replies of the ports, which may fail as given, and tell how things are otherwise. -/
def WorktreeEdit.replies (edit : WorktreeEdit) (failures : List PortFailure)
    : Environment Unit FixReviewRequest FixReviewRequest.Reply
  | _, request, .ok answer, _ =>
      edit.Tells request answer ∨ (request.IsSilent answer ∧ .silent request ∈ failures)
  | _, request, .error _, _ => .threw request ∈ failures

/-- What git documents of its listing. -/
structure WorktreeEdit.Printed (edit : WorktreeEdit) : Prop where
  entries : ∀ entry ∈ edit.entries, entry.WellFormed
  quotes : Quotes edit.quoted

section Guards

variable (edit : WorktreeEdit) (library : FixReviewLibrary) (opts : FixReviewHandlerOpts)
  (ctx : FixReviewContext) (failures : List PortFailure)

/-- What a pass promises about the worktree after the fix. -/
structure GuardsHold : Prop where
  baseline : ∀ startCommitSha path content, ctx.startCommitSha = some startCommitSha →
    edit.committed startCommitSha path = some content →
      isProtectedArtifactCandidate path = true → edit.after path = some content
  governance : ∀ path, isGovernanceFilePath path (customProtected opts ctx) = true →
    edit.after path ≠ edit.before path → edit.after path = edit.committed "HEAD" path
  critical : ∀ critical ∈ edit.recorded,
    hashContent library.sha256 (edit.after critical.path) ≠ critical.beforeHash

/-- A path that differs from HEAD is not seen: the status cannot be read, or shows no entry as
the path; or HEAD cannot be read, and nothing is read from the worktree.
-/
def UnseenChange (path : String) : Prop :=
  .threw (.status .governance) ∈ failures
  ∨ (∀ entry ∈ edit.entries, entry.shownPath library.decode edit.quoted ctx.cwd ≠ some path)
  ∨ (.threw (.fileContent .governance "HEAD" path) ∈ failures
    ∧ (edit.after path = none ∨ .silent (.worktreeFileContent .governance path) ∈ failures))

/-- A critical file that is gone does not count as absent: the first entry that names it does
not report a deleted file, or no entry names it and HEAD has it.
-/
def Unconfirmed (critical : ValidationCriticalFile) : Prop :=
  match edit.entries.find? (·.names library.decode edit.quoted critical.path) with
  | some entry => entry.statusX ≠ 'D' ∧ entry.statusY ≠ 'D'
  | none => (edit.committed "HEAD" critical.path).isSome = true

/-- A critical file that is back in its state before the fix is not seen: the list of them or
the file cannot be read, or a deleted file is not confirmed to be absent.
-/
def UnseenRevert (critical : ValidationCriticalFile) : Prop :=
  let read := FixReviewRequest.worktreeFileContent (.critical critical) critical.path
  .threw .readCriticalFiles ∈ failures
  ∨ match edit.after critical.path with
    | some _ => .threw read ∈ failures ∨ .silent read ∈ failures
    | none =>
        Unconfirmed edit library critical
        ∨ (.threw (.status (.critical critical)) ∈ failures ∧ .threw read ∈ failures)

/-- A change that the guards are there for, and do not see. -/
inductive Escapes : Prop
  | governance {path : String}
      (sensitive : isGovernanceFilePath path (customProtected opts ctx) = true)
      (edited : edit.after path ≠ edit.before path)
      (differs : edit.after path ≠ edit.committed "HEAD" path)
      (unseen : UnseenChange edit library ctx failures path)
  | critical {critical : ValidationCriticalFile} (recorded : critical ∈ edit.recorded)
      (reverted : hashContent library.sha256 (edit.after critical.path) = critical.beforeHash)
      (unseen : UnseenRevert edit library failures critical)

end Guards

section Statements

variable {edit : WorktreeEdit} {library : FixReviewLibrary} {opts : FixReviewHandlerOpts}
  {ctx : FixReviewContext} {failures : List PortFailure} {α β : Type}

/-- Statements that return early only what is not a pass; what is known about their value, and
about where they throw.
-/
abbrev Guarded (edit : WorktreeEdit) (failures : List PortFailure) (after : α → Prop)
    (failing : Prop) (statements : FixStatements α)
    : Prop :=
  statements.Meets (edit.replies failures) (fun _ _ => True) (fun _ _ => True)
    (fun value _ _ => after value) (fun result _ _ => result ≠ .passed) fun _ _ _ => failing

theorem guarded_pure {value : α} {after : α → Prop} {failing : Prop} (holds : after value)
    : Guarded edit failures after failing (pure value) :=
  Block.meets_pure fun _ _ _ => holds

theorem guarded_bind {middle : β → Prop} {after : α → Prop} {failing : Prop}
    {first : FixStatements β} {next : β → FixStatements α}
    (guarded : Guarded edit failures middle failing first)
    (rest : ∀ value, middle value → Guarded edit failures after failing (next value))
    : Guarded edit failures after failing (first >>= next) :=
  Block.meets_bind guarded fun value locals state holds => rest value holds locals state trivial

theorem guarded_attempt {after : α → Prop} {thrown failing : Prop}
    {statements : FixStatements α} {recover : HandlerError → FixStatements α}
    (tried : Guarded edit failures after thrown statements)
    (recovered : ∀ error, thrown → Guarded edit failures after failing (recover error))
    : Guarded edit failures after failing (Block.attempt statements recover) :=
  Block.meets_attempt tried fun error locals state holds =>
    recovered error holds locals state trivial

theorem guarded_call {request : FixReviewRequest} {after : request.Answer → Prop} {failing : Prop}
    (told : ∀ answer, edit.Tells request answer → after answer)
    (silent : ∀ answer, request.IsSilent answer → .silent request ∈ failures → after answer)
    (fails : .threw request ∈ failures → failing)
    : Guarded edit failures after failing (FixReviewHandler.call request) := by
  refine Block.meets_call (fun _ _ _ => trivial) ?_ fun _ _ _ _ _ threw => fails threw
  intro _ _ _ answer _ replied
  rcases replied with tells | ⟨silently, failed⟩
  · exact told answer tells
  · exact silent answer silently failed

theorem guarded_leave {result : PhaseResult} {after : α → Prop} {failing : Prop}
    (other : result ≠ .passed)
    : Guarded edit failures after failing (Block.leave fun _ => result) :=
  Block.meets_leave fun _ _ _ => other

theorem guarded_ifThen {condition : Bool} {after : Unit → Prop} {failing : Prop}
    {statements : FixStatements Unit}
    (leaves : Guarded edit failures (fun _ => False) failing statements)
    (goesOn : condition = false → after ())
    : Guarded edit failures after failing (Block.ifThen condition statements) := by
  cases condition with
  | true => exact leaves.mono (fun _ _ holds => holds) fun _ _ _ never => never.elim
  | false => exact guarded_pure (goesOn rfl)

/-- What the body tells about each item, by induction over the items. -/
theorem guarded_forEach {items : List β} {body : β → FixStatements Unit} {fact : β → Prop}
    {failing : Prop}
    (each : ∀ item, Guarded edit failures (fun _ => fact item) failing (body item))
    : Guarded edit failures (fun _ => ∀ item ∈ items, fact item) failing
        (Block.forEach items body) := by
  induction items with
  | nil => exact guarded_pure fun item member => absurd member List.not_mem_nil
  | cons first rest ih =>
      refine guarded_bind (each first) fun _ known => ?_
      refine ih.mono (fun _ _ holds => holds) fun _ _ _ others item member => ?_
      rcases List.mem_cons.mp member with rfl | later
      · exact known
      · exact others item later

theorem guarded_asked {request : FixReviewRequest}
    : Guarded edit failures (fun _ => True) True (FixReviewHandler.call request) :=
  guarded_call (fun _ _ => trivial) (fun _ _ _ => trivial) fun _ => trivial

theorem guarded_emit {type message : String} {level : EventLevel}
    : Guarded edit failures (fun _ => True) True (emit ctx type level message) :=
  guarded_bind guarded_asked fun _ _ => guarded_asked

theorem guarded_needsHumanReview {message suggestedAction : String} {canRetry : Bool}
    {artifacts : List String} {after : α → Prop}
    : Guarded edit failures after True
        (needsHumanReview ctx message canRetry suggestedAction artifacts : FixStatements α) := by
  refine guarded_bind guarded_emit fun _ _ => ?_
  exact guarded_bind guarded_asked fun _ _ => guarded_leave nofun

theorem guarded_protectedArtifactCollision {message suggestedAction : String} {after : α → Prop}
    : Guarded edit failures after True
        (protectedArtifactCollision ctx message suggestedAction : FixStatements α) :=
  guarded_bind guarded_emit fun _ _ => guarded_needsHumanReview

theorem guarded_requireBaseline
    : Guarded edit failures (fun startCommitSha => ctx.startCommitSha = some startCommitSha) True
        (requireBaseline ctx) := by
  unfold requireBaseline
  split
  · exact guarded_protectedArtifactCollision
  next startCommitSha given =>
    refine Block.meets_ite (fun _ => ?_) fun _ => guarded_protectedArtifactCollision
    exact guarded_pure (Option.filter_eq_some_iff.mp given).1

theorem guarded_runFixer {config : SingleShotConfig}
    : Guarded edit failures (fun _ => True) True (runFixer ctx config) := by
  refine guarded_bind guarded_asked fun fixRunResult _ => ?_
  cases fixRunResult with
  | notPassed result other => exact guarded_bind guarded_emit fun _ _ => guarded_leave other
  | passed result =>
      cases result with
      | cannotFix reason => exact guarded_needsHumanReview
      | doneWithFixes => exact guarded_pure trivial
      | doneNoFixesNeeded rebuttal => exact guarded_pure trivial

theorem guarded_loadCriticalFiles
    : Guarded edit failures
        (fun files => files = edit.recorded ∨ .threw .readCriticalFiles ∈ failures) True
        loadCriticalFiles := by
  have reads : Guarded edit failures
      (edit.Tells .readCriticalFiles) (.threw .readCriticalFiles ∈ failures)
      (FixReviewHandler.call .readCriticalFiles) :=
    guarded_call (fun _ tells => tells) (fun _ never _ => never.elim) fun threw => threw
  refine guarded_attempt (guarded_bind reads fun raw tells => ?_) fun _ threw =>
    guarded_pure (.inr threw)
  cases raw with
  | json files => exact guarded_pure (.inl tells)
  | other => exact guarded_pure (.inl tells.symm)

-----------------------------------------------------------------------------------------
-- The guard of the baseline
-----------------------------------------------------------------------------------------

theorem guarded_isViolated {startCommitSha path : String}
    : Guarded edit failures
        (fun violated => violated = false → ∀ content,
          edit.committed startCommitSha path = some content → edit.after path = some content)
        True (isViolated ctx startCommitSha path) := by
  have current : Guarded edit failures
      (fun content => ∀ text, content = some text → edit.after path = some text) True
      (Block.attempt (FixReviewHandler.call (.worktreeFileContent .baseline path)) fun error =>
        protectedArtifactCollision ctx
          (s!"Failed to inspect worktree content for protected file {path}: "
            ++ HandlerError.message error)
          FixReviewHandler.inspectRepository) := by
    refine guarded_attempt (guarded_call ?_ ?_ fun _ => trivial) fun _ (_ : True) =>
      guarded_protectedArtifactCollision
    · intro content tells text same
      exact tells.symm.trans same
    · intro content silent _ text same
      exact nomatch silent.symm.trans same
  refine guarded_bind current fun content told => ?_
  cases content with
  | none => exact guarded_pure nofun
  | some text =>
      have baseline : Guarded edit failures
          (fun content => edit.committed startCommitSha path = some content) True
          (Block.attempt (FixReviewHandler.call (.fileContent .baseline startCommitSha path))
            fun error =>
              let read := s!"baseline content for protected file {path} at {startCommitSha}"
              protectedArtifactCollision ctx s!"Failed to read {read}: {HandlerError.message error}"
                FixReviewHandler.inspectRepository) :=
        guarded_attempt
          (guarded_call (fun _ tells => tells) (fun _ never _ => never.elim) fun _ => trivial)
          fun _ (_ : True) => guarded_protectedArtifactCollision
      refine guarded_bind baseline fun stored known => guarded_pure fun same content committed => ?_
      have equal : text = stored := by simpa using same
      rw [told text rfl, equal]
      exact known.symm.trans committed

theorem guarded_collectViolated {startCommitSha : String} {paths : List String}
    : Guarded edit failures
        (fun violated => violated = [] → ∀ path ∈ paths, ∀ content,
          edit.committed startCommitSha path = some content → edit.after path = some content)
        True (collectViolated ctx startCommitSha paths) := by
  induction paths with
  | nil => exact guarded_pure fun _ path member => absurd member List.not_mem_nil
  | cons first rest ih =>
      refine guarded_bind guarded_isViolated fun violated known => ?_
      refine guarded_bind ih fun others later => guarded_pure fun none path member => ?_
      cases violated with
      | true => exact absurd none (List.cons_ne_nil _ _)
      | false =>
          rcases List.mem_cons.mp member with rfl | within
          · exact known rfl
          · exact later none path within

theorem guarded_guardBaseline {startCommitSha : String}
    : Guarded edit failures
        (fun _ => ∀ path content, edit.committed startCommitSha path = some content →
          isProtectedArtifactCandidate path = true → edit.after path = some content)
        True (guardBaseline ctx startCommitSha) := by
  have listed : Guarded edit failures
      (fun files => ∀ path, path ∈ files ↔ (edit.committed startCommitSha path).isSome) True
      (Block.attempt (FixReviewHandler.call (.listFilesAtCommit startCommitSha)) fun error =>
        protectedArtifactCollision ctx
          s!"Failed to enumerate baseline files at {startCommitSha}: {HandlerError.message error}"
          "Inspect git repository state and verify baseline commit is valid.") :=
    guarded_attempt
      (guarded_call (fun _ tells => tells) (fun _ never _ => never.elim) fun _ => trivial)
      fun _ (_ : True) => guarded_protectedArtifactCollision
  refine guarded_bind listed fun files listed => ?_
  refine guarded_bind guarded_collectViolated fun violated known => ?_
  refine guarded_ifThen guarded_protectedArtifactCollision ?_
  intro none path content committed candidate
  refine known (by simpa using none) path (List.mem_filter.mpr ⟨?_, candidate⟩) content committed
  exact (listed path).mpr (by rw [committed]; rfl)

-----------------------------------------------------------------------------------------
-- The guard of the governance files
-----------------------------------------------------------------------------------------

theorem guarded_readStatus
    : Guarded edit failures
        (fun output => .threw (.status .governance) ∈ failures
          ∨ output = printedStatus edit.quoted edit.entries)
        True (readStatus .governance) := by
  refine guarded_attempt (guarded_call ?_ (fun _ never _ => never.elim) fun threw => threw)
    fun _ threw => guarded_pure (.inl threw)
  intro output tells
  exact .inr (tells.resolve_left nofun)

/-- A path that does not count as modified is the one of HEAD, or the reads fail. -/
theorem guarded_isModified {pathsBefore : List String} {path : String}
    : Guarded edit failures
        (fun modified => modified = false → edit.after path ≠ edit.committed "HEAD" path →
          .threw (.fileContent .governance "HEAD" path) ∈ failures
          ∧ (edit.after path = none
            ∨ .silent (.worktreeFileContent .governance path) ∈ failures))
        True (isModified pathsBefore path) := by
  have current : Guarded edit failures
      (fun content => content = edit.after path
        ∨ content = none ∧ .silent (.worktreeFileContent .governance path) ∈ failures)
      True (FixReviewHandler.call (.worktreeFileContent .governance path)) :=
    guarded_call (fun _ tells => .inl tells) (fun _ silent failed => .inr ⟨silent, failed⟩)
      fun _ => trivial
  have head : Guarded edit failures
      (fun content => (∃ text, content = some text ∧ edit.committed "HEAD" path = some text)
        ∨ content = none ∧ .threw (.fileContent .governance "HEAD" path) ∈ failures)
      True
      (Block.attempt (some <$> FixReviewHandler.call (.fileContent .governance "HEAD" path))
        fun _ => pure none) := by
    have reads : Guarded edit failures (fun text => edit.committed "HEAD" path = some text)
        (.threw (.fileContent .governance "HEAD" path) ∈ failures)
        (FixReviewHandler.call (.fileContent .governance "HEAD" path)) :=
      guarded_call (fun _ tells => tells) (fun _ never _ => never.elim) fun threw => threw
    refine guarded_attempt (guarded_bind reads fun text told => ?_) fun _ threw =>
      guarded_pure (.inr ⟨rfl, threw⟩)
    exact guarded_pure (.inl ⟨text, rfl, told⟩)
  refine Block.meets_ite (fun _ => guarded_pure nofun) fun _ => ?_
  refine guarded_attempt ?_ fun _ (_ : True) => guarded_pure nofun
  refine guarded_bind current fun content told => guarded_bind head fun stored known => ?_
  refine guarded_pure fun same differs => ?_
  have equal : content = stored := by simpa using same
  rcases known with ⟨text, rfl, committed⟩ | ⟨rfl, threw⟩
  · rcases told with rfl | ⟨rfl, -⟩
    · exact absurd (equal.trans committed.symm) differs
    · exact nomatch equal
  · rcases told with rfl | ⟨-, silent⟩
    · exact ⟨threw, .inl equal⟩
    · exact ⟨threw, .inr silent⟩

theorem guarded_collectModified {pathsBefore paths : List String} {fact : String → Prop}
    (each : ∀ path, Guarded edit failures (fun modified => modified = false → fact path) True
      (isModified pathsBefore path))
    : Guarded edit failures (fun modified => modified = [] → ∀ path ∈ paths, fact path) True
        (collectModified pathsBefore paths) := by
  induction paths with
  | nil => exact guarded_pure fun _ path member => absurd member List.not_mem_nil
  | cons first rest ih =>
      refine guarded_bind (each first) fun modified known => ?_
      refine guarded_bind ih fun others later => guarded_pure fun none path member => ?_
      cases modified with
      | true => exact absurd none (List.cons_ne_nil _ _)
      | false =>
          rcases List.mem_cons.mp member with rfl | within
          · exact known rfl
          · exact later none path within

/-- A governance file that differs from HEAD is noticed, or not seen. -/
theorem guarded_guardGovernance {statusBefore : String} (printed : edit.Printed)
    : Guarded edit failures
        (fun _ => ∀ path, isGovernanceFilePath path (customProtected opts ctx) = true →
          edit.after path ≠ edit.committed "HEAD" path →
            UnseenChange edit library ctx failures path)
        True (guardGovernance library opts ctx statusBefore) := by
  refine guarded_bind guarded_readStatus fun output told => ?_
  have collects {pathsBefore paths : List String} : Guarded edit failures
      (fun modified => modified = [] → ∀ path ∈ paths,
        edit.after path ≠ edit.committed "HEAD" path →
          .threw (.fileContent .governance "HEAD" path) ∈ failures
          ∧ (edit.after path = none
            ∨ .silent (.worktreeFileContent .governance path) ∈ failures))
      True (collectModified pathsBefore paths) :=
    guarded_collectModified fun path => guarded_isModified
  dsimp only
  generalize listed : (parseStatusPaths library.decode output ctx.cwd).filter
    (isGovernanceFilePath · (customProtected opts ctx)) = paths
  refine guarded_bind collects fun modified known => ?_
  have leaves {message suggestedAction : String} {artifacts : List String}
      : Guarded edit failures (fun _ => False) True (do
          emit ctx "fix_review.governance_file_modified" .error message
          needsHumanReview ctx message false suggestedAction artifacts : FixStatements Unit) :=
    guarded_bind guarded_emit fun _ _ => guarded_needsHumanReview
  refine guarded_ifThen leaves fun none path sensitive differs => ?_
  have empty : modified = [] := by simpa using none
  rcases told with threw | same
  · exact .inl threw
  · refine .inr (or_iff_not_imp_left.mpr fun seen => ?_)
    obtain ⟨entry, member, shown⟩ : ∃ entry ∈ edit.entries,
        entry.shownPath library.decode edit.quoted ctx.cwd = some path := by
      simpa using seen
    have parsed : path ∈ parseStatusPaths library.decode output ctx.cwd := by
      rw [same]
      exact (mem_parseStatusPaths printed.quotes printed.entries).mpr ⟨entry, member, shown⟩
    have within : path ∈ paths := by
      rw [← listed]
      exact List.mem_filter.mpr ⟨parsed, sensitive⟩
    exact known empty path within differs

-----------------------------------------------------------------------------------------
-- The guard of the critical files
-----------------------------------------------------------------------------------------

/-- A file that is read as gone, and is not confirmed to be absent. -/
theorem guarded_confirmAbsence {critical : ValidationCriticalFile}
    {outcome : Except HandlerError (Option String)} (printed : edit.Printed)
    (failed : ∀ error, outcome = .error error →
      .threw (.worktreeFileContent (.critical critical) critical.path) ∈ failures)
    : Guarded edit failures
        (fun unconfirmed => unconfirmed ≠ none → Unconfirmed edit library critical
          ∨ (.threw (.status (.critical critical)) ∈ failures
            ∧ .threw (.worktreeFileContent (.critical critical) critical.path) ∈ failures))
        True (confirmAbsence library critical (readFailure outcome)) := by
  have status : Guarded edit failures
      (fun output => output = printedStatus edit.quoted edit.entries)
      (.threw (.status (.critical critical)) ∈ failures)
      (FixReviewHandler.call (.status (.critical critical))) :=
    guarded_call (fun _ tells => tells.resolve_left nofun) (fun _ never _ => never.elim)
      fun threw => threw
  refine guarded_attempt (guarded_bind status fun output told => ?_) fun _ threw => ?_
  · subst told
    rw [matchingLine_printedStatus printed.quotes printed.entries]
    cases found : edit.entries.find? (·.names library.decode edit.quoted critical.path) with
    | some entry =>
        refine guarded_pure fun unconfirmed => .inl ?_
        have letters : reportsDeleted (entry.line edit.quoted) = false := by
          by_contra deleted
          simp [deleted] at unconfirmed
        unfold Unconfirmed
        rw [found]
        rw [reportsDeleted, StatusEntry.line_eq, decide_eq_false_iff_not] at letters
        exact ⟨fun same => letters (by simp [same]), fun same => letters (by simp [same])⟩
    | none =>
        have head : Guarded edit failures
            (fun text => edit.committed "HEAD" critical.path = some text) True
            (FixReviewHandler.call (.fileContent (.critical critical) "HEAD" critical.path)) :=
          guarded_call (fun _ tells => tells) (fun _ never _ => never.elim) fun _ => trivial
        refine guarded_attempt (guarded_bind head fun text told => ?_) fun _ (_ : True) =>
          guarded_pure fun unconfirmed => absurd rfl unconfirmed
        refine guarded_pure fun _ => .inl ?_
        unfold Unconfirmed
        rw [found]
        exact Option.isSome_of_eq_some told
  · cases outcome with
    | ok content => exact guarded_pure fun unconfirmed => absurd rfl unconfirmed
    | error error => exact guarded_pure fun _ => .inr ⟨threw, failed error rfl⟩

/-- What is read of a critical file. -/
structure CriticalRead (edit : WorktreeEdit) (failures : List PortFailure)
    (critical : ValidationCriticalFile) (outcome : Except HandlerError (Option String))
    : Prop where
  content : contentRead outcome = edit.after critical.path
    ∨ contentRead outcome = none
      ∧ (.threw (.worktreeFileContent (.critical critical) critical.path) ∈ failures
        ∨ .silent (.worktreeFileContent (.critical critical) critical.path) ∈ failures)
  threw : ∀ error, outcome = .error error →
    .threw (.worktreeFileContent (.critical critical) critical.path) ∈ failures

theorem guarded_readCritical {critical : ValidationCriticalFile}
    : Guarded edit failures (CriticalRead edit failures critical) True (readCritical critical) := by
  have reads : Guarded edit failures
      (fun content => content = edit.after critical.path
        ∨ content = none
          ∧ .silent (.worktreeFileContent (.critical critical) critical.path) ∈ failures)
      (.threw (.worktreeFileContent (.critical critical) critical.path) ∈ failures)
      (FixReviewHandler.call (.worktreeFileContent (.critical critical) critical.path)) :=
    guarded_call (fun _ tells => .inl tells) (fun _ silent failed => .inr ⟨silent, failed⟩)
      fun threw => threw
  refine guarded_attempt (guarded_bind reads fun content told => guarded_pure ?_)
    fun error threw => guarded_pure ?_
  · refine { content := ?_, threw := nofun }
    rcases told with same | ⟨none, silent⟩
    · exact .inl same
    · exact .inr ⟨none, .inr silent⟩
  · exact { content := .inr ⟨rfl, .inl threw⟩, threw := fun _ _ => threw }

/-- A critical file that is back in its state before the fix is noticed, or not seen. -/
theorem guarded_guardCritical {critical : ValidationCriticalFile} (printed : edit.Printed)
    (digest : ∀ text, library.sha256 text ≠ deletedSentinel)
    : Guarded edit failures
        (fun _ =>
          hashContent library.sha256 (edit.after critical.path) = critical.beforeHash →
            UnseenRevert edit library failures critical)
        True (guardCritical library ctx critical) := by
  refine guarded_bind guarded_readCritical fun outcome read => ?_
  -- Where absence is not confirmed, the file was gone before the fix.
  have confirms : Guarded edit failures
      (fun unconfirmed => unconfirmed ≠ none →
        critical.beforeHash = deletedSentinel
        ∧ (Unconfirmed edit library critical
          ∨ (.threw (.status (.critical critical)) ∈ failures
            ∧ .threw (.worktreeFileContent (.critical critical) critical.path) ∈ failures)))
      True
      (if contentRead outcome = none ∧ critical.beforeHash = deletedSentinel then
        confirmAbsence library critical (readFailure outcome)
      else pure none) := by
    refine Block.meets_ite (fun gone => ?_) fun _ => guarded_pure fun some => absurd rfl some
    refine (guarded_confirmAbsence printed read.threw).mono (fun _ _ holds => holds) ?_
    exact fun _ _ _ known unconfirmed => ⟨gone.2, known unconfirmed⟩
  refine guarded_bind confirms fun unconfirmed known => ?_
  cases unconfirmed with
  | some error =>
      refine guarded_emit.mono (fun _ _ holds => holds) fun _ _ _ _ reverted => .inr ?_
      obtain ⟨deleted, unseen⟩ := known nofun
      cases content : edit.after critical.path with
      | some text =>
          rw [content, deleted] at reverted
          exact absurd reverted (digest text)
      | none => exact unseen
  | none =>
      have leaves {type notice message suggestedAction : String} {artifacts : List String}
          : Guarded edit failures (fun _ => False) True (do
              emit ctx type .error notice
              needsHumanReview ctx message true suggestedAction artifacts : FixStatements Unit) :=
        guarded_bind guarded_emit fun _ _ => guarded_needsHumanReview
      refine guarded_ifThen leaves fun kept reverted => ?_
      have apart : hashContent library.sha256 (contentRead outcome) ≠ critical.beforeHash := by
        simpa [wasRevertedToBeforeState] using kept
      rcases read.content with same | ⟨_, failed⟩
      · exact absurd (same ▸ reverted) apart
      · refine .inr ?_
        cases content : edit.after critical.path with
        | some text => exact failed
        | none =>
            rename_i gone
            rw [content] at reverted
            exact absurd (gone ▸ reverted) apart

-----------------------------------------------------------------------------------------
-- The pass
-----------------------------------------------------------------------------------------

/-- What is known where the pass stands. -/
structure Noticed (edit : WorktreeEdit) (library : FixReviewLibrary)
    (opts : FixReviewHandlerOpts) (ctx : FixReviewContext) (failures : List PortFailure)
    : Prop where
  baseline : ∀ startCommitSha path content, ctx.startCommitSha = some startCommitSha →
    edit.committed startCommitSha path = some content →
      isProtectedArtifactCandidate path = true → edit.after path = some content
  governance : ∀ path, isGovernanceFilePath path (customProtected opts ctx) = true →
    edit.after path ≠ edit.committed "HEAD" path → UnseenChange edit library ctx failures path
  critical : ∀ critical ∈ edit.recorded,
    hashContent library.sha256 (edit.after critical.path) = critical.beforeHash →
      UnseenRevert edit library failures critical

/-- Statements that return a pass only where something is known. -/
abbrev Concludes (edit : WorktreeEdit) (failures : List PortFailure) (known : Prop)
    (statements : FixStatements α)
    : Prop :=
  statements.Meets (edit.replies failures) (fun _ _ => True) (fun _ _ => True)
    (fun _ _ _ => True) (fun result _ _ => result = .passed → known) fun _ _ _ => True

theorem concludes_bind {known : Prop} {middle : β → Prop} {first : FixStatements β}
    {next : β → FixStatements α} (guarded : Guarded edit failures middle True first)
    (rest : ∀ value, middle value → Concludes edit failures known (next value))
    : Concludes edit failures known (first >>= next) := by
  refine Block.meets_bind (guarded.returns fun _ _ _ other same => absurd same other) ?_
  exact fun value locals state holds => rest value holds locals state trivial

theorem guarded_unheeded {after : α → Prop} {statements : FixStatements α}
    {recover : HandlerError → FixStatements α}
    (tried : Guarded edit failures after True statements)
    (recovered : ∀ error, Guarded edit failures after True (recover error))
    : Guarded edit failures after True (Block.attempt statements recover) :=
  guarded_attempt tried fun error _ => recovered error

theorem guarded_formatFindings
    : Guarded edit failures (fun _ => True) True (formatFindings library) := by
  refine guarded_unheeded (guarded_bind guarded_asked fun ledgerRaw _ => ?_) fun _ =>
    guarded_unheeded guarded_asked fun _ => guarded_pure trivial
  cases ledgerRaw with
  | json ledger => exact guarded_pure trivial
  | malformed => exact Block.meets_throw fun _ _ _ => trivial

theorem guarded_resolveFixProfile
    : Guarded edit failures (fun _ => True) True (resolveFixProfile opts ctx) :=
  Block.meets_ite (fun _ => guarded_asked) fun _ => guarded_pure trivial

theorem guarded_loadTemplate
    : Guarded edit failures (fun _ => True) True (FixReviewHandler.loadTemplate ctx) := by
  unfold FixReviewHandler.loadTemplate
  split
  · exact guarded_pure trivial
  · exact guarded_unheeded (guarded_bind guarded_asked fun _ _ => guarded_pure trivial)
      fun _ => guarded_pure trivial

theorem guarded_invalidateValidationEvidence
    : Guarded edit failures (fun _ => True) True invalidateValidationEvidence :=
  guarded_unheeded (guarded_bind guarded_asked fun _ _ => guarded_asked)
    fun _ => guarded_pure trivial

theorem concludes_run (printed : edit.Printed)
    (digest : ∀ text, library.sha256 text ≠ deletedSentinel)
    : Concludes edit failures (Noticed edit library opts ctx failures)
        (run library opts ctx) := by
  have status : Guarded edit failures (fun _ => True) True (readStatus .beforeFix) :=
    guarded_unheeded guarded_asked fun _ => guarded_pure trivial
  refine concludes_bind guarded_emit fun _ _ => ?_
  refine concludes_bind guarded_formatFindings fun formattedFindings _ => ?_
  refine concludes_bind guarded_resolveFixProfile fun profile _ => ?_
  refine concludes_bind guarded_loadTemplate fun template _ => ?_
  refine concludes_bind guarded_loadCriticalFiles fun criticalFiles listed => ?_
  refine concludes_bind guarded_requireBaseline fun _ _ => ?_
  refine concludes_bind status fun statusBefore _ => ?_
  refine concludes_bind guarded_runFixer fun _ _ => ?_
  refine concludes_bind guarded_requireBaseline fun startCommitSha given => ?_
  refine concludes_bind guarded_guardBaseline fun _ baseline => ?_
  refine concludes_bind (guarded_guardGovernance printed) fun _ governance => ?_
  refine concludes_bind (guarded_forEach fun critical => guarded_guardCritical printed digest)
    fun _ critical => ?_
  refine concludes_bind guarded_invalidateValidationEvidence fun _ _ => ?_
  refine concludes_bind guarded_emit fun _ _ => Block.meets_leave fun _ _ _ _ => ?_
  refine { baseline := ?_, governance := governance, critical := ?_ }
  · intro other path content same committed candidate
    obtain rfl := Option.some.inj (given.symm.trans same)
    exact baseline path content committed candidate
  · intro cf recorded reverted
    rcases listed with rfl | threw
    · exact critical cf recorded reverted
    · exact .inl threw

/-- A pass keeps its promise if and only if nothing escapes the guards. -/
theorem fix_review_guards_hold {final : Unit} (printed : edit.Printed)
    (digest : ∀ text, library.sha256 text ≠ deletedSentinel)
    (execution : (run library opts ctx ()).Exec (edit.replies failures) ()
      (.returned .passed, ()) final)
    : GuardsHold edit library opts ctx ↔ ¬Escapes edit library opts ctx failures := by
  have concludes : Concludes edit failures (Noticed edit library opts ctx failures)
      (run library opts ctx) :=
    concludes_run printed digest
  have whole := concludes () () trivial
  unfold Block.Ensures at whole
  have noticed : Noticed edit library opts ctx failures := whole.of_exec execution rfl
  constructor
  · intro holds escapes
    cases escapes with
    | governance sensitive edited differs unseen =>
        exact differs (holds.governance _ sensitive edited)
    | critical recorded reverted unseen => exact holds.critical _ recorded reverted
  · intro nothing
    refine { baseline := noticed.baseline, governance := ?_, critical := ?_ }
    · intro path sensitive edited
      by_contra differs
      exact nothing (.governance sensitive edited differs
        (noticed.governance path sensitive differs))
    · intro critical recorded reverted
      exact nothing (.critical recorded reverted (noticed.critical critical recorded reverted))

end Statements

-----------------------------------------------------------------------------------------
-- A registry that is edited
-----------------------------------------------------------------------------------------

/-- The digests of the two texts that the files have. -/
def fixLibrary : FixReviewLibrary :=
  {
    sha256 := fun text =>
      if text = "before" then "6db7d803e74f1ffa7d8f5adc0bf95b3e15bf4c8373fffadf546227cc6c6742cb"
      else "f39592393ef0859cb196a52693d2cea00fb2df784b3c04ae54aa7cadb8e562f8"
    toLowerCase
    toUpperCase
    decode := fun _ => ""
  }

def fixContext : FixReviewContext :=
  {
    runId := "run"
    runUuid := "uuid"
    issueNumber := 1
    cwd := "/worktree"
    startCommitSha := some "base"
  }

/-- A worktree of some files, of which every commit has the same ones. -/
def editOf (committed before after : List (String × String)) (entries : List StatusEntry)
    (recorded : List ValidationCriticalFile)
    : WorktreeEdit :=
  {
    committed := fun _ path => committed.lookup path
    before := fun path => before.lookup path
    after := fun path => after.lookup path
    entries
    quoted := quotedPlain
    recorded
  }

/-- The replies to the run of a fixer, which tell how things are; the status after the fix cannot be
read where nothing is given.
-/
def replyToFix (edit : WorktreeEdit) (files : List String) (statusBefore : String)
    (status : Option String)
    : Unit → (request : FixReviewRequest) → Option (request.Reply × Unit)
  | _, .publish _ _ => some (.ok (), ())
  | _, .now => some (.ok Date.epoch, ())
  | _, .readLedger => some (.ok .malformed, ())
  | _, .readArtifact _ => some (.ok "", ())
  | _, .readCriticalFiles => some (.ok (.json edit.recorded), ())
  | _, .resolveProfile _ => some (.ok "fixer", ())
  | _, .loadPromptTemplate _ => some (.ok "", ())
  | _, .runSingleShotAgentPhase _ => some (.ok (.passed .doneWithFixes), ())
  | _, .status .beforeFix => some (.ok statusBefore, ())
  | _, .status .governance => some (status.elim (.error (.error "EAGAIN")) .ok, ())
  | _, .status _ => none
  | _, .listFilesAtCommit _ => some (.ok files, ())
  | _, .worktreeFileContent _ path => some (.ok (edit.after path), ())
  | _, .fileContent _ ref path => (edit.committed ref path).map fun content => (.ok content, ())
  | _, .writeArtifact _ _ => some (.ok (), ())

/-- The status after the fix, and the failure where it cannot be read. -/
def statusFailures (status : Option String) : List PortFailure :=
  if status.isSome then [] else [.threw (.status .governance)]

theorem digest_fixLibrary (text : String) : fixLibrary.sha256 text ≠ deletedSentinel := by
  have first : "6db7d803e74f1ffa7d8f5adc0bf95b3e15bf4c8373fffadf546227cc6c6742cb"
      ≠ "__DELETED__" := by
    decide +kernel
  have second : "f39592393ef0859cb196a52693d2cea00fb2df784b3c04ae54aa7cadb8e562f8"
      ≠ "__DELETED__" := by
    decide +kernel
  unfold fixLibrary
  dsimp only
  split
  · exact first
  · exact second

section Replies

variable {edit : WorktreeEdit} {files : List String} {statusBefore : String}
  {status : Option String}

/-- The replies to the fixer's run are those of its edit. -/
theorem replies_replyToFix
    (listed : ∀ commitSha path, path ∈ files ↔ (edit.committed commitSha path).isSome)
    (told : ∀ output ∈ status, output = printedStatus edit.quoted edit.entries)
    : ∀ state request reply after,
        replyToFix edit files statusBefore status state request = some (reply, after) →
          edit.replies (statusFailures status) state request reply after := by
  intro state request reply after replied
  cases request with
  | status occasion =>
      cases occasion with
      | beforeFix =>
          cases replied
          exact .inl (.inl rfl)
      | baseline | critical => contradiction
      | governance =>
          cases status with
          | none =>
              cases replied
              exact List.mem_singleton_self _
          | some output =>
              cases replied
              exact .inl (.inr (told output rfl))
  | listFilesAtCommit commitSha =>
      cases replied
      exact .inl (listed commitSha)
  | fileContent occasion ref path =>
      obtain ⟨content, found, same⟩ := Option.map_eq_some_iff.mp replied
      cases same
      exact .inl found
  | worktreeFileContent occasion path =>
      cases replied
      exact .inl rfl
  | readCriticalFiles =>
      cases replied
      exact .inl rfl
  | publish | now | readLedger | readArtifact | resolveProfile | loadPromptTemplate
  | runSingleShotAgentPhase | writeArtifact =>
      cases replied
      exact .inl (by trivial)

/-- The end of a run that passes. -/
def endsPassed : Option ((Completion HandlerError PhaseResult Unit × Unit) × Unit) → Bool
  | some ((.returned .passed, _), _) => true
  | _ => false

theorem exec_of_endsPassed
    (listed : ∀ commitSha path, path ∈ files ↔ (edit.committed commitSha path).isSome)
    (told : ∀ output ∈ status, output = printedStatus edit.quoted edit.entries)
    (passed : endsPassed ((run fixLibrary {} fixContext ()).run
      (replyToFix edit files statusBefore status) ()) = true)
    : (run fixLibrary {} fixContext ()).Exec (edit.replies (statusFailures status)) ()
        (.returned .passed, ()) () := by
  refine Program.exec_of_run (@replies_replyToFix edit files statusBefore status listed told) ?_
  unfold endsPassed at passed
  split at passed
  next ran => exact ran
  next => contradiction

end Replies

/-- The fixer edits a license registry. -/
def registryEdit : WorktreeEdit :=
  let registry := "config/license-registry.json"
  editOf [(registry, "before")] [(registry, "before")] [(registry, "after")]
    [{ statusX := ' ', statusY := 'M', path := registry }] []

theorem printed_registryEdit : registryEdit.Printed :=
  {
    entries := by
      intro entry member
      obtain rfl := List.mem_singleton.mp member
      exact ⟨by decide, by decide, rfl⟩
    quotes := quotes_quotedPlain
  }

/-- The fixer edits a license registry, and the status after the fix cannot be read. -/
theorem edited_registry_passes
    : ¬∀ (edit : WorktreeEdit) (library : FixReviewLibrary) (opts : FixReviewHandlerOpts)
        (ctx : FixReviewContext) (failures : List PortFailure) (final : Unit),
        edit.Printed → (∀ text, library.sha256 text ≠ deletedSentinel) →
        (run library opts ctx ()).Exec (edit.replies failures) () (.returned .passed, ()) final →
        GuardsHold edit library opts ctx := by
  intro claim
  have passed : endsPassed ((run fixLibrary {} fixContext ()).run
      (replyToFix registryEdit ["config/license-registry.json"] "" none) ()) = true := by
    decide +kernel
  have listed (commitSha path : String)
      : path ∈ ["config/license-registry.json"]
        ↔ (registryEdit.committed commitSha path).isSome := by
    simp [registryEdit, editOf]
  have holds := claim _ _ _ _ _ () printed_registryEdit digest_fixLibrary
    (exec_of_endsPassed listed (fun _ given => absurd given (Option.not_mem_none _)) passed)
  have sensitive : isGovernanceFilePath "config/license-registry.json" [] = true := by
    decide +kernel
  have kept := holds.governance _ sensitive (by decide)
  exact absurd kept (by decide)

/-- The fixer edits a critical file and restores a staged registry, beside a protected file of the
baseline.
-/
def guardedEdit : WorktreeEdit :=
  let registry := "config/license-registry.json"
  let source := "src/app.ts"
  let protected_ := ("docs/review.md", "before")
  editOf [protected_, (registry, "before"), (source, "before")]
    [protected_, (registry, "after"), (source, "before")]
    [protected_, (registry, "before"), (source, "after")]
    [
      { statusX := 'M', statusY := 'M', path := registry },
      { statusX := ' ', statusY := 'M', path := source }
    ]
    [
      {
        path := source
        beforeHash := fixLibrary.sha256 "before"
        afterHash := fixLibrary.sha256 "after"
        diagnostic := "tsc"
      }
    ]

theorem printed_guardedEdit : guardedEdit.Printed :=
  {
    entries := by
      intro entry member
      rcases List.mem_cons.mp member with rfl | member
      · exact ⟨by decide, by decide, rfl⟩
      · obtain rfl := List.mem_singleton.mp member
        exact ⟨by decide, by decide, rfl⟩
    quotes := quotes_quotedPlain
  }

theorem fix_review_guards_hold_edited
    : GuardsHold guardedEdit fixLibrary {} fixContext := by
  let files := ["docs/review.md", "config/license-registry.json", "src/app.ts"]
  let statusAfter := "MM config/license-registry.json\n M src/app.ts"
  have passed : endsPassed ((run fixLibrary {} fixContext ()).run
      (replyToFix guardedEdit files "M  config/license-registry.json" (some statusAfter)) ())
        = true := by
    decide +kernel
  have listed (commitSha path : String)
      : path ∈ files ↔ (guardedEdit.committed commitSha path).isSome := by
    simp [files, guardedEdit, editOf]
  have printed : statusAfter = printedStatus quotedPlain guardedEdit.entries := by
    decide +kernel
  have told : ∀ output ∈ some statusAfter,
      output = printedStatus guardedEdit.quoted guardedEdit.entries := by
    intro output given
    rw [← Option.some.inj given]
    exact printed
  refine (fix_review_guards_hold printed_guardedEdit digest_fixLibrary
    (exec_of_endsPassed listed told passed)).mpr fun escapes => ?_
  cases escapes with
  | @governance path sensitive edited differs unseen =>
      have ordinary : isGovernanceFilePath "src/app.ts" [] = false := by decide
      by_cases same : path = "src/app.ts"
      · subst same
        exact absurd (sensitive.symm.trans ordinary) (by decide)
      · have kept : guardedEdit.after path = guardedEdit.committed "HEAD" path := by
          have other : (path == "src/app.ts") = false := beq_false_of_ne same
          simp only [guardedEdit, editOf, List.lookup_cons, List.lookup_nil, other]
        exact differs kept
  | critical recorded reverted unseen =>
      obtain rfl := List.mem_singleton.mp recorded
      exact absurd reverted (by decide +kernel)

end AiSdlc.Application
