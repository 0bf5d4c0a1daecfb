import Mathlib.Data.List.Find
import AiSdlc.Application.FollowUpReview
import AiSdlc.Application.GitStatus
import AiSdlc.Application.ProtectedPaths

/-! The files that a validation depends on, by the hashes of their contents, and the paths that
the status listing names.
-/

namespace AiSdlc.Application

open AiSdlc.Js

/-- `DELETED_SENTINEL`. -/
def deletedSentinel : String :=
  "__DELETED__"

def hashContent (sha256 : String → String) (content : Option String) : String :=
  (content.map sha256).getD deletedSentinel

def wasRevertedToBeforeState (currentHash : String) (critical : ValidationCriticalFile) : Bool :=
  currentHash = critical.beforeHash

/-- `text.split(/\r?\n/)`. -/
def splitLines (chars : List Char) : List (List Char) :=
  let lines := chars.splitOn '\n'
  lines.dropLast.map dropCarriageReturn ++ lines.getLast?.toList

/-- The paths of a line that stand for changes: only the new one of a renamed or a copied
path.
-/
def targetPaths (line : List Char) : List String :=
  let rawPaths := parseGitStatusLine (.ofList line)
  match line with
  | statusX :: statusY :: _ =>
      if isRenameOrCopy statusX statusY then rawPaths.getLast?.toList else rawPaths
  | _ => []

/-- A path of the listing, if it is neither one of the orchestrator's artifacts nor in the store
of the review fixtures.
-/
def statusPath (decode : List Nat → String) (cwd rawPath : String) : Option String :=
  (normalizeRepositoryPath (unquoteGitPath decode rawPath) cwd).filter fun normalized =>
    !isOrchestratorArtifactPattern normalized && !isReviewFixtureStorePath normalized

/-- A line that is too short, or one of an ignored path. -/
def isSkippedLine (line : List Char) : Bool :=
  textLength (.ofList line) < 3 || ['!', '!'].isPrefixOf line

def parseStatusPaths (decode : List Nat → String) (statusOutput cwd : String) : List String :=
  let lines := ((splitLines statusOutput.toList).map dropCarriageReturn).filter
    fun line => !isSkippedLine line
  ((lines.flatMap targetPaths).filterMap (statusPath decode cwd)).eraseDups

/-- The first line that names a path. -/
def matchingLine (decode : List Nat → String) (statusOutput path : String)
    : Option (List Char) :=
  ((splitLines statusOutput.toList).filter (· ≠ [])).find? fun line =>
    (parseGitStatusLine (.ofList (dropCarriageReturn line))).any fun written =>
      unquoteGitPath decode written = path

/-- `statusXY.includes('D')`. -/
def reportsDeleted (line : List Char) : Bool :=
  'D' ∈ line.take 2

section Lines

variable {quoted : String → List Char} {entries : List StatusEntry} {entry : StatusEntry}
  {decode : List Nat → String} {cwd path : String}

theorem dropCarriageReturn_eq {chars : List Char}
    (ends : ∀ char ∈ chars.getLast?, isWhitespace char = false)
    : dropCarriageReturn chars = chars := by
  refine if_neg fun last => ?_
  have space : isWhitespace '\r' = true := by decide
  exact absurd (ends '\r' last) (by simp [space])

/-- The lines of what git prints, beside empty ones. -/
theorem filter_splitLines (quotes : Quotes quoted)
    (wellFormed : ∀ entry ∈ entries, entry.WellFormed)
    : (splitLines (printedStatus quoted entries).toList).filter (· ≠ [])
      = entries.map (·.line quoted) := by
  have lines : ((printedStatus quoted entries).toList.splitOn '\n').filter (· ≠ [])
      = entries.map (·.line quoted) := by
    have read := statusLines_printedStatus quotes wellFormed
    unfold statusLines at read
    have chars := congrArg (List.map String.toList) read
    simpa [Function.comp_def] using chars
  have plain : ∀ line ∈ (printedStatus quoted entries).toList.splitOn '\n',
      dropCarriageReturn line = line := by
    intro line member
    by_cases empty : line = []
    · subst empty
      rfl
    · have within : line ∈ entries.map (·.line quoted) := by
        rw [← lines]
        exact List.mem_filter.mpr ⟨member, decide_eq_true empty⟩
      obtain ⟨entry, -, rfl⟩ := List.mem_map.mp within
      exact dropCarriageReturn_eq (entry.getLast_line quotes)
  have same : splitLines (printedStatus quoted entries).toList
      = (printedStatus quoted entries).toList.splitOn '\n' := by
    unfold splitLines
    have kept := List.map_congr_left (g := id) fun line member =>
      plain line (List.dropLast_subset _ member)
    simp only [kept, List.map_id]
    rcases List.eq_nil_or_concat ((printedStatus quoted entries).toList.splitOn '\n') with
      none | ⟨before, last, parts⟩
    · rw [none]
      rfl
    · rw [parts]
      simp
  rw [same, lines]

theorem dropCarriageReturn_splitLines (quotes : Quotes quoted)
    (wellFormed : ∀ entry ∈ entries, entry.WellFormed)
    : (splitLines (printedStatus quoted entries).toList).map dropCarriageReturn
      = splitLines (printedStatus quoted entries).toList := by
  refine (List.map_congr_left fun line member => ?_).trans (List.map_id _)
  by_cases empty : line = []
  · subst empty
    rfl
  · have within : line ∈ entries.map (·.line quoted) := by
      rw [← filter_splitLines quotes wellFormed]
      exact List.mem_filter.mpr ⟨member, decide_eq_true empty⟩
    obtain ⟨entry, -, rfl⟩ := List.mem_map.mp within
    exact dropCarriageReturn_eq (entry.getLast_line quotes)

/-- The path that an entry stands for, as the listing is read. -/
def StatusEntry.shownPath (decode : List Nat → String) (quoted : String → List Char)
    (cwd : String) (entry : StatusEntry)
    : Option String :=
  if entry.statusX = '!' ∧ entry.statusY = '!' then none
  else statusPath decode cwd (.ofList (quoted entry.path))

/-- An entry names a path, as one of its two. -/
def StatusEntry.names (decode : List Nat → String) (quoted : String → List Char)
    (path : String) (entry : StatusEntry)
    : Bool :=
  entry.paths.any fun written => unquoteGitPath decode (.ofList (quoted written)) = path

/-- A text is at least as long as it has characters, by induction over them. -/
theorem length_le_textLength {chars : List Char} : chars.length ≤ textLength (.ofList chars) := by
  unfold textLength codeUnits
  rw [String.toList_ofList]
  induction chars with
  | nil => exact Nat.le_refl 0
  | cons first rest ih =>
      rw [List.flatMap_cons, List.length_append, List.length_cons]
      split <;> simp only [List.length_cons, List.length_nil] <;> omega

theorem StatusEntry.isSkippedLine
    : Application.isSkippedLine (entry.line quoted) = true
      ↔ entry.statusX = '!' ∧ entry.statusY = '!' := by
  have long : 3 ≤ textLength (.ofList (entry.line quoted)) := by
    refine le_trans ?_ length_le_textLength
    rw [line_eq]
    simp
  have short : ¬textLength (.ofList (entry.line quoted)) < 3 := Nat.not_lt.mpr long
  unfold Application.isSkippedLine
  rw [decide_eq_false short, Bool.false_or, line_eq, List.isPrefixOf_iff_prefix]
  constructor
  · rintro ⟨rest, same⟩
    obtain ⟨statusX, others⟩ := List.cons.inj same
    exact ⟨statusX.symm, (List.cons.inj others).1.symm⟩
  · rintro ⟨statusX, statusY⟩
    exact ⟨' ' :: entry.payload quoted, by rw [statusX, statusY]; rfl⟩

theorem StatusEntry.targetPaths (quotes : Quotes quoted) (wellFormed : entry.WellFormed)
    : Application.targetPaths (entry.line quoted) = [.ofList (quoted entry.path)] := by
  have parsed := entry.parse_line quotes wellFormed
  have letters := wellFormed.2.2
  unfold Application.targetPaths
  rw [parsed, line_eq]
  simp only [← letters]
  cases renamed : entry.origPath with
  | none => simp [paths, renamed]
  | some origPath => simp [paths, renamed]

/-- The paths that are read from a listing are those that its entries stand for. -/
theorem mem_parseStatusPaths (quotes : Quotes quoted)
    (wellFormed : ∀ entry ∈ entries, entry.WellFormed)
    : path ∈ parseStatusPaths decode (printedStatus quoted entries) cwd
      ↔ ∃ entry ∈ entries, entry.shownPath decode quoted cwd = some path := by
  have lines : ((splitLines (printedStatus quoted entries).toList).map
        dropCarriageReturn).filter (fun line => !isSkippedLine line)
      = (entries.filter fun entry => ¬(entry.statusX = '!' ∧ entry.statusY = '!')).map
        (·.line quoted) := by
    have nonempty : ∀ line : List Char,
        (decide (line ≠ []) && !isSkippedLine line) = !isSkippedLine line := by
      rintro (_ | _) <;> rfl
    rw [dropCarriageReturn_splitLines quotes wellFormed]
    calc (splitLines (printedStatus quoted entries).toList).filter (fun line => !isSkippedLine line)
      _ = ((splitLines (printedStatus quoted entries).toList).filter (· ≠ [])).filter
            (fun line => !isSkippedLine line) := by
          rw [List.filter_filter]
          exact List.filter_congr fun line _ => by rw [Bool.and_comm, nonempty]
      _ = _ := by
          rw [filter_splitLines quotes wellFormed, List.filter_map]
          congr 1
          refine List.filter_congr fun entry _ => ?_
          have skipped : isSkippedLine (entry.line quoted) = true ↔ _ :=
            StatusEntry.isSkippedLine
          rw [Function.comp_apply, Bool.eq_iff_iff, decide_eq_true_iff, ← skipped]
          simp
  unfold parseStatusPaths
  simp only [lines, List.mem_eraseDups, List.mem_filterMap, List.mem_flatMap, List.mem_map,
    List.mem_filter, decide_eq_true_eq]
  constructor
  · rintro ⟨rawPath, ⟨line, ⟨entry, ⟨listed, kept⟩, rfl⟩, within⟩, read⟩
    rw [entry.targetPaths quotes (wellFormed entry listed), List.mem_singleton] at within
    subst within
    exact ⟨entry, listed, by rw [StatusEntry.shownPath, if_neg kept, read]⟩
  · rintro ⟨entry, listed, shown⟩
    unfold StatusEntry.shownPath at shown
    split at shown
    · exact nomatch shown
    next kept =>
      refine ⟨_, ⟨_, ⟨entry, ⟨listed, kept⟩, rfl⟩, ?_⟩, shown⟩
      rw [entry.targetPaths quotes (wellFormed entry listed)]
      exact List.mem_singleton_self _

theorem matchingLine_printedStatus (quotes : Quotes quoted)
    (wellFormed : ∀ entry ∈ entries, entry.WellFormed)
    : matchingLine decode (printedStatus quoted entries) path
      = (entries.find? (·.names decode quoted path)).map (·.line quoted) := by
  unfold matchingLine
  rw [filter_splitLines quotes wellFormed, List.find?_map]
  congr 1
  refine List.find?_congr fun entry listed => ?_
  have plain := dropCarriageReturn_eq (entry.getLast_line quotes)
  rw [Function.comp_apply, plain, entry.parse_line quotes (wellFormed entry listed), List.any_map]
  rfl

end Lines

end AiSdlc.Application
