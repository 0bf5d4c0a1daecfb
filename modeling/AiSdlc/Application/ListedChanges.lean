import AiSdlc.Application.DiffReadBack

/-! The changed lines that the parser of diffs lists under a path, told by the lines of the diff: a
hunk ends where a removed line looks like one with an old name, its lines are listed under the name
that was last given, and a line that looks like one with a name is not counted.
-/

namespace AiSdlc.Application

open AiSdlc.Js

namespace GitDiffLine

/-- A changed line that is counted. -/
def isListed (line : GitDiffLine) : Bool :=
  line.isChanged && decide line.Plain

/-- A removed line that looks like one with an old name. -/
def endsHunk : GitDiffLine → Bool
  | .deletion text => begins text.1 "-- "
  | _ => false

/-- An added line that looks like one with a new name. -/
def givesName : GitDiffLine → Bool
  | .addition text => begins text.1 "++ "
  | _ => false

/-- The name under which lines are listed after a line. -/
def rename (name : Option String) (line : GitDiffLine) : Option String :=
  if line.endsHunk then
    match headerPath "a/" line.chars with
    | some path => truthy (some path)
    | none => name
  else if line.givesName then (truthy (headerPath "b/" line.chars)).or name
  else name

end GitDiffLine

/-- The name after some lines. -/
def nameAfter (name : Option String) (lines : List GitDiffLine) : Option String :=
  lines.foldl GitDiffLine.rename name

namespace GitDiffHunk

/-- The lines before the one that ends the hunk. -/
def shown (hunk : GitDiffHunk) : List GitDiffLine :=
  hunk.lines.takeWhile fun line => !line.endsHunk

/-- The changed lines that are listed of a hunk. -/
def listedChanges (hunk : GitDiffHunk) : Nat :=
  hunk.shown.countP (·.isListed)

end GitDiffHunk

/-- How many changed lines are listed of each hunk, and under which name. -/
def listing (name : Option String) : List GitDiffHunk → List (Option String × Nat)
  | [] => []
  | hunk :: rest =>
      (nameAfter name hunk.shown, hunk.listedChanges) :: listing (nameAfter name hunk.lines) rest

/-- How many are listed under a path. -/
def changesIn (listed : List (Option String × Nat)) (path : String) : Nat :=
  ((listed.filter (·.1 = some path)).map (·.2)).sum

/-- The changed lines of a file that are listed under a path. -/
def GitDiffFile.listedUnder (file : GitDiffFile) (path : String) : Nat :=
  changesIn (listing file.readName file.hunks) path

/-- The changed lines of the hunks of a path. -/
def FileHunks.changesUnder (hunks : FileHunks) (path : String) : Nat :=
  ((Groups.values hunks path).map (·.changes)).sum

section Lines

variable {scan : DiffScan} {index : Nat} {line : GitDiffLine} {path name : String}

theorem changesUnder_push (hunks : FileHunks) (hunk : ParsedHunk)
    : FileHunks.changesUnder (hunks.push name hunk) path
      = FileHunks.changesUnder hunks path + if name = path then hunk.changes else 0 := by
  unfold FileHunks.changesUnder
  rw [Groups.values_push]
  by_cases same : name = path <;> simp [same]

theorem changesUnder_settled (scan : DiffScan) (path : String)
    : FileHunks.changesUnder scan.settled path
      = FileHunks.changesUnder scan.hunks path
        + if scan.currentHunkHeader.isSome ∧ truthy scan.currentFile = some path then
            scan.additions + scan.deletions
          else 0 := by
  unfold DiffScan.settled DiffScan.finalizeHunk
  split
  next file header named opened =>
    rw [changesUnder_push, named, opened]
    simp [ParsedHunk.changes]
  next none =>
    cases named : truthy scan.currentFile with
    | none => simp
    | some file =>
        cases opened : scan.currentHunkHeader with
        | none => simp
        | some header => exact absurd opened (none file header named)

/-- How a line of a hunk is taken, also where the hunk has ended. -/
theorem read_diffLine (scan : DiffScan) (index : Nat) (line : GitDiffLine)
    : scan.read index line.chars
      = if line.endsHunk then scan.startFile line.chars
        else if line.givesName then scan.nameNewFile line.chars
        else if scan.currentHunkHeader.isSome then scan.hunkLine line.chars
        else scan.outerLine line.chars := by
  have blank (text : List Char)
      : ∀ char ∈ ['d', '-', '+', '@'], (' ' :: text).head? ≠ some char := by
    rw [List.head?_cons]
    decide
  cases line with
  | context text => exact read_ordinary (blank text.1)
  | noNewline => exact read_ordinary (by decide)
  | addition text =>
      have other := @startsFile_eq_false ('+' :: text.1) '+' rfl (by decide)
      have new : begins ('+' :: text.1) "+++ " = begins text.1 "++ " := rfl
      have hunks : begins ('+' :: text.1) "@@" = false := rfl
      unfold DiffScan.read GitDiffLine.chars GitDiffLine.endsHunk GitDiffLine.givesName
      rw [other, new, hunks]
      rfl
  | deletion text =>
      have git : begins ('-' :: text.1) "diff --git" = false := rfl
      have diff : begins ('-' :: text.1) "diff --" = false := rfl
      have old : begins ('-' :: text.1) "--- " = begins text.1 "-- " := rfl
      have new : begins ('-' :: text.1) "+++ " = false := rfl
      have hunks : begins ('-' :: text.1) "@@" = false := rfl
      unfold DiffScan.read GitDiffLine.chars GitDiffLine.endsHunk GitDiffLine.givesName
      rw [git, diff, old, new, hunks, Bool.or_false, Bool.false_or]
      rfl

theorem truthy_or (first second : Option String)
    : truthy ((truthy first).or second) = (truthy first).or (truthy second) := by
  cases set : truthy first with
  | none => rfl
  | some text => exact truthy_eq_some.mpr ⟨rfl, (truthy_eq_some.mp set).2⟩

theorem startFile_endsHunk (ends : line.endsHunk = true)
    : (scan.startFile line.chars).hunks = scan.settled
      ∧ (scan.startFile line.chars).currentHunkHeader = none
      ∧ truthy (scan.startFile line.chars).currentFile
        = line.rename (truthy scan.currentFile) := by
  cases line with
  | context text => exact absurd ends Bool.false_ne_true
  | addition text => exact absurd ends Bool.false_ne_true
  | noNewline => exact absurd ends Bool.false_ne_true
  | deletion text =>
      have git : begins ('-' :: text.1) "diff --git" = false := rfl
      have old : begins ('-' :: text.1) "--- " = true := ends
      have paths : parseOldNewPaths ['-' :: text.1]
          = { oldPath := headerPath "a/" ('-' :: text.1) } :=
        if_pos old
      refine ⟨hunks_nameFile _ _, rfl, ?_⟩
      unfold GitDiffLine.rename GitDiffLine.chars DiffScan.startFile DiffScan.nameFile
      rw [if_pos ends, git, if_neg Bool.false_ne_true, if_pos old, paths, finalizeHunk_eq]
      cases headerPath "a/" ('-' :: text.1) <;> rfl

theorem nameNewFile_givesName (gives : line.givesName = true)
    : truthy (scan.nameNewFile line.chars).currentFile = line.rename (truthy scan.currentFile) := by
  cases line with
  | context text => exact absurd gives Bool.false_ne_true
  | deletion text => exact absurd gives Bool.false_ne_true
  | noNewline => exact absurd gives Bool.false_ne_true
  | addition text =>
      have old : begins ('+' :: text.1) "--- " = false := rfl
      have new : begins ('+' :: text.1) "+++ " = true := gives
      have path : (parseOldNewPaths (scan.headerLines ++ ['+' :: text.1])).newPath
          = headerPath "b/" ('+' :: text.1) := by
        unfold parseOldNewPaths
        rw [List.foldl_append, List.foldl_cons, List.foldl_nil, OldNewPaths.read, old,
          if_neg Bool.false_ne_true, if_pos new]
      have ends : (GitDiffLine.addition text).endsHunk = false := rfl
      unfold GitDiffLine.rename
      rw [ends, if_neg Bool.false_ne_true, if_pos gives]
      change truthy ((truthy (parseOldNewPaths (scan.headerLines ++ ['+' :: text.1])).newPath).or
        scan.currentFile) = _
      rw [path, truthy_or]
      rfl

theorem rename_of_listed (line : GitDiffLine) (name : Option String)
    (kept : line.endsHunk = false) (unnamed : line.givesName = false)
    : line.rename name = name := by
  rw [GitDiffLine.rename, kept, unnamed, if_neg Bool.false_ne_true, if_neg Bool.false_ne_true]

theorem isListed_of_givesName (gives : line.givesName = true) : line.isListed = false := by
  cases line with
  | context text => rfl
  | deletion text => exact absurd gives Bool.false_ne_true
  | noNewline => rfl
  | addition text =>
      have plus : begins text.1 "++" = true := by
        have starts : begins ('+' :: text.1) "+++ " = true := gives
        exact @begins_tail text.1 '+' "+++ " "++" [' '] rfl starts
      have plain : ¬(GitDiffLine.addition text).Plain := by
        rw [GitDiffLine.Plain, plus]
        exact fun same => Bool.false_ne_true same.symm
      rw [GitDiffLine.isListed, decide_eq_false plain, Bool.and_false]

theorem read_shown (within : scan.currentHunkHeader.isSome = true) (kept : line.endsHunk = false)
    : (scan.read index line.chars).currentHunkHeader.isSome = true
      ∧ (scan.read index line.chars).hunks = scan.hunks
      ∧ truthy (scan.read index line.chars).currentFile = line.rename (truthy scan.currentFile)
      ∧ (scan.read index line.chars).additions + (scan.read index line.chars).deletions
        = scan.additions + scan.deletions + if line.isListed then 1 else 0 := by
  rw [read_diffLine, kept, if_neg Bool.false_ne_true]
  by_cases gives : line.givesName = true
  · rw [if_pos gives]
    refine ⟨within, rfl, nameNewFile_givesName gives, ?_⟩
    rw [isListed_of_givesName gives]
    rfl
  · rw [if_neg gives, if_pos within, rename_of_listed line _ kept (eq_false_of_ne_true gives)]
    refine ⟨within, rfl, rfl, ?_⟩
    have counted : line.isListed = (isAdditionLine line.chars || isDeletionLine line.chars) :=
      (countsAsChange_chars line).symm
    rw [counted]
    unfold DiffScan.hunkLine
    cases isAdditionLine line.chars <;> cases isDeletionLine line.chars <;>
      simp <;> omega

/-- A line after the end of its hunk is not counted. -/
theorem read_afterEnd (outside : scan.currentHunkHeader = none) (path : String)
    : (scan.read index line.chars).currentHunkHeader = none
      ∧ FileHunks.changesUnder (scan.read index line.chars).hunks path
        = FileHunks.changesUnder scan.hunks path
      ∧ truthy (scan.read index line.chars).currentFile
        = line.rename (truthy scan.currentFile) := by
  rw [read_diffLine]
  by_cases ends : line.endsHunk = true
  · obtain ⟨hunks, closed, named⟩ := @startFile_endsHunk scan line ends
    rw [if_pos ends, hunks, settled_of_outside outside]
    exact ⟨closed, rfl, named⟩
  by_cases gives : line.givesName = true
  · rw [if_neg ends, if_pos gives]
    exact ⟨outside, rfl, nameNewFile_givesName gives⟩
  rw [if_neg ends, if_neg gives, outside, Option.isSome_none, if_neg Bool.false_ne_true,
    rename_of_listed line _ (eq_false_of_ne_true ends) (eq_false_of_ne_true gives)]
  unfold DiffScan.outerLine
  split
  next file named =>
    split
    · refine ⟨outside, ?_, rfl⟩
      unfold DiffScan.binaryFile
      rw [changesUnder_push]
      simp [ParsedHunk.changes]
    · exact ⟨outside, rfl, rfl⟩
  next => exact ⟨outside, rfl, rfl⟩

end Lines

section Hunks

variable {scan : DiffScan} {index : Nat} {lines : List GitDiffLine} {file : GitDiffFile}
  {hunks : List GitDiffHunk} {path : String}

/-- No line after the end of the hunk is counted, by induction over the lines. -/
theorem readAll_afterEnd (outside : scan.currentHunkHeader = none) (path : String)
    : FileHunks.changesUnder (scan.readAll index (lines.map (·.chars))).settled path
        = FileHunks.changesUnder scan.hunks path
      ∧ truthy (scan.readAll index (lines.map (·.chars))).currentFile
        = nameAfter (truthy scan.currentFile) lines := by
  induction lines generalizing scan index with
  | nil =>
      rw [List.map_nil, DiffScan.readAll, settled_of_outside outside]
      exact ⟨rfl, rfl⟩
  | cons line rest ih =>
      obtain ⟨closed, same, named⟩ := @read_afterEnd scan index line outside path
      obtain ⟨counted, later⟩ := @ih _ (index + 1) closed
      rw [List.map_cons, DiffScan.readAll, counted, later, same, named]
      exact ⟨rfl, rfl⟩

/-- The lines before the end of the hunk are listed under the name they leave, by induction over the
lines.
-/
theorem readAll_within (within : scan.currentHunkHeader.isSome = true) (path : String)
    : FileHunks.changesUnder (scan.readAll index (lines.map (·.chars))).settled path
        = FileHunks.changesUnder scan.hunks path
          + (if nameAfter (truthy scan.currentFile) (lines.takeWhile fun line => !line.endsHunk)
                = some path then
              scan.additions + scan.deletions
                + (lines.takeWhile fun line => !line.endsHunk).countP (·.isListed)
            else 0)
      ∧ truthy (scan.readAll index (lines.map (·.chars))).currentFile
        = nameAfter (truthy scan.currentFile) lines := by
  induction lines generalizing scan index with
  | nil =>
      rw [List.map_nil, DiffScan.readAll, changesUnder_settled]
      simp [within, nameAfter]
  | cons line rest ih =>
      rw [List.map_cons, DiffScan.readAll]
      by_cases ends : line.endsHunk = true
      · obtain ⟨hunks, closed, named⟩ := @startFile_endsHunk scan line ends
        have read : scan.read index line.chars = scan.startFile line.chars :=
          (read_diffLine scan index line).trans (if_pos ends)
        obtain ⟨counted, later⟩ := @readAll_afterEnd _ (index + 1) rest closed path
        rw [read, counted, later, hunks, named, changesUnder_settled,
          List.takeWhile_cons_of_neg (by simp [ends])]
        simp [within, nameAfter]
      · have kept := eq_false_of_ne_true ends
        obtain ⟨still, hunks, named, sum⟩ := @read_shown scan index line within kept
        obtain ⟨counted, later⟩ := @ih _ (index + 1) still
        rw [counted, later, hunks, named, sum, List.takeWhile_cons_of_pos (by simp [kept]),
          List.countP_cons]
        refine ⟨?_, rfl⟩
        have names (lines : List GitDiffLine)
            : nameAfter (line.rename (truthy scan.currentFile)) lines
              = nameAfter (truthy scan.currentFile) (line :: lines) :=
          rfl
        rw [names]
        split
        · omega
        · rfl

/-- What the hunks of a file add, by induction over them. -/
theorem readAll_listing (path : String)
    : FileHunks.changesUnder (scan.readAll index (hunks.flatMap (·.rendered))).settled path
      = FileHunks.changesUnder scan.settled path
        + changesIn (listing (truthy scan.currentFile) hunks) path := by
  induction hunks generalizing scan index with
  | nil => rfl
  | cons hunk rest ih =>
      have opened : (scan.startHunk index (hunkHeaderLine hunk.ranges hunk.heading.1))
          = {
              scan.finalizeHunk with
              currentHunkHeader := some hunk.ranges
              currentHunkBody := [hunkHeaderLine hunk.ranges hunk.heading.1]
              additions := 0
              deletions := 0
            } := by
        rw [DiffScan.startHunk, parseHunkHeader_hunkHeaderLine]
      obtain ⟨counted, later⟩ := @readAll_within
        (scan.startHunk index (hunkHeaderLine hunk.ranges hunk.heading.1)) (index + 1) hunk.lines
        (by rw [opened]; rfl) path
      rw [List.flatMap_cons, readAll_append, ih, GitDiffHunk.rendered, DiffScan.readAll,
        read_hunkHeaderLine, counted, later, opened, finalizeHunk_eq]
      dsimp only
      have split : changesIn (listing (truthy scan.currentFile) (hunk :: rest)) path
          = (if nameAfter (truthy scan.currentFile) hunk.shown = some path then hunk.listedChanges
              else 0)
            + changesIn (listing (nameAfter (truthy scan.currentFile) hunk.lines) rest) path := by
        unfold changesIn
        rw [listing, List.filter_cons]
        split
        next same =>
          rw [List.map_cons, List.sum_cons, if_pos (by simpa using same)]
        next other =>
          rw [if_neg (by simpa using other), Nat.zero_add]
      rw [split, Nat.zero_add, Nat.add_assoc]
      rfl

end Hunks

section Files

variable {scan : DiffScan} {index : Nat} {file : GitDiffFile} {files : List GitDiffFile}
  {path : String}

theorem changesUnder_pushAll (hunks : FileHunks) {pairs : List (String × ParsedHunk)}
    (none : ∀ pair ∈ pairs, pair.2.changes = 0)
    : FileHunks.changesUnder (hunks.pushAll pairs) path = FileHunks.changesUnder hunks path := by
  have added : ((pairs.filter (·.1 = path)).map fun pair => pair.2.changes).sum = 0 := by
    refine List.sum_eq_zero fun count member => ?_
    obtain ⟨pair, within, rfl⟩ := List.mem_map.mp member
    exact none pair (List.mem_filter.mp within).1
  unfold FileHunks.changesUnder
  rw [Groups.values_pushAll, List.map_append, List.sum_append, List.map_map]
  exact congrArg _ added

theorem changes_mistakenFor {lines : List (List Char)}
    : ∀ pair ∈ file.mistakenFor lines, pair.2.changes = 0 := by
  intro pair member
  obtain ⟨line, -, named⟩ := List.mem_flatMap.mp member
  obtain ⟨name, -, rfl⟩ := List.mem_map.mp named
  rfl

theorem changesUnder_file (path : String)
    : FileHunks.changesUnder (scan.readAll index file.rendered).settled path
      = FileHunks.changesUnder scan.settled path + file.listedUnder path := by
  obtain ⟨first, before⟩ := @startFile_gitLine scan file
  obtain ⟨opened, told⟩ := @Opened.readAll _ (index + 1) file file.extendedLines first
    fun line member => member
  rw [before] at told
  unfold GitDiffFile.rendered GitDiffFile.listedUnder
  rw [List.cons_append, DiffScan.readAll, read_gitLine, readAll_append]
  split
  next empty =>
    rw [DiffScan.readAll, settled_of_outside opened.outside, told, empty,
      changesUnder_pushAll _ changes_mistakenFor]
    rfl
  next =>
    obtain ⟨named, kept⟩ := opened.names
    rw [DiffScan.readAll, read_oldLine, DiffScan.readAll, read_newLine, readAll_listing, named.name,
      kept, told, changesUnder_pushAll _ changes_mistakenFor]

/-- What several files add, by induction over them. -/
theorem changesUnder_files (path : String)
    : FileHunks.changesUnder (scan.readAll index (files.flatMap (·.rendered))).settled path
      = FileHunks.changesUnder scan.settled path + (files.map (·.listedUnder path)).sum := by
  induction files generalizing scan index with
  | nil => rfl
  | cons file rest ih =>
      rw [List.flatMap_cons, readAll_append, ih, changesUnder_file, List.map_cons, List.sum_cons,
        Nat.add_assoc]

theorem changesUnder_parseUnifiedDiff (files : List GitDiffFile) (path : String)
    : FileHunks.changesUnder (parseUnifiedDiff (renderDiff files)).hunks path
      = (files.map (·.listedUnder path)).sum := by
  by_cases some : files = []
  · subst some
    rfl
  · unfold parseUnifiedDiff
    rw [isBlank_renderDiff some, diffLines_renderDiff some]
    exact (@changesUnder_files {} 0 files path).trans (Nat.zero_add _)

end Files

end AiSdlc.Application
