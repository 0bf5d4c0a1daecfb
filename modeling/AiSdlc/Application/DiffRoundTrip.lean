import AiSdlc.Application.DiffLines

/-! A rendered diff is read back, unless a changed line looks like the header of a file, a name is
not readable, or a file has no hunk.
-/

namespace AiSdlc.Application

open AiSdlc.Js

-----------------------------------------------------------------------------------------
-- What is to be read, and what is read
-----------------------------------------------------------------------------------------

/-- A hunk as the parser is to list it. -/
def GitDiffHunk.parsed (hunk : GitDiffHunk) (name : String) (isNew isDeleted : Bool)
    : ParsedHunk where
  oldStart := hunk.ranges.oldStart
  oldLines := hunk.ranges.oldLines
  newStart := hunk.ranges.newStart
  newLines := hunk.ranges.newLines
  body := joinLines hunk.rendered
  additions := hunk.additions
  deletions := hunk.deletions
  isNew := isNew
  isDeleted := isDeleted
  isBinary := false
  identity := generateHunkIdentity name hunk.ranges

/-- The hunk that the parser makes of a line about a binary file. -/
def binaryHunk (name : String) (line : List Char) : ParsedHunk where
  oldStart := 0
  oldLines := 0
  newStart := 0
  newLines := 0
  body := joinLines [line]
  additions := 0
  deletions := 0
  isNew := false
  isDeleted := false
  isBinary := true
  identity := generateHunkIdentity name ⟨0, 0, 0, 0⟩

/-- A line that is taken for one about a binary file. -/
def tellsBinary (line : List Char) : Bool :=
  includes (.ofList line) "Binary files"

namespace GitDiffFile

/-- The hunks of a file under a name, if there is one. -/
def entriesAs (file : GitDiffFile) (name : Option String) (hunks : List GitDiffHunk)
    : List (String × ParsedHunk) :=
  hunks.flatMap fun hunk =>
    name.toList.map fun name => (name, hunk.parsed name file.isAdded file.isDeleted)

/-- The hunks of a file, as they are to be listed. -/
def entries (file : GitDiffFile) : List (String × ParsedHunk) :=
  file.entriesAs (some file.path.1) file.hunks

/-- The hunks that some lines before the hunks are taken for. -/
def mistakenFor (file : GitDiffFile) (lines : List (List Char)) : List (String × ParsedHunk) :=
  (lines.filter tellsBinary).flatMap fun line =>
    (truthy (parseDiffGitLine file.gitLine)).toList.map fun name => (name, binaryHunk name line)

/-- What is listed of a file. -/
def readEntries (file : GitDiffFile) : List (String × ParsedHunk) :=
  file.mistakenFor file.extendedLines ++ file.entriesAs file.readName file.hunks

def Plain (file : GitDiffFile) : Prop :=
  ∀ hunk ∈ file.hunks, ∀ line ∈ hunk.lines, line.Plain

end GitDiffFile

/-- The hunks of a diff by their files. -/
def diffHunks (files : List GitDiffFile) : FileHunks :=
  Groups.pushAll [] (files.flatMap (·.entries))

/-- The parser inverts the rendering of a diff. -/
def ReadsBack (files : List GitDiffFile) : Prop :=
  let parsed := parseUnifiedDiff (renderDiff files)
  parsed.hunks = diffHunks files ∧ ∀ path, path ∈ parsed.files ↔ ∃ file ∈ files, file.path.1 = path

-----------------------------------------------------------------------------------------
-- A hunk
-----------------------------------------------------------------------------------------

/-- The hunks that are listed once the current one is. -/
def DiffScan.settled (scan : DiffScan) : FileHunks :=
  scan.finalizeHunk.hunks

section Hunks

variable {scan : DiffScan} {index : Nat} {file : GitDiffFile} {hunk : GitDiffHunk}
  {lines more : List (List Char)}

theorem finalizeHunk_eq (scan : DiffScan)
    : scan.finalizeHunk = { scan with hunks := scan.settled } := by
  unfold DiffScan.settled DiffScan.finalizeHunk
  split <;> rfl

theorem settled_of_outside (outside : scan.currentHunkHeader = none)
    : scan.settled = scan.hunks := by
  unfold DiffScan.settled DiffScan.finalizeHunk
  rw [outside]
  cases truthy scan.currentFile <;> rfl

theorem readAll_append
    : scan.readAll index (lines ++ more)
      = (scan.readAll index lines).readAll (index + lines.length) more := by
  induction lines generalizing scan index with
  | nil => rfl
  | cons line rest ih =>
      have length : index + (line :: rest).length = index + 1 + rest.length := by
        rw [List.length_cons]
        omega
      rw [List.cons_append, DiffScan.readAll, ih, DiffScan.readAll, length]

theorem isAdditionLine_chars {line : GitDiffLine} (plain : line.Plain)
    : isAdditionLine line.chars = line.isAddition := by
  cases line with
  | addition text =>
      have marked : begins ('+' :: text.1) "+++" = begins text.1 "++" := rfl
      have plus : begins ('+' :: text.1) "+" = true := rfl
      have free : begins text.1 "++" = false := plain
      have shown : isAdditionLine ('+' :: text.1) = true := by
        rw [isAdditionLine, marked, plus, free]
        rfl
      exact shown
  | context text => rfl
  | deletion text => rfl
  | noNewline => exact Bool.and_eq_false_iff.mpr (.inl (by decide))

theorem isDeletionLine_chars {line : GitDiffLine} (plain : line.Plain)
    : isDeletionLine line.chars = line.isDeletion := by
  cases line with
  | deletion text =>
      have marked : begins ('-' :: text.1) "---" = begins text.1 "--" := rfl
      have minus : begins ('-' :: text.1) "-" = true := rfl
      have free : begins text.1 "--" = false := plain
      have shown : isDeletionLine ('-' :: text.1) = true := by
        rw [isDeletionLine, marked, minus, free]
        rfl
      exact shown
  | context text => rfl
  | addition text => rfl
  | noNewline => exact Bool.and_eq_false_iff.mpr (.inl (by decide))

/-- Plain lines are added to the hunk and counted, by induction over them. -/
theorem readAll_chars {lines : List GitDiffLine} (plain : ∀ line ∈ lines, line.Plain)
    (within : scan.currentHunkHeader.isSome = true)
    : scan.readAll index (lines.map (·.chars))
      = {
          scan with
          currentHunkBody := scan.currentHunkBody ++ lines.map (·.chars)
          additions := scan.additions + lines.countP (·.isAddition)
          deletions := scan.deletions + lines.countP (·.isDeletion)
        } := by
  induction lines generalizing scan index with
  | nil => simp [DiffScan.readAll]
  | cons line rest ih =>
      have here := plain line List.mem_cons_self
      have there (next : GitDiffLine) (member : next ∈ rest) : next.Plain :=
        plain next (List.mem_cons_of_mem _ member)
      have signs : (!line.isAddition && line.isDeletion) = line.isDeletion := by cases line <;> rfl
      rw [List.map_cons, DiffScan.readAll, read_chars here within, ih there (by exact within)]
      unfold DiffScan.hunkLine
      rw [isAdditionLine_chars here, isDeletionLine_chars here, signs]
      simp only [List.append_assoc, List.singleton_append, List.countP_cons, Nat.add_assoc]
      cases line <;> simp [GitDiffLine.isAddition, GitDiffLine.isDeletion, Nat.add_comm]

/-- The parser is among the hunks of a file. -/
structure Listing (scan : DiffScan) (file : GitDiffFile) : Prop where
  name : truthy scan.currentFile = file.readName
  isNew : scan.isNew = file.isAdded
  isDeleted : scan.isDeleted = file.isDeleted
  isBinary : scan.isBinary = false

theorem Listing.readAll_hunk (listing : Listing scan file)
    (plain : ∀ line ∈ hunk.lines, line.Plain)
    : Listing (scan.readAll index hunk.rendered) file
      ∧ (scan.readAll index hunk.rendered).settled
        = scan.settled.pushAll (file.entriesAs file.readName [hunk]) := by
  unfold GitDiffHunk.rendered
  rw [DiffScan.readAll, read_hunkHeaderLine, DiffScan.startHunk, parseHunkHeader_hunkHeaderLine]
  dsimp only
  rw [readAll_chars plain (by rfl), finalizeHunk_eq]
  refine ⟨⟨listing.name, listing.isNew, listing.isDeleted, listing.isBinary⟩, ?_⟩
  unfold DiffScan.settled
  rw [DiffScan.finalizeHunk]
  dsimp only
  rw [listing.name]
  cases file.readName with
  | none => rfl
  | some name =>
      dsimp only
      rw [listing.isNew, listing.isDeleted, listing.isBinary, Nat.zero_add, Nat.zero_add]
      rfl

/-- All hunks of a file are listed, by induction over them. -/
theorem Listing.readAll_hunks {hunks : List GitDiffHunk} (listing : Listing scan file)
    (plain : ∀ hunk ∈ hunks, ∀ line ∈ hunk.lines, line.Plain)
    : (scan.readAll index (hunks.flatMap (·.rendered))).settled
        = scan.settled.pushAll (file.entriesAs file.readName hunks) := by
  induction hunks generalizing scan index with
  | nil => rfl
  | cons hunk rest ih =>
      obtain ⟨still, settled⟩ := @Listing.readAll_hunk scan index file hunk listing
        (plain hunk List.mem_cons_self)
      have later := @ih _ (index + hunk.rendered.length) still fun next member =>
        plain next (List.mem_cons_of_mem _ member)
      have entries : file.entriesAs file.readName (hunk :: rest)
          = file.entriesAs file.readName [hunk] ++ file.entriesAs file.readName rest :=
        @List.flatMap_append _ _ [hunk] rest _
      rw [List.flatMap_cons, readAll_append, later, settled, entries, Groups.pushAll_append]

end Hunks

section Headers

variable {scan : DiffScan} {index : Nat} {file : GitDiffFile} {lines : List (List Char)}

/-- The parser has read the first line of a file, and no hunk of it. -/
structure Opened (scan : DiffScan) (file : GitDiffFile) : Prop where
  currentFile : scan.currentFile = parseDiffGitLine file.gitLine
  headerLines : scan.headerLines = [file.gitLine]
  outside : scan.currentHunkHeader = none

theorem startFile_gitLine
    : Opened (scan.startFile file.gitLine) file
      ∧ (scan.startFile file.gitLine).hunks = scan.settled := by
  have named : scan.finalizeHunk.nameFile file.gitLine
      = {
          scan.finalizeHunk with
          currentFile := parseDiffGitLine file.gitLine
          headerLines := [file.gitLine]
        } :=
    if_pos rfl
  unfold DiffScan.startFile
  rw [named]
  exact ⟨⟨rfl, rfl, rfl⟩, rfl⟩

/-- A line that tells what happened may be taken for one about a binary file. -/
theorem Opened.outerLine {line : List Char} (opened : Opened scan file)
    : Opened (scan.outerLine line) file
      ∧ (scan.outerLine line).hunks = scan.hunks.pushAll (file.mistakenFor [line]) := by
  unfold DiffScan.outerLine GitDiffFile.mistakenFor
  rw [opened.currentFile, List.filter_singleton]
  cases truthy (parseDiffGitLine file.gitLine) with
  | none =>
      refine ⟨opened, ?_⟩
      cases tellsBinary line <;> rfl
  | some name =>
      dsimp only
      by_cases binary : tellsBinary line = true
      · have told : includes (.ofList line) "Binary files" = true := binary
        rw [if_pos told, binary]
        exact ⟨⟨opened.currentFile, opened.headerLines, opened.outside⟩, rfl⟩
      · have untold : ¬ includes (.ofList line) "Binary files" = true := binary
        rw [if_neg untold, eq_false_of_ne_true binary]
        exact ⟨opened, rfl⟩

/-- So are all such lines, by induction over them. -/
theorem Opened.readAll (opened : Opened scan file)
    (extended : ∀ line ∈ lines, line ∈ file.extendedLines)
    : Opened (scan.readAll index lines) file
      ∧ (scan.readAll index lines).hunks = scan.hunks.pushAll (file.mistakenFor lines) := by
  induction lines generalizing scan index with
  | nil => exact ⟨opened, rfl⟩
  | cons line rest ih =>
      obtain ⟨still, first⟩ := @Opened.outerLine scan file line opened
      obtain ⟨after, later⟩ := @ih _ (index + 1) still fun next member =>
        extended next (List.mem_cons_of_mem _ member)
      have both : file.mistakenFor (line :: rest)
          = file.mistakenFor [line] ++ file.mistakenFor rest := by
        unfold GitDiffFile.mistakenFor
        rw [← List.flatMap_append, ← List.filter_append, List.singleton_append]
      rw [DiffScan.readAll, read_extendedLine (extended line List.mem_cons_self) opened.outside]
      refine ⟨after, ?_⟩
      rw [later, first, both, Groups.pushAll_append]

theorem headerPath_oldLine
    : headerPath "a/" file.oldLine
      = if file.isAdded then none else some (readLabel file.oldPath) := by
  have rest : file.oldLine.drop 4
      = if file.isAdded then "/dev/null".toList
        else labelChars (nameChars ['a', '/'] file.oldPath) :=
    drop_append "--- " _
  by_cases added : file.isAdded = true
  · rw [if_pos added] at rest ⊢
    have null : trim (.ofList "/dev/null".toList) = "/dev/null" := by decide
    unfold headerPath
    rw [rest, null]
    rfl
  · rw [if_neg added] at rest ⊢
    exact headerPath_labelChars (.inl rfl) rest

theorem headerPath_newLine
    : headerPath "b/" file.newLine
      = if file.isDeleted then none else some (readLabel file.path.1) := by
  have rest : file.newLine.drop 4
      = if file.isDeleted then "/dev/null".toList
        else labelChars (nameChars ['b', '/'] file.path.1) :=
    drop_append "+++ " _
  by_cases deleted : file.isDeleted = true
  · rw [if_pos deleted] at rest ⊢
    have null : trim (.ofList "/dev/null".toList) = "/dev/null" := by decide
    unfold headerPath
    rw [rest, null]
    rfl
  · rw [if_neg deleted] at rest ⊢
    exact headerPath_labelChars (.inr rfl) rest

theorem oldNewPaths_oldLine (paths : OldNewPaths)
    : paths.read file.oldLine
      = { paths with oldPath := if file.isAdded then none else some (readLabel file.oldPath) } := by
  have old : begins file.oldLine "--- " = true := begins_append _ _
  rw [OldNewPaths.read, if_pos old, headerPath_oldLine]

theorem oldNewPaths_newLine (paths : OldNewPaths)
    : paths.read file.newLine
      = {
          paths with
          newPath := if file.isDeleted then none else some (readLabel file.path.1)
        } := by
  have old : begins file.newLine "--- " = false := rfl
  have new : begins file.newLine "+++ " = true := begins_append _ _
  rw [OldNewPaths.read, old, if_neg Bool.false_ne_true, if_pos new, headerPath_newLine]

theorem oldNewPaths_gitLine (paths : OldNewPaths) : paths.read file.gitLine = paths := by
  have old : begins file.gitLine "--- " = false := rfl
  have new : begins file.gitLine "+++ " = false := rfl
  rw [OldNewPaths.read, old, if_neg Bool.false_ne_true, new, if_neg Bool.false_ne_true]

/-- The line with the old name names the file, unless it is added. -/
theorem Opened.startFile_oldLine (opened : Opened scan file)
    : scan.startFile file.oldLine
      = {
          scan with
          currentFile :=
            if file.isAdded then parseDiffGitLine file.gitLine else some (readLabel file.oldPath)
          headerLines := [file.gitLine, file.oldLine]
          currentHunkBody := []
          additions := 0
          deletions := 0
          isBinary := false
          isNew := false
          isDeleted := false
        } := by
  have kept : scan.finalizeHunk = scan := by
    rw [finalizeHunk_eq, settled_of_outside opened.outside]
  have git : begins file.oldLine "diff --git" = false := rfl
  have old : begins file.oldLine "--- " = true := begins_append _ _
  have paths : parseOldNewPaths [file.oldLine]
      = { oldPath := if file.isAdded then none else some (readLabel file.oldPath) } :=
    oldNewPaths_oldLine {}
  unfold DiffScan.startFile DiffScan.nameFile
  rw [kept, git, if_neg Bool.false_ne_true, if_pos old, paths, opened.headerLines]
  dsimp only
  rw [opened.currentFile, ← opened.outside]
  cases file.isAdded <;> rfl

/-- The line with the new name tells whether the file is new or deleted. -/
theorem nameNewFile_newLine (named : scan.headerLines = [file.gitLine, file.oldLine])
    : scan.nameNewFile file.newLine
      = {
          scan with
          headerLines := [file.gitLine, file.oldLine, file.newLine]
          currentFile :=
            (truthy (if file.isDeleted then none else some (readLabel file.path.1))).or
              scan.currentFile
          isNew := scan.isNew || (file.isAdded && !file.isDeleted)
          isDeleted := scan.isDeleted || (!file.isAdded && file.isDeleted)
        } := by
  have lines : scan.headerLines ++ [file.newLine] = [file.gitLine, file.oldLine, file.newLine] := by
    rw [named]
    rfl
  have paths : parseOldNewPaths [file.gitLine, file.oldLine, file.newLine]
      = {
          oldPath := if file.isAdded then none else some (readLabel file.oldPath)
          newPath := if file.isDeleted then none else some (readLabel file.path.1)
        } := by
    unfold parseOldNewPaths
    simp only [List.foldl_cons, List.foldl_nil]
    rw [oldNewPaths_gitLine, oldNewPaths_oldLine, oldNewPaths_newLine]
  unfold DiffScan.nameNewFile
  rw [lines]
  dsimp only
  rw [paths]
  cases file.isAdded <;> cases file.isDeleted <;> rfl

theorem Opened.names (opened : Opened scan file)
    : Listing ((scan.startFile file.oldLine).nameNewFile file.newLine) file
      ∧ ((scan.startFile file.oldLine).nameNewFile file.newLine).settled = scan.hunks := by
  rw [opened.startFile_oldLine, nameNewFile_newLine rfl]
  refine ⟨⟨?_, ?_, ?_, rfl⟩, settled_of_outside opened.outside⟩
  · unfold GitDiffFile.readName GitDiffFile.isAdded GitDiffFile.isDeleted
    cases change : file.change with
    | added mode => rfl
    | modified modes => rfl
    | renamed oldPath similarity modes => rfl
    | deleted mode =>
        have same : file.oldPath = file.path.1 := by
          unfold GitDiffFile.oldPath
          rw [change]
        rw [same]
        rfl
  · unfold GitDiffFile.isAdded GitDiffFile.isDeleted
    cases file.change <;> rfl
  · unfold GitDiffFile.isAdded GitDiffFile.isDeleted
    cases file.change <;> rfl

end Headers

section Files

variable {scan : DiffScan} {index : Nat} {file : GitDiffFile} {files : List GitDiffFile}

/-- What is listed after a file, where its changed lines are plain. -/
theorem settled_readAll_file (plain : file.Plain)
    : (scan.readAll index file.rendered).settled = scan.settled.pushAll file.readEntries := by
  obtain ⟨first, before⟩ := @startFile_gitLine scan file
  obtain ⟨opened, told⟩ := @Opened.readAll _ (index + 1) file file.extendedLines first
    fun line member => member
  rw [before] at told
  unfold GitDiffFile.rendered GitDiffFile.readEntries
  rw [List.cons_append, DiffScan.readAll, read_gitLine, readAll_append, Groups.pushAll_append]
  split
  next empty =>
    rw [DiffScan.readAll, settled_of_outside opened.outside, told, empty]
    rfl
  next =>
    obtain ⟨listing, kept⟩ := opened.names
    rw [DiffScan.readAll, read_oldLine, DiffScan.readAll, read_newLine,
      listing.readAll_hunks plain, kept, told]

/-- What is listed after several files, by induction over them. -/
theorem settled_readAll_files (plain : ∀ file ∈ files, file.Plain)
    : (scan.readAll index (files.flatMap (·.rendered))).settled
      = scan.settled.pushAll (files.flatMap (·.readEntries)) := by
  induction files generalizing scan index with
  | nil => rfl
  | cons file rest ih =>
      have here := plain file List.mem_cons_self
      have there (next : GitDiffFile) (member : next ∈ rest) : next.Plain :=
        plain next (List.mem_cons_of_mem _ member)
      rw [List.flatMap_cons, readAll_append, ih there, settled_readAll_file here, List.flatMap_cons,
        Groups.pushAll_append]

theorem isBlank_renderDiff (some : files ≠ []) : isBlank (renderDiff files) = false := by
  refine eq_false_of_ne_true fun blank => ?_
  have spaces := List.all_eq_true.mp blank
  obtain ⟨file, rest, rfl⟩ := List.exists_cons_of_ne_nil some
  have within : 'd' ∈ (renderDiff (file :: rest)).toList := by
    unfold renderDiff joinLines
    rw [String.toList_ofList]
    have first : 'd' ∈ file.gitLine := List.mem_append_left _ (by decide)
    rw [List.flatMap_cons, GitDiffFile.rendered, List.cons_append, List.cons_append]
    cases (file.extendedLines ++ _) ++ rest.flatMap (·.rendered) with
    | nil => simpa using first
    | cons next others =>
        rw [List.intercalate_cons_cons]
        exact List.mem_append_left _ (List.mem_append_left _ first)
  exact absurd (spaces 'd' within) (by decide)

/-- What the parser lists, where the changed lines are plain. -/
theorem hunks_parseUnifiedDiff (plain : ∀ file ∈ files, file.Plain)
    : (parseUnifiedDiff (renderDiff files)).hunks
      = Groups.pushAll [] (files.flatMap (·.readEntries)) := by
  by_cases some : files = []
  · subst some
    rfl
  · unfold parseUnifiedDiff
    rw [isBlank_renderDiff some, diffLines_renderDiff some]
    exact settled_readAll_files plain

end Files

end AiSdlc.Application
