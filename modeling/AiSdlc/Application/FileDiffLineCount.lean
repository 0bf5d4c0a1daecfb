import AiSdlc.Application.DiffReadBack
import AiSdlc.Domain.TaskPath

/-! A second scanner of diffs, which counts the changed lines of one file. It knows the sections of
the file by the first line of each, and leaves out lines that look like those with the names.
-/

namespace AiSdlc.Application

open AiSdlc.Js
open AiSdlc.Domain

structure FileDiffLineCount where
  added : Nat
  deleted : Nat
  total : Nat
  deriving DecidableEq, Repr

-----------------------------------------------------------------------------------------
-- The names in the first line of a file
-----------------------------------------------------------------------------------------

/-- The characters of a quoted name, up to the quote that closes it, and what follows. -/
def quotedName : List Char → Option (List Char × List Char)
  | [] => none
  | '"' :: rest => some ([], rest)
  | ['\\'] => none
  | '\\' :: char :: rest =>
      if isDotCharacter char then
        (quotedName rest).map fun (inner, after) => ('\\' :: char :: inner, after)
      else none
  | char :: rest => (quotedName rest).map fun (inner, after) => (char :: inner, after)

def unquoteName (inner : List Char) : String :=
  unquoteGitPath utf8Decode (.ofList ('"' :: inner ++ ['"']))

/-- The new name, where the rest of the line consists of it. -/
def newGitName (chars : List Char) : Option String :=
  if begins chars "\"b/" then
    match quotedName (chars.drop 3) with
    | some (inner, []) => some (unquoteName inner)
    | _ => none
  else if begins chars "b/" && chars.drop 2 ≠ [] && (chars.drop 2).all isDotCharacter then
    some (.ofList (chars.drop 2))
  else none

/-- Both names, where the old one has no quotes: it is as short as it can be. -/
def splitGitNames : List Char → Option (List Char × String)
  | [] => none
  | char :: rest =>
      if isDotCharacter char then
        match if begins rest " " then newGitName (rest.drop 1) else none with
        | some newName => some ([char], newName)
        | none => (splitGitNames rest).map fun (oldName, newName) => (char :: oldName, newName)
      else none

/-- The names in a line that begins with `diff --git `. -/
def gitNames (line : List Char) : Option (String × String) :=
  let rest := dropCarriageReturn (line.drop 11)
  if begins rest "\"a/" then
    match quotedName (rest.drop 3) with
    | some (inner, ' ' :: more) =>
        (newGitName more).map fun newName => (unquoteName inner, newName)
    | _ => none
  else if begins rest "a/" then
    (splitGitNames (rest.drop 2)).map fun (oldName, newName) => (.ofList oldName, newName)
  else none

/-- `rawPath ? normalizeTaskPath(rawPath) : ''`. -/
def normalizedName (rawPath : String) : String :=
  if rawPath = "" then "" else normalizeTaskPath rawPath

/-- One of the names in a line is the target. -/
def namesTarget (normTarget : String) (line : List Char) : Bool :=
  match gitNames line with
  | some (rawA, rawB) =>
      let fileA := normalizedName rawA
      let fileB := normalizedName rawB
      fileA ≠ "" && fileA = normTarget || fileB ≠ "" && fileB = normTarget
  | none => false

example :
    (gitNames "diff --git \"a/src/foo\\\" b/file.ts\" \"b/src/foo\\\" b/file.ts\"".toList,
      gitNames "diff --git a/src/a.ts b/src/a.ts".toList)
      = (some ("src/foo\" b/file.ts", "src/foo\" b/file.ts"), some ("src/a.ts", "src/a.ts")) := by
  decide

-----------------------------------------------------------------------------------------
-- The scan over the lines
-----------------------------------------------------------------------------------------

structure LineCountScan where
  inTargetFile : Bool := false
  added : Nat := 0
  deleted : Nat := 0
  deriving DecidableEq, Repr

def LineCountScan.read (normTarget : String) (scan : LineCountScan) (rawLine : List Char)
    : LineCountScan :=
  let line := rawLine.rdropWhile isWhitespace
  if begins line "diff --git " then { scan with inTargetFile := namesTarget normTarget line }
  else if !scan.inTargetFile then scan
  else if begins line "--- " || begins line "+++ " then scan
  else if begins line "+" then { scan with added := scan.added + 1 }
  else if begins line "-" then { scan with deleted := scan.deleted + 1 }
  else scan

def getFileDiffLineCount (diffText filePath : String) : FileDiffLineCount :=
  let normTarget := normalizeTaskPath filePath
  if normTarget = "" || diffText = "" then { added := 0, deleted := 0, total := 0 }
  else
    let scan := (diffLines diffText).foldl (LineCountScan.read normTarget) {}
    { added := scan.added, deleted := scan.deleted, total := scan.added + scan.deleted }

-----------------------------------------------------------------------------------------
-- The lines that are left out
-----------------------------------------------------------------------------------------

/-- A line that is left out because it looks like one with a name. -/
def looksNamed (line : List Char) : Bool :=
  begins (line.rdropWhile isWhitespace) "--- " || begins (line.rdropWhile isWhitespace) "+++ "

/-- A changed line is left out where its text, without white space at the end, begins like the rest
of a name line.
-/
def GitDiffLine.isOverlooked : GitDiffLine → Bool
  | .deletion text => begins (text.1.rdropWhile isWhitespace) "-- "
  | .addition text => begins (text.1.rdropWhile isWhitespace) "++ "
  | _ => false

namespace GitDiffFile

/-- The changed lines of a file. -/
def changes (file : GitDiffFile) : Nat :=
  file.body.countP (·.isChanged)

/-- Those that are left out. -/
def overlooked (file : GitDiffFile) : Nat :=
  file.body.countP (·.isOverlooked)

end GitDiffFile

section Counting

variable {normTarget : String} {scan : LineCountScan} {line rest : List Char}
  {lines : List (List Char)} {file : GitDiffFile}

theorem begins_of_trimmed {start : String}
    (starts : begins (line.rdropWhile isWhitespace) start = true)
    : begins line start = true := by
  unfold begins at starts ⊢
  rw [List.isPrefixOf_iff_prefix] at starts ⊢
  exact starts.trans (List.rdropWhile_prefix _ _)

theorem begins_trimmed (start : String) {char : Char} (visible : isWhitespace char = false)
    : begins ((start.toList ++ char :: rest).rdropWhile isWhitespace) start = true := by
  rw [Domain.rdropWhile_append_cons visible]
  exact begins_append start _

/-- A name begins with something visible. -/
theorem exists_nameChars {side : Char} (sided : side = 'a' ∨ side = 'b') (path : String)
    : ∃ char rest, nameChars [side, '/'] path = char :: rest ∧ isWhitespace char = false := by
  unfold nameChars
  split
  next => exact ⟨'"', _, rfl, by decide⟩
  next =>
    refine ⟨side, _, rfl, ?_⟩
    rcases sided with rfl | rfl <;> decide

theorem exists_labelChars {side : Char} (sided : side = 'a' ∨ side = 'b') (path : String)
    : ∃ char rest, labelChars (nameChars [side, '/'] path) = char :: rest
      ∧ isWhitespace char = false := by
  obtain ⟨char, rest, name, visible⟩ := exists_nameChars sided path
  rw [name, labelChars]
  split
  · exact ⟨char, _, rfl, visible⟩
  · exact ⟨char, _, rfl, visible⟩

/-- A line that begins no section. -/
def WithinSection (line : List Char) : Prop :=
  begins (line.rdropWhile isWhitespace) "diff --git " = false

theorem trimmed_begins_eq_false {start : String} {first : Char}
    (head : start.toList.head? = some first) (apart : line.head? ≠ some first)
    : begins (line.rdropWhile isWhitespace) start = false := by
  refine eq_false_of_ne_true fun starts => Bool.false_ne_true ?_
  rw [← begins_eq_false head apart, begins_of_trimmed starts]

theorem withinSection_of_head {first : Char} (head : line.head? = some first) (apart : first ≠ 'd')
    : WithinSection line := by
  refine @trimmed_begins_eq_false line "diff --git " 'd' rfl ?_
  rw [head]
  exact fun same => apart (Option.some.inj same)

/-- A line that is counted within the section of the target. -/
def countsLine (line : List Char) : Bool :=
  !looksNamed line
  && (begins (line.rdropWhile isWhitespace) "+" || begins (line.rdropWhile isWhitespace) "-")

theorem countsLine_eq_false (plus : line.head? ≠ some '+') (minus : line.head? ≠ some '-')
    : countsLine line = false := by
  rw [countsLine, @trimmed_begins_eq_false line "+" '+' rfl plus,
    @trimmed_begins_eq_false line "-" '-' rfl minus, Bool.or_self, Bool.and_false]

/-- A line within a section is counted where the section is. -/
theorem read_withinSection (within : WithinSection line)
    : (scan.read normTarget line).inTargetFile = scan.inTargetFile
      ∧ (scan.read normTarget line).added + (scan.read normTarget line).deleted
        = scan.added + scan.deleted + if scan.inTargetFile && countsLine line then 1 else 0 := by
  unfold WithinSection at within
  unfold LineCountScan.read countsLine looksNamed
  dsimp only
  rw [within, if_neg Bool.false_ne_true]
  by_cases target : scan.inTargetFile = true
  · rw [target, Bool.not_true, if_neg Bool.false_ne_true]
    by_cases named : (begins (line.rdropWhile isWhitespace) "--- "
        || begins (line.rdropWhile isWhitespace) "+++ ") = true
    · rw [if_pos named, named]
      exact ⟨target, rfl⟩
    · rw [if_neg named, eq_false_of_ne_true named]
      by_cases plus : begins (line.rdropWhile isWhitespace) "+" = true
      · rw [if_pos plus, plus]
        exact ⟨rfl, Nat.add_right_comm _ _ _⟩
      · rw [if_neg plus, eq_false_of_ne_true plus]
        by_cases minus : begins (line.rdropWhile isWhitespace) "-" = true
        · rw [if_pos minus, minus]
          exact ⟨rfl, rfl⟩
        · rw [if_neg minus, eq_false_of_ne_true minus]
          exact ⟨target, rfl⟩
  · rw [eq_false_of_ne_true target, Bool.not_false, if_pos rfl]
    exact ⟨eq_false_of_ne_true target, rfl⟩

/-- So are several lines, by induction over them. -/
theorem foldl_withinSection (within : ∀ line ∈ lines, WithinSection line)
    : (lines.foldl (LineCountScan.read normTarget) scan).inTargetFile = scan.inTargetFile
      ∧ (lines.foldl (LineCountScan.read normTarget) scan).added
          + (lines.foldl (LineCountScan.read normTarget) scan).deleted
        = scan.added + scan.deleted
          + if scan.inTargetFile then lines.countP countsLine else 0 := by
  induction lines generalizing scan with
  | nil => simp
  | cons line rest ih =>
      obtain ⟨still, counted⟩ := @read_withinSection normTarget scan line
        (within line List.mem_cons_self)
      obtain ⟨after, later⟩ := @ih (scan.read normTarget line) fun next member =>
        within next (List.mem_cons_of_mem _ member)
      rw [List.foldl_cons]
      refine ⟨after.trans still, ?_⟩
      rw [later, counted, still, List.countP_cons]
      cases scan.inTargetFile with
      | true =>
          simp only [Bool.true_and, if_true]
          omega
      | false => rfl

theorem GitDiffLine.isChanged_of_overlooked {line : GitDiffLine} (left : line.isOverlooked = true)
    : line.isChanged = true := by
  cases line with
  | context text => exact absurd left Bool.false_ne_true
  | addition text => rfl
  | deletion text => rfl
  | noNewline => exact absurd left Bool.false_ne_true

/-- A changed line is counted where it is not left out. -/
theorem countsLine_chars (line : GitDiffLine)
    : countsLine line.chars = (line.isChanged && !line.isOverlooked) := by
  have signed (sign : Char) (text : List Char) (visible : isWhitespace sign = false)
      : (sign :: text).rdropWhile isWhitespace = sign :: text.rdropWhile isWhitespace :=
    @Domain.rdropWhile_append_cons isWhitespace [] text sign visible
  cases line with
  | context text =>
      have blank : ∀ sign ∈ ['+', '-'], ' ' ≠ sign := by decide
      exact countsLine_eq_false (fun same => blank '+' (by decide) (Option.some.inj same))
        fun same => blank '-' (by decide) (Option.some.inj same)
  | noNewline => exact countsLine_eq_false (by decide) (by decide)
  | addition text =>
      have trimmed := signed '+' text.1 (by decide)
      have plus : begins (('+' :: text.1).rdropWhile isWhitespace) "+" = true := by
        rw [trimmed]
        rfl
      have named : looksNamed ('+' :: text.1) = begins (text.1.rdropWhile isWhitespace) "++ " := by
        rw [looksNamed, trimmed]
        exact Bool.false_or _
      change countsLine ('+' :: text.1) = !begins (text.1.rdropWhile isWhitespace) "++ "
      rw [countsLine, plus, named, Bool.true_or, Bool.and_true]
  | deletion text =>
      have trimmed := signed '-' text.1 (by decide)
      have minus : begins (('-' :: text.1).rdropWhile isWhitespace) "-" = true := by
        rw [trimmed]
        rfl
      have named : looksNamed ('-' :: text.1) = begins (text.1.rdropWhile isWhitespace) "-- " := by
        rw [looksNamed, trimmed]
        exact Bool.or_false _
      change countsLine ('-' :: text.1) = !begins (text.1.rdropWhile isWhitespace) "-- "
      rw [countsLine, minus, named, Bool.or_true, Bool.and_true]

theorem extendedLine_uncounted (extended : line ∈ file.extendedLines)
    : WithinSection line ∧ countsLine line = false := by
  rcases GitDiffFile.head_extendedLines extended with ⟨mode, rfl⟩ | ordinary
  · refine ⟨?_, countsLine_eq_false nofun nofun⟩
    refine eq_false_of_ne_true fun starts => ?_
    have begun : begins ("deleted file mode ".toList ++ mode.chars) "diff --git " = false := rfl
    rw [begins_of_trimmed starts] at begun
    exact nomatch begun
  · exact ⟨@trimmed_begins_eq_false line "diff --git " 'd' rfl (ordinary 'd' (by decide)),
      countsLine_eq_false (ordinary '+' (by decide)) (ordinary '-' (by decide))⟩

theorem nameLines_uncounted
    : countsLine file.oldLine = false ∧ countsLine file.newLine = false := by
  have visible (added : Bool) (side : Char) (sided : side = 'a' ∨ side = 'b') (path : String)
      : ∃ char rest, (if added = true then "/dev/null".toList
          else labelChars (nameChars [side, '/'] path)) = char :: rest
        ∧ isWhitespace char = false := by
    cases added with
    | true => exact ⟨'/', _, rfl, by decide⟩
    | false => exact exists_labelChars sided path
  have old : looksNamed file.oldLine = true := by
    obtain ⟨char, rest, name, shown⟩ := visible file.isAdded 'a' (.inl rfl) file.oldPath
    unfold looksNamed GitDiffFile.oldLine
    rw [name, begins_trimmed "--- " shown, Bool.true_or]
  have new : looksNamed file.newLine = true := by
    obtain ⟨char, rest, name, shown⟩ := visible file.isDeleted 'b' (.inr rfl) file.path.1
    unfold looksNamed GitDiffFile.newLine
    rw [name, begins_trimmed "+++ " shown, Bool.or_true]
  rw [countsLine, countsLine, old, new]
  exact ⟨rfl, rfl⟩

/-- The lines of a file after the first one. -/
def GitDiffFile.sectionLines (file : GitDiffFile) : List (List Char) :=
  file.extendedLines
  ++ if file.hunks = [] then []
    else file.oldLine :: file.newLine :: file.hunks.flatMap (·.rendered)

theorem withinSection_sectionLines : ∀ line ∈ file.sectionLines, WithinSection line := by
  intro line member
  rcases List.mem_append.mp member with extended | body
  · exact (extendedLine_uncounted extended).1
  · split at body
    next => exact nomatch body
    next =>
      rcases List.mem_cons.mp body with rfl | body
      · exact @withinSection_of_head _ '-' rfl (by decide)
      rcases List.mem_cons.mp body with rfl | body
      · exact @withinSection_of_head _ '+' rfl (by decide)
      obtain ⟨hunk, -, inside⟩ := List.mem_flatMap.mp body
      rcases List.mem_cons.mp inside with rfl | line
      · exact @withinSection_of_head _ '@' rfl (by decide)
      · obtain ⟨shown, -, rfl⟩ := List.mem_map.mp line
        cases shown with
        | context text => exact @withinSection_of_head _ ' ' rfl (by decide)
        | addition text => exact @withinSection_of_head _ '+' rfl (by decide)
        | deletion text => exact @withinSection_of_head _ '-' rfl (by decide)
        | noNewline => exact @withinSection_of_head _ '\\' rfl (by decide)

theorem changes_split
    : (file.body.countP fun line => countsLine line.chars) + file.overlooked = file.changes := by
  unfold GitDiffFile.overlooked GitDiffFile.changes
  induction file.body with
  | nil => rfl
  | cons line rest ih =>
      have here : (if countsLine line.chars = true then 1 else 0)
            + (if line.isOverlooked = true then 1 else 0)
          = if line.isChanged = true then 1 else 0 := by
        have changed := @GitDiffLine.isChanged_of_overlooked line
        rw [countsLine_chars]
        cases left : line.isOverlooked with
        | false => simp
        | true => simp [changed left]
      simp only [List.countP_cons]
      omega

theorem countP_sectionLines
    : file.sectionLines.countP countsLine = file.changes - file.overlooked := by
  have extended : file.extendedLines.countP countsLine = 0 := by
    refine List.countP_eq_zero.mpr fun line member => ?_
    rw [(extendedLine_uncounted member).2]
    exact Bool.false_ne_true
  have hunks : (file.hunks.flatMap (·.rendered)).countP countsLine
      = file.body.countP fun line => countsLine line.chars := by
    unfold GitDiffFile.body
    induction file.hunks with
    | nil => rfl
    | cons hunk rest ih =>
        have head : (hunkHeaderLine hunk.ranges hunk.heading.1).head? = some '@' := rfl
        have header : countsLine (hunkHeaderLine hunk.ranges hunk.heading.1) = false := by
          refine countsLine_eq_false ?_ ?_ <;> rw [head] <;> decide
        rw [List.flatMap_cons, List.flatMap_cons, List.countP_append, List.countP_append, ih,
          GitDiffHunk.rendered, List.countP_cons_of_neg (by simp [header]), List.countP_map]
        rfl
  have split := @changes_split file
  obtain ⟨old, new⟩ := @nameLines_uncounted file
  unfold GitDiffFile.sectionLines
  rw [List.countP_append, extended, Nat.zero_add]
  by_cases empty : file.hunks = []
  · have nothing : file.changes = 0 := by
      unfold GitDiffFile.changes GitDiffFile.body
      rw [empty]
      rfl
    rw [if_pos empty, nothing]
    exact (Nat.zero_sub _).symm
  · rw [if_neg empty, List.countP_cons_of_neg (by simp [old]),
      List.countP_cons_of_neg (by simp [new]), hunks]
    omega

theorem read_gitLine_section
    : (scan.read normTarget file.gitLine)
      = {
          scan with
          inTargetFile := namesTarget normTarget (file.gitLine.rdropWhile isWhitespace)
        } := by
  obtain ⟨char, rest, name, visible⟩ := exists_nameChars (.inl rfl) file.oldPath
  have begun : begins (file.gitLine.rdropWhile isWhitespace) "diff --git " = true := by
    unfold GitDiffFile.gitLine
    rw [name, List.cons_append, begins_trimmed "diff --git " visible]
  unfold LineCountScan.read
  exact if_pos begun

/-- What is counted in the section of a file. -/
def GitDiffFile.countedIn (file : GitDiffFile) (normTarget : String) : Nat :=
  if namesTarget normTarget (file.gitLine.rdropWhile isWhitespace) then
    file.changes - file.overlooked
  else 0

theorem foldl_rendered
    : (file.rendered.foldl (LineCountScan.read normTarget) scan).added
          + (file.rendered.foldl (LineCountScan.read normTarget) scan).deleted
        = scan.added + scan.deleted + file.countedIn normTarget := by
  have lines : file.rendered = file.gitLine :: file.sectionLines := rfl
  obtain ⟨-, counted⟩ := @foldl_withinSection normTarget (scan.read normTarget file.gitLine)
    file.sectionLines withinSection_sectionLines
  rw [lines, List.foldl_cons, counted, read_gitLine_section, countP_sectionLines]
  rfl

/-- What is counted in several files, by induction over them. -/
theorem foldl_files (files : List GitDiffFile)
    : ((files.flatMap (·.rendered)).foldl (LineCountScan.read normTarget) scan).added
          + ((files.flatMap (·.rendered)).foldl (LineCountScan.read normTarget) scan).deleted
        = scan.added + scan.deleted + (files.map (·.countedIn normTarget)).sum := by
  induction files generalizing scan with
  | nil => rfl
  | cons file rest ih =>
      rw [List.flatMap_cons, List.foldl_append, ih, foldl_rendered, List.map_cons, List.sum_cons,
        Nat.add_assoc]

/-- No section is counted for an empty path. -/
theorem namesTarget_empty : namesTarget "" line = false := by
  unfold namesTarget
  cases gitNames line with
  | none => rfl
  | some both =>
      dsimp only
      by_cases first : normalizedName both.1 = "" <;>
        by_cases second : normalizedName both.2 = "" <;>
        simp [first, second]

theorem total_getFileDiffLineCount (files : List GitDiffFile) (path : String)
    : (getFileDiffLineCount (renderDiff files) path).total
      = (files.map (·.countedIn (normalizeTaskPath path))).sum := by
  unfold getFileDiffLineCount
  by_cases target : normalizeTaskPath path = ""
  · have nothing : (files.map (·.countedIn "")).sum = 0 := by
      refine List.sum_eq_zero fun count member => ?_
      obtain ⟨file, -, rfl⟩ := List.mem_map.mp member
      unfold GitDiffFile.countedIn
      rw [namesTarget_empty]
      rfl
    rw [target, nothing]
    rfl
  · by_cases some : files = []
    · subst some
      have empty : renderDiff [] = "" := rfl
      rw [empty]
      simp
    · have text : renderDiff files ≠ "" := by
        intro empty
        have blank := isBlank_renderDiff some
        rw [empty] at blank
        exact nomatch blank
      simp only [target, text, decide_false, Bool.or_self, Bool.false_eq_true, if_false]
      rw [diffLines_renderDiff some, foldl_files]
      exact Nat.zero_add _

theorem overlooked_le : file.overlooked ≤ file.changes :=
  List.countP_mono_left fun _ _ => GitDiffLine.isChanged_of_overlooked

end Counting

end AiSdlc.Application
