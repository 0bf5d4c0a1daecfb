import AiSdlc.Application.DiffNames

/-! How the parser of diffs takes each line that git writes, and what the lines hold. -/

namespace AiSdlc.Application

open AiSdlc.Js

/-- A line of which the text does not make it look like the header of a file. -/
def GitDiffLine.Plain : GitDiffLine → Prop
  | .addition text => begins text.1 "++" = false
  | .deletion text => begins text.1 "--" = false
  | _ => True

instance GitDiffLine.decidablePlain : (line : GitDiffLine) → Decidable line.Plain
  | .addition text => inferInstanceAs (Decidable (begins text.1 "++" = false))
  | .deletion text => inferInstanceAs (Decidable (begins text.1 "--" = false))
  | .context _ => .isTrue trivial
  | .noNewline => .isTrue trivial

section Ranges

variable {rest heading : List Char} {start count : Nat} {ranges : HunkHeader}

/-- No digit begins what follows a number. -/
def EndsNumber (rest : List Char) : Prop :=
  ∀ char ∈ rest.head?, char.isDigit = false

theorem readNumber_repr (number : Nat) (ends : EndsNumber rest)
    : readNumber (number.repr.toList ++ rest) = some (number, rest) := by
  have digits : ∀ char ∈ number.repr.toList, char.isDigit = true := fun char =>
    isDigit_of_mem_repr
  have taken : (number.repr.toList ++ rest).takeWhile Char.isDigit = number.repr.toList := by
    rw [List.takeWhile_append_of_pos digits]
    cases rest with
    | nil => exact List.append_nil _
    | cons char more =>
        rw [List.takeWhile_cons_of_neg (by simp [ends char rfl]), List.append_nil]
  have dropped : (number.repr.toList ++ rest).dropWhile Char.isDigit = rest := by
    rw [List.dropWhile_append_of_pos digits]
    cases rest with
    | nil => rfl
    | cons char more => exact List.dropWhile_cons_of_neg (by simp [ends char rfl])
  unfold readNumber
  rw [taken, dropped, Nat.toList_repr]
  split
  next empty => exact absurd empty Nat.toDigits_ne_nil
  next => rw [Nat.ofDigitChars_ten_toDigits]

theorem readRange_rangeChars (ends : EndsNumber rest) (apart : rest.head? ≠ some ',')
    : readRange (rangeChars start count ++ rest) = some ((start, count), rest) := by
  unfold readRange rangeChars
  by_cases single : count = 1
  · rw [if_pos single, List.append_nil, readNumber_repr start ends, single]
    cases rest with
    | nil => rfl
    | cons char more =>
        have other : char ≠ ',' := fun same => apart (congrArg some same)
        simp only [Option.bind_eq_bind, Option.bind_some]
        split
        next same => exact absurd (List.cons.inj same).1 other
        next => rfl
  · have comma : EndsNumber (',' :: (count.repr.toList ++ rest)) := by
      intro char first
      obtain rfl := Option.some.inj first
      decide
    rw [if_neg single, List.append_assoc, List.cons_append, readNumber_repr start comma]
    simp only [Option.bind_eq_bind, Option.bind_some, readNumber_repr count ends]

theorem begins_append (start : String) (rest : List Char)
    : begins (start.toList ++ rest) start = true :=
  List.isPrefixOf_iff_prefix.mpr (List.prefix_append _ _)

theorem drop_append (start : String) (rest : List Char)
    : (start.toList ++ rest).drop start.length = rest := by
  rw [← String.length_toList]
  exact List.drop_left

theorem parseHunkHeader_hunkHeaderLine
    : parseHunkHeader (hunkHeaderLine ranges heading) = some ranges := by
  have plus : EndsNumber (" +".toList ++ (rangeChars ranges.newStart ranges.newLines
      ++ (" @@".toList ++ heading))) := by
    intro char first
    obtain rfl := Option.some.inj first
    decide
  have closing : EndsNumber (" @@".toList ++ heading) := by
    intro char first
    obtain rfl := Option.some.inj first
    decide
  have first (rest : List Char) : ("@@ -".toList ++ rest).drop 4 = rest :=
    drop_append "@@ -" rest
  have second (rest : List Char) : (" +".toList ++ rest).drop 2 = rest :=
    drop_append " +" rest
  unfold parseHunkHeader hunkHeaderLine
  rw [begins_append, first]
  simp only [if_true, Option.bind_eq_bind, Option.bind_some]
  rw [readRange_rangeChars plus (by nofun)]
  simp only [Option.bind_some, begins_append, if_true, second]
  rw [readRange_rangeChars closing (by nofun)]
  simp only [Option.bind_some, begins_append, if_true]

end Ranges

section Newlines

variable {file : GitDiffFile} {hunk : GitDiffHunk} {line : List Char}

theorem digit_not_newline (number : Nat) : '\n' ∉ number.repr.toList := by
  intro member
  exact absurd (isDigit_of_mem_repr member) (by decide)

theorem rangeChars_not_newline (start count : Nat) : '\n' ∉ rangeChars start count := by
  unfold rangeChars
  rw [List.mem_append, not_or]
  refine ⟨digit_not_newline start, ?_⟩
  split
  · exact List.not_mem_nil
  · rw [List.mem_cons, not_or]
    exact ⟨by decide, digit_not_newline count⟩

theorem nameChars_not_newline {start : List Char} (free : '\n' ∉ start) (path : String)
    : '\n' ∉ nameChars start path := by
  unfold nameChars
  split
  next =>
    have inside := (escapedBody_flatMap (start ++ path.toList)).not_newline
    rw [List.mem_append, List.mem_cons, not_or, not_or]
    exact ⟨⟨by decide, inside⟩, by decide⟩
  next plain =>
    rw [List.mem_append, not_or]
    refine ⟨free, fun member => ?_⟩
    have shown := needsQuotes_eq_false.mp (eq_false_of_ne_true plain) '\n' member
    exact absurd shown (by decide)

theorem labelChars_not_newline {name : List Char} (free : '\n' ∉ name)
    : '\n' ∉ labelChars name := by
  unfold labelChars
  split
  · rw [List.mem_append, not_or]
    exact ⟨free, by decide⟩
  · exact free

theorem mode_not_newline (mode : FileMode) : '\n' ∉ mode.chars := by
  cases mode <;> decide

theorem blob_not_newline (name : BlobName) : '\n' ∉ name.1 := by
  intro member
  exact absurd (name.2 _ member) (by decide)

theorem modeLines_not_newline (modes : Option (FileMode × FileMode))
    : ∀ line ∈ modeLines modes, '\n' ∉ line := by
  intro line member
  cases modes with
  | none => exact nomatch member
  | some both =>
      rcases List.mem_cons.mp member with rfl | later
      · rw [List.mem_append, not_or]
        exact ⟨by decide, mode_not_newline _⟩
      · obtain rfl := List.mem_singleton.mp later
        rw [List.mem_append, not_or]
        exact ⟨by decide, mode_not_newline _⟩

theorem GitDiffFile.extendedLines_not_newline : ∀ line ∈ file.extendedLines, '\n' ∉ line := by
  intro line member
  rcases List.mem_append.mp member with change | blobs
  · unfold changeLines at change
    split at change
    next mode _ =>
      obtain rfl := List.mem_singleton.mp change
      rw [List.mem_append, not_or]
      exact ⟨by decide, mode_not_newline mode⟩
    next mode _ =>
      obtain rfl := List.mem_singleton.mp change
      rw [List.mem_append, not_or]
      exact ⟨by decide, mode_not_newline mode⟩
    next modes _ => exact modeLines_not_newline modes line change
    next oldPath similarity modes _ =>
      rcases List.mem_append.mp change with mode | rename
      · exact modeLines_not_newline modes line mode
      · simp only [List.mem_cons, List.not_mem_nil, or_false] at rename
        rcases rename with rfl | rfl | rfl
        · rw [List.mem_append, List.mem_append, not_or, not_or]
          exact ⟨by decide, digit_not_newline similarity, by decide⟩
        · rw [List.mem_append, not_or]
          exact ⟨by decide, nameChars_not_newline List.not_mem_nil _⟩
        · rw [List.mem_append, not_or]
          exact ⟨by decide, nameChars_not_newline List.not_mem_nil _⟩
  · obtain ⟨range, -, rfl⟩ := List.mem_map.mp blobs
    unfold BlobRange.rendered
    simp only [List.mem_append, not_or]
    refine ⟨by decide, blob_not_newline _, by decide, blob_not_newline _, ?_⟩
    cases range.mode with
    | none => exact List.not_mem_nil
    | some mode =>
        rw [Option.map_some, Option.getD_some, List.mem_cons, not_or]
        exact ⟨by decide, mode_not_newline mode⟩

theorem GitDiffHunk.rendered_not_newline : ∀ line ∈ hunk.rendered, '\n' ∉ line := by
  intro line member
  rcases List.mem_cons.mp member with rfl | inside
  · unfold hunkHeaderLine
    simp only [List.mem_append, not_or]
    exact ⟨by decide, rangeChars_not_newline _ _, by decide, rangeChars_not_newline _ _, by decide,
      hunk.heading.2⟩
  · obtain ⟨shown, -, rfl⟩ := List.mem_map.mp inside
    cases shown with
    | context text => exact fun member => (List.mem_cons.mp member).elim nofun text.2
    | addition text => exact fun member => (List.mem_cons.mp member).elim nofun text.2
    | deletion text => exact fun member => (List.mem_cons.mp member).elim nofun text.2
    | noNewline => decide

/-- No line has a line break in it. -/
theorem GitDiffFile.rendered_not_newline : ∀ line ∈ file.rendered, '\n' ∉ line := by
  have names (start : List Char) (free : '\n' ∉ start) (path : String)
      : '\n' ∉ labelChars (nameChars start path) :=
    labelChars_not_newline (nameChars_not_newline free path)
  intro line member
  rcases List.mem_append.mp member with header | body
  · rcases List.mem_cons.mp header with rfl | extended
    · unfold gitLine
      simp only [List.mem_append, List.mem_cons, not_or]
      exact ⟨by decide, nameChars_not_newline (by decide) _, by decide,
        nameChars_not_newline (by decide) _⟩
    · exact extendedLines_not_newline line extended
  · split at body
    next => exact absurd body List.not_mem_nil
    next =>
      rcases List.mem_cons.mp body with rfl | body
      · unfold oldLine
        rw [List.mem_append, not_or]
        refine ⟨by decide, ?_⟩
        split
        · decide
        · exact names _ (by decide) _
      rcases List.mem_cons.mp body with rfl | body
      · unfold newLine
        rw [List.mem_append, not_or]
        refine ⟨by decide, ?_⟩
        split
        · decide
        · exact names _ (by decide) _
      obtain ⟨hunk, -, inside⟩ := List.mem_flatMap.mp body
      exact hunk.rendered_not_newline line inside

theorem diffLines_renderDiff {files : List GitDiffFile} (some : files ≠ [])
    : diffLines (renderDiff files) = files.flatMap (·.rendered) := by
  unfold diffLines renderDiff joinLines
  rw [String.toList_ofList]
  refine List.splitOn_intercalate '\n' ?_ ?_
  · intro line member
    obtain ⟨file, -, inside⟩ := List.mem_flatMap.mp member
    exact file.rendered_not_newline line inside
  · obtain ⟨file, rest, rfl⟩ := List.exists_cons_of_ne_nil some
    exact List.ne_nil_of_mem
      (List.mem_flatMap.mpr ⟨file, List.mem_cons_self, List.mem_append_left _ List.mem_cons_self⟩)

end Newlines

section Reads

variable {scan : DiffScan} {index : Nat} {line rest : List Char} {file : GitDiffFile}
  {hunk : GitDiffHunk}

theorem begins_eq_false {start : String} {first : Char} (head : start.toList.head? = some first)
    (apart : line.head? ≠ some first)
    : begins line start = false := by
  refine eq_false_of_ne_true fun starts => apart ?_
  obtain ⟨more, same⟩ := List.isPrefixOf_iff_prefix.mp starts
  rw [← same, List.head?_append, head, Option.some_or]

theorem read_ordinary (ordinary : ∀ char ∈ ['d', '-', '+', '@'], line.head? ≠ some char)
    : scan.read index line
      = if scan.currentHunkHeader.isSome then scan.hunkLine line else scan.outerLine line := by
  have git : begins line "diff --git" = false := begins_eq_false rfl (ordinary 'd' (by decide))
  have diff : begins line "diff --" = false := begins_eq_false rfl (ordinary 'd' (by decide))
  have old : begins line "--- " = false := begins_eq_false rfl (ordinary '-' (by decide))
  have new : begins line "+++ " = false := begins_eq_false rfl (ordinary '+' (by decide))
  have hunks : begins line "@@" = false := begins_eq_false rfl (ordinary '@' (by decide))
  unfold DiffScan.read
  simp only [git, diff, old, new, hunks, Bool.or_self, Bool.false_eq_true, if_false]

theorem read_gitLine : scan.read index file.gitLine = scan.startFile file.gitLine := by
  have git : begins file.gitLine "diff --git" = true := rfl
  unfold DiffScan.read
  rw [git]
  rfl

theorem read_oldLine : scan.read index file.oldLine = scan.startFile file.oldLine := by
  have old : begins file.oldLine "--- " = true := begins_append _ _
  unfold DiffScan.read
  rw [old, Bool.or_true]
  rfl

theorem startsFile_eq_false {first : Char} (head : line.head? = some first)
    (apart : first ≠ 'd' ∧ first ≠ '-')
    : (begins line "diff --git" || begins line "--- " || begins line "diff --") = false := by
  have git : begins line "diff --git" = false := by
    refine begins_eq_false rfl ?_
    rw [head]
    exact fun same => apart.1 (Option.some.inj same)
  have diff : begins line "diff --" = false := by
    refine begins_eq_false rfl ?_
    rw [head]
    exact fun same => apart.1 (Option.some.inj same)
  have old : begins line "--- " = false := by
    refine begins_eq_false rfl ?_
    rw [head]
    exact fun same => apart.2 (Option.some.inj same)
  rw [git, diff, old]
  rfl

theorem read_newLine : scan.read index file.newLine = scan.nameNewFile file.newLine := by
  have other := @startsFile_eq_false file.newLine '+' rfl (by decide)
  have new : begins file.newLine "+++ " = true := begins_append _ _
  unfold DiffScan.read
  rw [other, new]
  rfl

theorem read_hunkHeaderLine {ranges : HunkHeader} {heading : List Char}
    : scan.read index (hunkHeaderLine ranges heading)
      = scan.startHunk index (hunkHeaderLine ranges heading) := by
  have other := @startsFile_eq_false (hunkHeaderLine ranges heading) '@' rfl (by decide)
  have new : begins (hunkHeaderLine ranges heading) "+++ " = false := rfl
  have hunks : begins (hunkHeaderLine ranges heading) "@@" = true := rfl
  unfold DiffScan.read
  rw [other, new, hunks]
  rfl

/-- What begins with a longer text begins, after the first character, with the rest of a shorter
one.
-/
theorem begins_tail {first : Char} {start shorter : String} {more : List Char}
    (longer : start.toList = first :: (shorter.toList ++ more))
    (starts : begins (first :: rest) start = true)
    : begins rest shorter = true := by
  unfold begins at starts ⊢
  rw [List.isPrefixOf_iff_prefix] at starts ⊢
  rw [longer, List.cons_prefix_cons] at starts
  exact (List.prefix_append _ _).trans starts.2

/-- A plain line stays in its hunk. -/
theorem read_chars {line : GitDiffLine} (plain : line.Plain)
    (within : scan.currentHunkHeader.isSome = true)
    : scan.read index line.chars = scan.hunkLine line.chars := by
  have blank (text : List Char)
      : ∀ char ∈ ['d', '-', '+', '@'], (' ' :: text).head? ≠ some char := by
    rw [List.head?_cons]
    decide
  cases line with
  | context text => exact (read_ordinary (blank text.1)).trans (if_pos within)
  | noNewline => exact (read_ordinary (by decide)).trans (if_pos within)
  | addition text =>
      have other := @startsFile_eq_false ('+' :: text.1) '+' rfl (by decide)
      have new : begins ('+' :: text.1) "+++ " = false := by
        refine eq_false_of_ne_true fun starts => ?_
        have longer := @begins_tail text.1 '+' "+++ " "++" [' '] rfl starts
        rw [GitDiffLine.Plain, longer] at plain
        exact nomatch plain
      have hunks : begins ('+' :: text.1) "@@" = false := rfl
      unfold DiffScan.read GitDiffLine.chars
      rw [other, new, hunks]
      exact if_pos within
  | deletion text =>
      have git : begins ('-' :: text.1) "diff --git" = false := rfl
      have diff : begins ('-' :: text.1) "diff --" = false := rfl
      have old : begins ('-' :: text.1) "--- " = false := by
        refine eq_false_of_ne_true fun starts => ?_
        have longer := @begins_tail text.1 '-' "--- " "--" [' '] rfl starts
        rw [GitDiffLine.Plain, longer] at plain
        exact nomatch plain
      have new : begins ('-' :: text.1) "+++ " = false := rfl
      have hunks : begins ('-' :: text.1) "@@" = false := rfl
      unfold DiffScan.read GitDiffLine.chars
      rw [git, diff, old, new, hunks]
      exact if_pos within

/-- A line that tells what happened to a file begins unlike a header, but for the mode of a deleted
file.
-/
theorem GitDiffFile.head_extendedLines (extended : line ∈ file.extendedLines)
    : (∃ mode : FileMode, line = "deleted file mode ".toList ++ mode.chars)
      ∨ ∀ char ∈ ['d', '-', '+', '@'], line.head? ≠ some char := by
  have modes (both : Option (FileMode × FileMode)) (member : line ∈ modeLines both)
      : ∀ char ∈ ['d', '-', '+', '@'], line.head? ≠ some char := by
    cases both with
    | none => exact nomatch member
    | some both =>
        have heads : line.head? = some 'o' ∨ line.head? = some 'n' := by
          rcases List.mem_cons.mp member with rfl | later
          · exact .inl rfl
          · obtain rfl := List.mem_singleton.mp later
            exact .inr rfl
        rcases heads with head | head <;> rw [head] <;> decide
  rcases List.mem_append.mp extended with change | blobs
  · unfold changeLines at change
    split at change
    next mode _ =>
      obtain rfl := List.mem_singleton.mp change
      exact .inr (by cases mode <;> decide)
    next mode _ => exact .inl ⟨mode, List.mem_singleton.mp change⟩
    next both _ => exact .inr (modes both change)
    next oldPath similarity both _ =>
      rcases List.mem_append.mp change with mode | rename
      · exact .inr (modes both mode)
      · have heads : line.head? = some 's' ∨ line.head? = some 'r' := by
          simp only [List.mem_cons, List.not_mem_nil, or_false] at rename
          rcases rename with rfl | rfl | rfl
          · exact .inl rfl
          · exact .inr rfl
          · exact .inr rfl
        refine .inr ?_
        rcases heads with head | head <;> rw [head] <;> decide
  · obtain ⟨range, -, rfl⟩ := List.mem_map.mp blobs
    have head : range.rendered.head? = some 'i' := rfl
    rw [head]
    exact .inr (by decide)

theorem read_extendedLine (extended : line ∈ file.extendedLines)
    (outside : scan.currentHunkHeader = none)
    : scan.read index line = scan.outerLine line := by
  rcases GitDiffFile.head_extendedLines extended with ⟨mode, rfl⟩ | ordinary
  · have git : begins ("deleted file mode ".toList ++ mode.chars) "diff --git" = false := rfl
    have diff : begins ("deleted file mode ".toList ++ mode.chars) "diff --" = false := rfl
    have old : begins ("deleted file mode ".toList ++ mode.chars) "--- " = false := rfl
    have new : begins ("deleted file mode ".toList ++ mode.chars) "+++ " = false := rfl
    have hunks : begins ("deleted file mode ".toList ++ mode.chars) "@@" = false := rfl
    unfold DiffScan.read
    rw [git, diff, old, new, hunks, outside]
    rfl
  · rw [read_ordinary ordinary, outside]
    rfl

/-- A line that is counted as changed. -/
def countsAsChange (line : List Char) : Bool :=
  isAdditionLine line || isDeletionLine line

theorem countsAsChange_eq_false {first : Char} (head : line.head? = some first)
    (apart : first ≠ '+' ∧ first ≠ '-')
    : countsAsChange line = false := by
  have plus : begins line "+" = false := by
    refine begins_eq_false rfl ?_
    rw [head]
    exact fun same => apart.1 (Option.some.inj same)
  have minus : begins line "-" = false := by
    refine begins_eq_false rfl ?_
    rw [head]
    exact fun same => apart.2 (Option.some.inj same)
  unfold countsAsChange isAdditionLine isDeletionLine
  rw [plus, minus]
  rfl

theorem countsAsChange_chars (line : GitDiffLine)
    : countsAsChange line.chars = ((line.isAddition || line.isDeletion) && decide line.Plain) := by
  cases line with
  | context text => exact @countsAsChange_eq_false _ ' ' rfl (by decide)
  | noNewline => exact @countsAsChange_eq_false _ '\\' rfl (by decide)
  | addition text =>
      have marked : begins ('+' :: text.1) "+++" = begins text.1 "++" := rfl
      have plus : begins ('+' :: text.1) "+" = true := rfl
      have minus : begins ('+' :: text.1) "-" = false := rfl
      have counted : countsAsChange ('+' :: text.1) = !begins text.1 "++" := by
        rw [countsAsChange, isAdditionLine, isDeletionLine, marked, plus, minus]
        simp
      have same : decide (GitDiffLine.addition text).Plain = !begins text.1 "++" := by
        rw [Bool.eq_iff_iff, decide_eq_true_iff, GitDiffLine.Plain, Bool.not_eq_true']
      exact counted.trans same.symm
  | deletion text =>
      have marked : begins ('-' :: text.1) "---" = begins text.1 "--" := rfl
      have plus : begins ('-' :: text.1) "+" = false := rfl
      have minus : begins ('-' :: text.1) "-" = true := rfl
      have counted : countsAsChange ('-' :: text.1) = !begins text.1 "--" := by
        rw [countsAsChange, isAdditionLine, isDeletionLine, marked, plus, minus]
        simp
      have same : decide (GitDiffLine.deletion text).Plain = !begins text.1 "--" := by
        rw [Bool.eq_iff_iff, decide_eq_true_iff, GitDiffLine.Plain, Bool.not_eq_true']
      exact counted.trans same.symm

end Reads

end AiSdlc.Application
