import AiSdlc.Application.GitDiff

/-! What the parser of diffs reads of the names of files: an escape other than that of a quote or a
backslash stays, and blanks at the end are lost.
-/

namespace AiSdlc.Application

open AiSdlc.Js

/-- What is read of a name before the hunks. -/
def readLabel (path : String) : String :=
  if needsQuotes path.toList then .ofList (path.toList.flatMap unescapedChar)
  else .ofList (path.toList.rdropWhile isWhitespace)

/-- A name of which every character is simply quoted, and which does not end in a blank without
quotes.
-/
def ReadableName (path : String) : Prop :=
  (∀ char ∈ path.toList, SimplyQuoted char)
  ∧ (needsQuotes path.toList = false → path.toList.getLast? ≠ some ' ')

section Names

variable {char : Char} {chars rest : List Char} {path : String}

theorem needsQuotes_eq_false
    : needsQuotes chars = false ↔ ∀ char ∈ chars, quoteChar char = [char] := by
  simp [needsQuotes]

theorem needsQuotes_eq_true
    : needsQuotes chars = true ↔ ∃ char ∈ chars, quoteChar char ≠ [char] := by
  simp [needsQuotes]

theorem nameChars_of_plain {start : List Char} (plain : needsQuotes path.toList = false)
    : nameChars start path = start ++ path.toList :=
  if_neg (by simp [plain])

theorem eq_blank_of_plain (plain : quoteChar char = [char]) (space : isWhitespace char = true)
    : char = ' ' := by
  by_contra apart
  rw [(ordinary_of_plain plain apart).1] at space
  exact nomatch space

theorem rdropWhile_cons (kept : isWhitespace char = false)
    : (char :: rest).rdropWhile isWhitespace = char :: rest.rdropWhile isWhitespace := by
  unfold List.rdropWhile
  rw [List.reverse_cons, List.dropWhile_append]
  split
  next empty =>
    rw [List.isEmpty_iff] at empty
    rw [empty, List.dropWhile_cons_of_neg (by simp [kept])]
    rfl
  next => rw [List.reverse_append, List.reverse_singleton, List.singleton_append]

/-- The tab after a name with blanks is trimmed. -/
theorem trim_labelChars (kept : isWhitespace char = false)
    : trim (.ofList (labelChars (char :: rest)))
      = .ofList ((char :: rest).rdropWhile isWhitespace) := by
  have begins (more : List Char) : (char :: more).dropWhile isWhitespace = char :: more :=
    List.dropWhile_cons_of_neg (by simp [kept])
  unfold trim labelChars
  rw [String.toList_ofList]
  split
  · rw [List.cons_append, begins, ← List.cons_append,
      List.rdropWhile_concat_pos _ _ _ (by decide)]
  · rw [begins]

/-- What the parser reads of a name that follows one of the starts. -/
theorem headerPath_labelChars {side : Char} (sided : side = 'a' ∨ side = 'b')
    {line : List Char} (labelled : line.drop 4 = labelChars (nameChars [side, '/'] path))
    : headerPath (.ofList [side, '/']) line = some (readLabel path) := by
  have visible : isWhitespace side = false ∧ side ≠ '"' ∧ side ≠ '/' ∧ quoteChar side = [side]
      ∧ unescapedChar side = [side] := by
    rcases sided with rfl | rfl <;> decide
  have slash : quoteChar '/' = ['/'] ∧ unescapedChar '/' = ['/'] := by decide
  have started (rest : List Char)
      : dropStart (.ofList [side, '/']) (.ofList (side :: '/' :: rest)) = .ofList rest := by
    have length : (String.ofList [side, '/']).length = 2 := by
      rw [← String.length_toList, String.toList_ofList]
      rfl
    rw [dropStart, String.toList_ofList, String.toList_ofList, length]
    exact if_pos (by simp)
  unfold headerPath readLabel
  rw [labelled]
  dsimp only
  unfold nameChars
  by_cases quoted : needsQuotes path.toList = true
  · rw [if_pos quoted, if_pos quoted, List.cons_append, trim_labelChars (by decide),
      ← List.cons_append, List.rdropWhile_concat_neg _ _ _ (by decide), unquotePath_quotes,
      unescapePath_flatMap, if_neg]
    · rw [List.cons_append, List.singleton_append, List.flatMap_cons, List.flatMap_cons,
        visible.2.2.2.2, slash.2]
      exact congrArg some (started _)
    · intro same
      have first := congrArg (List.head? ∘ String.toList) same
      rw [Function.comp_apply, String.toList_ofList] at first
      exact absurd (Option.some.inj first) (by decide)
  · rw [if_neg quoted, if_neg quoted, List.cons_append, List.singleton_append,
      trim_labelChars visible.1, rdropWhile_cons visible.1, rdropWhile_cons (by decide), if_neg]
    · have plain : unquotePath (.ofList (side :: '/' :: path.toList.rdropWhile isWhitespace))
          = .ofList (side :: '/' :: path.toList.rdropWhile isWhitespace) := by
        unfold unquotePath
        rw [String.toList_ofList]
        split
        next same => exact absurd (List.cons.inj same).1 visible.2.1
        next same => exact absurd (List.cons.inj same).1 visible.2.1
        next => rfl
      rw [plain]
      exact congrArg some (started _)
    · intro same
      have first := congrArg (List.head? ∘ String.toList) same
      rw [Function.comp_apply, String.toList_ofList] at first
      exact visible.2.2.1 (Option.some.inj first)

/-- What is left of an escape is written without others. -/
theorem simplyQuoted_of_mem {other : Char} (member : other ∈ unescapedChar char)
    : SimplyQuoted other := by
  have digit {value : Nat} (small : value < 8) : SimplyQuoted (Nat.digitChar value) := by
    have all : ∀ value < 8, quoteChar (Nat.digitChar value) = [Nat.digitChar value] := by decide
    exact .inl (all value small)
  rcases unescapedChar_cases char with ⟨itself, simply⟩ | ⟨-, escaped⟩
  · rw [itself, List.mem_singleton] at member
    rwa [member]
  · have unlike : ¬ (char = '"' ∨ char = '\\') := fun quote => escaped (.inr quote)
    rw [unescapedChar, if_neg unlike] at member
    by_cases octal : isOctalEscaped char = true
    · rw [quoteChar_of_octal octal] at member
      obtain ⟨byte, within, shown⟩ := List.mem_flatMap.mp member
      have small := lt_of_mem_utf8Bytes within
      simp only [octalEscape, List.mem_cons, List.not_mem_nil, or_false] at shown
      rcases shown with rfl | rfl | rfl | rfl
      · exact .inr (.inr rfl)
      · exact digit (by omega)
      · exact digit (by omega)
      · exact digit (by omega)
    · cases letters : escapeLetter char with
      | none => exact absurd (.inl (quoteChar_of_plain letters (eq_false_of_ne_true octal))) escaped
      | some letter =>
          rw [quoteChar_of_letter letters] at member
          simp only [List.mem_cons, List.not_mem_nil, or_false] at member
          rcases member with rfl | rfl
          · exact .inr (.inr rfl)
          · exact .inl (quoteChar_escapeLetter letters (not_or.mp unlike))

/-- An escaped character leaves a quote or a backslash. -/
theorem exists_escaped (quoted : quoteChar char ≠ [char])
    : ∃ other ∈ unescapedChar char, quoteChar other ≠ [other] := by
  unfold unescapedChar
  split
  next => exact ⟨char, List.mem_singleton_self _, quoted⟩
  next =>
    refine ⟨'\\', ?_, by decide⟩
    by_cases octal : isOctalEscaped char = true
    · obtain ⟨byte, others, bytes⟩ := List.exists_cons_of_ne_nil (utf8Bytes_ne_nil char)
      rw [quoteChar_of_octal octal, bytes]
      exact List.mem_cons_self
    · cases letters : escapeLetter char with
      | none => exact absurd (quoteChar_of_plain letters (eq_false_of_ne_true octal)) quoted
      | some letter =>
          rw [quoteChar_of_letter letters]
          exact List.mem_cons_self

theorem readableName_readLabel (path : String) : ReadableName (readLabel path) := by
  unfold readLabel
  split
  next quoted =>
    obtain ⟨char, member, escaped⟩ := needsQuotes_eq_true.mp quoted
    obtain ⟨other, within, shown⟩ := exists_escaped escaped
    have still : needsQuotes (path.toList.flatMap unescapedChar) = true :=
      needsQuotes_eq_true.mpr ⟨other, List.mem_flatMap.mpr ⟨char, member, within⟩, shown⟩
    rw [ReadableName, String.toList_ofList, still]
    refine ⟨fun read here => ?_, nofun⟩
    obtain ⟨source, -, there⟩ := List.mem_flatMap.mp here
    exact simplyQuoted_of_mem there
  next unquoted =>
    have plain := needsQuotes_eq_false.mp (eq_false_of_ne_true unquoted)
    rw [ReadableName, String.toList_ofList]
    refine ⟨fun read here => ?_, fun _ blank => ?_⟩
    · exact .inl (plain read ((List.rdropWhile_prefix _ _).subset here))
    · have some : path.toList.rdropWhile isWhitespace ≠ [] := by
        intro none
        rw [none] at blank
        exact nomatch blank
      have last := List.rdropWhile_last_not _ _ some
      rw [List.getLast?_eq_getLast_of_ne_nil some, Option.some_inj] at blank
      rw [blank] at last
      exact last (by decide)

theorem readLabel_eq_self : readLabel path = path ↔ ReadableName path := by
  constructor
  · intro same
    rw [← same]
    exact readableName_readLabel path
  · rintro ⟨simply, ends⟩
    unfold readLabel
    split
    next =>
      rcases unescaped_length path.toList with ⟨-, same⟩ | ⟨other, -⟩
      · rw [same, String.ofList_toList]
      · exact absurd simply other
    next unquoted =>
      have plain := needsQuotes_eq_false.mp (eq_false_of_ne_true unquoted)
      rw [List.rdropWhile_eq_self_iff.mpr, String.ofList_toList]
      intro some space
      refine ends (eq_false_of_ne_true unquoted) ?_
      rw [List.getLast?_eq_getLast_of_ne_nil some,
        eq_blank_of_plain (plain _ (List.getLast_mem some)) space]

/-- A path that consists of blanks. -/
def BlankName (path : String) : Prop :=
  ∀ char ∈ path.toList, char = ' '

theorem readLabel_eq_empty : readLabel path = "" ↔ BlankName path := by
  unfold readLabel
  split
  next quoted =>
    obtain ⟨char, member, escaped⟩ := needsQuotes_eq_true.mp quoted
    obtain ⟨other, within, -⟩ := exists_escaped escaped
    refine iff_of_false (fun empty => ?_) fun blank => ?_
    · have chars : path.toList.flatMap unescapedChar = [] := by
        simpa using congrArg String.toList empty
      exact List.ne_nil_of_mem (List.mem_flatMap.mpr ⟨char, member, within⟩) chars
    · rw [blank char member] at escaped
      exact absurd escaped (by decide)
  next unquoted =>
    have plain := needsQuotes_eq_false.mp (eq_false_of_ne_true unquoted)
    rw [← String.toList_inj, String.toList_ofList, show "".toList = [] from rfl,
      List.rdropWhile_eq_nil_iff]
    constructor
    · exact fun spaces char member => eq_blank_of_plain (plain char member) (spaces char member)
    · intro blank char member
      rw [blank char member]
      decide

end Names

namespace GitDiffFile

/-- The name under which the hunks of a file are listed, where there is one. -/
def readName (file : GitDiffFile) : Option String :=
  match file.change with
  | .added _ => truthy ((truthy (some (readLabel file.path.1))).or (parseDiffGitLine file.gitLine))
  | .deleted _ => truthy (some (readLabel file.path.1))
  | _ => truthy ((truthy (some (readLabel file.path.1))).or (some (readLabel file.oldPath)))

/-- The name of a file is readable, or blank and in the first line only. -/
def ReadBack (file : GitDiffFile) : Prop :=
  ReadableName file.path.1 ∨ file.isAdded = true ∧ BlankName file.path.1

section Names

variable {chars rest : List Char} {file : GitDiffFile} {name : String}

theorem beforeLastNewPath_of_not_mem (free : 'b' ∉ chars) : beforeLastNewPath chars = none := by
  induction chars with
  | nil => rfl
  | cons char rest ih =>
      have later : 'b' ∉ rest := fun member => free (List.mem_cons_of_mem _ member)
      have unmarked : begins rest " b/" = false := by
        refine eq_false_of_ne_true fun starts => later ?_
        exact (List.isPrefixOf_iff_prefix.mp starts).subset (by decide)
      rw [beforeLastNewPath, ih later, unmarked]
      simp

/-- The blanks before the new path are read, by induction over them. -/
theorem beforeLastNewPath_blank (blank : ∀ char ∈ chars, char = ' ')
    (after : ∀ char ∈ rest, char = ' ') (some : chars ≠ [])
    : beforeLastNewPath (chars ++ ' ' :: 'b' :: '/' :: rest) = Option.some chars := by
  have free : 'b' ∉ '/' :: rest := by
    intro member
    rcases List.mem_cons.mp member with same | later
    · exact absurd same (by decide)
    · exact absurd (after _ later) (by decide)
  have second : beforeLastNewPath ('b' :: '/' :: rest) = none := by
    have unmarked : begins ('/' :: rest) " b/" = false := rfl
    rw [beforeLastNewPath, beforeLastNewPath_of_not_mem free, unmarked]
    rfl
  have first : beforeLastNewPath (' ' :: 'b' :: '/' :: rest) = none := by
    have unmarked : begins ('b' :: '/' :: rest) " b/" = false := rfl
    rw [beforeLastNewPath, second, unmarked]
    rfl
  induction chars with
  | nil => exact absurd rfl some
  | cons char others ih =>
      have space : char = ' ' := blank char List.mem_cons_self
      subst space
      cases others with
      | nil =>
          have marked : begins (' ' :: 'b' :: '/' :: rest) " b/" = true := rfl
          rw [List.singleton_append, beforeLastNewPath, first, marked]
          rfl
      | cons next others =>
          have later := ih (fun other member => blank other (List.mem_cons_of_mem _ member))
            (List.cons_ne_nil _ _)
          rw [List.cons_append, beforeLastNewPath, later]
          rfl

theorem path_ne_nil : file.path.1.toList ≠ [] := by
  intro empty
  exact file.path.2 (by simpa using empty)

/-- A blank name is read in the first line of an added file. -/
theorem parseDiffGitLine_blank (added : file.isAdded = true) (blank : BlankName file.path.1)
    : parseDiffGitLine file.gitLine = some file.path.1 := by
  have same : file.oldPath = file.path.1 := by
    unfold oldPath
    unfold isAdded at added
    split
    next renamed =>
      rw [renamed] at added
      exact nomatch added
    next => rfl
  have unquoted : needsQuotes file.path.1.toList = false := by
    rw [needsQuotes_eq_false]
    intro char member
    rw [blank char member]
    decide
  have line : file.gitLine = "diff --git ".toList ++ ('a' :: '/' ::
      (file.path.1.toList ++ ' ' :: 'b' :: '/' :: file.path.1.toList)) := by
    unfold gitLine
    refine congrArg ("diff --git ".toList ++ ·) ?_
    rw [same, nameChars_of_plain unquoted, nameChars_of_plain unquoted]
    rfl
  have first : begins file.gitLine "diff --git " = true := by
    rw [line, begins, List.isPrefixOf_iff_prefix]
    exact List.prefix_append _ _
  have rest : file.gitLine.drop 11 = 'a' :: '/' ::
      (file.path.1.toList ++ ' ' :: 'b' :: '/' :: file.path.1.toList) := by
    rw [line]
    exact List.drop_left' rfl
  have plain : unquotePath file.path.1 = file.path.1 := by
    unfold unquotePath
    split
    next quote => exact absurd (blank '"' (quote ▸ List.mem_cons_self)) (by decide)
    next quote => exact absurd (blank '"' (quote ▸ List.mem_cons_self)) (by decide)
    next => rfl
  unfold parseDiffGitLine
  rw [first, rest]
  have quoted : begins ('a' :: '/' :: (file.path.1.toList
      ++ ' ' :: 'b' :: '/' :: file.path.1.toList)) "\"a/" = false := rfl
  have unquoted : begins ('a' :: '/' :: (file.path.1.toList
      ++ ' ' :: 'b' :: '/' :: file.path.1.toList)) "a/" = true := rfl
  simp only [if_true, quoted, unquoted, Option.bind_eq_bind, Option.bind_some, Bool.false_eq_true,
    if_false, List.drop_succ_cons, List.drop_zero, Option.pure_def,
    beforeLastNewPath_blank blank blank path_ne_nil, String.ofList_toList, plain]

theorem not_readable_of_blank (blank : BlankName file.path.1) : ¬ ReadableName file.path.1 := by
  intro readable
  have self := readLabel_eq_self.mpr readable
  rw [readLabel_eq_empty.mpr blank] at self
  exact file.path.2 self.symm

/-- The hunks of a file are listed under its path just where that is read back. -/
theorem readName_eq_path : file.readName = some file.path.1 ↔ file.ReadBack := by
  have named := file.path.2
  have blank : readLabel file.path.1 = "" ↔ BlankName file.path.1 := readLabel_eq_empty
  have self : readLabel file.path.1 = file.path.1 ↔ ReadableName file.path.1 := readLabel_eq_self
  have other : readLabel file.oldPath = file.path.1 → ReadableName file.path.1 := by
    intro same
    rw [← same]
    exact readableName_readLabel _
  have added := @parseDiffGitLine_blank file
  have apart := @not_readable_of_blank file
  unfold readName ReadBack
  unfold isAdded at added ⊢
  by_cases empty : readLabel file.path.1 = ""
  · have nothing : truthy (some (readLabel file.path.1)) = none := by
      rw [empty]
      rfl
    have unread := apart (blank.mp empty)
    cases change : file.change with
    | added mode =>
        rw [change] at added
        simp only [nothing, Option.none_or, truthy_eq_some, added rfl (blank.mp empty)]
        exact iff_of_true ⟨trivial, named⟩ (.inr ⟨trivial, blank.mp empty⟩)
    | deleted mode =>
        simp only [nothing]
        exact iff_of_false (by simp) fun either => either.elim unread fun both => by cases both.1
    | modified modes =>
        simp only [nothing, Option.none_or, truthy_eq_some, Option.some_inj]
        refine iff_of_false (fun both => unread (other both.1)) ?_
        exact fun either => either.elim unread fun both => by cases both.1
    | renamed oldPath similarity modes =>
        simp only [nothing, Option.none_or, truthy_eq_some, Option.some_inj]
        refine iff_of_false (fun both => unread (other both.1)) ?_
        exact fun either => either.elim unread fun both => by cases both.1
  · have read : truthy (some (readLabel file.path.1)) = some (readLabel file.path.1) :=
      truthy_eq_some.mpr ⟨rfl, empty⟩
    have shown (rest : Option String)
        : truthy ((truthy (some (readLabel file.path.1))).or rest) = some file.path.1
          ↔ ReadableName file.path.1 := by
      rw [read, Option.some_or, truthy_eq_some, Option.some_inj, self]
      exact and_iff_left named
    have visible : ¬ BlankName file.path.1 := fun all => empty (blank.mpr all)
    cases change : file.change with
    | added mode => simp only [shown, visible, and_false, or_false]
    | deleted mode =>
        simp only [visible, and_false, or_false]
        rw [truthy_eq_some, Option.some_inj, self]
        exact and_iff_left named
    | modified modes => simp only [shown, visible, and_false, or_false]
    | renamed oldPath similarity modes => simp only [shown, visible, and_false, or_false]

/-- A file is listed under its own path or under a readable name. -/
theorem readName_cases (listed : file.readName = some name)
    : file.path.1 = name ∨ ReadableName name := by
  have readable (path : String) (same : readLabel path = name) : ReadableName name := by
    rw [← same]
    exact readableName_readLabel path
  unfold readName at listed
  split at listed
  next mode change =>
    obtain ⟨found, named⟩ := truthy_eq_some.mp listed
    rcases Option.or_eq_some_iff.mp found with new | ⟨nothing, first⟩
    · exact .inr (readable _ (Option.some.inj (truthy_eq_some.mp new).1))
    · have blank : BlankName file.path.1 := by
        refine readLabel_eq_empty.mp (by_contra fun filled => ?_)
        rw [truthy_eq_some.mpr ⟨rfl, filled⟩] at nothing
        exact nomatch nothing
      have added : file.isAdded = true := by
        unfold isAdded
        rw [change]
      rw [parseDiffGitLine_blank added blank] at first
      exact .inl (Option.some.inj first)
  next mode change => exact .inr (readable _ (Option.some.inj (truthy_eq_some.mp listed).1))
  next =>
    obtain ⟨found, named⟩ := truthy_eq_some.mp listed
    rcases Option.or_eq_some_iff.mp found with new | ⟨-, old⟩
    · exact .inr (readable _ (Option.some.inj (truthy_eq_some.mp new).1))
    · exact .inr (readable _ (Option.some.inj old))

end Names

end GitDiffFile

end AiSdlc.Application
