import AiSdlc.Application.FileDiffLineCount

/-! The names that the scanner reads in the first line of a file, told by the paths: a path in
quotes is decoded, one without them loses the blanks at the end of the line, and an old path without
quotes is cut where it looks like the end of a name.
-/

namespace AiSdlc.Application

open AiSdlc.Js
open AiSdlc.Domain

-----------------------------------------------------------------------------------------
-- The names by the paths
-----------------------------------------------------------------------------------------

/-- A name that ends the line: blanks at its end are lost, and one of blanks is none. -/
def lastName (path : String) : Option String :=
  if needsQuotes path.toList then some (readPath path)
  else
    let shown := path.toList.rdropWhile isWhitespace
    if shown = [] then none else some (.ofList shown)

/-- The characters of the new name, without white space at the end of the line. -/
def lastChars (path : String) : List Char :=
  (nameChars ['b', '/'] path).rdropWhile isWhitespace

/-- The first ` b/` within a path, behind its first character: what is before and after it. -/
def innerBreak : List Char → Option (List Char × List Char)
  | [] => none
  | char :: rest =>
      if begins rest " b/" then some ([char], rest.drop 3)
      else (innerBreak rest).map fun (before, after) => (char :: before, after)

namespace GitDiffFile

/-- The old and the new name of a file, as they are read in its first line. -/
def firstLineNames (file : GitDiffFile) : Option (String × String) :=
  if needsQuotes file.oldPath.toList then
    (lastName file.path.1).map fun newName => (readPath file.oldPath, newName)
  else
    match innerBreak file.oldPath.toList with
    | some (before, after) =>
        some (.ofList before, .ofList (after ++ ' ' :: lastChars file.path.1))
    | none => (lastName file.path.1).map fun newName => (file.oldPath, newName)

/-- One of the names has the normal form of a path. -/
def names (file : GitDiffFile) (path : String) : Bool :=
  match file.firstLineNames with
  | some (oldName, newName) =>
      normalizeTaskPath path ≠ ""
      && (normalizeTaskPath oldName = normalizeTaskPath path
        || normalizeTaskPath newName = normalizeTaskPath path)
  | none => false

end GitDiffFile

section Quoted

variable {char : Char} {chars rest inner after : List Char} {path : String}

/-- Characters that are neither quotes nor backslashes belong to the name, by induction over them.
-/
theorem quotedName_append (ordinary : ∀ char ∈ chars, char ≠ '"' ∧ char ≠ '\\')
    (read : quotedName rest = some (inner, after))
    : quotedName (chars ++ rest) = some (chars ++ inner, after) := by
  induction chars with
  | nil => exact read
  | cons char others ih =>
      obtain ⟨quote, backslash⟩ := ordinary char List.mem_cons_self
      rw [List.cons_append, quotedName,
        ih fun other member => ordinary other (List.mem_cons_of_mem _ member)]
      · rfl
      · exact fun same => absurd same quote
      · exact fun same => absurd same backslash
      · exact fun _ _ same => absurd same backslash

theorem quotedName_escape (dot : isDotCharacter char = true)
    (read : quotedName rest = some (inner, after))
    : quotedName ('\\' :: char :: rest) = some ('\\' :: char :: inner, after) := by
  rw [quotedName, if_pos dot, read]
  rfl

theorem isDotCharacter_escapeLetter {letter : Char} (escaped : escapeLetter char = some letter)
    : isDotCharacter letter = true := by
  unfold escapeLetter at escaped
  split_ifs at escaped <;>
    obtain rfl := Option.some.inj escaped <;>
    decide

/-- What a character is quoted as belongs to the name. -/
theorem quotedName_quoteChar (char : Char) (read : quotedName rest = some (inner, after))
    : quotedName (quoteChar char ++ rest) = some (quoteChar char ++ inner, after) := by
  by_cases octal : isOctalEscaped char = true
  · rw [quoteChar_of_octal octal]
    have bytes (several : List Nat) (small : ∀ byte ∈ several, byte < 256)
        : quotedName (several.flatMap octalEscape ++ rest)
          = some (several.flatMap octalEscape ++ inner, after) := by
      induction several with
      | nil => exact read
      | cons byte others ih =>
          have within := small byte List.mem_cons_self
          have later := ih fun other member => small other (List.mem_cons_of_mem _ member)
          have digit {value : Nat} (below : value < 8)
              : isDotCharacter (Nat.digitChar value) = true := by
            have all : ∀ value < 8, isDotCharacter (Nat.digitChar value) = true := by decide
            exact all value below
          have ordinary : ∀ char ∈ [Nat.digitChar (byte / 8 % 8), Nat.digitChar (byte % 8)],
              char ≠ '"' ∧ char ≠ '\\' := by
            intro char member
            simp only [List.mem_cons, List.not_mem_nil, or_false] at member
            rcases member with rfl | rfl
            · exact ⟨(digitChar_ordinary (by omega)).1, (digitChar_ordinary (by omega)).2.1⟩
            · exact ⟨(digitChar_ordinary (by omega)).1, (digitChar_ordinary (by omega)).2.1⟩
          rw [List.flatMap_cons, List.append_assoc, List.append_assoc]
          exact quotedName_escape (digit (by omega)) (quotedName_append ordinary later)
    exact bytes _ fun byte => lt_of_mem_utf8Bytes
  · cases escaped : escapeLetter char with
    | some letter =>
        rw [quoteChar_of_letter escaped]
        exact quotedName_escape (isDotCharacter_escapeLetter escaped) read
    | none =>
        rw [quoteChar_of_plain escaped (eq_false_of_ne_true octal)]
        refine quotedName_append (fun other member => ?_) read
        obtain rfl := List.mem_singleton.mp member
        refine ⟨?_, ?_⟩
        · rintro rfl
          exact absurd escaped (by decide)
        · rintro rfl
          exact absurd escaped (by decide)

/-- A quoted path is read up to its last quote, by induction over its characters. -/
theorem quotedName_flatMap (chars after : List Char)
    : quotedName (chars.flatMap quoteChar ++ '"' :: after)
      = some (chars.flatMap quoteChar, after) := by
  induction chars with
  | nil => rw [List.flatMap_nil, List.nil_append, quotedName]
  | cons char rest ih =>
      rw [List.flatMap_cons, List.append_assoc]
      exact quotedName_quoteChar char ih

theorem unquoteName_flatMap (path : String)
    : unquoteName (path.toList.flatMap quoteChar) = readPath path :=
  unquoteGitPath_quoteGitPath path

end Quoted

section LastName

variable {path : String} {chars : List Char}

theorem nameChars_quoted (side : Char) (apart : quoteChar side = [side])
    (quoted : needsQuotes path.toList = true)
    : nameChars [side, '/'] path
      = '"' :: side :: '/' :: (path.toList.flatMap quoteChar ++ ['"']) := by
  have slash : quoteChar '/' = ['/'] := by decide
  have start : ([side, '/'] ++ path.toList).flatMap quoteChar
      = side :: '/' :: path.toList.flatMap quoteChar := by
    rw [List.flatMap_append, List.flatMap_cons, List.flatMap_singleton, apart, slash]
    rfl
  rw [nameChars, if_pos quoted, start]
  rfl

/-- The characters of the last name. -/
theorem lastChars_eq (path : String)
    : lastChars path
      = if needsQuotes path.toList then
          '"' :: 'b' :: '/' :: (path.toList.flatMap quoteChar ++ ['"'])
        else 'b' :: '/' :: path.toList.rdropWhile isWhitespace := by
  unfold lastChars
  split
  next quoted =>
    rw [nameChars_quoted 'b' (by decide) quoted]
    have ends (front : List Char) : (front ++ ['"']).rdropWhile isWhitespace = front ++ ['"'] :=
      List.rdropWhile_concat_neg _ _ _ (by decide)
    exact ends ('"' :: 'b' :: '/' :: path.toList.flatMap quoteChar)
  next plain =>
    rw [nameChars_of_plain (eq_false_of_ne_true plain)]
    exact @rdropWhile_append_cons isWhitespace ['b'] path.toList '/' (by decide)

theorem plain_ordinary {char : Char} (plain : quoteChar char = [char])
    : isDotCharacter char = true ∧ char ≠ '"' := by
  have octal := not_octal_of_plain plain
  cases escaped : escapeLetter char with
  | some letter =>
      rw [quoteChar_of_letter escaped] at plain
      exact absurd (List.cons.inj plain).2 (List.cons_ne_nil _ _)
  | none =>
      have printable : 0x20 ≤ char.toNat ∧ char.toNat < 0x7F := by
        simpa [isOctalEscaped, escaped] using octal
      refine ⟨?_, ?_⟩
      · simp only [isDotCharacter, List.mem_cons, List.not_mem_nil, or_false,
          decide_eq_true_eq]
        omega
      · rintro rfl
        exact absurd escaped (by decide)

/-- The last name is read as it is shown. -/
theorem newGitName_lastChars (path : String) : newGitName (lastChars path) = lastName path := by
  rw [lastChars_eq]
  unfold lastName
  split
  next quoted =>
    have begun : begins ('"' :: 'b' :: '/' :: (path.toList.flatMap quoteChar ++ ['"'])) "\"b/"
        = true := rfl
    have read : quotedName (('"' :: 'b' :: '/' :: (path.toList.flatMap quoteChar ++ ['"'])).drop 3)
        = some (path.toList.flatMap quoteChar, []) :=
      quotedName_flatMap _ _
    unfold newGitName
    rw [if_pos begun, read, ← unquoteName_flatMap]
  next plain =>
    have shown := needsQuotes_eq_false.mp (eq_false_of_ne_true plain)
    have unquoted : begins ('b' :: '/' :: path.toList.rdropWhile isWhitespace) "\"b/" = false := rfl
    have begun : begins ('b' :: '/' :: path.toList.rdropWhile isWhitespace) "b/" = true := rfl
    have dots : (path.toList.rdropWhile isWhitespace).all isDotCharacter = true := by
      refine List.all_eq_true.mpr fun char member => ?_
      exact (plain_ordinary (shown char ((List.rdropWhile_prefix _ _).subset member))).1
    unfold newGitName
    rw [unquoted, if_neg Bool.false_ne_true, begun]
    change (if (true && decide (path.toList.rdropWhile isWhitespace ≠ [])
      && (path.toList.rdropWhile isWhitespace).all isDotCharacter) = true then
        some (String.ofList (path.toList.rdropWhile isWhitespace)) else none) = _
    rw [dots]
    by_cases empty : path.toList.rdropWhile isWhitespace = [] <;> simp [empty]

end LastName

section OldName

variable {chars rest last : List Char} {char : Char}

/-- Within an old name only ` b/` looks like the beginning of the new one. -/
theorem newGitName_within (plain : ∀ char ∈ rest, quoteChar char = [char]) (some : rest ≠ [])
    (dots : last.all isDotCharacter = true)
    : (if begins (rest ++ ' ' :: last) " " then newGitName ((rest ++ ' ' :: last).drop 1) else none)
      = if begins rest " b/" then Option.some (.ofList (rest.drop 3 ++ ' ' :: last)) else none := by
  obtain ⟨next, more, rfl⟩ := List.exists_cons_of_ne_nil some
  by_cases blank : next = ' '
  · subst blank
    have within : ∀ char ∈ more, quoteChar char = [char] := fun char member =>
      plain char (List.mem_cons_of_mem _ member)
    have spaced : begins (' ' :: more ++ ' ' :: last) " " = true := rfl
    have unquoted : begins (more ++ ' ' :: last) "\"b/" = false := by
      refine begins_eq_false rfl fun quote => ?_
      cases more with
      | nil => exact absurd (Option.some.inj quote) (by decide)
      | cons first others =>
          exact (plain_ordinary (within first List.mem_cons_self)).2 (Option.some.inj quote)
    have same : begins (more ++ ' ' :: last) "b/" = begins (' ' :: more) " b/" := by
      cases more with
      | nil => rfl
      | cons first others =>
          cases others with
          | nil => simp [begins, List.isPrefixOf]
          | cons second others => simp [begins, List.isPrefixOf]
    rw [if_pos spaced]
    change newGitName (more ++ ' ' :: last) = _
    unfold newGitName
    rw [unquoted, if_neg Bool.false_ne_true, same]
    by_cases starts : begins (' ' :: more) " b/" = true
    · obtain ⟨others, rfl⟩ : ∃ others, more = 'b' :: '/' :: others := by
        obtain ⟨others, split⟩ := List.isPrefixOf_iff_prefix.mp starts
        exact ⟨others, (List.cons.inj split).2.symm⟩
      have printed : (others ++ ' ' :: last).all isDotCharacter = true := by
        rw [List.all_append, List.all_cons, dots]
        refine Bool.and_eq_true_iff.mpr ⟨List.all_eq_true.mpr fun char member => ?_, by decide⟩
        exact (plain_ordinary (within char (by simp [member]))).1
      rw [starts, if_pos rfl]
      change (if (true && decide (others ++ ' ' :: last ≠ [])
        && (others ++ ' ' :: last).all isDotCharacter) = true then
          Option.some (String.ofList (others ++ ' ' :: last)) else none) = _
      rw [printed]
      simp
    · rw [eq_false_of_ne_true starts, Bool.false_and, Bool.false_and]
      rfl
  · have spaced : begins (next :: more ++ ' ' :: last) " " = false :=
      begins_eq_false rfl fun same => blank (Option.some.inj same)
    have marked : begins (next :: more) " b/" = false :=
      begins_eq_false rfl fun same => blank (Option.some.inj same)
    rw [spaced, marked, if_neg Bool.false_ne_true, if_neg Bool.false_ne_true]

/-- An old name ends where the rest can be the new one. -/
theorem splitGitNames_cons (dot : isDotCharacter char = true)
    : splitGitNames (char :: rest)
      = ((if begins rest " " then newGitName (rest.drop 1) else none).map ([char], ·)).or
          ((splitGitNames rest).map fun names => (char :: names.1, names.2)) := by
  rw [splitGitNames, if_pos dot]
  cases if begins rest " " then newGitName (rest.drop 1) else none <;> rfl

/-- An old name without quotes ends where it looks as if it did, and else before the last name, by
induction over its characters.
-/
theorem splitGitNames_append (plain : ∀ char ∈ chars, quoteChar char = [char]) (some : chars ≠ [])
    (dots : last.all isDotCharacter = true)
    (ends : newGitName last = none → splitGitNames (' ' :: last) = none)
    : splitGitNames (chars ++ ' ' :: last)
      = ((innerBreak chars).map fun cut => (cut.1, .ofList (cut.2 ++ ' ' :: last))).or
          ((newGitName last).map (chars, ·)) := by
  induction chars with
  | nil => exact absurd rfl some
  | cons char rest ih =>
      have within : ∀ char ∈ rest, quoteChar char = [char] := fun other member =>
        plain other (List.mem_cons_of_mem _ member)
      rw [List.cons_append, splitGitNames_cons (plain_ordinary (plain char List.mem_cons_self)).1,
        innerBreak]
      cases rest with
      | nil =>
          have spaced : begins ([] ++ ' ' :: last) " " = true := rfl
          have marked : begins [] " b/" = false := rfl
          have tail : ([] ++ ' ' :: last).drop 1 = last := rfl
          rw [if_pos spaced, tail, marked, if_neg Bool.false_ne_true]
          cases read : newGitName last with
          | some newName => rfl
          | none =>
              rw [List.nil_append, ends read]
              rfl
      | cons next more =>
          rw [newGitName_within within (List.cons_ne_nil _ _) dots,
            ih within (List.cons_ne_nil _ _)]
          by_cases marked : begins (next :: more) " b/" = true
          · rw [if_pos marked, if_pos marked]
            rfl
          · rw [if_neg marked, if_neg marked]
            cases innerBreak (next :: more) with
            | some both => rfl
            | none => cases newGitName last <;> rfl

end OldName

section FirstLine

variable {file : GitDiffFile} {path : String}

/-- What a character is quoted as is printed. -/
theorem dots_quoteChar (char : Char) : ∀ shown ∈ quoteChar char, isDotCharacter shown = true := by
  have digit {value : Nat} (below : value < 8) : isDotCharacter (Nat.digitChar value) = true := by
    have all : ∀ value < 8, isDotCharacter (Nat.digitChar value) = true := by decide
    exact all value below
  intro shown member
  by_cases octal : isOctalEscaped char = true
  · rw [quoteChar_of_octal octal] at member
    obtain ⟨byte, within, member⟩ := List.mem_flatMap.mp member
    have small := lt_of_mem_utf8Bytes within
    simp only [octalEscape, List.mem_cons, List.not_mem_nil, or_false] at member
    rcases member with rfl | rfl | rfl | rfl
    · decide
    · exact digit (by omega)
    · exact digit (by omega)
    · exact digit (by omega)
  · cases escaped : escapeLetter char with
    | some letter =>
        rw [quoteChar_of_letter escaped] at member
        simp only [List.mem_cons, List.not_mem_nil, or_false] at member
        rcases member with rfl | rfl
        · decide
        · exact isDotCharacter_escapeLetter escaped
    | none =>
        have plain := quoteChar_of_plain escaped (eq_false_of_ne_true octal)
        rw [plain, List.mem_singleton] at member
        exact member ▸ (plain_ordinary plain).1

/-- The last name is printed. -/
theorem dots_lastChars (path : String) : (lastChars path).all isDotCharacter = true := by
  refine List.all_eq_true.mpr fun char member => ?_
  rw [lastChars_eq] at member
  split at member
  next quoted =>
    simp only [List.mem_cons, List.mem_append, List.not_mem_nil, or_false] at member
    rcases member with rfl | rfl | rfl | body | rfl
    · decide
    · decide
    · decide
    · obtain ⟨source, -, shown⟩ := List.mem_flatMap.mp body
      exact dots_quoteChar source char shown
    · decide
  next plain =>
    have shown := needsQuotes_eq_false.mp (eq_false_of_ne_true plain)
    simp only [List.mem_cons] at member
    rcases member with rfl | rfl | within
    · decide
    · decide
    · exact (plain_ordinary (shown char ((List.rdropWhile_prefix _ _).subset within))).1

theorem splitGitNames_lastChars (none : newGitName (lastChars path) = Option.none)
    : splitGitNames (' ' :: lastChars path) = Option.none := by
  rw [newGitName_lastChars, lastName] at none
  split at none
  next quoted => exact absurd none (Option.some_ne_none _)
  next plain =>
    dsimp only at none
    split at none
    next empty =>
      rw [lastChars_eq, if_neg plain, empty]
      decide
    next => exact absurd none (Option.some_ne_none _)

/-- The first line without the white space at its end. -/
theorem gitLine_trimmed
    : file.gitLine.rdropWhile isWhitespace
      = "diff --git ".toList ++ (nameChars ['a', '/'] file.oldPath ++ ' ' :: lastChars file.path.1)
        := by
  obtain ⟨char, rest, name, visible⟩ := @exists_nameChars 'b' (.inr rfl) file.path.1
  have trimmed (start oldName : List Char)
      : (start ++ (oldName ++ ' ' :: char :: rest)).rdropWhile isWhitespace
        = start ++ (oldName ++ ' ' :: char :: rest.rdropWhile isWhitespace) := by
    have kept :=
      @rdropWhile_append_cons isWhitespace (start ++ (oldName ++ [' '])) rest char visible
    simpa using kept
  unfold GitDiffFile.gitLine lastChars
  rw [name, rdropWhile_cons visible]
  exact trimmed _ _

/-- White space at the end is gone. -/
theorem last_of_trimmed {chars : List Char} {char : Char}
    (last : (chars.rdropWhile isWhitespace).getLast? = some char)
    : isWhitespace char = false := by
  have some : chars.rdropWhile isWhitespace ≠ [] := by
    intro empty
    rw [empty] at last
    exact absurd last.symm (Option.some_ne_none _)
  rw [List.getLast?_eq_some_getLast some, Option.some_inj] at last
  rw [← last]
  exact eq_false_of_ne_true (List.rdropWhile_last_not _ _ some)

/-- What stands behind `diff --git `. -/
theorem gitLine_names
    : dropCarriageReturn ((file.gitLine.rdropWhile isWhitespace).drop 11)
      = nameChars ['a', '/'] file.oldPath ++ ' ' :: lastChars file.path.1 := by
  have rest : (file.gitLine.rdropWhile isWhitespace).drop 11
      = nameChars ['a', '/'] file.oldPath ++ ' ' :: lastChars file.path.1 := by
    rw [gitLine_trimmed]
    exact List.drop_left' rfl
  rw [rest]
  refine if_neg fun last => ?_
  have final : (file.gitLine.rdropWhile isWhitespace).getLast? = some '\r' := by
    rw [gitLine_trimmed, List.getLast?_append, last, Option.some_or]
  exact absurd (last_of_trimmed final) (by decide)

theorem gitNames_of_quoted {line rest inner more : List Char}
    (shown : dropCarriageReturn (line.drop 11) = '"' :: 'a' :: '/' :: rest)
    (read : quotedName rest = some (inner, ' ' :: more))
    : gitNames line = (newGitName more).map (unquoteName inner, ·) := by
  have begun : begins ('"' :: 'a' :: '/' :: rest) "\"a/" = true := rfl
  have behind : quotedName (('"' :: 'a' :: '/' :: rest).drop 3) = some (inner, ' ' :: more) := read
  unfold gitNames
  rw [shown]
  dsimp only
  rw [if_pos begun, behind]
  rfl

theorem gitNames_of_plain {line rest : List Char}
    (shown : dropCarriageReturn (line.drop 11) = 'a' :: '/' :: rest)
    : gitNames line = (splitGitNames rest).map fun names => (.ofList names.1, names.2) := by
  have unquoted : begins ('a' :: '/' :: rest) "\"a/" = false := rfl
  have begun : begins ('a' :: '/' :: rest) "a/" = true := rfl
  unfold gitNames
  rw [shown]
  dsimp only
  rw [unquoted, if_neg Bool.false_ne_true, if_pos begun]
  rfl

theorem oldPath_ne_nil : file.oldPath.toList ≠ [] := by
  unfold GitDiffFile.oldPath
  split
  next oldPath _ _ _ => exact fun empty => oldPath.2 (by simpa using empty)
  next => exact GitDiffFile.path_ne_nil

/-- The names are read as the paths tell. -/
theorem gitNames_gitLine
    : gitNames (file.gitLine.rdropWhile isWhitespace) = file.firstLineNames := by
  have shown := @gitLine_names file
  unfold GitDiffFile.firstLineNames
  by_cases quoted : needsQuotes file.oldPath.toList = true
  · have read : quotedName (file.oldPath.toList.flatMap quoteChar ++ ['"']
          ++ ' ' :: lastChars file.path.1)
        = some (file.oldPath.toList.flatMap quoteChar, ' ' :: lastChars file.path.1) := by
      rw [List.append_assoc]
      exact quotedName_flatMap _ _
    rw [nameChars_quoted 'a' (by decide) quoted] at shown
    rw [gitNames_of_quoted shown read, if_pos quoted, newGitName_lastChars, unquoteName_flatMap]
  · have plain := eq_false_of_ne_true quoted
    rw [nameChars_of_plain plain, List.append_assoc, List.cons_append, List.cons_append,
      List.nil_append] at shown
    rw [gitNames_of_plain shown, if_neg quoted,
      splitGitNames_append (needsQuotes_eq_false.mp plain) oldPath_ne_nil (dots_lastChars _)
        splitGitNames_lastChars,
      newGitName_lastChars]
    cases innerBreak file.oldPath.toList with
    | some both => rfl
    | none =>
        cases lastName file.path.1 with
        | none => rfl
        | some newName =>
            rw [Option.map_none, Option.none_or, Option.map_some, Option.map_some,
              String.ofList_toList]
            rfl

theorem namesTarget_gitLine
    : namesTarget (normalizeTaskPath path) (file.gitLine.rdropWhile isWhitespace)
      = file.names path := by
  have same (rawPath : String) : normalizedName rawPath = normalizeTaskPath rawPath := by
    unfold normalizedName
    split
    next empty => rw [empty, normalizeTaskPath_empty]
    next => rfl
  unfold namesTarget GitDiffFile.names
  rw [gitNames_gitLine]
  cases file.firstLineNames with
  | none => rfl
  | some both =>
      simp only [same]
      by_cases target : normalizeTaskPath path = "" <;>
        by_cases first : normalizeTaskPath both.1 = normalizeTaskPath path <;>
        by_cases second : normalizeTaskPath both.2 = normalizeTaskPath path <;>
        simp_all

end FirstLine

end AiSdlc.Application
