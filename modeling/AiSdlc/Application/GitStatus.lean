import AiSdlc.Application.OrchestratorArtifacts

/-! The status listing of git: its lines, the paths in them, and how git writes a path that has
special characters.
-/

namespace AiSdlc.Application

open AiSdlc.Js

/-- `text.trimEnd()`, which the runner of git applies to what git prints. -/
def trimEnd (text : String) : String :=
  .ofList (text.toList.rdropWhile isWhitespace)

/-- The value of an octal digit. -/
def octalDigit (char : Char) : Option Nat :=
  if '0' ≤ char ∧ char ≤ '7' then some (char.toNat - '0'.toNat) else none

/-- What an escaped character stands for. -/
def escapedChar : Char → Char
  | 'a' => Char.ofNat 7
  | 'b' => Char.ofNat 8
  | 'f' => Char.ofNat 12
  | 'n' => '\n'
  | 'r' => '\r'
  | 't' => '\t'
  | 'v' => Char.ofNat 11
  | char => char

/-- A part of a quoted path: a character, or a byte that is written in octal digits. -/
inductive PathToken
  | char (char : Char)
  | byte (value : Nat)
  deriving DecidableEq, Repr

/-- The tokens after a backslash: up to three octal digits, or one escaped character. -/
def escapedToken : List Char → PathToken × Nat
  | [] => (.char '\\', 0)
  | first :: rest =>
      match octalDigit first with
      | none => (.char (escapedChar first), 1)
      | some high =>
          match rest with
          | second :: more =>
              match octalDigit second with
              | none => (.byte high, 1)
              | some middle =>
                  match more with
                  | third :: _ =>
                      match octalDigit third with
                      | none => (.byte (high * 8 + middle), 2)
                      | some low => (.byte ((high * 8 + middle) * 8 + low), 3)
                  | [] => (.byte (high * 8 + middle), 2)
          | [] => (.byte high, 1)

/-- The tokens of the inner part of a quoted path, of which some characters were read with the
token before.
-/
def pathTokens : Nat → List Char → List PathToken
  | _, [] => []
  | consumed + 1, _ :: rest => pathTokens consumed rest
  | 0, '\\' :: rest =>
      let read := escapedToken rest
      read.1 :: pathTokens read.2 rest
  | 0, char :: rest => .char char :: pathTokens 0 rest

/-- The characters of the tokens: neighbouring bytes are decoded together. -/
def decodeTokens (decode : List Nat → String) (pending : List Nat) : List PathToken → List Char
  | [] => if pending = [] then [] else (decode pending).toList
  | .byte value :: rest => decodeTokens decode (pending ++ [value % 256]) rest
  | .char char :: rest =>
      (if pending = [] then [] else (decode pending).toList)
      ++ char :: decodeTokens decode [] rest

/-- `unquoteGitPath`, where `decode` is that of a `TextDecoder` for UTF-8. -/
def unquoteGitPath (decode : List Nat → String) (path : String) : String :=
  match path.toList with
  | '"' :: rest =>
      if rest.getLast? = some '"' then
        .ofList (decodeTokens decode [] (pathTokens 0 rest.dropLast))
      else
        path
  | _ => path

example : unquoteGitPath (fun _ => "é") "\"caf\\303\\251\\t1.ts\"" = "café\t1.ts" := by
  decide

/-- The characters before the first arrow, and those after it. -/
def splitArrow : List Char → Option (List Char × List Char)
  | ' ' :: '-' :: '>' :: ' ' :: rest => some ([], rest)
  | [] => none
  | char :: rest => (splitArrow rest).map fun (before, after) => (char :: before, after)

/-- The characters up to the closing quote, and those after it; an escaped character closes
nothing.
-/
def closingQuote : Bool → List Char → Option (List Char × List Char)
  | _, [] => none
  | true, char :: rest => (closingQuote false rest).map fun (inner, after) => (char :: inner, after)
  | false, '"' :: rest => some (['"'], rest)
  | false, char :: rest =>
      (closingQuote (char = '\\') rest).map fun (inner, after) => (char :: inner, after)

/-- The original path and the new one, where the original one is quoted. -/
def splitQuoted : List Char → Option (List Char × List Char)
  | '"' :: rest =>
      match closingQuote false rest with
      | none => none
      | some (inner, remaining) =>
          (splitArrow remaining).map fun (_, newPath) => ('"' :: inner, newPath)
  | _ => none

/-- The status letters of a renamed or a copied path. -/
def isRenameOrCopy (statusX statusY : Char) : Bool :=
  statusX = 'R' || statusX = 'C' || statusY = 'R' || statusY = 'C'

/-- `parseGitStatusLine`: the paths of a line, as git writes them. -/
def parseGitStatusLine (rawLine : String) : List String :=
  match dropCarriageReturn rawLine.toList with
  | statusX :: statusY :: _ :: first :: rest =>
      let payload := first :: rest
      if isRenameOrCopy statusX statusY then
        match splitQuoted payload <|> splitArrow payload with
        | some (origPath, newPath) => [.ofList origPath, .ofList newPath]
        | none => [.ofList payload]
      else
        [.ofList payload]
  | _ => []

/-- The lines of a status listing. -/
def statusLines (status : String) : List String :=
  ((status.toList.splitOn '\n').filter (· ≠ [])).map String.ofList

def parseGitStatusPaths (decode : List Nat → String) (status : String) : List String :=
  let paths := (statusLines status).flatMap parseGitStatusLine
  sortTexts ((paths.map (unquoteGitPath decode)).filter (· ≠ "")).eraseDups

/-- One of the compiled patterns matches a path. -/
def isExcludedPath (path : String) : Bool :=
  orchestratorExcludePatterns.any fun pattern => matchesPattern pattern.toList path.toList

def uncommittedSourcePaths (decode : List Nat → String) (status : String) : List String :=
  (parseGitStatusPaths decode status).filter fun path => !isExcludedPath path

-----------------------------------------------------------------------------------------
-- What git prints
-----------------------------------------------------------------------------------------

/-- An entry of the status listing: the status letters and the path, with the original path of a
renamed or a copied one.
-/
structure StatusEntry where
  statusX : Char
  statusY : Char
  path : String
  origPath : Option String := none
  deriving DecidableEq, Repr

/-- The paths that an entry names. -/
def StatusEntry.paths (entry : StatusEntry) : List String :=
  entry.origPath.toList ++ [entry.path]

/-- The line of an entry, given how paths are quoted. -/
def StatusEntry.line (quoted : String → List Char) (entry : StatusEntry) : List Char :=
  entry.statusX :: entry.statusY :: ' ' ::
    match entry.origPath with
    | none => quoted entry.path
    | some origPath => quoted origPath ++ " -> ".toList ++ quoted entry.path

/-- What `git status --porcelain` prints, without trailing white space. -/
def printedStatus (quoted : String → List Char) (entries : List StatusEntry) : String :=
  trimEnd (.ofList (entries.flatMap fun entry => entry.line quoted ++ ['\n']))

/-- The inner part of a quoted path: quotes and backslashes are escaped, and control characters
are not there.
-/
inductive EscapedBody : List Char → Prop
  | nil : EscapedBody []
  | plain {char : Char} {rest : List Char} (ordinary : char ≠ '"' ∧ char ≠ '\\' ∧ char ≠ '\n')
      (body : EscapedBody rest)
      : EscapedBody (char :: rest)
  | escape {char : Char} {rest : List Char} (printed : char ≠ '\n') (body : EscapedBody rest)
      : EscapedBody ('\\' :: char :: rest)

/-- How git writes a path: as it is, where it has neither white space nor quotes, and else
between quotes.
-/
inductive QuotedPath : List Char → Prop
  | plain {chars : List Char} (nonempty : chars ≠ [])
      (ordinary : ∀ char ∈ chars, isWhitespace char = false ∧ char ≠ '"')
      : QuotedPath chars
  | quoted {body : List Char} (escaped : EscapedBody body) : QuotedPath ('"' :: body ++ ['"'])

/-- An entry whose original path is there if and only if its letters tell so. -/
def StatusEntry.WellFormed (entry : StatusEntry) : Prop :=
  entry.statusX ≠ '\n' ∧ entry.statusY ≠ '\n'
  ∧ entry.origPath.isSome = isRenameOrCopy entry.statusX entry.statusY

section Lines

variable {quoted : String → List Char} {entries : List StatusEntry} {entry : StatusEntry}
  {chars body after : List Char}

theorem EscapedBody.not_newline (escaped : EscapedBody body) : '\n' ∉ body := by
  induction escaped with
  | nil => exact List.not_mem_nil
  | plain ordinary _ ih =>
      intro member
      rcases List.mem_cons.mp member with same | later
      · exact ordinary.2.2 same.symm
      · exact ih later
  | escape printed _ ih =>
      intro member
      rcases List.mem_cons.mp member with same | later
      · exact absurd same (by decide)
      · rcases List.mem_cons.mp later with same | last
        · exact printed same.symm
        · exact ih last

/-- An escaped body is read up to the quote that closes it, by induction over the body. -/
theorem EscapedBody.closingQuote (escaped : EscapedBody body)
    : closingQuote false (body ++ '"' :: after) = some (body ++ ['"'], after) := by
  induction escaped with
  | nil => rfl
  | @plain char rest ordinary _ ih =>
      have unescaped : decide (char = '\\') = false := decide_eq_false ordinary.2.1
      rw [List.cons_append, Application.closingQuote, unescaped, ih]
      · rfl
      · exact ordinary.1
  | @escape char rest _ _ ih =>
      rw [List.cons_append, List.cons_append, Application.closingQuote]
      · rw [show decide ('\\' = '\\') = true from rfl, Application.closingQuote, ih]
        rfl
      · decide

theorem QuotedPath.ne_nil (path : QuotedPath chars) : chars ≠ [] := by
  cases path with
  | plain nonempty _ => exact nonempty
  | quoted _ => exact List.cons_ne_nil _ _

theorem QuotedPath.not_newline (path : QuotedPath chars) : '\n' ∉ chars := by
  cases path with
  | plain _ ordinary => exact fun member => absurd (ordinary _ member).1 (by decide)
  | quoted escaped =>
      have apart : '\n' ≠ '"' := by decide
      simp [apart, escaped.not_newline]

/-- A written path does not end in white space. -/
theorem QuotedPath.getLast (path : QuotedPath chars)
    : ∀ char ∈ chars.getLast?, isWhitespace char = false := by
  intro char last
  cases path with
  | plain _ ordinary => exact (ordinary char (List.mem_of_getLast? last)).1
  | quoted escaped =>
      rw [List.getLast?_concat] at last
      cases last
      decide

theorem splitArrow_append (plain : ' ' ∉ chars)
    : splitArrow (chars ++ " -> ".toList ++ after) = some (chars, after) := by
  induction chars with
  | nil => rfl
  | cons first rest ih =>
      have apart : first ≠ ' ' := fun same => plain (same ▸ List.mem_cons_self)
      have later : ' ' ∉ rest := fun member => plain (List.mem_cons_of_mem _ member)
      rw [List.cons_append, List.cons_append, splitArrow, ih later]
      · rfl
      · exact fun _ same => absurd same apart

/-- The two paths of a renamed one are told apart, also where they contain arrows. -/
theorem QuotedPath.split (path : QuotedPath chars)
    : (splitQuoted (chars ++ " -> ".toList ++ after)
        <|> splitArrow (chars ++ " -> ".toList ++ after))
      = some (chars, after) := by
  cases path with
  | plain nonempty ordinary =>
      have spaceless : ' ' ∉ chars := fun member => absurd (ordinary _ member).1 (by decide)
      have unquoted : splitQuoted (chars ++ " -> ".toList ++ after) = none := by
        cases chars with
        | nil => exact absurd rfl nonempty
        | cons first rest =>
            unfold splitQuoted
            split
            · rename_i same
              exact absurd (List.cons.inj same).1 (ordinary first List.mem_cons_self).2
            · rfl
      rw [unquoted, splitArrow_append spaceless]
      rfl
  | @quoted body escaped =>
      have found : splitQuoted ('"' :: body ++ ['"'] ++ " -> ".toList ++ after)
          = some ('"' :: body ++ ['"'], after) := by
        have closes : closingQuote false (body ++ ['"'] ++ " -> ".toList ++ after)
            = some (body ++ ['"'], " -> ".toList ++ after) := by
          rw [List.append_assoc, List.append_assoc]
          exact escaped.closingQuote
        simp only [List.cons_append, splitQuoted, closes]
        rfl
      rw [found]
      rfl

/-- How every path is written. -/
def Quotes (quoted : String → List Char) : Prop :=
  ∀ path, QuotedPath (quoted path)

/-- The part of a line after the status letters. -/
def StatusEntry.payload (quoted : String → List Char) (entry : StatusEntry) : List Char :=
  match entry.origPath with
  | none => quoted entry.path
  | some origPath => quoted origPath ++ " -> ".toList ++ quoted entry.path

theorem StatusEntry.line_eq
    : entry.line quoted = entry.statusX :: entry.statusY :: ' ' :: entry.payload quoted :=
  rfl

theorem StatusEntry.payload_ne_nil (quotes : Quotes quoted) : entry.payload quoted ≠ [] := by
  unfold payload
  cases entry.origPath with
  | none => exact (quotes entry.path).ne_nil
  | some origPath => simp

theorem StatusEntry.getLast_payload (quotes : Quotes quoted)
    : (entry.payload quoted).getLast? = (quoted entry.path).getLast? := by
  unfold payload
  cases entry.origPath with
  | none => rfl
  | some origPath =>
      rw [List.getLast?_append, Option.or_of_isSome]
      exact List.getLast?_isSome.mpr (quotes entry.path).ne_nil

theorem StatusEntry.getLast_line (quotes : Quotes quoted)
    : ∀ char ∈ (entry.line quoted).getLast?, isWhitespace char = false := by
  intro char last
  have letters : [entry.statusX, entry.statusY, ' '] ++ entry.payload quoted
      = entry.line quoted :=
    rfl
  rw [← letters, List.getLast?_append, entry.getLast_payload quotes, Option.or_of_isSome] at last
  · exact (quotes entry.path).getLast char last
  · exact List.getLast?_isSome.mpr (quotes entry.path).ne_nil

theorem StatusEntry.not_newline (quotes : Quotes quoted) (wellFormed : entry.WellFormed)
    : '\n' ∉ entry.line quoted := by
  have inside : '\n' ∉ entry.payload quoted := by
    unfold payload
    cases entry.origPath with
    | none => exact (quotes entry.path).not_newline
    | some origPath =>
        simp [(quotes entry.path).not_newline, (quotes origPath).not_newline]
  rw [line_eq]
  simp [inside, Ne.symm wellFormed.1, Ne.symm wellFormed.2.1]

/-- A line is read back as the paths of its entry. -/
theorem StatusEntry.parse_line (quotes : Quotes quoted) (wellFormed : entry.WellFormed)
    : parseGitStatusLine (.ofList (entry.line quoted))
      = entry.paths.map fun path => .ofList (quoted path) := by
  have kept : dropCarriageReturn (entry.line quoted) = entry.line quoted := by
    refine if_neg fun last => ?_
    exact absurd (entry.getLast_line quotes _ last) (by decide)
  obtain ⟨first, rest, payload⟩ := List.exists_cons_of_ne_nil (entry.payload_ne_nil quotes)
  unfold parseGitStatusLine
  rw [String.toList_ofList, kept, line_eq, payload]
  simp only
  rw [← payload]
  have letters := wellFormed.2.2
  cases renamed : entry.origPath with
  | none =>
      rw [renamed] at letters
      rw [← letters]
      simp [StatusEntry.payload, paths, renamed]
  | some origPath =>
      rw [renamed] at letters
      rw [← letters]
      simp only [StatusEntry.payload, renamed, (quotes origPath).split]
      simp [paths, renamed]

/-- The printed lines, by induction over the entries. -/
theorem flatMap_lines (nonempty : entries ≠ [])
    : entries.flatMap (fun entry => entry.line quoted ++ ['\n'])
      = ['\n'].intercalate (entries.map (·.line quoted)) ++ ['\n'] := by
  induction entries with
  | nil => exact absurd rfl nonempty
  | cons first rest ih =>
      cases rest with
      | nil => simp
      | cons second others =>
          rw [List.flatMap_cons, ih (List.cons_ne_nil _ _)]
          simp [List.intercalate_cons_cons]

theorem getLast_intercalate {lines : List (List Char)} (nonempty : lines ≠ [])
    (told : ∀ line ∈ lines, line ≠ [] ∧ ∀ char ∈ line.getLast?, isWhitespace char = false)
    : ∀ char ∈ (['\n'].intercalate lines).getLast?, isWhitespace char = false := by
  induction lines with
  | nil => exact absurd rfl nonempty
  | cons first rest ih =>
      cases rest with
      | nil => simpa using (told first List.mem_cons_self).2
      | cons second others =>
          have later := ih (List.cons_ne_nil _ _) fun line member =>
            told line (List.mem_cons_of_mem _ member)
          have some : (['\n'].intercalate (second :: others)).getLast?.isSome := by
            refine List.getLast?_isSome.mpr fun empty => ?_
            have within := (told second (by simp)).1
            cases others <;> simp [List.intercalate_cons_cons, within] at empty
          intro char last
          rw [List.intercalate_cons_cons, List.getLast?_append, Option.or_of_isSome some] at last
          exact later char last

/-- The lines of what git prints are those of the entries. -/
theorem statusLines_printedStatus (quotes : Quotes quoted)
    (wellFormed : ∀ entry ∈ entries, entry.WellFormed)
    : statusLines (printedStatus quoted entries)
      = entries.map fun entry => .ofList (entry.line quoted) := by
  by_cases nonempty : entries = []
  · subst nonempty
    have nothing : statusLines (trimEnd "") = [] := by decide
    exact nothing
  · have some : entries.map (·.line quoted) ≠ [] := by simpa using nonempty
    have told : ∀ line ∈ entries.map (·.line quoted),
        line ≠ [] ∧ ∀ char ∈ line.getLast?, isWhitespace char = false := by
      intro line member
      obtain ⟨entry, listed, rfl⟩ := List.mem_map.mp member
      exact ⟨List.cons_ne_nil _ _, entry.getLast_line quotes⟩
    have trimmed : (printedStatus quoted entries).toList
        = ['\n'].intercalate (entries.map (·.line quoted)) := by
      have space : isWhitespace '\n' = true := by decide
      rw [printedStatus, trimEnd, String.toList_ofList, String.toList_ofList,
        flatMap_lines nonempty, List.rdropWhile_concat_pos _ _ _ space,
        List.rdropWhile_eq_self_iff]
      intro ends
      rw [getLast_intercalate some told _ (List.getLast_mem_getLast? ends)]
      decide
    unfold statusLines
    rw [trimmed, List.splitOn_intercalate '\n' ?_ some, List.filter_eq_self.mpr ?_, List.map_map]
    · rfl
    · intro line member
      simpa using (told line member).1
    · intro line member
      obtain ⟨entry, listed, rfl⟩ := List.mem_map.mp member
      exact entry.not_newline quotes (wellFormed entry listed)

theorem mem_parseGitStatusPaths {decode : List Nat → String} {path : String}
    (quotes : Quotes quoted) (wellFormed : ∀ entry ∈ entries, entry.WellFormed)
    : path ∈ parseGitStatusPaths decode (printedStatus quoted entries)
      ↔ path ≠ "" ∧ ∃ entry ∈ entries, ∃ written ∈ entry.paths,
          unquoteGitPath decode (.ofList (quoted written)) = path := by
  have sorted : (sortTexts ((((statusLines (printedStatus quoted entries)).flatMap
      parseGitStatusLine).map (unquoteGitPath decode)).filter (· ≠ "")).eraseDups).Perm _ :=
    List.perm_insertionSort _ _
  unfold parseGitStatusPaths
  rw [sorted.mem_iff, List.mem_eraseDups, List.mem_filter,
    statusLines_printedStatus quotes wellFormed]
  simp only [List.mem_map, List.mem_flatMap, ne_eq, decide_not, Bool.not_eq_eq_eq_not,
    Bool.not_true, decide_eq_false_iff_not]
  constructor
  · rintro ⟨⟨line, ⟨_, ⟨entry, listed, rfl⟩, within⟩, rfl⟩, named⟩
    rw [entry.parse_line quotes (wellFormed entry listed)] at within
    obtain ⟨written, member, rfl⟩ := List.mem_map.mp within
    exact ⟨named, entry, listed, written, member, rfl⟩
  · rintro ⟨named, entry, listed, written, member, rfl⟩
    refine ⟨⟨_, ⟨_, ⟨entry, listed, rfl⟩, ?_⟩, rfl⟩, named⟩
    rw [entry.parse_line quotes (wellFormed entry listed)]
    exact List.mem_map_of_mem member

end Lines

/-- A path as it is, where it has only ordinary characters. -/
def quotedPlain (path : String) : List Char :=
  if path ≠ "" ∧ ∀ char ∈ path.toList, isWhitespace char = false ∧ char ≠ '"' then path.toList
  else ['"', '"']

theorem quotes_quotedPlain : Quotes quotedPlain := by
  intro path
  unfold quotedPlain
  split
  · rename_i ordinary
    refine .plain (fun empty => ordinary.1 ?_) ordinary.2
    simpa using empty
  · exact .quoted .nil

end AiSdlc.Application
