import Mathlib.Data.Set.Finite.Lemmas
import AiSdlc.Application.GitStatus
import AiSdlc.Application.UnifiedDiff
import AiSdlc.Js.Utf8

/-! How git quotes a path, and what the two functions that unquote it read. A decoder drops a byte
order mark at the start of what it is given, and the parser of diffs knows the escapes of quotes
and backslashes only.
-/

namespace AiSdlc.Application

open AiSdlc.Js

/-- The letter of the escape of a character that has one. -/
def escapeLetter (char : Char) : Option Char :=
  if char = '"' then some '"'
  else if char = '\\' then some '\\'
  else if char.toNat = 7 then some 'a'
  else if char.toNat = 8 then some 'b'
  else if char.toNat = 9 then some 't'
  else if char.toNat = 10 then some 'n'
  else if char.toNat = 11 then some 'v'
  else if char.toNat = 12 then some 'f'
  else if char.toNat = 13 then some 'r'
  else none

/-- A byte in three octal digits. -/
def octalEscape (byte : Nat) : List Char :=
  ['\\', Nat.digitChar (byte / 64), Nat.digitChar (byte / 8 % 8), Nat.digitChar (byte % 8)]

/-- A character whose bytes are escaped: another control character, or one beyond ASCII. -/
def isOctalEscaped (char : Char) : Bool :=
  escapeLetter char = none && (char.toNat < 0x20 || 0x7F ≤ char.toNat)

/-- A character of a quoted path. -/
def quoteChar (char : Char) : List Char :=
  match escapeLetter char with
  | some letter => ['\\', letter]
  | none => if isOctalEscaped char then (utf8Bytes char).flatMap octalEscape else [char]

/-- A path in the quotes of git. -/
def quoteGitPath (path : String) : List Char :=
  '"' :: path.toList.flatMap quoteChar ++ ['"']

example
    : String.ofList (quoteGitPath "caf\u00E9 \"1\"\t.ts")
      = "\"caf\\303\\251 \\\"1\\\"\\t.ts\"" := by
  decide

/-- A path as the status listing shows it: quoted where it has a space, or a character with an
escape.
-/
def printedPath (path : String) : List Char :=
  if path = "" ∨ ∃ char ∈ path.toList, char = ' ' ∨ quoteChar char ≠ [char] then
    quoteGitPath path
  else path.toList

/-- A byte order mark that follows no other escaped bytes. -/
def beginsMarked : (within : Bool) → List Char → Bool
  | _, [] => false
  | within, char :: rest =>
      !within && char = byteOrderMark || beginsMarked (isOctalEscaped char) rest

/-- No escaped bytes begin with a byte order mark. -/
def MarkFree (path : String) : Prop :=
  beginsMarked false path.toList = false

/-- A character that stands for itself between quotes, or has the escape of a quote or a
backslash.
-/
def SimplyQuoted (char : Char) : Prop :=
  quoteChar char = [char] ∨ char = '"' ∨ char = '\\'

section Characters

variable {char letter : Char} {byte : Nat} {rest : List Char}

theorem octalDigit_digitChar {value : Nat} (small : value < 8)
    : octalDigit (Nat.digitChar value) = some value := by
  have all : ∀ value < 8, octalDigit (Nat.digitChar value) = some value := by decide
  exact all value small

/-- An octal digit is no quote, no backslash and no line break. -/
theorem digitChar_ordinary {value : Nat} (small : value < 8)
    : Nat.digitChar value ≠ '"' ∧ Nat.digitChar value ≠ '\\' ∧ Nat.digitChar value ≠ '\n' := by
  have all : ∀ value < 8, Nat.digitChar value ≠ '"' ∧ Nat.digitChar value ≠ '\\'
      ∧ Nat.digitChar value ≠ '\n' := by
    decide
  exact all value small

theorem escapedChar_escapeLetter (escaped : escapeLetter char = some letter)
    : escapedChar letter = char ∧ octalDigit letter = none ∧ letter ≠ '\n' := by
  have named {value : Nat} (same : char.toNat = value) : char = Char.ofNat value := by
    rw [← same, Char.ofNat_toNat]
  unfold escapeLetter at escaped
  split_ifs at escaped with quote backslash bell backspace tab newline vertical form carriage <;>
    obtain rfl := Option.some.inj escaped
  · exact ⟨quote.symm, by decide, by decide⟩
  · exact ⟨backslash.symm, by decide, by decide⟩
  · exact ⟨(named bell).symm, by decide, by decide⟩
  · exact ⟨(named backspace).symm, by decide, by decide⟩
  · exact ⟨(named tab).symm, by decide, by decide⟩
  · exact ⟨(named newline).symm, by decide, by decide⟩
  · exact ⟨(named vertical).symm, by decide, by decide⟩
  · exact ⟨(named form).symm, by decide, by decide⟩
  · exact ⟨(named carriage).symm, by decide, by decide⟩

/-- Only quotes and backslashes are escaped by themselves. -/
theorem escapeLetter_ne (unlike : char ≠ '"' ∧ char ≠ '\\')
    (escaped : escapeLetter char = some letter)
    : letter ≠ '"' ∧ letter ≠ '\\' := by
  have stands := (escapedChar_escapeLetter escaped).1
  constructor
  · rintro rfl
    exact unlike.1 stands.symm
  · rintro rfl
    exact unlike.2 stands.symm

theorem quoteChar_escapeLetter (escaped : escapeLetter char = some letter)
    (unlike : char ≠ '"' ∧ char ≠ '\\')
    : quoteChar letter = [letter] := by
  unfold escapeLetter at escaped
  split_ifs at escaped with quote backslash
  · exact absurd quote unlike.1
  · exact absurd backslash unlike.2
  all_goals
    obtain rfl := Option.some.inj escaped
    decide

theorem escapeLetter_of_octal (octal : isOctalEscaped char = true) : escapeLetter char = none := by
  simp only [isOctalEscaped, Bool.and_eq_true, decide_eq_true_eq] at octal
  exact octal.1

theorem quoteChar_of_letter (escaped : escapeLetter char = some letter)
    : quoteChar char = ['\\', letter] := by
  rw [quoteChar, escaped]

theorem quoteChar_of_octal (octal : isOctalEscaped char = true)
    : quoteChar char = (utf8Bytes char).flatMap octalEscape := by
  rw [quoteChar, escapeLetter_of_octal octal]
  exact if_pos octal

theorem quoteChar_of_plain (unnamed : escapeLetter char = none)
    (plain : isOctalEscaped char = false)
    : quoteChar char = [char] := by
  rw [quoteChar, unnamed]
  exact if_neg (by simp [plain])

/-- The parts of a quoted path that a character is read from. -/
def charTokens (char : Char) : List PathToken :=
  if isOctalEscaped char then (utf8Bytes char).map .byte else [.char char]

/-- The escape of a byte is read as the byte. -/
theorem pathTokens_octalEscape (small : byte < 256)
    : pathTokens 0 (octalEscape byte ++ rest) = .byte byte :: pathTokens 0 rest := by
  have value : (byte / 64 * 8 + byte / 8 % 8) * 8 + byte % 8 = byte := by omega
  have read : escapedToken (Nat.digitChar (byte / 64) :: Nat.digitChar (byte / 8 % 8)
      :: Nat.digitChar (byte % 8) :: rest) = (.byte byte, 3) := by
    simp only [escapedToken, octalDigit_digitChar (show byte / 64 < 8 by omega),
      octalDigit_digitChar (show byte / 8 % 8 < 8 by omega),
      octalDigit_digitChar (show byte % 8 < 8 by omega), value]
  change pathTokens 0 ('\\' :: Nat.digitChar (byte / 64) :: Nat.digitChar (byte / 8 % 8)
    :: Nat.digitChar (byte % 8) :: rest) = _
  rw [pathTokens, read]
  rfl

/-- What a character is quoted as is read as its parts. -/
theorem pathTokens_quoteChar (char : Char) (rest : List Char)
    : pathTokens 0 (quoteChar char ++ rest) = charTokens char ++ pathTokens 0 rest := by
  by_cases octal : isOctalEscaped char = true
  · rw [quoteChar_of_octal octal, charTokens, if_pos octal]
    have bytes (several : List Nat) (small : ∀ byte ∈ several, byte < 256)
        : pathTokens 0 (several.flatMap octalEscape ++ rest)
          = several.map .byte ++ pathTokens 0 rest := by
      induction several with
      | nil => rfl
      | cons byte others ih =>
          have later := ih fun other member => small other (List.mem_cons_of_mem _ member)
          rw [List.flatMap_cons, List.append_assoc,
            pathTokens_octalEscape (small byte List.mem_cons_self), later]
          rfl
    exact bytes _ fun byte => lt_of_mem_utf8Bytes
  · rw [charTokens, if_neg octal]
    cases escaped : escapeLetter char with
    | none =>
        rw [quoteChar_of_plain escaped (by simpa using octal)]
        have apart : char ≠ '\\' := by
          rintro rfl
          exact nomatch escaped
        rw [List.singleton_append, List.singleton_append, pathTokens]
        exact fun same => absurd same apart
    | some letter =>
        obtain ⟨stands, letters, -⟩ := escapedChar_escapeLetter escaped
        rw [quoteChar_of_letter escaped, List.cons_append, List.singleton_append,
          List.singleton_append, pathTokens, escapedToken, letters]
        simp only [stands]
        rfl

end Characters

section Unquoted

variable {char : Char} {chars run rest : List Char} {path : String}

/-- The characters that are read, after a run of escaped ones: each run loses a byte order mark at
its start.
-/
def readChars (run : List Char) : List Char → List Char
  | [] => dropByteOrderMark run
  | char :: rest =>
      if isOctalEscaped char then readChars (run ++ [char]) rest
      else dropByteOrderMark run ++ char :: readChars [] rest

theorem decoded_run (run : List Char)
    : (if run.flatMap utf8Bytes = [] then [] else (utf8Decode (run.flatMap utf8Bytes)).toList)
      = dropByteOrderMark run := by
  split
  next empty =>
    cases run with
    | nil => rfl
    | cons first others =>
        rw [List.flatMap_cons, List.append_eq_nil_iff] at empty
        exact absurd empty.1 (utf8Bytes_ne_nil first)
  next => rw [utf8Decode_flatMap, String.toList_ofList]

/-- The tokens of the characters are decoded run by run, by induction over the characters. -/
theorem decodeTokens_flatMap (run chars : List Char)
    : decodeTokens utf8Decode (run.flatMap utf8Bytes) (chars.flatMap charTokens)
      = readChars run chars := by
  induction chars generalizing run with
  | nil => exact decoded_run run
  | cons char rest ih =>
      by_cases octal : isOctalEscaped char = true
      · have bytes (pending several : List Nat) (small : ∀ byte ∈ several, byte < 256)
            : decodeTokens utf8Decode pending (several.map .byte ++ rest.flatMap charTokens)
              = decodeTokens utf8Decode (pending ++ several) (rest.flatMap charTokens) := by
          induction several generalizing pending with
          | nil => simp
          | cons byte others later =>
              have within := small byte List.mem_cons_self
              rw [List.map_cons, List.cons_append, decodeTokens, Nat.mod_eq_of_lt within,
                later _ fun other member => small other (List.mem_cons_of_mem _ member),
                List.append_assoc, List.singleton_append]
        have both
            : run.flatMap utf8Bytes ++ utf8Bytes char = (run ++ [char]).flatMap utf8Bytes := by
          simp
        rw [List.flatMap_cons, charTokens, if_pos octal,
          bytes _ _ fun byte => lt_of_mem_utf8Bytes, both, ih, readChars, if_pos octal]
      · have next := ih []
        rw [List.flatMap_nil] at next
        rw [List.flatMap_cons, charTokens, if_neg octal, List.singleton_append, decodeTokens,
          decoded_run, next, readChars, if_neg octal]

theorem unquoteGitPath_quotes (decode : List Nat → String) (inner : List Char)
    : unquoteGitPath decode (.ofList ('"' :: inner ++ ['"']))
      = .ofList (decodeTokens decode [] (pathTokens 0 inner)) := by
  unfold unquoteGitPath
  rw [String.toList_ofList, List.cons_append]
  refine (if_pos List.getLast?_concat).trans ?_
  rw [List.dropLast_concat]

/-- What is read of a path. -/
def readPath (path : String) : String :=
  .ofList (readChars [] path.toList)

theorem unquoteGitPath_quoteGitPath (path : String)
    : unquoteGitPath utf8Decode (.ofList (quoteGitPath path)) = readPath path := by
  have tokens (chars : List Char)
      : pathTokens 0 (chars.flatMap quoteChar) = chars.flatMap charTokens := by
    induction chars with
    | nil => rfl
    | cons char rest ih => rw [List.flatMap_cons, pathTokens_quoteChar, ih, List.flatMap_cons]
  rw [quoteGitPath, unquoteGitPath_quotes, tokens]
  exact congrArg String.ofList (decodeTokens_flatMap [] path.toList)

theorem dropByteOrderMark_eq_or_shorter (run : List Char)
    : dropByteOrderMark run = run ∨ (dropByteOrderMark run).length < run.length := by
  cases run with
  | nil => exact .inl rfl
  | cons first others =>
      rw [dropByteOrderMark]
      split
      · exact .inr (Nat.lt_succ_self _)
      · exact .inl rfl

theorem dropByteOrderMark_length (run : List Char)
    : (dropByteOrderMark run).length ≤ run.length := by
  rcases dropByteOrderMark_eq_or_shorter run with same | shorter
  · rw [same]
  · exact shorter.le

theorem dropByteOrderMark_eq_self
    : dropByteOrderMark run = run ↔ run.head? ≠ some byteOrderMark := by
  cases run with
  | nil => simp [dropByteOrderMark]
  | cons first others =>
      rw [dropByteOrderMark]
      split
      next marked => simp [marked]
      next unmarked => simp [unmarked]

/-- The characters are read back or become fewer, by induction over them. -/
theorem readChars_eq_or_shorter (run chars : List Char)
    : readChars run chars = run ++ chars
      ∨ (readChars run chars).length < run.length + chars.length := by
  induction chars generalizing run with
  | nil =>
      rw [List.append_nil]
      exact dropByteOrderMark_eq_or_shorter run
  | cons char rest ih =>
      rw [readChars]
      split
      · rcases ih (run ++ [char]) with same | shorter
        · rw [same]
          simp
        · simp only [List.length_append, List.length_cons, List.length_nil] at shorter ⊢
          exact .inr (by omega)
      · have first := dropByteOrderMark_length run
        rcases ih [] with same | shorter
        · rw [same, List.nil_append]
          rcases dropByteOrderMark_eq_or_shorter run with kept | fewer
          · rw [kept]
            exact .inl rfl
          · simp only [List.length_append, List.length_cons]
            exact .inr (by omega)
        · simp only [List.length_append, List.length_cons, List.length_nil] at shorter ⊢
          exact .inr (by omega)

theorem readChars_length (run chars : List Char)
    : (readChars run chars).length ≤ run.length + chars.length := by
  rcases readChars_eq_or_shorter run chars with same | shorter
  · rw [same, List.length_append]
  · exact shorter.le

theorem isOctalEscaped_byteOrderMark : isOctalEscaped byteOrderMark = true := by
  decide

/-- The characters are read back just where no run begins with a byte order mark, by induction
over them.
-/
theorem readChars_eq_self (run chars : List Char)
    : readChars run chars = run ++ chars
      ↔ run.head? ≠ some byteOrderMark ∧ beginsMarked (!run.isEmpty) chars = false := by
  induction chars generalizing run with
  | nil =>
      rw [readChars, List.append_nil, dropByteOrderMark_eq_self]
      simp [beginsMarked]
  | cons char rest ih =>
      by_cases octal : isOctalEscaped char = true
      · have more : run ++ char :: rest = (run ++ [char]) ++ rest := by simp
        rw [readChars, if_pos octal, more, ih, beginsMarked, octal]
        cases run with
        | nil => simp
        | cons first others => simp
      · have unmarked : char ≠ byteOrderMark := by
          rintro rfl
          exact octal isOctalEscaped_byteOrderMark
        rw [readChars, if_neg octal, beginsMarked, eq_false_of_ne_true octal]
        have later := ih []
        simp only [List.head?_nil, List.isEmpty_nil, List.nil_append] at later
        simp only [unmarked, decide_false, Bool.and_false, Bool.false_or]
        rw [← dropByteOrderMark_eq_self]
        constructor
        · intro same
          have lengths := congrArg List.length same
          have first := dropByteOrderMark_length run
          have second := readChars_length [] rest
          simp only [List.length_append, List.length_cons, List.length_nil] at lengths second
          obtain ⟨here, there⟩ := List.append_inj same (by omega)
          exact ⟨here, (later.mp (List.cons.inj there).2).2⟩
        · rintro ⟨here, there⟩
          rw [here, later.mpr ⟨by simp, there⟩]

theorem readPath_eq_self : readPath path = path ↔ MarkFree path := by
  have same : readPath path = path ↔ readChars [] path.toList = [] ++ path.toList := by
    rw [List.nil_append, ← String.toList_inj, readPath, String.toList_ofList]
  rw [same, readChars_eq_self]
  simp [MarkFree]

theorem readPath_shorter (path : String) (changed : readPath path ≠ path)
    : (readPath path).toList.length < path.toList.length := by
  rcases readChars_eq_or_shorter [] path.toList with same | shorter
  · rw [readPath, same, List.nil_append, String.ofList_toList] at changed
    exact absurd rfl changed
  · rw [readPath, String.toList_ofList]
    simpa using shorter

theorem two_le_quoteChar (octal : isOctalEscaped char = true)
    : 2 ≤ (quoteChar char).length := by
  rw [quoteChar_of_octal octal]
  obtain ⟨byte, others, bytes⟩ := List.exists_cons_of_ne_nil (utf8Bytes_ne_nil char)
  rw [bytes, List.flatMap_cons]
  simp only [octalEscape, List.length_append, List.length_cons]
  omega

theorem readChars_of_unescaped (unescaped : ∀ char ∈ chars, isOctalEscaped char ≠ true)
    : readChars [] chars = chars := by
  induction chars with
  | nil => rfl
  | cons char rest ih =>
      rw [readChars, if_neg (unescaped char List.mem_cons_self),
        ih fun other member => unescaped other (List.mem_cons_of_mem _ member)]
      rfl

theorem not_octal_of_plain (plain : quoteChar char = [char]) : isOctalEscaped char ≠ true := by
  intro octal
  have long := two_le_quoteChar octal
  rw [plain] at long
  exact absurd long (Nat.not_succ_le_self 1)

end Unquoted

section Listing

variable {char : Char} {path found : String} {entries : List StatusEntry}

/-- What is between quotes has every quote and backslash escaped, by induction over the
characters.
-/
theorem escapedBody_flatMap (chars : List Char) : EscapedBody (chars.flatMap quoteChar) := by
  induction chars with
  | nil => exact .nil
  | cons char rest ih =>
      rw [List.flatMap_cons]
      by_cases octal : isOctalEscaped char = true
      · rw [quoteChar_of_octal octal]
        have bytes (several : List Nat) (small : ∀ byte ∈ several, byte < 256)
            : EscapedBody (several.flatMap octalEscape ++ rest.flatMap quoteChar) := by
          induction several with
          | nil => exact ih
          | cons byte others later =>
              have within := small byte List.mem_cons_self
              rw [List.flatMap_cons, List.append_assoc]
              refine .escape (digitChar_ordinary (by omega)).2.2
                (.plain (digitChar_ordinary (by omega)) (.plain (digitChar_ordinary (by omega)) ?_))
              exact later fun other member => small other (List.mem_cons_of_mem _ member)
        exact bytes _ fun byte => lt_of_mem_utf8Bytes
      · cases escaped : escapeLetter char with
        | some letter =>
            rw [quoteChar_of_letter escaped]
            exact .escape (escapedChar_escapeLetter escaped).2.2 ih
        | none =>
            rw [quoteChar_of_plain escaped (eq_false_of_ne_true octal)]
            refine .plain ⟨?_, ?_, ?_⟩ ih
            all_goals
              rintro rfl
              exact nomatch escaped

/-- A character that stands for itself is neither white space, besides a blank, nor a quote. -/
theorem ordinary_of_plain (plain : quoteChar char = [char]) (apart : char ≠ ' ')
    : isWhitespace char = false ∧ char ≠ '"' := by
  have unescaped := not_octal_of_plain plain
  cases escaped : escapeLetter char with
  | some letter =>
      rw [quoteChar_of_letter escaped] at plain
      exact absurd (List.cons.inj plain).2 (List.cons_ne_nil _ _)
  | none =>
      have printable : 0x20 ≤ char.toNat ∧ char.toNat < 0x7F := by
        simpa [isOctalEscaped, escaped] using unescaped
      have blank : char.toNat ≠ 0x20 := fun same => apart (Char.ext (UInt32.toNat_inj.mp same))
      refine ⟨?_, ?_⟩
      · simp only [isWhitespace, List.mem_cons, List.not_mem_nil, or_false, decide_eq_false_iff_not]
        omega
      · rintro rfl
        exact absurd escaped (by decide)

theorem quotes_printedPath : Quotes printedPath := by
  intro path
  unfold printedPath
  split
  next => exact .quoted (escapedBody_flatMap path.toList)
  next ordinary =>
    push Not at ordinary
    refine .plain ?_ fun char member => ?_
    · simpa using ordinary.1
    · exact ordinary_of_plain (ordinary.2 char member).2 (ordinary.2 char member).1

theorem unquoteGitPath_printedPath (path : String)
    : unquoteGitPath utf8Decode (.ofList (printedPath path)) = readPath path := by
  unfold printedPath
  split
  next => exact unquoteGitPath_quoteGitPath path
  next ordinary =>
    push Not at ordinary
    have unescaped (char : Char) (member : char ∈ path.toList) : isOctalEscaped char ≠ true :=
      not_octal_of_plain (ordinary.2 char member).2
    rw [readPath, readChars_of_unescaped unescaped, String.ofList_toList]
    unfold unquoteGitPath
    split
    next rest quote =>
      have first := (ordinary.2 '"' (quote ▸ List.mem_cons_self)).2
      exact absurd first (by decide)
    next => rfl

/-- Where a map of a list onto itself makes smaller whatever it changes, it changes nothing, since
it does not reach the greatest of what it changes.
-/
theorem fixed_of_shrinking {α : Type} (change : α → α) (measure : α → Nat)
    (shrinks : ∀ value, change value ≠ value → measure (change value) < measure value)
    {values : List α} (onto : ∀ value ∈ values, ∃ source ∈ values, change source = value)
    : ∀ value ∈ values, change value = value := by
  by_contra changed
  push Not at changed
  obtain ⟨some, listed, apart⟩ := changed
  have finite : {value | value ∈ values ∧ change value ≠ value}.Finite :=
    values.finite_toSet.subset fun value member => member.1
  obtain ⟨greatest, ⟨member, moved⟩, greater⟩ :=
    Set.exists_max_image _ measure finite ⟨some, listed, apart⟩
  obtain ⟨source, within, reached⟩ := onto greatest member
  have different : change source ≠ source := by
    intro same
    rw [same] at reached
    exact moved (reached ▸ same)
  have bound := greater source ⟨within, different⟩
  have smaller := shrinks source different
  rw [reached] at smaller
  exact absurd bound (Nat.not_le.mpr smaller)

/-- The listing is read back just where each of its paths is. -/
theorem parseGitStatusPaths_printedStatus (wellFormed : ∀ entry ∈ entries, entry.WellFormed)
    : (∀ found, found ∈ parseGitStatusPaths utf8Decode (printedStatus printedPath entries)
        ↔ ∃ entry ∈ entries, found ∈ entry.paths)
      ↔ ∀ entry ∈ entries, ∀ path ∈ entry.paths, path ≠ "" ∧ MarkFree path := by
  have listed (found : String)
      : found ∈ parseGitStatusPaths utf8Decode (printedStatus printedPath entries)
        ↔ found ≠ "" ∧ ∃ written ∈ entries.flatMap (·.paths), readPath written = found := by
    rw [mem_parseGitStatusPaths quotes_printedPath wellFormed]
    simp only [unquoteGitPath_printedPath, List.mem_flatMap]
    refine and_congr_right fun _ => ⟨?_, ?_⟩
    · rintro ⟨entry, within, written, member, read⟩
      exact ⟨written, ⟨entry, within, member⟩, read⟩
    · rintro ⟨written, ⟨entry, within, member⟩, read⟩
      exact ⟨entry, within, written, member, read⟩
  have named (found : String)
      : (∃ entry ∈ entries, found ∈ entry.paths) ↔ found ∈ entries.flatMap (·.paths) :=
    List.mem_flatMap.symm
  simp only [listed, named]
  constructor
  · intro same entry within path member
    have here : path ∈ entries.flatMap (·.paths) := List.mem_flatMap.mpr ⟨entry, within, member⟩
    have fixed := fixed_of_shrinking readPath (fun path => path.toList.length) readPath_shorter
      fun path there => ((same path).mpr there).2
    exact ⟨((same path).mpr here).1, readPath_eq_self.mp (fixed path here)⟩
  · intro free found
    have kept : ∀ path ∈ entries.flatMap (·.paths), path ≠ "" ∧ readPath path = path := by
      intro path member
      obtain ⟨entry, within, there⟩ := List.mem_flatMap.mp member
      have both := free entry within path there
      exact ⟨both.1, readPath_eq_self.mpr both.2⟩
    constructor
    · rintro ⟨-, written, member, rfl⟩
      rw [(kept written member).2]
      exact member
    · intro member
      exact ⟨(kept found member).1, found, member, (kept found member).2⟩

end Listing

section Unescaped

variable {char first second replacement : Char} {rest piece : List Char} {path : String}

theorem replacePair_pair
    : replacePair first second replacement (first :: second :: rest)
      = replacement :: replacePair first second replacement rest := by
  rw [replacePair, if_pos ⟨rfl, rfl⟩]

/-- A character that begins no pair is kept. -/
theorem replacePair_cons (apart : char = first → rest.head? ≠ some second)
    : replacePair first second replacement (char :: rest)
      = char :: replacePair first second replacement rest := by
  cases rest with
  | nil => rfl
  | cons next others =>
      rw [replacePair, if_neg]
      rintro ⟨same, pair⟩
      exact apart same (congrArg some pair)

theorem replacePair_escape (apart : char ≠ second) (letter : char ≠ '\\')
    : replacePair '\\' second replacement ('\\' :: char :: rest)
      = '\\' :: char :: replacePair '\\' second replacement rest := by
  rw [replacePair_cons, replacePair_cons]
  · exact fun same => absurd same letter
  · intro _ same
    exact apart (Option.some.inj same)

/-- The escape of another character is kept. -/
theorem replacePair_quoteChar (unlike : char ≠ '"' ∧ char ≠ '\\')
    (pair : second = '"' ∨ second = '\\')
    : replacePair '\\' second replacement (quoteChar char ++ rest)
      = quoteChar char ++ replacePair '\\' second replacement rest := by
  by_cases octal : isOctalEscaped char = true
  · rw [quoteChar_of_octal octal]
    have bytes (several : List Nat) (small : ∀ byte ∈ several, byte < 256)
        : replacePair '\\' second replacement (several.flatMap octalEscape ++ rest)
          = several.flatMap octalEscape ++ replacePair '\\' second replacement rest := by
      induction several with
      | nil => rfl
      | cons byte others ih =>
          have within := small byte List.mem_cons_self
          have later := ih fun other member => small other (List.mem_cons_of_mem _ member)
          have high := digitChar_ordinary (show byte / 64 < 8 by omega)
          have middle := digitChar_ordinary (show byte / 8 % 8 < 8 by omega)
          have low := digitChar_ordinary (show byte % 8 < 8 by omega)
          have apart : Nat.digitChar (byte / 64) ≠ second := by
            rcases pair with rfl | rfl
            · exact high.1
            · exact high.2.1
          rw [List.flatMap_cons, List.append_assoc, List.append_assoc, ← later]
          simp only [octalEscape, List.cons_append, List.nil_append]
          rw [replacePair_escape apart high.2.1,
            replacePair_cons fun same => absurd same middle.2.1,
            replacePair_cons fun same => absurd same low.2.1]
    exact bytes _ fun byte => lt_of_mem_utf8Bytes
  · cases escaped : escapeLetter char with
    | none =>
        rw [quoteChar_of_plain escaped (eq_false_of_ne_true octal)]
        exact replacePair_cons fun same => absurd same unlike.2
    | some letter =>
        rw [quoteChar_of_letter escaped]
        have apart := escapeLetter_ne unlike escaped
        refine replacePair_escape ?_ apart.2
        rcases pair with rfl | rfl
        · exact apart.1
        · exact apart.2

/-- A character as the parser of diffs reads it. -/
def unescapedChar (char : Char) : List Char :=
  if char = '"' ∨ char = '\\' then [char] else quoteChar char

theorem quoteChar_quote : quoteChar '"' = ['\\', '"'] := by
  decide

theorem quoteChar_backslash : quoteChar '\\' = ['\\', '\\'] := by
  decide

/-- What is between quotes does not begin with one. -/
theorem head_flatMap_quoteChar (chars : List Char)
    : (chars.flatMap quoteChar).head? ≠ some '"' := by
  cases chars with
  | nil => exact nofun
  | cons char rest =>
      rw [List.flatMap_cons]
      by_cases octal : isOctalEscaped char = true
      · obtain ⟨byte, others, bytes⟩ := List.exists_cons_of_ne_nil (utf8Bytes_ne_nil char)
        rw [quoteChar_of_octal octal, bytes]
        intro quote
        exact absurd (Option.some.inj quote) (by decide)
      · cases escaped : escapeLetter char with
        | some letter =>
            rw [quoteChar_of_letter escaped]
            intro quote
            exact absurd (Option.some.inj quote) (by decide)
        | none =>
            rw [quoteChar_of_plain escaped (eq_false_of_ne_true octal)]
            intro quote
            obtain rfl := Option.some.inj quote
            exact nomatch escaped

/-- Both replacements undo the escapes of quotes and backslashes, and these only. -/
theorem unescapePath_flatMap (chars : List Char)
    : unescapePath (chars.flatMap quoteChar) = chars.flatMap unescapedChar := by
  let withQuotes (char : Char) : List Char := if char = '"' then [char] else quoteChar char
  have quotes : replacePair '\\' '"' '"' (chars.flatMap quoteChar) = chars.flatMap withQuotes := by
    induction chars with
    | nil => rfl
    | cons char rest ih =>
        rw [List.flatMap_cons, List.flatMap_cons, ← ih]
        by_cases quote : char = '"'
        · subst quote
          rw [quoteChar_quote]
          exact replacePair_pair
        by_cases backslash : char = '\\'
        · subst backslash
          have next := head_flatMap_quoteChar rest
          simp only [withQuotes, if_neg quote, quoteChar_backslash, List.cons_append,
            List.nil_append]
          rw [replacePair_cons, replacePair_cons fun _ => next]
          exact fun _ same => absurd (Option.some.inj same) quote
        · simp only [withQuotes, if_neg quote]
          exact replacePair_quoteChar ⟨quote, backslash⟩ (.inl rfl)
  rw [unescapePath, quotes]
  clear quotes
  induction chars with
  | nil => rfl
  | cons char rest ih =>
      rw [List.flatMap_cons, List.flatMap_cons, ← ih]
      by_cases quote : char = '"'
      · subst quote
        exact replacePair_cons fun same => absurd same (by decide)
      by_cases backslash : char = '\\'
      · subst backslash
        simp only [withQuotes, if_neg quote, quoteChar_backslash]
        exact replacePair_pair
      · simp only [withQuotes, if_neg quote, unescapedChar, quote, backslash, or_self, if_false]
        exact replacePair_quoteChar ⟨quote, backslash⟩ (.inr rfl)

theorem unquotePath_quotes (inner : List Char)
    : unquotePath (.ofList ('"' :: inner ++ ['"'])) = .ofList (unescapePath inner) := by
  unfold unquotePath
  rw [String.toList_ofList, List.cons_append]
  split
  next single => simp at single
  next rest same =>
    obtain rfl := (List.cons.inj same).2
    rw [if_pos List.getLast?_concat, List.dropLast_concat]
  next other => exact absurd rfl (other _)

/-- A character is read as itself where it is simply quoted, and else as several. -/
theorem unescapedChar_cases (char : Char)
    : unescapedChar char = [char] ∧ SimplyQuoted char
      ∨ 2 ≤ (unescapedChar char).length ∧ ¬ SimplyQuoted char := by
  by_cases escape : char = '"' ∨ char = '\\'
  · exact .inl ⟨if_pos escape, .inr escape⟩
  · rw [unescapedChar, if_neg escape]
    by_cases plain : quoteChar char = [char]
    · exact .inl ⟨plain, .inl plain⟩
    · refine .inr ⟨?_, fun simply => simply.elim plain escape⟩
      by_cases octal : isOctalEscaped char = true
      · exact two_le_quoteChar octal
      · cases escaped : escapeLetter char with
        | some letter =>
            rw [quoteChar_of_letter escaped]
            exact le_rfl
        | none => exact absurd (quoteChar_of_plain escaped (eq_false_of_ne_true octal)) plain

/-- What is read is longer, once a character is not simply quoted, by induction over the path. -/
theorem unescaped_length (chars : List Char)
    : (∀ char ∈ chars, SimplyQuoted char) ∧ chars.flatMap unescapedChar = chars
      ∨ (¬ ∀ char ∈ chars, SimplyQuoted char)
        ∧ chars.length < (chars.flatMap unescapedChar).length := by
  induction chars with
  | nil => exact .inl ⟨nofun, rfl⟩
  | cons char rest ih =>
      have length : (unescapedChar char ++ rest.flatMap unescapedChar).length
          = (unescapedChar char).length + (rest.flatMap unescapedChar).length :=
        List.length_append
      rw [List.flatMap_cons, List.forall_mem_cons, List.length_cons, length]
      rcases unescapedChar_cases char with ⟨here, simply⟩ | ⟨long, escaped⟩
      · rw [here]
        rcases ih with ⟨all, there⟩ | ⟨other, longer⟩
        · rw [there]
          exact .inl ⟨⟨simply, all⟩, rfl⟩
        · refine .inr ⟨fun both => other both.2, ?_⟩
          rw [List.length_singleton]
          omega
      · refine .inr ⟨fun both => escaped both.1, ?_⟩
        rcases ih with ⟨-, there⟩ | ⟨-, longer⟩
        · rw [there]
          omega
        · omega

theorem SimplyQuoted.not_octal (simply : SimplyQuoted char) : isOctalEscaped char ≠ true := by
  intro octal
  rcases simply with plain | rfl | rfl
  · exact not_octal_of_plain plain octal
  · exact absurd octal (by decide)
  · exact absurd octal (by decide)

theorem unquotePath_eq_unquoteGitPath
    : unquotePath (.ofList (quoteGitPath path))
        = unquoteGitPath utf8Decode (.ofList (quoteGitPath path))
      ↔ ∀ char ∈ path.toList, SimplyQuoted char := by
  rw [unquoteGitPath_quoteGitPath, quoteGitPath, unquotePath_quotes, unescapePath_flatMap, readPath,
    String.ofList_inj]
  have fewer := readChars_length [] path.toList
  rw [List.length_nil, Nat.zero_add] at fewer
  rcases unescaped_length path.toList with ⟨all, same⟩ | ⟨other, longer⟩
  · rw [same, readChars_of_unescaped fun char member => (all char member).not_octal]
    exact iff_of_true rfl all
  · refine iff_of_false (fun same => ?_) other
    rw [same] at longer
    omega

end Unescaped

/-- A quoted path is read back just where it is free of marks, a listing just where all of its
paths are, and the parser of diffs agrees just where every character is simply quoted.
-/
theorem paths_read_back_iff (path : String) (entries : List StatusEntry)
    (wellFormed : ∀ entry ∈ entries, entry.WellFormed)
    : (unquoteGitPath utf8Decode (.ofList (quoteGitPath path)) = path ↔ MarkFree path)
      ∧ ((∀ found, found ∈ parseGitStatusPaths utf8Decode (printedStatus printedPath entries)
            ↔ ∃ entry ∈ entries, found ∈ entry.paths)
          ↔ ∀ entry ∈ entries, ∀ path ∈ entry.paths, path ≠ "" ∧ MarkFree path)
      ∧ (unquotePath (.ofList (quoteGitPath path))
            = unquoteGitPath utf8Decode (.ofList (quoteGitPath path))
          ↔ ∀ char ∈ path.toList, SimplyQuoted char) := by
  refine ⟨?_, parseGitStatusPaths_printedStatus wellFormed, unquotePath_eq_unquoteGitPath⟩
  rw [unquoteGitPath_quoteGitPath]
  exact readPath_eq_self

def renamedEntry : StatusEntry where
  statusX := 'R'
  statusY := ' '
  path := "src/café.ts"
  origPath := some "src/old -> name.ts"

theorem paths_read_back_renamed
    : (∀ found, found ∈ parseGitStatusPaths utf8Decode (printedStatus printedPath [renamedEntry])
        ↔ ∃ entry ∈ [renamedEntry], found ∈ entry.paths)
      ∧ unquotePath (.ofList (quoteGitPath "src/old -> name.ts"))
        = unquoteGitPath utf8Decode (.ofList (quoteGitPath "src/old -> name.ts")) := by
  have wellFormed : ∀ entry ∈ [renamedEntry], entry.WellFormed := by
    intro entry member
    obtain rfl := List.mem_singleton.mp member
    exact ⟨by decide, by decide, by decide⟩
  have read := paths_read_back_iff "src/old -> name.ts" [renamedEntry] wellFormed
  refine ⟨read.2.1.mpr ?_, read.2.2.mpr ?_⟩
  · intro entry member path named
    obtain rfl := List.mem_singleton.mp member
    simp only [StatusEntry.paths, renamedEntry, Option.toList_some, List.singleton_append,
      List.mem_cons, List.not_mem_nil, or_false] at named
    rcases named with rfl | rfl
    · exact ⟨by decide, by unfold MarkFree; decide⟩
    · exact ⟨by decide, by unfold MarkFree; decide⟩
  · unfold SimplyQuoted
    decide

/-- A mark at the start of a name is lost, and the parser of diffs keeps octal digits. -/
theorem accented_path_read_differently
    : unquoteGitPath utf8Decode (.ofList (quoteGitPath "\uFEFFnotes.md")) = "notes.md"
      ∧ unquoteGitPath utf8Decode (.ofList (quoteGitPath "café.ts")) = "café.ts"
      ∧ unquotePath (.ofList (quoteGitPath "café.ts")) = "caf\\303\\251.ts" := by
  decide

end AiSdlc.Application
