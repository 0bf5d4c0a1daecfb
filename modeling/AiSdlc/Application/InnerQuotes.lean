import AiSdlc.Domain.PrReviewComment
import AiSdlc.Js.JsonParse

/-! The escaping of quotation marks within the strings of agent-written JSON, where what follows
a mark tells whether it closes its string.
-/

namespace AiSdlc.Application

open AiSdlc.Domain (isWordCharacter)
open AiSdlc.Js
open AiSdlc.Js.Json

-----------------------------------------------------------------------------------------
-- The look-ahead
-----------------------------------------------------------------------------------------

/-- The characters that `.` of a regular expression does not match. -/
def isLineTerminator (ch : Char) : Bool :=
  ch.toNat ∈ [0xA, 0xD, 0x2028, 0x2029]

/-- The rest behind `(?:\\.|[^"\\])*"`. -/
def skipQuoted : List Char → Option (List Char)
  | [] => none
  | '"' :: rest => some rest
  | '\\' :: ch :: rest => if isLineTerminator ch then none else skipQuoted rest
  | ch :: rest => if ch = '\\' then none else skipQuoted rest

/-- `/\s*"(?:\\.|[^"\\])*"\s*:/y`. -/
def keyContinuation (chars : List Char) : Bool :=
  match chars.dropWhile isWhitespace with
  | '"' :: rest =>
      match skipQuoted rest with
      | some rest => (rest.dropWhile isWhitespace).head? = some ':'
      | none => false
  | _ => false

/-- `\b` behind a word. -/
def wordEnds (rest : List Char) : Bool :=
  !rest.head?.any isWordCharacter

/-- `/\s*(?:"|-?\d|true\b|false\b|null\b|\{|\[)/y`. -/
def valueContinuation (chars : List Char) : Bool :=
  match chars.dropWhile isWhitespace with
  | '"' :: _ => true
  | '-' :: rest => rest.head?.any Char.isDigit
  | 't' :: 'r' :: 'u' :: 'e' :: rest => wordEnds rest
  | 'f' :: 'a' :: 'l' :: 's' :: 'e' :: rest => wordEnds rest
  | 'n' :: 'u' :: 'l' :: 'l' :: rest => wordEnds rest
  | '{' :: _ => true
  | '[' :: _ => true
  | ch :: _ => ch.isDigit
  | [] => false

-----------------------------------------------------------------------------------------
-- The scanner
-----------------------------------------------------------------------------------------

/-- An element of `containerStack`. -/
inductive Container
  | object
  | array
  deriving DecidableEq, Repr

namespace Container

def closing : Container → Char
  | object => '}'
  | array => ']'

/-- What must match behind a comma in the container. -/
def continuation : Container → List Char → Bool
  | object => keyContinuation
  | array => valueContinuation

end Container

/-- The variables of the loop; the innermost container is the first. -/
structure QuoteScan where
  inString : Bool := false
  isKey : Bool := false
  expectingKey : Bool := false
  containerStack : List Container := []

namespace QuoteScan

/-- What a character outside of strings changes. -/
def token (scan : QuoteScan) (ch : Char) : QuoteScan :=
  let within := scan.containerStack.head? = some .object
  if ch = '{' then
    { scan with containerStack := .object :: scan.containerStack, expectingKey := true }
  else if ch = '}' then
    { scan with containerStack := scan.containerStack.tail, expectingKey := false }
  else if ch = '[' then
    { scan with containerStack := .array :: scan.containerStack, expectingKey := false }
  else if ch = ']' then
    { scan with containerStack := scan.containerStack.tail, expectingKey := false }
  else if ch = ':' then { scan with expectingKey := scan.expectingKey && !within }
  else if ch = ',' then { scan with expectingKey := scan.expectingKey || within }
  else if ch = '"' then { scan with inString := true, isKey := within && scan.expectingKey }
  else scan

/-- Whether a delimiter behind a string closes its container, by what is behind the delimiter. -/
def closesContainer (scan : QuoteScan) (nextChar : Char) (after : List Char) : Bool :=
  match scan.containerStack with
  | [] => false
  | currentContainer :: outer =>
      -- Otherwise the quotation mark quotes the delimiter.
      if nextChar ≠ currentContainer.closing then false
      else
        match skipSpace after with
        | [] => outer.isEmpty
        | afterClose :: behind =>
            if afterClose ≠ ',' && afterClose ≠ '}' && afterClose ≠ ']' then false
            else
              match outer with
              | [] => false
              | parentContainer :: _ =>
                  if afterClose = ',' then parentContainer.continuation (skipSpace behind)
                  else true

/-- Whether a quotation mark in a string closes it, by what is behind it. -/
def closes (scan : QuoteScan) (behind : List Char) : Bool :=
  match skipSpace behind with
  | [] => true
  | nextChar :: after =>
      if scan.isKey then nextChar = ':'
      else if nextChar = '}' || nextChar = ']' then scan.closesContainer nextChar after
      else if nextChar = ',' then
        match scan.containerStack with
        | currentContainer :: _ => currentContainer.continuation (skipSpace after)
        | [] => keyContinuation (skipSpace after) || valueContinuation (skipSpace after)
      else false

/-- The scanner behind a closing quotation mark; opening a string sets `isKey` anew. -/
def close (scan : QuoteScan) : QuoteScan :=
  { scan with inString := false, isKey := false }

end QuoteScan

/-- The characters that stand behind a backslash in a valid escape of two characters. -/
def simpleEscapes : List Char :=
  ['"', '\\', '/', 'b', 'f', 'n', 'r', 't']

/-- The loop over the characters. -/
def escapeQuotes (scan : QuoteScan) : List Char → List Char
  | [] => []
  | ch :: rest =>
      if !scan.inString then ch :: escapeQuotes (scan.token ch) rest
      else if ch = '\\' then
        match rest with
        | [] => ['\\', '\\']
        | 'u' :: first :: second :: third :: fourth :: more =>
            if [first, second, third, fourth].all fun digit => (hexDigit? digit).isSome then
              '\\' :: 'u' :: first :: second :: third :: fourth :: escapeQuotes scan more
            else
              '\\' :: '\\' :: escapeQuotes scan ('u' :: first :: second :: third :: fourth :: more)
        | next :: more =>
            if next ∈ simpleEscapes then '\\' :: next :: escapeQuotes scan more
            else '\\' :: '\\' :: escapeQuotes scan (next :: more)
      else if ch = '"' then
        if scan.closes rest then ch :: escapeQuotes scan.close rest
        else '\\' :: '"' :: escapeQuotes scan rest
      else ch :: escapeQuotes scan rest

def sanitizeJsonUnescapedInnerQuotes (raw : String) : String :=
  .ofList (escapeQuotes {} raw.toList)

/-- Tests of the source. -/
example
    : sanitizeJsonUnescapedInnerQuotes "[\"reads \"x\".y here\"]" = "[\"reads \\\"x\\\".y here\"]"
      ∧ sanitizeJsonUnescapedInnerQuotes "[\"a\", \"C:\\x\"]" = "[\"a\", \"C:\\\\x\"]" := by
  decide +kernel

-----------------------------------------------------------------------------------------
-- What is copied
-----------------------------------------------------------------------------------------

/-- The scanner outside of strings. -/
abbrev outside (expectingKey : Bool) (containerStack : List Container) : QuoteScan :=
  { expectingKey, containerStack }

/-- The scanner in a string. -/
abbrev within (isKey expectingKey : Bool) (containerStack : List Container) : QuoteScan :=
  { inString := true, isKey, expectingKey, containerStack }

/-- From one place of the text to another, all is copied as it is. -/
def MarksKept (scan : QuoteScan) (chars : List Char) (scan' : QuoteScan) (rest : List Char)
    : Prop :=
  ∃ front, chars = front ++ rest ∧ escapeQuotes scan chars = front ++ escapeQuotes scan' rest

section MarksKept

variable {scan scan' scan'' : QuoteScan} {chars middle rest : List Char}
  {expectingKey : Bool} {containerStack : List Container}

theorem marks_refl (scan : QuoteScan) (chars : List Char) : MarksKept scan chars scan chars :=
  ⟨[], rfl, rfl⟩

theorem MarksKept.trans (first : MarksKept scan chars scan' middle)
    (second : MarksKept scan' middle scan'' rest)
    : MarksKept scan chars scan'' rest := by
  obtain ⟨front, rfl, copied⟩ := first
  obtain ⟨back, rfl, copied'⟩ := second
  refine ⟨front ++ back, (List.append_assoc ..).symm, ?_⟩
  rw [copied, copied', List.append_assoc]

theorem marks_token (ch : Char) (rest : List Char)
    : MarksKept (outside expectingKey containerStack) (ch :: rest)
        ((outside expectingKey containerStack).token ch) rest := by
  refine ⟨[ch], rfl, ?_⟩
  rw [escapeQuotes.eq_def]
  exact if_pos rfl

/-- The characters that change nothing outside of strings. -/
def Inert (ch : Char) : Prop :=
  ch ∉ ['{', '}', '[', ']', ':', ',', '"']
  deriving Decidable

theorem token_of_inert {ch : Char} (inert : Inert ch) : scan.token ch = scan := by
  simp only [Inert, List.mem_cons, List.not_mem_nil, or_false, not_or] at inert
  obtain ⟨brace, brace', bracket, bracket', colon, comma, quote⟩ := inert
  simp [QuoteScan.token, brace, brace', bracket, bracket', colon, comma, quote]

/-- Inert characters are copied, by induction over them. -/
theorem marks_inert {front : List Char} (inert : ∀ ch ∈ front, Inert ch) (rest : List Char)
    : MarksKept (outside expectingKey containerStack) (front ++ rest)
        (outside expectingKey containerStack) rest := by
  induction front with
  | nil => exact marks_refl _ rest
  | cons ch front ih =>
      have first : MarksKept (outside expectingKey containerStack) (ch :: (front ++ rest))
          (outside expectingKey containerStack) (front ++ rest) := by
        simpa only [token_of_inert (inert ch (by simp))] using marks_token ch (front ++ rest)
      exact first.trans (ih fun ch member => inert ch (by simp [member]))

theorem marks_skipSpace (chars : List Char)
    : MarksKept (outside expectingKey containerStack) chars
        (outside expectingKey containerStack) (skipSpace chars) := by
  have inert : ∀ ch ∈ chars.takeWhile isSpace, Inert ch := by
    intro ch member
    have spaced : ch ∈ [' ', '\t', '\n', '\r'] := by
      simpa [isSpace] using List.mem_takeWhile_imp member
    have none : ∀ ch ∈ [' ', '\t', '\n', '\r'], ch ∉ ['{', '}', '[', ']', ':', ',', '"'] := by
      decide
    exact none ch spaced
  simpa only [skipSpace, List.takeWhile_append_dropWhile] using marks_inert inert (skipSpace chars)

theorem marks_readNumber {literal : List Char} (read : Json.readNumber chars = some (literal, rest))
    : MarksKept (outside expectingKey containerStack) chars
        (outside expectingKey containerStack) rest := by
  obtain ⟨rfl, numeric⟩ := readsLiteral_number read
  refine marks_inert (fun ch member => ?_) rest
  rcases numeric ch member with digit | mark
  · intro structural
    have none : ∀ ch ∈ ['{', '}', '[', ']', ':', ',', '"'], ch.isDigit = false := by decide
    exact Bool.false_ne_true ((none ch structural).symm.trans digit)
  · have inert : ∀ ch ∈ ['-', '+', '.', 'e', 'E'], ch ∉ ['{', '}', '[', ']', ':', ',', '"'] := by
      decide
    exact inert ch mark

theorem marks_next {ch : Char} (token : skipSpace chars = ch :: rest)
    : MarksKept (outside expectingKey containerStack) chars
        ((outside expectingKey containerStack).token ch) rest :=
  (token ▸ marks_skipSpace chars).trans (marks_token ch rest)

-----------------------------------------------------------------------------------------
-- Strings
-----------------------------------------------------------------------------------------

variable {isKey : Bool} {units : CodeUnits}

theorem mem_simpleEscapes {ch : Char} {unit : Nat} (names : escapeUnit? ch = some unit)
    : ch ∈ simpleEscapes := by
  unfold escapeUnit? at names
  split at names
  all_goals first | decide | exact nomatch names

/-- A string is copied where its quotation mark closes it, by induction over it. -/
theorem marks_inside (read : readString chars = some (units, rest))
    (closes : (within isKey expectingKey containerStack).closes rest = true)
    : MarksKept (within isKey expectingKey containerStack) chars
        (outside expectingKey containerStack) rest := by
  fun_induction readString chars generalizing units rest with
  | case1 => cases read
  | case2 behind =>
      cases read
      refine ⟨['"'], rfl, ?_⟩
      rw [escapeQuotes.eq_def]
      simp only [Bool.not_true, Bool.false_eq_true, if_false, closes, if_true]
      rfl
  | case3 first second third fourth behind ih =>
      obtain ⟨unit, names, reads⟩ := Option.bind_eq_some_iff.mp read
      obtain ⟨⟨others, left⟩, reads, same⟩ := Option.bind_eq_some_iff.mp reads
      cases same
      have escape : MarksKept (within isKey expectingKey containerStack)
          ('\\' :: 'u' :: first :: second :: third :: fourth :: behind)
          (within isKey expectingKey containerStack) behind := by
        refine ⟨['\\', 'u', first, second, third, fourth], rfl, ?_⟩
        rw [escapeQuotes.eq_def]
        simp only [Bool.not_true, Bool.false_eq_true, if_false, if_true]
        exact if_pos (List.all_eq_true.mpr (hexDigit_of_hexUnit names))
      exact escape.trans (ih reads closes)
  | case4 char behind notUnicode ih =>
      obtain ⟨unit, names, reads⟩ := Option.bind_eq_some_iff.mp read
      obtain ⟨⟨others, left⟩, reads, same⟩ := Option.bind_eq_some_iff.mp reads
      cases same
      have simple := mem_simpleEscapes names
      have escape : MarksKept (within isKey expectingKey containerStack) ('\\' :: char :: behind)
          (within isKey expectingKey containerStack) behind := by
        refine ⟨['\\', char], rfl, ?_⟩
        rw [escapeQuotes.eq_def]
        simp only [Bool.not_true, Bool.false_eq_true, if_false, if_true]
        split
        next => rfl
        next other => exact absurd simple other
      exact escape.trans (ih reads closes)
  | case5 => cases read
  | case6 char behind notQuote _ _ valid ih =>
      obtain ⟨⟨others, left⟩, reads, same⟩ := Option.bind_eq_some_iff.mp read
      cases same
      simp only [Bool.or_eq_true, decide_eq_true_eq, not_or] at valid
      have copied : MarksKept (within isKey expectingKey containerStack) (char :: behind)
          (within isKey expectingKey containerStack) behind := by
        refine ⟨[char], rfl, ?_⟩
        rw [escapeQuotes.eq_def]
        simp only [Bool.not_true, Bool.false_eq_true, if_false, valid.1]
        exact if_neg notQuote
      exact copied.trans (ih reads closes)

-----------------------------------------------------------------------------------------
-- What stands behind a value
-----------------------------------------------------------------------------------------

/-- What stands behind a value in the containers: nothing, a comma and what may follow it in the
innermost one, or the end of that and what stands behind it.
-/
def Behind : List Container → List Char → Prop
  | [], rest => skipSpace rest = []
  | container :: outer, rest =>
      (∃ more, skipSpace rest = ',' :: more ∧ container.continuation (skipSpace more) = true)
      ∨ ∃ more, skipSpace rest = container.closing :: more ∧ Behind outer more

/-- In front of the end of a container, a quotation mark closes its string. -/
theorem closesContainer_of_behind {container : Container} {outer : List Container}
    (behind : Behind outer rest)
    : (within false expectingKey (container :: outer)).closesContainer container.closing rest
      = true := by
  simp only [QuoteScan.closesContainer, ne_eq, not_true_eq_false, if_false]
  cases outer with
  | nil =>
      have ends : skipSpace rest = [] := behind
      rw [ends]
      rfl
  | cons parent others =>
      rcases behind with ⟨more, token, continues⟩ | ⟨more, token, -⟩
      · rw [token]
        simpa using continues
      · rw [token]
        cases parent <;> simp [Container.closing]

/-- In front of what stands behind a value, a quotation mark closes its string. -/
theorem closes_of_behind (behind : Behind containerStack rest)
    : (within false expectingKey containerStack).closes rest = true := by
  cases containerStack with
  | nil =>
      have ends : skipSpace rest = [] := behind
      simp [QuoteScan.closes, ends]
  | cons container outer =>
      rcases behind with ⟨more, token, continues⟩ | ⟨more, token, later⟩
      · simpa [QuoteScan.closes, token] using continues
      · have closing : container.closing = '}' ∨ container.closing = ']' := by
          cases container
          · exact .inl rfl
          · exact .inr rfl
        have closed := @closesContainer_of_behind _ expectingKey container outer later
        simpa [QuoteScan.closes, token, closing] using closed

theorem closes_key {more : List Char} (colon : skipSpace rest = ':' :: more)
    : (within true expectingKey containerStack).closes rest = true := by
  simp [QuoteScan.closes, colon]

-----------------------------------------------------------------------------------------
-- What may follow a comma
-----------------------------------------------------------------------------------------

theorem dropWhile_isWhitespace {ch : Char} (other : isWhitespace ch = false)
    : (ch :: rest).dropWhile isWhitespace = ch :: rest :=
  List.dropWhile_cons_of_neg (by simp [other])

/-- A token is found behind white space of any kind, by induction over the text. -/
theorem dropWhile_of_skipSpace {ch : Char} (token : skipSpace chars = ch :: rest)
    (other : isWhitespace ch = false)
    : chars.dropWhile isWhitespace = ch :: rest := by
  induction chars with
  | nil => exact nomatch token
  | cons first chars ih =>
      by_cases spaced : isSpace first = true
      · have white : isWhitespace first = true := by
          have each : ∀ ch ∈ [' ', '\t', '\n', '\r'], isWhitespace ch = true := by decide
          exact each first (of_decide_eq_true spaced)
        rw [List.dropWhile_cons_of_pos white]
        exact ih (by rwa [skipSpace, List.dropWhile_cons_of_pos spaced] at token)
      · rw [skipSpace, List.dropWhile_cons_of_neg spaced] at token
        obtain ⟨rfl, rfl⟩ := List.cons.inj token
        exact dropWhile_isWhitespace other

theorem wordEnds_of_skipSpace {ch : Char} (token : skipSpace chars = ch :: rest)
    (other : isWordCharacter ch = false)
    : wordEnds chars = true := by
  cases chars with
  | nil => exact nomatch token
  | cons first chars =>
      by_cases spaced : isSpace first = true
      · have each : ∀ ch ∈ [' ', '\t', '\n', '\r'], isWordCharacter ch = false := by decide
        have apart := each first (of_decide_eq_true spaced)
        simp [wordEnds, apart]
      · rw [skipSpace, List.dropWhile_cons_of_neg spaced] at token
        obtain ⟨rfl, rfl⟩ := List.cons.inj token
        simp [wordEnds, other]

/-- A string that is read is passed over, by induction over it. -/
theorem skipQuoted_of_readString (read : readString chars = some (units, rest))
    : skipQuoted chars = some rest := by
  have plain {ch : Char} {behind : List Char} (apart : ch ≠ '"' ∧ ch ≠ '\\')
      : skipQuoted (ch :: behind) = skipQuoted behind := by
    rw [skipQuoted]
    · exact if_neg apart.2
    · exact apart.1
    · exact fun _ _ same => absurd same apart.2
  fun_induction readString chars generalizing units rest with
  | case1 => cases read
  | case2 behind =>
      cases read
      rfl
  | case3 first second third fourth behind ih =>
      obtain ⟨unit, names, reads⟩ := Option.bind_eq_some_iff.mp read
      obtain ⟨⟨others, left⟩, reads, same⟩ := Option.bind_eq_some_iff.mp reads
      cases same
      have apart : ∀ ch ∈ [first, second, third, fourth], ch ≠ '"' ∧ ch ≠ '\\' :=
        fun ch member => ne_of_hexDigit (hexDigit_of_hexUnit names ch member)
      have escape : skipQuoted ('\\' :: 'u' :: first :: second :: third :: fourth :: behind)
          = skipQuoted (first :: second :: third :: fourth :: behind) :=
        if_neg (by decide)
      rw [escape, plain (apart first (by simp)), plain (apart second (by simp)),
        plain (apart third (by simp)), plain (apart fourth (by simp)), ih reads]
  | case4 char behind _ ih =>
      obtain ⟨unit, names, reads⟩ := Option.bind_eq_some_iff.mp read
      obtain ⟨⟨others, left⟩, reads, same⟩ := Option.bind_eq_some_iff.mp reads
      cases same
      have each : ∀ ch ∈ simpleEscapes, isLineTerminator ch = false := by decide
      rw [skipQuoted, each char (mem_simpleEscapes names)]
      exact ih reads
  | case5 => cases read
  | case6 char behind notQuote _ _ valid ih =>
      obtain ⟨⟨others, left⟩, reads, same⟩ := Option.bind_eq_some_iff.mp read
      cases same
      simp only [Bool.or_eq_true, decide_eq_true_eq, not_or] at valid
      exact (plain ⟨notQuote, valid.1⟩).trans (ih reads)

theorem isWhitespace_of_isDigit {ch : Char} (digit : ch.isDigit = true)
    : isWhitespace ch = false := by
  obtain ⟨low, high⟩ := Char.isDigit_iff_toNat.mp digit
  change 48 ≤ ch.toNat at low
  change ch.toNat ≤ 57 at high
  simp only [isWhitespace, decide_eq_false_iff_not, List.mem_cons, List.not_mem_nil, or_false]
  omega

section Values

variable {Number : Type} {toNumber : List Char → Number} {fuel : Nat}

/-- The start of a value is recognised where a word ends behind it. -/
theorem valueContinuation_of_readValue {value : Json Number}
    (read : readValue toNumber fuel chars = some (value, rest)) (ends : wordEnds rest = true)
    : valueContinuation (skipSpace chars) = true := by
  cases fuel with
  | zero => cases read
  | succ fuel =>
      rw [readValue] at read
      split at read
      next token =>
        cases read
        rw [token, valueContinuation, dropWhile_isWhitespace (by decide)]
        exact ends
      next token =>
        cases read
        rw [token, valueContinuation, dropWhile_isWhitespace (by decide)]
        exact ends
      next token =>
        cases read
        rw [token, valueContinuation, dropWhile_isWhitespace (by decide)]
        exact ends
      next token =>
        rw [token, valueContinuation, dropWhile_isWhitespace (by decide)]
        rfl
      next token =>
        rw [token, valueContinuation, dropWhile_isWhitespace (by decide)]
        rfl
      next token =>
        rw [token, valueContinuation, dropWhile_isWhitespace (by decide)]
        rfl
      next =>
        obtain ⟨⟨literal, left⟩, reads, -⟩ := Option.map_eq_some_iff.mp read
        obtain ⟨ch, more, token, digit | ⟨rfl, digit⟩⟩ := head_of_readNumber reads
        · rw [token, valueContinuation, dropWhile_isWhitespace (isWhitespace_of_isDigit digit)]
          split
          next => rfl
          next same => exact absurd digit (by rw [(List.cons.inj same).1]; decide)
          next same => exact absurd digit (by rw [(List.cons.inj same).1]; decide)
          next same => exact absurd digit (by rw [(List.cons.inj same).1]; decide)
          next same => exact absurd digit (by rw [(List.cons.inj same).1]; decide)
          next => rfl
          next => rfl
          next same => exact (List.cons.inj same).1 ▸ digit
          next same => cases same
        · rw [token, valueContinuation, dropWhile_isWhitespace (by decide)]
          exact digit

/-- The rest of an array is recognised behind a comma. -/
theorem valueContinuation_of_readItems {items : List (Json Number)}
    (read : readItems toNumber fuel chars = some (items, rest))
    : valueContinuation (skipSpace chars) = true := by
  cases fuel with
  | zero => cases read
  | succ fuel =>
      rw [readItems] at read
      obtain ⟨⟨item, behind⟩, reads, later⟩ := Option.bind_eq_some_iff.mp read
      refine valueContinuation_of_readValue reads ?_
      dsimp only at later
      split at later
      next token => exact wordEnds_of_skipSpace token (by decide)
      next token => exact wordEnds_of_skipSpace token (by decide)
      next => cases later

/-- The rest of an object is recognised behind a comma. -/
theorem keyContinuation_of_readMembers {members : List (CodeUnits × Json Number)}
    (read : readMembers toNumber fuel chars = some (members, rest))
    : keyContinuation (skipSpace chars) = true := by
  cases fuel with
  | zero => exact nomatch read
  | succ fuel =>
      rw [readMembers] at read
      split at read
      next token =>
        obtain ⟨⟨key, behind⟩, keyed, later⟩ := Option.bind_eq_some_iff.mp read
        dsimp only at later
        split at later
        next colon =>
          rw [token, keyContinuation, dropWhile_isWhitespace (by decide)]
          simp [skipQuoted_of_readString keyed, dropWhile_of_skipSpace colon (by decide)]
        next => exact nomatch later
      next => exact nomatch read

-----------------------------------------------------------------------------------------
-- Values
-----------------------------------------------------------------------------------------

/-- The readers of some fuel read what is copied, given what stands behind it. -/
structure MarksWell (toNumber : List Char → Number) (fuel : Nat) : Prop where
  value {chars rest : List Char} {value : Json Number} {containers : List Container}
    (read : readValue toNumber fuel chars = some (value, rest)) (behind : Behind containers rest)
    : MarksKept (outside false containers) chars (outside false containers) rest
  items {chars rest : List Char} {items : List (Json Number)} {containers : List Container}
    (read : readItems toNumber fuel chars = some (items, rest)) (behind : Behind containers rest)
    : MarksKept (outside false (.array :: containers)) chars (outside false containers) rest
  members {chars rest : List Char} {members : List (CodeUnits × Json Number)}
    {containers : List Container}
    (read : readMembers toNumber fuel chars = some (members, rest))
    (behind : Behind containers rest)
    : MarksKept (outside true (.object :: containers)) chars (outside false containers) rest

variable {containers : List Container}

theorem MarksWell.readValue (well : MarksWell toNumber fuel) {value : Json Number}
    (read : Json.readValue toNumber (fuel + 1) chars = some (value, rest))
    (behind : Behind containers rest)
    : MarksKept (outside false containers) chars (outside false containers) rest := by
  have spaced := @marks_skipSpace false containers chars
  rw [Json.readValue] at read
  split at read
  next left token =>
    cases read
    rw [token] at spaced
    exact spaced.trans (@marks_inert _ _ ['n', 'u', 'l', 'l'] (by decide) _)
  next left token =>
    cases read
    rw [token] at spaced
    exact spaced.trans (@marks_inert _ _ ['t', 'r', 'u', 'e'] (by decide) _)
  next left token =>
    cases read
    rw [token] at spaced
    exact spaced.trans (@marks_inert _ _ ['f', 'a', 'l', 's', 'e'] (by decide) _)
  next left token =>
    obtain ⟨⟨units, final⟩, reads, same⟩ := Option.map_eq_some_iff.mp read
    cases same
    refine (marks_next token).trans ?_
    have opened : (outside false containers).token '"' = within false false containers := by
      simp [QuoteScan.token]
    rw [opened]
    exact marks_inside reads (closes_of_behind behind)
  next left token =>
    refine (marks_next token).trans ?_
    change MarksKept (outside false (.array :: containers)) left _ rest
    split at read
    next closed =>
      cases read
      exact marks_next closed
    next =>
      obtain ⟨⟨items, final⟩, reads, same⟩ := Option.map_eq_some_iff.mp read
      cases same
      exact (marks_skipSpace left).trans (well.items reads behind)
  next left token =>
    refine (marks_next token).trans ?_
    change MarksKept (outside true (.object :: containers)) left _ rest
    split at read
    next closed =>
      cases read
      exact marks_next closed
    next =>
      obtain ⟨⟨members, final⟩, reads, same⟩ := Option.map_eq_some_iff.mp read
      cases same
      exact (marks_skipSpace left).trans (well.members reads behind)
  next =>
    obtain ⟨⟨literal, left⟩, reads, same⟩ := Option.map_eq_some_iff.mp read
    cases same
    exact spaced.trans (marks_readNumber reads)

theorem MarksWell.readItems (well : MarksWell toNumber fuel) {items : List (Json Number)}
    (read : Json.readItems toNumber (fuel + 1) chars = some (items, rest))
    (behind : Behind containers rest)
    : MarksKept (outside false (.array :: containers)) chars (outside false containers) rest := by
  rw [Json.readItems] at read
  obtain ⟨⟨item, left⟩, reads, later⟩ := Option.bind_eq_some_iff.mp read
  dsimp only at later
  split at later
  next more token =>
    obtain ⟨⟨others, final⟩, continues, same⟩ := Option.bind_eq_some_iff.mp later
    cases same
    have next : Behind (.array :: containers) left :=
      .inl ⟨more, token, valueContinuation_of_readItems continues⟩
    exact (well.value reads next).trans
      ((marks_next token).trans (well.items continues behind))
  next more token =>
    cases later
    have next : Behind (.array :: containers) left := .inr ⟨rest, token, behind⟩
    exact (well.value reads next).trans (marks_next token)
  next => cases later

theorem MarksWell.readMembers (well : MarksWell toNumber fuel)
    {members : List (CodeUnits × Json Number)}
    (read : Json.readMembers toNumber (fuel + 1) chars = some (members, rest))
    (behind : Behind containers rest)
    : MarksKept (outside true (.object :: containers)) chars (outside false containers) rest := by
  rw [Json.readMembers] at read
  split at read
  next token =>
    obtain ⟨⟨key, left⟩, keyed, later⟩ := Option.bind_eq_some_iff.mp read
    dsimp only at later
    split at later
    next colon =>
      refine (marks_next token).trans ?_
      change MarksKept (within true true (.object :: containers)) _ _ rest
      refine (marks_inside keyed (closes_key colon)).trans ((marks_next colon).trans ?_)
      change MarksKept (outside false (.object :: containers)) _ _ rest
      obtain ⟨⟨value, final⟩, reads, last⟩ := Option.bind_eq_some_iff.mp later
      dsimp only at last
      split at last
      next more token =>
        obtain ⟨⟨others, end_⟩, continues, same⟩ := Option.bind_eq_some_iff.mp last
        cases same
        have next : Behind (.object :: containers) final :=
          .inl ⟨more, token, keyContinuation_of_readMembers continues⟩
        exact (well.value reads next).trans
          ((marks_next token).trans (well.members continues behind))
      next more token =>
        cases last
        have next : Behind (.object :: containers) final := .inr ⟨rest, token, behind⟩
        exact (well.value reads next).trans (marks_next token)
      next => exact nomatch last
    next => exact nomatch later
  next => exact nomatch read

/-- Whatever is read is copied, by induction over the fuel. -/
theorem marksWell (toNumber : List Char → Number) (fuel : Nat) : MarksWell toNumber fuel := by
  induction fuel with
  | zero =>
      exact ⟨(fun read => nomatch read), (fun read => nomatch read), fun read => nomatch read⟩
  | succ fuel well => exact ⟨well.readValue, well.readItems, well.readMembers⟩

end Values

end MarksKept

/-- A text that is valid is left as it is, whatever its numbers stand for. -/
theorem sanitizeJsonUnescapedInnerQuotes_of_valid {Number : Type} (toNumber : List Char → Number)
    (raw : String) (valid : (parse toNumber raw).isSome = true)
    : sanitizeJsonUnescapedInnerQuotes raw = raw := by
  obtain ⟨value, parsed⟩ := Option.isSome_iff_exists.mp valid
  unfold parse at parsed
  split at parsed
  next rest read =>
    split at parsed
    next ends =>
      have behind : Behind [] rest := ends
      have kept := ((marksWell toNumber _).value read behind).trans (marks_skipSpace rest)
      rw [ends] at kept
      obtain ⟨front, same, copied⟩ := kept
      have unchanged : escapeQuotes (outside false []) raw.toList = raw.toList :=
        copied.trans same.symm
      exact (congrArg String.ofList unchanged).trans String.ofList_toList
    next => exact nomatch parsed
  next => exact nomatch parsed

/-- A text whose strings hold delimiters and escaped quotation marks. -/
theorem sanitizeJsonUnescapedInnerQuotes_delimiters
    : sanitizeJsonUnescapedInnerQuotes "[\"a\\\"], b\", [\"]\" , \"x\"] ]"
      = "[\"a\\\"], b\", [\"]\" , \"x\"] ]" :=
  sanitizeJsonUnescapedInnerQuotes_of_valid (fun _ => ()) _ (by decide +kernel)

end AiSdlc.Application
