import AiSdlc.Js.RawJson

/-! The escaping of raw control characters in the strings of agent-written JSON. -/

namespace AiSdlc.Application

open AiSdlc.Js
open AiSdlc.Js.Json

/-- `'\\u' + code.toString(16).padStart(4, '0')`. -/
def unicodeEscape (code : Nat) : List Char :=
  let digits := Nat.toDigits 16 code
  '\\' :: 'u' :: (List.replicate (4 - digits.length) '0' ++ digits)

/-- The escape of a control character. -/
def escapeControl (ch : Char) : List Char :=
  if ch = '\n' then ['\\', 'n']
  else if ch = '\r' then ['\\', 'r']
  else if ch = '\t' then ['\\', 't']
  else if ch = '\x08' then ['\\', 'b']
  else if ch = '\x0c' then ['\\', 'f']
  else unicodeEscape ch.toNat

/-- The loop over the characters, with the flags `inString` and `escaped`. -/
def escapeControls (inString escaped : Bool) : List Char → List Char
  | [] => []
  | ch :: rest =>
      if !inString then ch :: escapeControls (ch = '"') escaped rest
      else if escaped then ch :: escapeControls true false rest
      else if ch = '\\' then ch :: escapeControls true true rest
      else if ch = '"' then ch :: escapeControls false false rest
      else if ch.toNat ≤ 0x1F then escapeControl ch ++ escapeControls true false rest
      else ch :: escapeControls true false rest

def sanitizeJsonControlChars (raw : String) : String :=
  .ofList (escapeControls false false raw.toList)

example : sanitizeJsonControlChars "[\"a\nb\"\n]" = "[\"a\\nb\"\n]" := by
  decide

-----------------------------------------------------------------------------------------
-- The scanner
-----------------------------------------------------------------------------------------

/-- Behind a token, nothing is escaped. -/
abbrev escapeOutside : List Char → List Char :=
  escapeControls false false

/-- Inside a string, control characters are escaped. -/
abbrev escapeInside : List Char → List Char :=
  escapeControls true false

@[simp]
theorem escapeOutside_nil : escapeOutside [] = [] := rfl

@[simp]
theorem escapeOutside_quote (rest : List Char)
    : escapeOutside ('"' :: rest) = '"' :: escapeInside rest := rfl

theorem escapeOutside_cons {ch : Char} (other : ch ≠ '"') (rest : List Char)
    : escapeOutside (ch :: rest) = ch :: escapeOutside rest := by
  simp [escapeOutside, escapeControls, other]

@[simp]
theorem escapeInside_escape (ch : Char) (rest : List Char)
    : escapeInside ('\\' :: ch :: rest) = '\\' :: ch :: escapeInside rest := rfl

theorem escapeInside_control {ch : Char} (control : ch.toNat ≤ 0x1F) (rest : List Char)
    : escapeInside (ch :: rest) = escapeControl ch ++ escapeInside rest := by
  have quote : ch ≠ '"' := by
    rintro rfl
    exact absurd control (by decide)
  have backslash : ch ≠ '\\' := by
    rintro rfl
    exact absurd control (by decide)
  simp [escapeInside, escapeControls, quote, backslash, control]

theorem escapeInside_cons {ch : Char} (quote : ch ≠ '"') (backslash : ch ≠ '\\')
    (printable : ¬ ch.toNat ≤ 0x1F) (rest : List Char)
    : escapeInside (ch :: rest) = ch :: escapeInside rest := by
  simp [escapeInside, escapeControls, quote, backslash, printable]

/-- The escapes of a code unit: a letter, or four digits behind a `u`. -/
inductive Escape (unit : Nat) : List Char → Prop
  | letter {char : Char} (plain : char ≠ 'u') (names : escapeUnit? char = some unit)
      : Escape unit ['\\', char]
  | digits {first second third fourth : Char}
      (names : hexUnit? [first, second, third, fourth] = some unit)
      (printable : ∀ char ∈ [first, second, third, fourth],
        char ≠ '"' ∧ char ≠ '\\' ∧ ¬ char.toNat ≤ 0x1F)
      : Escape unit ['\\', 'u', first, second, third, fourth]

theorem unicodeEscape_digits
    : ∀ code < 32, ∃ third fourth, unicodeEscape code = ['\\', 'u', '0', '0', third, fourth]
        ∧ hexUnit? ['0', '0', third, fourth] = some code
        ∧ ∀ char ∈ ['0', '0', third, fourth],
            char ≠ '"' ∧ char ≠ '\\' ∧ ¬ char.toNat ≤ 0x1F := by
  intro code small
  refine ⟨if code < 16 then '0' else '1', Nat.digitChar (code % 16), ?_⟩
  revert code
  decide

theorem escape_escapeControl {ch : Char} (control : ch.toNat ≤ 0x1F)
    : Escape ch.toNat (escapeControl ch) := by
  unfold escapeControl
  split
  next same => exact same ▸ .letter (by decide) rfl
  split
  next same => exact same ▸ .letter (by decide) rfl
  split
  next same => exact same ▸ .letter (by decide) rfl
  split
  next same => exact same ▸ .letter (by decide) rfl
  split
  next same => exact same ▸ .letter (by decide) rfl
  next =>
    obtain ⟨third, fourth, digits, names, printable⟩ :=
      unicodeEscape_digits ch.toNat (Nat.lt_succ_of_le control)
    rw [digits]
    exact .digits names printable

/-- An escape is passed over as it is. -/
theorem Escape.escapeInside {unit : Nat} {escape : List Char}
    (escapes : Escape unit escape) (rest : List Char)
    : Application.escapeInside (escape ++ rest) = escape ++ Application.escapeInside rest := by
  cases escapes with
  | letter => rfl
  | @digits first second third fourth names printable =>
      simp only [List.forall_mem_cons, List.not_mem_nil, false_implies, implies_true, and_true]
        at printable
      obtain ⟨⟨q1, b1, p1⟩, ⟨q2, b2, p2⟩, ⟨q3, b3, p3⟩, q4, b4, p4⟩ := printable
      simp only [List.cons_append, List.nil_append, escapeInside_escape,
        escapeInside_cons q1 b1 p1, escapeInside_cons q2 b2 p2, escapeInside_cons q3 b3 p3,
        escapeInside_cons q4 b4 p4]

/-- An escape is read as the character. -/
theorem Escape.readString {unit : Nat} {escape : List Char}
    (escapes : Escape unit escape) (rest : List Char)
    : Json.readString (escape ++ rest)
      = (Json.readString rest).map fun (units, rest) => (unit :: units, rest) := by
  cases escapes with
  | letter plain names =>
      simp only [List.cons_append, List.nil_append]
      rw [Json.readString]
      · rw [names]
        cases Json.readString rest <;> rfl
      · intro first second third fourth more same
        exact absurd same plain
  | digits names printable =>
      simp only [List.cons_append, List.nil_append]
      rw [Json.readString, names]
      cases Json.readString rest <;> rfl

theorem Escape.readInside {unit : Nat} {escape behind rest : List Char} {units : CodeUnits}
    (escapes : Escape unit escape)
    (reads : Json.readString (Application.escapeInside behind) = some (units, rest))
    : Json.readString (Application.escapeInside (escape ++ behind))
      = some (unit :: units, rest) := by
  rw [escapes.escapeInside, escapes.readString, reads]
  rfl

theorem escape_of_escapeUnit {char : Char} {unit : Nat} (names : escapeUnit? char = some unit)
    : Escape unit ['\\', char] := by
  refine .letter ?_ names
  rintro rfl
  exact nomatch names

/-- Hexadecimal digits are no control characters. -/
theorem printable_of_hexDigit {char : Char} (digit : (hexDigit? char).isSome = true)
    : char ≠ '"' ∧ char ≠ '\\' ∧ ¬ char.toNat ≤ 0x1F := by
  refine ⟨(ne_of_hexDigit digit).1, (ne_of_hexDigit digit).2, fun control => ?_⟩
  have none : ∀ code < 32, (hexDigit? (Char.ofNat code)).isSome = false := by decide
  have same := none char.toNat (Nat.lt_succ_of_le control)
  rw [Char.ofNat_toNat, digit] at same
  exact nomatch same

theorem escape_of_hexUnit {first second third fourth : Char} {unit : Nat}
    (names : hexUnit? [first, second, third, fourth] = some unit)
    : Escape unit ['\\', 'u', first, second, third, fourth] :=
  .digits names fun char member => printable_of_hexDigit (hexDigit_of_hexUnit names char member)

-----------------------------------------------------------------------------------------
-- Tokens
-----------------------------------------------------------------------------------------

theorem charUnits_control {ch : Char} (control : ch.toNat ≤ 0x1F) : charUnits ch = [ch.toNat] :=
  if_pos (by omega)

/-- A string with raw control characters is read once these are escaped, by induction over it. -/
theorem readString_escapeInside {chars rest : List Char} {units : CodeUnits}
    (read : readRawString chars = some (units, rest))
    : Json.readString (escapeInside chars) = some (units, escapeOutside rest) := by
  fun_induction readRawString chars generalizing units rest with
  | case1 => exact nomatch read
  | case2 behind =>
      cases read
      rfl
  | case3 first second third fourth behind ih =>
      obtain ⟨unit, names, reads⟩ := Option.bind_eq_some_iff.mp read
      obtain ⟨⟨others, left⟩, reads, same⟩ := Option.bind_eq_some_iff.mp reads
      cases same
      exact (escape_of_hexUnit names).readInside (ih reads)
  | case4 char behind notUnicode ih =>
      obtain ⟨unit, names, reads⟩ := Option.bind_eq_some_iff.mp read
      obtain ⟨⟨others, left⟩, reads, same⟩ := Option.bind_eq_some_iff.mp reads
      cases same
      exact (escape_of_escapeUnit names).readInside (ih reads)
  | case5 => exact nomatch read
  | case6 char behind notQuote _ _ notBackslash ih =>
      obtain ⟨⟨others, left⟩, reads, same⟩ := Option.bind_eq_some_iff.mp read
      cases same
      by_cases control : char.toNat ≤ 0x1F
      · rw [escapeInside_control control, charUnits_control control,
          (escape_escapeControl control).readString, ih reads]
        rfl
      · rw [escapeInside_cons notQuote notBackslash control]
        rw [Json.readString]
        · simp only [notBackslash, decide_false, Bool.false_or, decide_eq_true_eq]
          rw [if_neg (by omega), ih reads]
          rfl
        · exact notQuote
        · exact fun _ _ _ _ _ same => absurd same notBackslash
        · exact fun _ _ same => absurd same notBackslash

-- Outside of strings, every token but a string is left as it is.

theorem escapeOutside_head (ch : Char) (rest : List Char)
    : ∃ more, escapeOutside (ch :: rest) = ch :: more := by
  by_cases quote : ch = '"'
  · exact quote ▸ ⟨_, escapeOutside_quote rest⟩
  · exact ⟨_, escapeOutside_cons quote rest⟩

theorem head_of_escapeOutside {chars more : List Char} {ch : Char}
    (same : escapeOutside chars = ch :: more)
    : ∃ rest, chars = ch :: rest := by
  cases chars with
  | nil => exact nomatch same
  | cons first rest =>
      obtain ⟨others, starts⟩ := escapeOutside_head first rest
      obtain rfl := (List.cons.inj (starts.symm.trans same)).1
      exact ⟨rest, rfl⟩

/-- A run of characters other than quotation marks is left as it is, by induction over it. -/
theorem span_escapeOutside {keeps : Char → Bool} (quote : keeps '"' = false) (chars : List Char)
    : (escapeOutside chars).takeWhile keeps = chars.takeWhile keeps
      ∧ (escapeOutside chars).dropWhile keeps = escapeOutside (chars.dropWhile keeps) := by
  induction chars with
  | nil => exact ⟨rfl, rfl⟩
  | cons ch rest ih =>
      cases kept : keeps ch with
      | true =>
          have other : ch ≠ '"' := by
            rintro rfl
            exact Bool.false_ne_true (quote.symm.trans kept)
          simp [escapeOutside_cons other, kept, ih]
      | false =>
          obtain ⟨more, same⟩ := escapeOutside_head ch rest
          simp [same, kept]

theorem skipSpace_escapeOutside (chars : List Char)
    : skipSpace (escapeOutside chars) = escapeOutside (skipSpace chars) :=
  (span_escapeOutside (by decide) chars).2

theorem readDigits_escapeOutside (chars : List Char)
    : Json.readDigits (escapeOutside chars)
      = (Json.readDigits chars).map (Prod.map id escapeOutside) := by
  obtain ⟨front, back⟩ := @span_escapeOutside Char.isDigit (by decide) chars
  simp only [Json.readDigits, List.span_eq_takeWhile_dropWhile, front, back]
  cases chars.takeWhile Char.isDigit <;> rfl

theorem readWhole_escapeOutside (chars : List Char)
    : readWhole (escapeOutside chars) = (readWhole chars).map (Prod.map id escapeOutside) := by
  simp only [readWhole, readDigits_escapeOutside]
  cases Json.readDigits chars with
  | none => rfl
  | some read =>
      obtain ⟨digits, rest⟩ := read
      simp only [Option.map_some, Prod.map_apply, id_eq, Option.bind_eq_bind, Option.bind_some]
      split <;> rfl

theorem readFraction_escapeOutside (chars : List Char)
    : readFraction (escapeOutside chars)
      = (readFraction chars).map (Prod.map id escapeOutside) := by
  cases chars with
  | nil => rfl
  | cons ch rest =>
      by_cases point : ch = '.'
      · subst point
        rw [escapeOutside_cons (by decide), readFraction, readFraction, readDigits_escapeOutside,
          Option.map_map, Option.map_map]
        rfl
      · obtain ⟨more, same⟩ := escapeOutside_head ch rest
        rw [same, readFraction, readFraction, ← same]
        · rfl
        · exact fun _ dotted => point (List.cons.inj dotted).1
        · exact fun _ dotted => point (List.cons.inj dotted).1

theorem readExponent_escapeOutside (chars : List Char)
    : readExponent (escapeOutside chars)
      = (readExponent chars).map (Prod.map id escapeOutside) := by
  cases chars with
  | nil => rfl
  | cons ch rest =>
      by_cases marked : (decide (ch = 'e') || decide (ch = 'E')) = true
      · have other : ch ≠ '"' := by
          rintro rfl
          exact absurd marked (by decide)
        rw [escapeOutside_cons other]
        unfold readExponent
        simp only [marked, if_true]
        cases rest with
        | nil => rfl
        | cons sign rest =>
            by_cases plus : sign = '+'
            · subst plus
              rw [escapeOutside_cons (by decide)]
              simp only [readDigits_escapeOutside, Option.map_map]
              rfl
            · by_cases minus : sign = '-'
              · subst minus
                rw [escapeOutside_cons (by decide)]
                simp only [readDigits_escapeOutside, Option.map_map]
                rfl
              · obtain ⟨more, same⟩ := escapeOutside_head sign rest
                have digits := readDigits_escapeOutside (sign :: rest)
                rw [same] at digits ⊢
                split
                next signed => exact absurd (List.cons.inj signed).1 plus
                next signed => exact absurd (List.cons.inj signed).1 minus
                next =>
                  split
                  next signed => exact absurd (List.cons.inj signed).1 plus
                  next signed => exact absurd (List.cons.inj signed).1 minus
                  next =>
                    rw [digits, Option.map_map, Option.map_map]
                    rfl
      · obtain ⟨more, same⟩ := escapeOutside_head ch rest
        rw [same]
        unfold readExponent
        simp only [marked, Bool.false_eq_true, if_false, ← same]
        rfl

theorem readSign_escapeOutside (chars : List Char)
    : readSign (escapeOutside chars) = Prod.map id escapeOutside (readSign chars) := by
  cases chars with
  | nil => rfl
  | cons ch rest =>
      by_cases minus : ch = '-'
      · subst minus
        rfl
      · obtain ⟨more, same⟩ := escapeOutside_head ch rest
        rw [same, readSign, readSign, ← same]
        · rfl
        · exact fun _ signed => minus (List.cons.inj signed).1
        · exact fun _ signed => minus (List.cons.inj signed).1

theorem readNumber_escapeOutside (chars : List Char)
    : Json.readNumber (escapeOutside chars)
      = (Json.readNumber chars).map (Prod.map id escapeOutside) := by
  simp only [Json.readNumber, readSign_escapeOutside, Prod.map_fst, Prod.map_snd, id_eq,
    readWhole_escapeOutside]
  cases readWhole (readSign chars).2 with
  | none => rfl
  | some read =>
      simp only [Option.map_some, Option.bind_eq_bind, Option.bind_some, Prod.map_fst,
        Prod.map_snd, id_eq, readFraction_escapeOutside]
      cases readFraction read.2 with
      | none => rfl
      | some fraction =>
          simp only [Option.map_some, Option.bind_some, Prod.map_fst, Prod.map_snd, id_eq,
            readExponent_escapeOutside]
          cases readExponent fraction.2 <;> rfl

section Values

variable {Number : Type} {toNumber : List Char → Number} {fuel : Nat} {chars rest : List Char}

theorem readValue_of_head {ch : Char} {more : List Char}
    (spaced : skipSpace chars = ch :: more) (starts : ch = '-' ∨ ch.isDigit = true)
    : readValue toNumber (fuel + 1) chars
      = (Json.readNumber (ch :: more)).map fun (literal, rest) =>
          (number (toNumber literal), rest) := by
  have other (letter : Char) (plain : letter ≠ '-' ∧ letter.isDigit = false) : ch ≠ letter := by
    rintro rfl
    rcases starts with minus | digit
    · exact plain.1 minus
    · exact Bool.false_ne_true (plain.2.symm.trans digit)
  rw [readValue, spaced]
  split
  next token => exact absurd (List.cons.inj token).1 (other 'n' (by decide))
  next token => exact absurd (List.cons.inj token).1 (other 't' (by decide))
  next token => exact absurd (List.cons.inj token).1 (other 'f' (by decide))
  next token => exact absurd (List.cons.inj token).1 (other '"' (by decide))
  next token => exact absurd (List.cons.inj token).1 (other '[' (by decide))
  next token => exact absurd (List.cons.inj token).1 (other '{' (by decide))
  next => rfl

theorem readValue_array {behind : List Char} (spaced : skipSpace chars = '[' :: behind)
    : readValue toNumber (fuel + 1) chars
      = match skipSpace behind with
        | ']' :: rest => some (array [], rest)
        | rest => (readItems toNumber fuel rest).map fun (items, rest) => (array items, rest) := by
  rw [readValue, spaced]
  rfl

theorem readValue_object {behind : List Char} (spaced : skipSpace chars = '{' :: behind)
    : readValue toNumber (fuel + 1) chars
      = match skipSpace behind with
        | '}' :: rest => some (object [], rest)
        | rest =>
            (readMembers toNumber fuel rest).map fun (members, rest) =>
              (object (members.foldl setMember []), rest) := by
  rw [readValue, spaced]
  rfl

/-- What is read with raw control characters is read once these are escaped. -/
structure EscapesWell (toNumber : List Char → Number) (fuel : Nat) : Prop where
  value {chars rest : List Char} {value : Json Number}
    (read : readRawValue toNumber fuel chars = some (value, rest))
    : readValue toNumber fuel (escapeOutside chars) = some (value, escapeOutside rest)
  items {chars rest : List Char} {items : List (Json Number)}
    (read : readRawItems toNumber fuel chars = some (items, rest))
    : readItems toNumber fuel (escapeOutside chars) = some (items, escapeOutside rest)
  members {chars rest : List Char} {members : List (CodeUnits × Json Number)}
    (read : readRawMembers toNumber fuel chars = some (members, rest))
    : readMembers toNumber fuel (escapeOutside chars) = some (members, escapeOutside rest)

theorem EscapesWell.readValue (well : EscapesWell toNumber fuel) {value : Json Number}
    (read : readRawValue toNumber (fuel + 1) chars = some (value, rest))
    : Json.readValue toNumber (fuel + 1) (escapeOutside chars)
      = some (value, escapeOutside rest) := by
  have spaced := skipSpace_escapeOutside chars
  rw [readRawValue] at read
  split at read
  next token =>
    cases read
    rw [Json.readValue, spaced, token]
    rfl
  next token =>
    cases read
    rw [Json.readValue, spaced, token]
    rfl
  next token =>
    cases read
    rw [Json.readValue, spaced, token]
    rfl
  next behind token =>
    obtain ⟨⟨units, left⟩, reads, same⟩ := Option.map_eq_some_iff.mp read
    cases same
    rw [Json.readValue, spaced, token, escapeOutside_quote]
    simp only [readString_escapeInside reads, Option.map_some]
  next behind token =>
    have opened : skipSpace (escapeOutside chars) = '[' :: escapeOutside behind := by
      rw [spaced, token, escapeOutside_cons (by decide)]
    rw [readValue_array opened, skipSpace_escapeOutside behind]
    split at read
    next closed =>
      cases read
      rw [closed, escapeOutside_cons (by decide)]
      rfl
    next open_ =>
      obtain ⟨⟨items, left⟩, reads, same⟩ := Option.map_eq_some_iff.mp read
      cases same
      split
      next closed =>
        obtain ⟨others, closes⟩ := head_of_escapeOutside closed
        exact (open_ others closes).elim
      next => rw [well.items reads, Option.map_some]
  next behind token =>
    have opened : skipSpace (escapeOutside chars) = '{' :: escapeOutside behind := by
      rw [spaced, token, escapeOutside_cons (by decide)]
    rw [readValue_object opened, skipSpace_escapeOutside behind]
    split at read
    next closed =>
      cases read
      rw [closed, escapeOutside_cons (by decide)]
      rfl
    next open_ =>
      obtain ⟨⟨members, left⟩, reads, same⟩ := Option.map_eq_some_iff.mp read
      cases same
      split
      next closed =>
        obtain ⟨others, closes⟩ := head_of_escapeOutside closed
        exact (open_ others closes).elim
      next => rw [well.members reads, Option.map_some]
  next =>
    obtain ⟨⟨literal, left⟩, reads, same⟩ := Option.map_eq_some_iff.mp read
    cases same
    obtain ⟨ch, more, token, starts⟩ := head_of_readNumber reads
    replace starts : ch = '-' ∨ ch.isDigit = true := starts.symm.imp And.left id
    have quote : ch ≠ '"' := by
      rintro rfl
      revert starts
      decide
    have numbers := readNumber_escapeOutside (ch :: more)
    rw [token] at reads
    rw [reads, escapeOutside_cons quote] at numbers
    rw [readValue_of_head (by rw [spaced, token, escapeOutside_cons quote]) starts, numbers]
    rfl

theorem EscapesWell.readItems (well : EscapesWell toNumber fuel) {items : List (Json Number)}
    (read : readRawItems toNumber (fuel + 1) chars = some (items, rest))
    : Json.readItems toNumber (fuel + 1) (escapeOutside chars)
      = some (items, escapeOutside rest) := by
  rw [readRawItems] at read
  obtain ⟨⟨item, behind⟩, reads, later⟩ := Option.bind_eq_some_iff.mp read
  rw [Json.readItems, well.value reads]
  dsimp only at later
  simp only [Option.bind_eq_bind, Option.bind_some, skipSpace_escapeOutside]
  split at later
  next token =>
    obtain ⟨⟨others, left⟩, continues, same⟩ := Option.bind_eq_some_iff.mp later
    cases same
    rw [token, escapeOutside_cons (by decide)]
    simp only [well.items continues, Option.bind_some]
  next token =>
    cases later
    rw [token, escapeOutside_cons (by decide)]
    rfl
  next => cases later

theorem EscapesWell.readMembers (well : EscapesWell toNumber fuel)
    {members : List (CodeUnits × Json Number)}
    (read : readRawMembers toNumber (fuel + 1) chars = some (members, rest))
    : Json.readMembers toNumber (fuel + 1) (escapeOutside chars)
      = some (members, escapeOutside rest) := by
  rw [readRawMembers] at read
  split at read
  next token =>
    obtain ⟨⟨key, behind⟩, reads, later⟩ := Option.bind_eq_some_iff.mp read
    rw [Json.readMembers, skipSpace_escapeOutside, token, escapeOutside_quote]
    simp only [readString_escapeInside reads, Option.bind_eq_bind, Option.bind_some,
      skipSpace_escapeOutside]
    dsimp only at later
    split at later
    next colon =>
      obtain ⟨⟨value, left⟩, reads', last⟩ := Option.bind_eq_some_iff.mp later
      rw [colon, escapeOutside_cons (by decide)]
      simp only [well.value reads', Option.bind_some, skipSpace_escapeOutside]
      dsimp only at last
      split at last
      next token =>
        obtain ⟨⟨others, final⟩, continues, same⟩ := Option.bind_eq_some_iff.mp last
        cases same
        rw [token, escapeOutside_cons (by decide)]
        simp only [well.members continues, Option.bind_some]
      next token =>
        cases last
        rw [token, escapeOutside_cons (by decide)]
        rfl
      next => exact nomatch last
    next => exact nomatch later
  next => exact nomatch read

/-- Everything is read once the control characters are escaped, by induction over the fuel. -/
theorem escapesWell (toNumber : List Char → Number) (fuel : Nat) : EscapesWell toNumber fuel := by
  induction fuel with
  | zero =>
      exact ⟨(fun read => nomatch read), (fun read => nomatch read), fun read => nomatch read⟩
  | succ fuel well => exact ⟨well.readValue, well.readItems, well.readMembers⟩

theorem parse_sanitized {raw : String} {value : Json Number}
    (renders : parseRaw toNumber raw = some value)
    : parse toNumber (sanitizeJsonControlChars raw) = some value := by
  unfold parseRaw at renders
  split at renders
  next rest read =>
    split at renders
    next ends =>
      cases renders
      have escaped := (escapesWell toNumber _).value read
      refine parse_of_read (by rwa [sanitizeJsonControlChars, String.toList_ofList]) ?_
      rw [skipSpace_escapeOutside, ends, escapeOutside_nil]
    next => exact nomatch renders
  next => exact nomatch renders

-----------------------------------------------------------------------------------------
-- Texts that are valid
-----------------------------------------------------------------------------------------

/-- What was read in front of the rest is copied as it is. -/
def Copies (chars rest : List Char) : Prop :=
  ∃ front, chars = front ++ rest ∧ escapeOutside chars = front ++ escapeOutside rest

theorem copies_refl (chars : List Char) : Copies chars chars :=
  ⟨[], rfl, rfl⟩

theorem Copies.trans {middle : List Char} (first : Copies chars middle)
    (second : Copies middle rest)
    : Copies chars rest := by
  obtain ⟨front, rfl, escaped⟩ := first
  obtain ⟨back, rfl, escaped'⟩ := second
  refine ⟨front ++ back, (List.append_assoc ..).symm, ?_⟩
  rw [escaped, escaped', List.append_assoc]

theorem copies_cons {ch : Char} (other : ch ≠ '"') (rest : List Char) : Copies (ch :: rest) rest :=
  ⟨[ch], rfl, escapeOutside_cons other rest⟩

theorem copies_dropWhile {keeps : Char → Bool} (quote : keeps '"' = false) (chars : List Char)
    : Copies chars (chars.dropWhile keeps) := by
  obtain ⟨front, back⟩ := span_escapeOutside quote chars
  refine ⟨chars.takeWhile keeps, List.takeWhile_append_dropWhile.symm, ?_⟩
  rw [← front, ← back, List.takeWhile_append_dropWhile]

theorem copies_skipSpace (chars : List Char) : Copies chars (skipSpace chars) :=
  copies_dropWhile (by decide) chars

/-- The literal of a number is copied, by induction over it. -/
theorem copies_readNumber {literal : List Char}
    (read : Json.readNumber chars = some (literal, rest))
    : Copies chars rest := by
  obtain ⟨rfl, numeric⟩ := readsLiteral_number read
  clear read
  induction literal with
  | nil => exact copies_refl rest
  | cons ch literal ih =>
      have other : ch ≠ '"' := by
        rintro rfl
        rcases numeric '"' (by simp) with digit | mark
        · exact absurd digit (by decide)
        · exact absurd mark (by decide)
      exact (copies_cons other _).trans (ih fun char member => numeric char (by simp [member]))

/-- What is read of a string is copied as it is, by induction over it. -/
theorem copies_inside {units : CodeUnits} (read : Json.readString chars = some (units, rest))
    : ∃ front, chars = front ++ rest ∧ escapeInside chars = front ++ escapeOutside rest := by
  fun_induction Json.readString chars generalizing units rest with
  | case1 => cases read
  | case2 behind =>
      cases read
      exact ⟨['"'], rfl, rfl⟩
  | case3 first second third fourth behind ih =>
      obtain ⟨unit, names, reads⟩ := Option.bind_eq_some_iff.mp read
      obtain ⟨⟨others, left⟩, reads, same⟩ := Option.bind_eq_some_iff.mp reads
      cases same
      obtain ⟨front, split, escaped⟩ := ih reads
      refine ⟨['\\', 'u', first, second, third, fourth] ++ front, by simp [split], ?_⟩
      have passes := (escape_of_hexUnit names).escapeInside behind
      rw [escaped] at passes
      simpa using passes
  | case4 char behind notUnicode ih =>
      obtain ⟨unit, names, reads⟩ := Option.bind_eq_some_iff.mp read
      obtain ⟨⟨others, left⟩, reads, same⟩ := Option.bind_eq_some_iff.mp reads
      cases same
      obtain ⟨front, split, escaped⟩ := ih reads
      refine ⟨['\\', char] ++ front, by simp [split], ?_⟩
      rw [escapeInside_escape, escaped]
      rfl
  | case5 => cases read
  | case6 char behind notQuote _ _ valid ih =>
      obtain ⟨⟨others, left⟩, reads, same⟩ := Option.bind_eq_some_iff.mp read
      cases same
      obtain ⟨front, split, escaped⟩ := ih reads
      simp only [Bool.or_eq_true, decide_eq_true_eq, not_or] at valid
      refine ⟨char :: front, by simp [split], ?_⟩
      rw [escapeInside_cons notQuote valid.1 (by omega), escaped]
      rfl

theorem copies_readString {units : CodeUnits} (read : Json.readString chars = some (units, rest))
    : Copies ('"' :: chars) rest := by
  obtain ⟨front, split, escaped⟩ := copies_inside read
  exact ⟨'"' :: front, congrArg _ split, congrArg _ escaped⟩

/-- The readers of some fuel read what is copied. -/
structure CopiesWell (toNumber : List Char → Number) (fuel : Nat) : Prop where
  value {chars rest : List Char} {value : Json Number}
    (read : readValue toNumber fuel chars = some (value, rest)) : Copies chars rest
  items {chars rest : List Char} {items : List (Json Number)}
    (read : readItems toNumber fuel chars = some (items, rest)) : Copies chars rest
  members {chars rest : List Char} {members : List (CodeUnits × Json Number)}
    (read : readMembers toNumber fuel chars = some (members, rest)) : Copies chars rest

theorem copies_token {ch : Char} (token : skipSpace chars = ch :: rest)
    (other : ch ≠ '"' := by decide)
    : Copies chars rest :=
  (token ▸ copies_skipSpace chars).trans (copies_cons other rest)

theorem CopiesWell.readValue (well : CopiesWell toNumber fuel) {value : Json Number}
    (read : Json.readValue toNumber (fuel + 1) chars = some (value, rest))
    : Copies chars rest := by
  have spaced := copies_skipSpace chars
  rw [Json.readValue] at read
  split at read
  next behind token =>
    cases read
    refine (copies_token token).trans ?_
    exact ((copies_cons (by decide) _).trans (copies_cons (by decide) _)).trans
      (copies_cons (by decide) _)
  next behind token =>
    cases read
    refine (copies_token token).trans ?_
    exact ((copies_cons (by decide) _).trans (copies_cons (by decide) _)).trans
      (copies_cons (by decide) _)
  next behind token =>
    cases read
    refine (copies_token token).trans ?_
    exact (((copies_cons (by decide) _).trans (copies_cons (by decide) _)).trans
      (copies_cons (by decide) _)).trans (copies_cons (by decide) _)
  next behind token =>
    obtain ⟨⟨units, left⟩, reads, same⟩ := Option.map_eq_some_iff.mp read
    cases same
    exact (token ▸ spaced).trans (copies_readString reads)
  next behind token =>
    refine (copies_token token).trans ?_
    split at read
    next closed =>
      cases read
      exact copies_token closed
    next =>
      obtain ⟨⟨items, left⟩, reads, same⟩ := Option.map_eq_some_iff.mp read
      cases same
      exact (copies_skipSpace behind).trans (well.items reads)
  next behind token =>
    refine (copies_token token).trans ?_
    split at read
    next closed =>
      cases read
      exact copies_token closed
    next =>
      obtain ⟨⟨members, left⟩, reads, same⟩ := Option.map_eq_some_iff.mp read
      cases same
      exact (copies_skipSpace behind).trans (well.members reads)
  next =>
    obtain ⟨⟨literal, left⟩, reads, same⟩ := Option.map_eq_some_iff.mp read
    cases same
    exact spaced.trans (copies_readNumber reads)

theorem CopiesWell.readItems (well : CopiesWell toNumber fuel) {items : List (Json Number)}
    (read : Json.readItems toNumber (fuel + 1) chars = some (items, rest))
    : Copies chars rest := by
  rw [Json.readItems] at read
  obtain ⟨⟨item, behind⟩, reads, later⟩ := Option.bind_eq_some_iff.mp read
  refine (well.value reads).trans ?_
  dsimp only at later
  split at later
  next token =>
    obtain ⟨⟨others, left⟩, continues, same⟩ := Option.bind_eq_some_iff.mp later
    cases same
    exact (copies_token token).trans (well.items continues)
  next token =>
    cases later
    exact copies_token token
  next => cases later

theorem CopiesWell.readMembers (well : CopiesWell toNumber fuel)
    {members : List (CodeUnits × Json Number)}
    (read : Json.readMembers toNumber (fuel + 1) chars = some (members, rest))
    : Copies chars rest := by
  have spaced := copies_skipSpace chars
  rw [Json.readMembers] at read
  split at read
  next token =>
    obtain ⟨⟨key, behind⟩, keyed, later⟩ := Option.bind_eq_some_iff.mp read
    refine (token ▸ spaced).trans ((copies_readString keyed).trans ?_)
    dsimp only at later
    split at later
    next colon =>
      obtain ⟨⟨value, left⟩, reads, last⟩ := Option.bind_eq_some_iff.mp later
      refine (copies_token colon).trans ((well.value reads).trans ?_)
      dsimp only at last
      split at last
      next token =>
        obtain ⟨⟨others, final⟩, continues, same⟩ := Option.bind_eq_some_iff.mp last
        cases same
        exact (copies_token token).trans (well.members continues)
      next token =>
        cases last
        exact copies_token token
      next => exact nomatch last
    next => exact nomatch later
  next => exact nomatch read

/-- Whatever is read is copied, by induction over the fuel. -/
theorem copiesWell (toNumber : List Char → Number) (fuel : Nat) : CopiesWell toNumber fuel := by
  induction fuel with
  | zero =>
      exact ⟨(fun read => nomatch read), (fun read => nomatch read), fun read => nomatch read⟩
  | succ fuel well => exact ⟨well.readValue, well.readItems, well.readMembers⟩

/-- A text that is parsed is left as it is. -/
theorem sanitizeJsonControlChars_of_parse {raw : String} {value : Json Number}
    (parsed : parse toNumber raw = some value)
    : sanitizeJsonControlChars raw = raw := by
  unfold parse at parsed
  split at parsed
  next rest read =>
    split at parsed
    next ends =>
      have copied := ((copiesWell toNumber _).value read).trans (copies_skipSpace rest)
      rw [ends] at copied
      obtain ⟨front, same, escaped⟩ := copied
      have unchanged : escapeOutside raw.toList = raw.toList :=
        escaped.trans same.symm
      exact (congrArg String.ofList unchanged).trans String.ofList_toList
    next => exact nomatch parsed
  next => exact nomatch parsed

end Values

-----------------------------------------------------------------------------------------
-- Texts that were escaped before
-----------------------------------------------------------------------------------------

/-- What was escaped is left as it is, in every state of the loop, by induction over the text. -/
theorem escapeControls_escapeControls (inString escaped : Bool) (chars : List Char)
    : escapeControls inString escaped (escapeControls inString escaped chars)
      = escapeControls inString escaped chars := by
  induction chars generalizing inString escaped with
  | nil => rfl
  | cons ch rest ih =>
      cases inString with
      | false =>
          change ch :: escapeControls _ _ (escapeControls _ _ rest) = _
          rw [ih]
          rfl
      | true =>
          cases escaped with
          | true =>
              change ch :: escapeControls _ _ (escapeControls _ _ rest) = _
              rw [ih]
              rfl
          | false =>
              by_cases backslash : ch = '\\'
              · subst backslash
                change '\\' :: escapeControls true true (escapeControls true true rest) = _
                rw [ih]
                rfl
              · by_cases quote : ch = '"'
                · subst quote
                  change '"' :: escapeControls false false (escapeControls false false rest) = _
                  rw [ih]
                  rfl
                · by_cases control : ch.toNat ≤ 0x1F
                  · change escapeInside (escapeInside _) = escapeInside _
                    rw [escapeInside_control control,
                      (escape_escapeControl control).escapeInside]
                    exact congrArg _ (ih true false)
                  · change escapeInside (escapeInside _) = escapeInside _
                    rw [escapeInside_cons quote backslash control,
                      escapeInside_cons quote backslash control]
                    exact congrArg _ (ih true false)

/-- The sanitizer leaves valid texts as they are and its own results too, and it makes every
rendering with raw control characters one that is parsed as the value.
-/
theorem sanitizeJsonControlChars_correct
    : (∀ {Number : Type} (toNumber : List Char → Number) (text : String),
        (parse toNumber text).isSome → sanitizeJsonControlChars text = text)
      ∧ (∀ text : String,
          sanitizeJsonControlChars (sanitizeJsonControlChars text)
            = sanitizeJsonControlChars text)
      ∧ ∀ {Number : Type} (toNumber : List Char → Number) (value : Json Number)
          (rendering : String),
          parseRaw toNumber rendering = some value
          → parse toNumber (sanitizeJsonControlChars rendering) = some value := by
  refine ⟨fun toNumber text valid => ?_, fun text => ?_, fun _ _ _ renders => ?_⟩
  · obtain ⟨value, parsed⟩ := Option.isSome_iff_exists.mp valid
    exact sanitizeJsonControlChars_of_parse parsed
  · simp only [sanitizeJsonControlChars, String.toList_ofList,
      escapeControls_escapeControls]
  · exact parse_sanitized renders

/-- A rendering of `log` with a line break and a tab in its value. -/
def rawLog : List Char :=
  ['\x7b', '"', 'l', 'o', 'g', '"', ':', '"', 'a', '\n', '\t', 'b', '"', '\x7d']

/-- What it renders. -/
def logValue : Json Unit :=
  .object [(codeUnits "log", .string (codeUnits "a\n\tb"))]

theorem parseRaw_rawLog : parseRaw (fun _ => ()) (.ofList rawLog) = some logValue := by
  unfold parseRaw
  rw [String.toList_ofList]
  rfl

theorem sanitizeJsonControlChars_correct_log
    : parse (fun _ => ()) (.ofList rawLog) = none
      ∧ parse (fun _ => ()) (sanitizeJsonControlChars (.ofList rawLog)) = some logValue
      ∧ sanitizeJsonControlChars (sanitizeJsonControlChars (.ofList rawLog))
        = sanitizeJsonControlChars (.ofList rawLog) := by
  have invalid : parse (fun _ => ()) (.ofList rawLog) = none := by
    unfold parse
    rw [String.toList_ofList]
    rfl
  obtain ⟨kept, -, recovers⟩ := sanitizeJsonControlChars_correct
  have recovered := recovers _ _ _ parseRaw_rawLog
  exact ⟨invalid, recovered, kept (fun _ => ()) _ (Option.isSome_iff_exists.mpr ⟨_, recovered⟩)⟩

end AiSdlc.Application
