import Mathlib.Data.List.DropRight
import Mathlib.Data.List.Sort
import AiSdlc.Js.Text

/-! Operations of JavaScript that build texts from texts. -/

namespace AiSdlc.Js

/-- `text.trim()`. -/
def trim (text : String) : String :=
  .ofList ((text.toList.dropWhile isWhitespace).rdropWhile isWhitespace)

/-- The upper case of a character, where it has ASCII letters: beside the letters themselves,
sharp and long s, the dotless i and the ligatures.
-/
def upperCase (char : Char) : List Char :=
  if char.toNat = 0xDF then ['S', 'S']
  else if char.toNat = 0x131 then ['I']
  else if char.toNat = 0x17F then ['S']
  else if char.toNat = 0xFB00 then ['F', 'F']
  else if char.toNat = 0xFB01 then ['F', 'I']
  else if char.toNat = 0xFB02 then ['F', 'L']
  else if char.toNat = 0xFB03 then ['F', 'F', 'I']
  else if char.toNat = 0xFB04 then ['F', 'F', 'L']
  else if char.toNat ∈ [0xFB05, 0xFB06] then ['S', 'T']
  else [char.toUpper]

/-- `text.toUpperCase()`. -/
def toUpperCase (text : String) : String :=
  .ofList (text.toList.flatMap upperCase)

/-- `text.replace(/\s+/g, ' ')`. -/
def collapseWhitespace (text : String) : String :=
  .ofList ((text.toList.splitBy fun first second =>
    isWhitespace first && isWhitespace second).flatMap fun group =>
      if group.all isWhitespace then [' '] else group)

/-- The first code units of some characters; where they end within a surrogate pair, its half is
replaced when the text is encoded.
-/
def takeCodeUnits : Nat → List Char → List Char
  | _, [] => []
  | 0, _ :: _ => []
  | count + 1, char :: rest =>
      if char.toNat < 0x10000 then char :: takeCodeUnits count rest
      else
        match count with
        | 0 => [Char.ofNat 0xFFFD]
        | left + 1 => char :: takeCodeUnits left rest

/-- `text.slice(0, count)`. -/
def sliceTo (text : String) (count : Nat) : String :=
  .ofList (takeCodeUnits count text.toList)

/-- The characters after the first code units; the second half of a surrogate pair is replaced
when the text is encoded.
-/
def dropCodeUnits : Nat → List Char → List Char
  | _, [] => []
  | 0, chars => chars
  | count + 1, char :: rest =>
      if char.toNat < 0x10000 then dropCodeUnits count rest
      else
        match count with
        | 0 => Char.ofNat 0xFFFD :: rest
        | left + 1 => dropCodeUnits left rest

/-- `text.slice(count)`, for a count that is not negative. -/
def sliceFrom (text : String) (count : Nat) : String :=
  .ofList (dropCodeUnits count text.toList)

/-- `texts.slice().sort()`: by their code units. -/
def sortTexts (texts : List String) : List String :=
  texts.insertionSort fun left right => codeUnits left ≤ codeUnits right

/-- `texts.join(separator)`. -/
def joinTexts (separator : String) (texts : List String) : String :=
  separator.intercalate texts

/-- `text.length`. -/
def textLength (text : String) : Nat :=
  (codeUnits text).length

/-- `text.trim().split(/\s+/).filter(Boolean)`. -/
def words (text : String) : List String :=
  ((text.toList.splitOnP isWhitespace).filter (· ≠ [])).map String.ofList

/-- `text.replace(/\\\\/g, '/')`, as characters. -/
def posixChars (text : String) : List Char :=
  text.toList.map fun char => if char = '\\' then '/' else char

/-- `segments.join('/')`. -/
def joinSegments (segments : List (List Char)) : String :=
  .ofList (['/'].intercalate segments)

/-- A character that `.` matches in a regular expression. -/
def isDotCharacter (char : Char) : Bool :=
  char.toNat ∉ [0xA, 0xD, 0x2028, 0x2029]

/-- `value || other` for an optional text. -/
def orElse (value : Option String) (other : String) : String :=
  (truthy value).getD other

theorem startsWith_iff {text start : String}
    : startsWith text start = true ↔ ∃ rest, text = start ++ rest := by
  rw [startsWith, List.isPrefixOf_iff_prefix]
  constructor
  · rintro ⟨rest, same⟩
    exact ⟨.ofList rest, String.toList_injective (by simpa using same.symm)⟩
  · rintro ⟨rest, rfl⟩
    exact ⟨rest.toList, by simp⟩

theorem textLength_append (first second : String)
    : textLength (first ++ second) = textLength first + textLength second := by
  simp [textLength, codeUnits]

theorem textLength_eq_zero {text : String} : textLength text = 0 ↔ text = "" := by
  constructor
  · intro none
    cases chars : text.toList with
    | nil => exact String.toList_injective (by simpa using chars)
    | cons first rest =>
        rw [textLength, codeUnits, chars, List.flatMap_cons, List.length_append] at none
        split at none <;> simp at none
  · rintro rfl
    rfl

/-- Of two starts of one text, one starts the other. -/
theorem append_eq_append {first second others more : String}
    (same : first ++ second = others ++ more)
    : (∃ rest, others = first ++ rest ∧ second = rest ++ more)
      ∨ ∃ rest, first = others ++ rest ∧ more = rest ++ second := by
  have chars := congrArg String.toList same
  rw [String.toList_append, String.toList_append, List.append_eq_append_iff] at chars
  rcases chars with ⟨rest, longer, shorter⟩ | ⟨rest, longer, shorter⟩
  · refine .inl ⟨.ofList rest, String.toList_injective ?_, String.toList_injective ?_⟩
    · simpa using longer
    · simpa using shorter
  · refine .inr ⟨.ofList rest, String.toList_injective ?_, String.toList_injective ?_⟩
    · simpa using longer
    · simpa using shorter

/-- The code units of one character. -/
def charUnits (char : Char) : List Nat :=
  if char.toNat < 0x10000 then [char.toNat]
  else [0xD800 + (char.toNat - 0x10000) / 0x400, 0xDC00 + (char.toNat - 0x10000) % 0x400]

theorem charUnits_ne_nil (char : Char) : charUnits char ≠ [] := by
  unfold charUnits
  split <;> exact List.cons_ne_nil _ _

/-- Characters are no surrogates, so that the first code units tell how many belong together. -/
theorem charUnits_append_inj {first second : Char} {rest more : List Nat}
    (same : charUnits first ++ rest = charUnits second ++ more)
    : first = second ∧ rest = more := by
  have firstValid : first.toNat < 0xD800 ∨ 0xDFFF < first.toNat ∧ first.toNat < 0x110000 :=
    first.valid
  have secondValid : second.toNat < 0xD800 ∨ 0xDFFF < second.toNat ∧ second.toNat < 0x110000 :=
    second.valid
  have equal (numbers : first.toNat = second.toNat) : first = second :=
    Char.ext (UInt32.toNat_inj.mp numbers)
  unfold charUnits at same
  split at same <;> split at same <;>
    simp only [List.cons_append, List.nil_append, List.cons.injEq] at same
  · exact ⟨equal same.1, same.2⟩
  · omega
  · omega
  · exact ⟨equal (by omega), same.2.2⟩

/-- Texts are told apart by their code units, by induction over the characters. -/
theorem codeUnits_injective : Function.Injective codeUnits := by
  intro first second same
  refine String.toList_injective ?_
  change first.toList.flatMap charUnits = second.toList.flatMap charUnits at same
  generalize first.toList = left at same
  generalize second.toList = right at same
  induction left generalizing right with
  | nil =>
      cases right with
      | nil => rfl
      | cons char right =>
          rw [List.flatMap_cons] at same
          exact absurd (List.append_eq_nil_iff.mp same.symm).1 (charUnits_ne_nil char)
  | cons char left ih =>
      cases right with
      | nil =>
          rw [List.flatMap_cons] at same
          exact absurd (List.append_eq_nil_iff.mp same).1 (charUnits_ne_nil char)
      | cons other right =>
          obtain ⟨rfl, rest⟩ := charUnits_append_inj same
          rw [ih right rest]

theorem perm_sortTexts (texts : List String) : (sortTexts texts).Perm texts :=
  List.perm_insertionSort _ _

theorem sortTexts_eq_of_perm {texts others : List String} (same : texts.Perm others)
    : sortTexts texts = sortTexts others := by
  let sorts (left right : String) : Prop := codeUnits left ≤ codeUnits right
  have total : Std.Total sorts := ⟨fun _ _ => le_total _ _⟩
  have trans : IsTrans String sorts := ⟨fun _ _ _ first second => le_trans first second⟩
  have alike : (sortTexts texts).Perm (sortTexts others) :=
    (perm_sortTexts texts).trans (same.trans (perm_sortTexts others).symm)
  refine alike.eq_of_pairwise ?_ (List.pairwise_insertionSort sorts _)
    (List.pairwise_insertionSort sorts _)
  intro left right _ _ forth back
  exact codeUnits_injective (le_antisymm forth back)

/-- The part after the last separator tells where it stands. -/
theorem append_separator_inj {separator : Char} {left right last other : List Char}
    (free : separator ∉ last) (apart : separator ∉ other)
    (same : left ++ separator :: last = right ++ separator :: other)
    : left = right ∧ last = other := by
  rcases List.append_eq_append_iff.mp same with ⟨more, rfl, rest⟩ | ⟨more, rfl, rest⟩
  · cases more with
    | nil => exact ⟨(List.append_nil left).symm, (List.cons.inj rest).2⟩
    | cons head more => exact absurd ((List.cons.inj rest).2 ▸ by simp) free
  · cases more with
    | nil => exact ⟨List.append_nil right, (List.cons.inj rest).2.symm⟩
    | cons head more => exact absurd ((List.cons.inj rest).2 ▸ by simp) apart

/-- The part before the first separator tells where it stands. -/
theorem separator_append_inj {separator : Char} {first second rest more : List Char}
    (free : separator ∉ first) (apart : separator ∉ second)
    (same : first ++ separator :: rest = second ++ separator :: more)
    : first = second ∧ rest = more := by
  rcases List.append_eq_append_iff.mp same with ⟨between, rfl, tail⟩ | ⟨between, rfl, tail⟩
  · cases between with
    | nil => exact ⟨(List.append_nil first).symm, (List.cons.inj tail).2⟩
    | cons head between => exact absurd ((List.cons.inj tail).1 ▸ by simp) apart
  · cases between with
    | nil => exact ⟨List.append_nil second, (List.cons.inj tail).2.symm⟩
    | cons head between => exact absurd ((List.cons.inj tail).1 ▸ by simp) free

/-- Joined texts are told apart, where none is empty or contains the separator. -/
theorem joinTexts_inj {separator : Char} {first second : List String}
    (free : ∀ text ∈ first ++ second, text ≠ "" ∧ separator ∉ text.toList)
    (same : joinTexts (.singleton separator) first = joinTexts (.singleton separator) second)
    : first = second := by
  have chars : [separator].intercalate (first.map String.toList)
      = [separator].intercalate (second.map String.toList) := by
    simpa [joinTexts, String.toList_intercalate] using congrArg String.toList same
  have splits (texts : List String) (nonempty : texts ≠ [])
      (apart : ∀ text ∈ texts, text ≠ "" ∧ separator ∉ text.toList)
      : ([separator].intercalate (texts.map String.toList)).splitOn separator
        = texts.map String.toList := by
    refine List.splitOn_intercalate separator ?_ (by simpa using nonempty)
    intro chars member
    obtain ⟨text, held, rfl⟩ := List.mem_map.mp member
    exact (apart text held).2
  have filled (text : String) (texts : List String) (named : text ≠ "")
      : [separator].intercalate ((text :: texts).map String.toList) ≠ [] := by
    cases texts with
    | nil => simpa using named
    | cons other texts => simp [List.intercalate_cons_cons]
  cases first with
  | nil =>
      cases second with
      | nil => rfl
      | cons text texts => exact absurd chars.symm (filled text texts (free text (by simp)).1)
  | cons text texts =>
      cases second with
      | nil => exact absurd chars (filled text texts (free text (by simp)).1)
      | cons other others =>
          have left := splits (text :: texts) (by simp) fun held member =>
            free held (List.mem_append_left _ member)
          have right := splits (other :: others) (by simp) fun held member =>
            free held (List.mem_append_right _ member)
          rw [chars, right] at left
          have injective : Function.Injective String.toList := fun _ _ => String.toList_injective
          exact (List.map_injective_iff.mpr injective left).symm

/-- Whole numbers are told apart by their decimal digits. -/
theorem repr_injective : Function.Injective Nat.repr := by
  intro first second same
  have digits : Nat.toDigits 10 first = Nat.toDigits 10 second := by
    rw [← Nat.toList_repr, ← Nat.toList_repr, same]
  have numbers := congrArg (Nat.ofDigitChars 10 · 0) digits
  simpa only [Nat.ofDigitChars_toDigits (by decide : 1 < 10) (by decide : 10 ≤ 10)]
    using numbers

theorem isDigit_of_mem_repr {char : Char} {number : Nat} (member : char ∈ number.repr.toList)
    : char.isDigit = true := by
  rw [Nat.toList_repr] at member
  exact Nat.isDigit_of_mem_toDigits (by decide) (by decide) member

/-- The text of an integer has a sign at most beside its digits. -/
theorem mem_intText {char : Char} {number : Int} (member : char ∈ (toString number).toList)
    : char = '-' ∨ char.isDigit = true := by
  cases number with
  | ofNat value => exact .inr (isDigit_of_mem_repr member)
  | negSucc value =>
      change char ∈ ("-" ++ (value + 1).repr).toList at member
      rw [String.toList_append] at member
      rcases List.mem_append.mp member with sign | digit
      · exact .inl (List.mem_singleton.mp sign)
      · exact .inr (isDigit_of_mem_repr digit)

/-- Integers are told apart by their texts. -/
theorem intText_injective : Function.Injective (toString : Int → String) := by
  have apart (value other : Nat) : value.repr ≠ "-" ++ other.repr := by
    intro same
    have sign : '-' ∈ value.repr.toList := by
      rw [same, String.toList_append]
      exact List.mem_append_left _ List.mem_cons_self
    exact absurd (isDigit_of_mem_repr sign) (by decide)
  intro first second same
  cases first with
  | ofNat value =>
      cases second with
      | ofNat other => exact congrArg Int.ofNat (repr_injective same)
      | negSucc other => exact absurd same (apart value (other + 1))
  | negSucc value =>
      cases second with
      | ofNat other => exact absurd same.symm (apart other (value + 1))
      | negSucc other =>
          have digits : "-" ++ (value + 1).repr = "-" ++ (other + 1).repr := same
          have numbers := repr_injective ((String.append_right_inj _).mp digits)
          exact congrArg Int.negSucc (Nat.succ.inj numbers)

end AiSdlc.Js
