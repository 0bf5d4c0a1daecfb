import Mathlib.Data.List.Infix
import Mathlib.Data.List.Lex

/-! The string and truthiness tests of JavaScript that the modelled code uses. -/

namespace AiSdlc.Js

/-- A property of every character of a list is decided along the list, not over all characters. -/
instance (priority := high) decidableForallChar (chars : List Char) (p : Char → Prop)
    [DecidablePred p]
    : Decidable (∀ char ∈ chars, p char) :=
  List.decidableBAll p chars

/-- A property of some character of a list is decided along the list, not over all characters. -/
instance (priority := high) decidableExistsChar (chars : List Char) (p : Char → Prop)
    [DecidablePred p]
    : Decidable (∃ char ∈ chars, p char) :=
  List.decidableBEx p chars

instance lawfulBEqChars : LawfulBEq (List Char) :=
  inferInstance

/-- The white space and line terminators that `String.prototype.trim` removes. -/
def isWhitespace (char : Char) : Bool :=
  char.toNat ∈ [0x9, 0xA, 0xB, 0xC, 0xD, 0x20, 0xA0, 0x1680, 0x2000, 0x2001, 0x2002, 0x2003,
    0x2004, 0x2005, 0x2006, 0x2007, 0x2008, 0x2009, 0x200A, 0x2028, 0x2029, 0x202F, 0x205F,
    0x3000, 0xFEFF]

/-- `text.trim().length === 0`. -/
def isBlank (text : String) : Bool :=
  text.toList.all isWhitespace

/-- `text.startsWith(start)`. -/
def startsWith (text start : String) : Bool :=
  start.toList.isPrefixOf text.toList

@[simp]
theorem startsWith_append (start rest : String) : startsWith (start ++ rest) start = true := by
  simp [startsWith]

/-- `text.toLowerCase()`, for the characters whose lower case has ASCII letters: beside these,
the dotted capital I and the Kelvin sign.
-/
def toLowerCase (text : String) : String :=
  .ofList (text.toList.flatMap fun char =>
    if char.toNat = 0x130 then ['i', Char.ofNat 0x307]
    else if char.toNat = 0x212A then ['k']
    else [char.toLower])

/-- `text.includes(part)`. -/
def includes (text part : String) : Bool :=
  part.toList <:+: text.toList

/-- The UTF-16 code units of a text. -/
def codeUnits (text : String) : List Nat :=
  text.toList.flatMap fun char =>
    if char.toNat < 0x10000 then [char.toNat]
    else [0xD800 + (char.toNat - 0x10000) / 0x400, 0xDC00 + (char.toNat - 0x10000) % 0x400]

/-- `left > right` for strings: by their code units, the first difference decides. -/
def isGreater (left right : String) : Bool :=
  codeUnits right < codeUnits left

/-- A comparison of texts by their code units, as `localeCompare` orders hexadecimal digests. -/
def compareCodeUnits (left right : String) : Int :=
  if left = right then 0 else if isGreater left right then 1 else -1

theorem compareCodeUnits_nonpos {left right : String}
    : compareCodeUnits left right ≤ 0 ↔ codeUnits left ≤ codeUnits right := by
  unfold compareCodeUnits isGreater
  split
  next same => simp [same]
  · split
    next greater =>
      have less : codeUnits right < codeUnits left := by simpa using greater
      exact iff_of_false (by omega) fun least => absurd less (not_lt.mpr least)
    next smaller =>
      have least : codeUnits left ≤ codeUnits right := by simpa using smaller
      exact iff_of_true (by omega) least

/-- `Boolean(value)` for an optional string: neither undefined nor empty. -/
def isSet (value : Option String) : Bool :=
  match value with
  | some text => text ≠ ""
  | none => false

/-- `Boolean(value)` for an optional whole number: neither undefined nor zero. -/
def isNonzero (value : Option Int) : Bool :=
  match value with
  | some number => number ≠ 0
  | none => false

/-- An optional string where a condition found it set. -/
def truthy (value : Option String) : Option String :=
  value.filter (fun text => text ≠ "")

/-- An optional whole number where a condition found it nonzero. -/
def nonzero (value : Option Int) : Option Int :=
  value.filter (fun number => number ≠ 0)

@[simp]
theorem isSet_none : isSet none = false := rfl

@[simp]
theorem isSet_some (text : String) : isSet (some text) = decide (text ≠ "") := rfl

theorem isSet_iff {value : Option String}
    : isSet value = true ↔ ∃ text, value = some text ∧ text ≠ "" := by
  cases value <;> simp

@[simp]
theorem truthy_eq_some {value : Option String} {text : String}
    : truthy value = some text ↔ value = some text ∧ text ≠ "" := by
  simp [truthy, Option.filter_eq_some_iff]

@[simp]
theorem nonzero_eq_some {value : Option Int} {number : Int}
    : nonzero value = some number ↔ value = some number ∧ number ≠ 0 := by
  simp [nonzero, Option.filter_eq_some_iff]

end AiSdlc.Js
