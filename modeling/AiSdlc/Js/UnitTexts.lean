import AiSdlc.Js.Json
import AiSdlc.Js.Lines
import AiSdlc.Js.Text
import AiSdlc.Js.Utf8

/-! Texts as their code units: their characters and their length in UTF-8, searches for a part, and
what is left without white space at the end.
-/

namespace AiSdlc.Js

/-- `'\n'`. -/
def newline : Nat :=
  10

def isHighSurrogate (unit : Nat) : Bool :=
  0xD800 ≤ unit ∧ unit ≤ 0xDBFF

def isLowSurrogate (unit : Nat) : Bool :=
  0xDC00 ≤ unit ∧ unit ≤ 0xDFFF

/-- The character of a code unit; a surrogate alone is written as the replacement character. -/
def unitChar (unit : Nat) : Char :=
  if isHighSurrogate unit || isLowSurrogate unit then replacementCharacter else Char.ofNat unit

/-- The characters that are written of a text. -/
def unitChars : CodeUnits → List Char
  | [] => []
  | [unit] => [unitChar unit]
  | high :: low :: rest =>
      if isHighSurrogate high ∧ isLowSurrogate low then
        Char.ofNat (0x10000 + (high - 0xD800) * 0x400 + (low - 0xDC00)) :: unitChars rest
      else unitChar high :: unitChars (low :: rest)

/-- `text.toWellFormed()`. -/
def toWellFormed (text : CodeUnits) : CodeUnits :=
  codeUnits (.ofList (unitChars text))

/-- The bytes of one code unit; a surrogate alone is written as the replacement character. -/
def unitBytes (unit : Nat) : Nat :=
  if unit < 0x80 then 1 else if unit < 0x800 then 2 else 3

/-- `Buffer.byteLength(text, 'utf-8')`. -/
def byteLength : CodeUnits → Nat
  | [] => 0
  | [unit] => unitBytes unit
  | high :: low :: rest =>
      if isHighSurrogate high ∧ isLowSurrogate low then 4 + byteLength rest
      else unitBytes high + byteLength (low :: rest)

/-- `text.indexOf(part)`. -/
def findPart (part : CodeUnits) : CodeUnits → Option Nat
  | [] => if part = [] then some 0 else none
  | unit :: rest =>
      if part.isPrefixOf (unit :: rest) then some 0 else (findPart part rest).map (· + 1)

/-- `text.indexOf(part, position)`. -/
def findPartFrom (part text : CodeUnits) (position : Nat) : Option Nat :=
  (findPart part (text.drop position)).map (· + position)

/-- The code units that `trimEnd` removes; no surrogate is among them. -/
def isSpaceUnit (unit : Nat) : Bool :=
  isWhitespace (Char.ofNat unit)

/-- `text.trimEnd()`. -/
def trimEndUnits (text : CodeUnits) : CodeUnits :=
  text.rdropWhile isSpaceUnit

section Characters

variable {unit : Nat} {rest : CodeUnits}

theorem unitChars_cons_of_not_high (single : isHighSurrogate unit = false)
    : unitChars (unit :: rest) = unitChar unit :: unitChars rest := by
  cases rest with
  | nil => rfl
  | cons low rest => rw [unitChars, if_neg (by simp [single])]

/-- The characters of a text without lone surrogates are those that it consists of. -/
theorem unitChars_codeUnits (text : String) : unitChars (codeUnits text) = text.toList := by
  unfold codeUnits
  induction text.toList with
  | nil => rfl
  | cons char chars ih =>
      have valid := toNat_valid char
      rw [List.flatMap_cons]
      split
      next small =>
        have high : isHighSurrogate char.toNat = false := by
          simp only [isHighSurrogate, decide_eq_false_iff_not]
          omega
        have low : isLowSurrogate char.toNat = false := by
          simp only [isLowSurrogate, decide_eq_false_iff_not]
          omega
        rw [List.singleton_append, unitChars_cons_of_not_high high, unitChar, high, low, ih,
          Bool.or_self, if_neg Bool.false_ne_true, Char.ofNat_toNat]
      next large =>
        have pair : isHighSurrogate (0xD800 + (char.toNat - 0x10000) / 0x400) = true
            ∧ isLowSurrogate (0xDC00 + (char.toNat - 0x10000) % 0x400) = true := by
          simp only [isHighSurrogate, isLowSurrogate, decide_eq_true_eq]
          omega
        have value : 0x10000 + (0xD800 + (char.toNat - 0x10000) / 0x400 - 0xD800) * 0x400
            + (0xDC00 + (char.toNat - 0x10000) % 0x400 - 0xDC00) = char.toNat := by
          omega
        rw [List.cons_append, List.singleton_append, unitChars, if_pos pair, value, ih,
          Char.ofNat_toNat]

theorem toWellFormed_codeUnits (text : String)
    : toWellFormed (codeUnits text) = codeUnits text := by
  rw [toWellFormed, unitChars_codeUnits, String.ofList_toList]

example : toWellFormed [0x61, 0xD800, 0x62] = [0x61, 0xFFFD, 0x62] := by
  decide

end Characters

section Lengths

variable {first second text : CodeUnits} {unit : Nat}

theorem unitBytes_pos (unit : Nat) : 0 < unitBytes unit := by
  unfold unitBytes
  split
  · omega
  · split <;> omega

theorem unitBytes_le (unit : Nat) : unitBytes unit ≤ 3 := by
  unfold unitBytes
  split
  · omega
  · split <;> omega

theorem unitBytes_of_high (high : isHighSurrogate unit = true) : unitBytes unit = 3 := by
  simp only [isHighSurrogate, Bool.decide_and, Bool.and_eq_true, decide_eq_true_eq] at high
  rw [unitBytes, if_neg (by omega), if_neg (by omega)]

theorem unitBytes_of_low (low : isLowSurrogate unit = true) : unitBytes unit = 3 := by
  simp only [isLowSurrogate, Bool.decide_and, Bool.and_eq_true, decide_eq_true_eq] at low
  rw [unitBytes, if_neg (by omega), if_neg (by omega)]

theorem byteLength_le (text : CodeUnits) : byteLength text ≤ 3 * text.length := by
  fun_induction byteLength text with
  | case1 => omega
  | case2 unit => exact unitBytes_le unit
  | case3 high low rest pair ih =>
      simp only [List.length_cons]
      omega
  | case4 high low rest single ih =>
      have one := unitBytes_le high
      simp only [List.length_cons] at ih ⊢
      omega

theorem length_le_byteLength (text : CodeUnits) : text.length ≤ byteLength text := by
  fun_induction byteLength text with
  | case1 => exact Nat.le_refl _
  | case2 unit => exact unitBytes_pos unit
  | case3 high low rest pair ih =>
      rw [List.length_cons, List.length_cons]
      omega
  | case4 high low rest single ih =>
      have here := unitBytes_pos high
      rw [List.length_cons]
      omega

/-- One more code unit in front adds its bytes at most. -/
theorem byteLength_cons_le (unit : Nat) (text : CodeUnits)
    : byteLength (unit :: text) ≤ unitBytes unit + byteLength text := by
  cases text with
  | nil => exact Nat.le_refl _
  | cons next rest =>
      rw [byteLength]
      split
      next pair =>
        -- The pair takes four bytes, and its halves alone would take three each.
        have high := unitBytes_of_high pair.1
        have low : 1 + byteLength rest ≤ byteLength (next :: rest) := by
          cases rest with
          | nil =>
              rw [byteLength, byteLength, unitBytes_of_low pair.2]
              omega
          | cons other rest =>
              have alone : ¬(isHighSurrogate next = true ∧ isLowSurrogate other = true) := by
                intro both
                have upper := both.1
                have lower := pair.2
                simp only [isHighSurrogate, isLowSurrogate, Bool.decide_and, Bool.and_eq_true,
                  decide_eq_true_eq] at upper lower
                omega
              rw [byteLength.eq_3 next, if_neg alone, unitBytes_of_low pair.2]
              omega
        omega
      · exact Nat.le_refl _

/-- Joined texts have at most the bytes of both. -/
theorem byteLength_append_le (first second : CodeUnits)
    : byteLength (first ++ second) ≤ byteLength first + byteLength second := by
  fun_induction byteLength first with
  | case1 => simp
  | case2 unit => exact byteLength_cons_le unit second
  | case3 high low rest pair ih =>
      rw [List.cons_append, List.cons_append, byteLength, if_pos pair]
      omega
  | case4 high low rest single ih =>
      rw [List.cons_append, List.cons_append, byteLength, if_neg single]
      rw [List.cons_append] at ih
      omega

end Lengths

section Searches

variable {part text rest : CodeUnits} {index : Nat}

theorem prefix_of_findPart (found : findPart part text = some index)
    : part <+: text.drop index ∧ index ≤ text.length := by
  induction text generalizing index with
  | nil =>
      rw [findPart] at found
      split at found
      next empty =>
        cases found
        exact ⟨empty ▸ List.nil_prefix, Nat.le_refl 0⟩
      · cases found
  | cons unit rest ih =>
      rw [findPart] at found
      split at found
      next starts =>
        cases found
        exact ⟨List.isPrefixOf_iff_prefix.mp starts, Nat.zero_le _⟩
      · obtain ⟨before, earlier, rfl⟩ := Option.map_eq_some_iff.mp found
        obtain ⟨starts, within⟩ := ih earlier
        exact ⟨starts, Nat.succ_le_succ within⟩

theorem le_of_findPartFrom {position : Nat} (found : findPartFrom part text position = some index)
    : position ≤ index := by
  obtain ⟨ahead, -, rfl⟩ := Option.map_eq_some_iff.mp found
  exact Nat.le_add_left _ _

/-- The last separator is behind everything but a rest without one. -/
theorem lastIndexOf_append {front back : List Nat} {separator : Nat} (free : separator ∉ back)
    : lastIndexOf (front ++ separator :: back) separator
        (front ++ separator :: back).length = front.length := by
  have missing : back.reverse.findIdx? (· = separator) = none :=
    List.findIdx?_eq_none_iff.mpr fun item held =>
      decide_eq_false fun same => free (same ▸ List.mem_reverse.mp held)
  have whole : (front ++ separator :: back).take
      (((front ++ separator :: back).length : Int).toNat + 1) = front ++ separator :: back :=
    List.take_of_length_le (by omega)
  rw [lastIndexOf]
  simp only [whole, List.reverse_append, List.reverse_cons, List.append_assoc,
    List.findIdx?_append, missing, Option.none_or]
  simp
  omega

theorem exists_last {items : List Nat} {separator : Nat} (member : separator ∈ items)
    : ∃ front back, items = front ++ separator :: back ∧ separator ∉ back := by
  obtain ⟨back, front, split, free⟩ := List.eq_append_cons_of_mem (List.mem_reverse.mpr member)
  refine ⟨front.reverse, back.reverse, ?_, by simpa using free⟩
  rw [← List.reverse_reverse items, split]
  simp

theorem trimEndUnits_prefix (text : CodeUnits) : trimEndUnits text <+: text :=
  List.rdropWhile_prefix _ text

/-- What ends without white space stays in front of a rest that is trimmed. -/
theorem trimEndUnits_append {front : CodeUnits} {last : Nat} (back : CodeUnits)
    (solid : isSpaceUnit last = false)
    : trimEndUnits (front ++ [last] ++ back) = front ++ [last] ++ trimEndUnits back := by
  induction back using List.reverseRecOn with
  | nil =>
      rw [List.append_nil, trimEndUnits, trimEndUnits, List.rdropWhile_nil, List.append_nil,
        List.rdropWhile_concat_neg _ _ _ (by simp [solid])]
  | append_singleton rest unit ih =>
      rw [← List.append_assoc]
      by_cases space : isSpaceUnit unit = true
      · rw [trimEndUnits, List.rdropWhile_concat_pos _ _ _ space, trimEndUnits,
          List.rdropWhile_concat_pos _ _ _ space]
        exact ih
      · rw [trimEndUnits, List.rdropWhile_concat_neg _ _ _ space, trimEndUnits,
          List.rdropWhile_concat_neg _ _ _ space, List.append_assoc]

end Searches

end AiSdlc.Js
