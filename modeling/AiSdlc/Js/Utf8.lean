import Mathlib.Data.List.Basic

/-! The bytes of texts in UTF-8, and how a decoder reads them: what is malformed is replaced, and a
byte order mark at the start is dropped.
-/

namespace AiSdlc.Js

/-- The bytes of a character in UTF-8. -/
def utf8Bytes (char : Char) : List Nat :=
  let value := char.toNat
  if value < 0x80 then [value]
  else if value < 0x800 then [0xC0 + value / 64, 0x80 + value % 64]
  else if value < 0x10000 then
    [0xE0 + value / 4096, 0x80 + value / 64 % 64, 0x80 + value % 64]
  else
    [0xF0 + value / 262144, 0x80 + value / 4096 % 64, 0x80 + value / 64 % 64,
      0x80 + value % 64]

example : (utf8Bytes 'é', utf8Bytes '€') = ([0xC3, 0xA9], [0xE2, 0x82, 0xAC]) := by
  decide

def replacementCharacter : Char :=
  Char.ofNat 0xFFFD

def byteOrderMark : Char :=
  Char.ofNat 0xFEFF

/-- A character of which some bytes are read: how many are missing, between which bounds the next
one is, and the value so far.
-/
structure Utf8Pending where
  missing : Nat
  lower : Nat
  upper : Nat
  value : Nat
  deriving DecidableEq, Repr

/-- What is read after a byte: some characters, and one that has begun. -/
abbrev Utf8Read : Type :=
  List Char × Option Utf8Pending

/-- The first byte of a character. -/
def utf8First (byte : Nat) : Utf8Read :=
  if byte < 0x80 then ([Char.ofNat byte], none)
  else if 0xC2 ≤ byte ∧ byte ≤ 0xDF then ([], some ⟨1, 0x80, 0xBF, byte - 0xC0⟩)
  else if 0xE0 ≤ byte ∧ byte ≤ 0xEF then
    let lower := if byte = 0xE0 then 0xA0 else 0x80
    let upper := if byte = 0xED then 0x9F else 0xBF
    ([], some ⟨2, lower, upper, byte - 0xE0⟩)
  else if 0xF0 ≤ byte ∧ byte ≤ 0xF4 then
    let lower := if byte = 0xF0 then 0x90 else 0x80
    let upper := if byte = 0xF4 then 0x8F else 0xBF
    ([], some ⟨3, lower, upper, byte - 0xF0⟩)
  else ([replacementCharacter], none)

/-- A byte that goes on with a character, or replaces it and begins a new one. -/
def utf8Next (byte : Nat) : Option Utf8Pending → Utf8Read
  | none => utf8First byte
  | some pending =>
      if pending.lower ≤ byte ∧ byte ≤ pending.upper then
        let value := pending.value * 64 + (byte - 0x80)
        if pending.missing = 1 then ([Char.ofNat value], none)
        else ([], some ⟨pending.missing - 1, 0x80, 0xBF, value⟩)
      else
        let (chars, begun) := utf8First byte
        (replacementCharacter :: chars, begun)

def utf8Chars : Option Utf8Pending → List Nat → List Char
  | none, [] => []
  | some _, [] => [replacementCharacter]
  | pending, byte :: rest =>
      let (chars, begun) := utf8Next byte pending
      chars ++ utf8Chars begun rest

/-- `decode` of a `TextDecoder` for UTF-8. -/
def utf8Decode : List Nat → String
  | 0xEF :: 0xBB :: 0xBF :: rest => .ofList (utf8Chars none rest)
  | bytes => .ofList (utf8Chars none bytes)

example : utf8Decode [0xEF, 0xBB, 0xBF, 0x61, 0xC3, 0xA9, 0xC3] = "aé\uFFFD" := by
  decide

section Decoding

variable {char : Char} {chars : List Char} {rest : List Nat}

theorem toNat_valid (char : Char)
    : char.toNat < 0xD800 ∨ 0xE000 ≤ char.toNat ∧ char.toNat < 0x110000 := by
  have valid := char.valid
  rw [UInt32.isValidChar, Nat.isValidChar] at valid
  change char.toNat < 55296 ∨ 57343 < char.toNat ∧ char.toNat < 1114112 at valid
  omega

theorem utf8Chars_last {lower upper value byte : Nat} (within : lower ≤ byte ∧ byte ≤ upper)
    : utf8Chars (some ⟨1, lower, upper, value⟩) (byte :: rest)
      = Char.ofNat (value * 64 + (byte - 0x80)) :: utf8Chars none rest := by
  rw [utf8Chars, utf8Next, if_pos within]
  rfl

theorem utf8Chars_next {missing lower upper value byte : Nat}
    (within : lower ≤ byte ∧ byte ≤ upper)
    : utf8Chars (some ⟨missing + 2, lower, upper, value⟩) (byte :: rest)
      = utf8Chars (some ⟨missing + 1, 0x80, 0xBF, value * 64 + (byte - 0x80)⟩) rest := by
  rw [utf8Chars, utf8Next, if_pos within]
  rfl

theorem utf8Chars_first {byte : Nat} {pending : Utf8Pending}
    (first : utf8First byte = ([], some pending))
    : utf8Chars none (byte :: rest) = utf8Chars (some pending) rest := by
  rw [utf8Chars, utf8Next, first]
  rfl

/-- The bytes of a character are read as the character. -/
theorem utf8Chars_utf8Bytes (char : Char) (rest : List Nat)
    : utf8Chars none (utf8Bytes char ++ rest) = char :: utf8Chars none rest := by
  have valid := toNat_valid char
  have self {value : Nat} (same : value = char.toNat) : Char.ofNat value = char := by
    rw [same, Char.ofNat_toNat]
  unfold utf8Bytes
  dsimp only
  split
  next ascii =>
    rw [List.singleton_append, utf8Chars, utf8Next, utf8First, if_pos ascii, self rfl]
    rfl
  split
  next two =>
    have first : utf8First (0xC0 + char.toNat / 64)
        = ([], some ⟨1, 0x80, 0xBF, char.toNat / 64⟩) := by
      rw [utf8First, if_neg (by omega), if_pos (by omega), Nat.add_sub_cancel_left]
    rw [List.cons_append, List.singleton_append, utf8Chars_first first,
      utf8Chars_last (by omega), self (by omega)]
  split
  next three =>
    have first : utf8First (0xE0 + char.toNat / 4096)
        = ([], some ⟨2, if char.toNat / 4096 = 0 then 0xA0 else 0x80,
            if char.toNat / 4096 = 13 then 0x9F else 0xBF, char.toNat / 4096⟩) := by
      rw [utf8First, if_neg (by omega), if_neg (by omega), if_pos (by omega),
        Nat.add_sub_cancel_left]
      have least : 0xE0 + char.toNat / 4096 = 0xE0 ↔ char.toNat / 4096 = 0 := by omega
      have surrogate : 0xE0 + char.toNat / 4096 = 0xED ↔ char.toNat / 4096 = 13 := by omega
      simp only [least, surrogate]
    have bounds : (if char.toNat / 4096 = 0 then 0xA0 else 0x80) ≤ 0x80 + char.toNat / 64 % 64
        ∧ 0x80 + char.toNat / 64 % 64 ≤ if char.toNat / 4096 = 13 then 0x9F else 0xBF := by
      constructor <;> split <;> omega
    rw [List.cons_append, List.cons_append, List.singleton_append, utf8Chars_first first,
      utf8Chars_next bounds, utf8Chars_last (by omega), self (by omega)]
  next four =>
    have first : utf8First (0xF0 + char.toNat / 262144)
        = ([], some ⟨3, if char.toNat / 262144 = 0 then 0x90 else 0x80,
            if char.toNat / 262144 = 4 then 0x8F else 0xBF, char.toNat / 262144⟩) := by
      rw [utf8First, if_neg (by omega), if_neg (by omega), if_neg (by omega),
        if_pos (by omega), Nat.add_sub_cancel_left]
      have least : 0xF0 + char.toNat / 262144 = 0xF0 ↔ char.toNat / 262144 = 0 := by omega
      have greatest : 0xF0 + char.toNat / 262144 = 0xF4 ↔ char.toNat / 262144 = 4 := by omega
      simp only [least, greatest]
    have bounds : (if char.toNat / 262144 = 0 then 0x90 else 0x80)
          ≤ 0x80 + char.toNat / 4096 % 64
        ∧ 0x80 + char.toNat / 4096 % 64 ≤ if char.toNat / 262144 = 4 then 0x8F else 0xBF := by
      constructor <;> split <;> omega
    rw [List.cons_append, List.cons_append, List.cons_append, List.singleton_append,
      utf8Chars_first first, utf8Chars_next bounds, utf8Chars_next (by omega),
      utf8Chars_last (by omega), self (by omega)]

/-- The bytes of a text are read as the text, by induction over its characters. -/
theorem utf8Chars_flatMap (chars : List Char)
    : utf8Chars none (chars.flatMap utf8Bytes) = chars := by
  induction chars with
  | nil => rfl
  | cons char rest ih => rw [List.flatMap_cons, utf8Chars_utf8Bytes, ih]

/-- Behind the bytes of a text, the other bytes are read alone, by induction over the text. -/
theorem utf8Chars_flatMap_append (chars : List Char) (rest : List Nat)
    : utf8Chars none (chars.flatMap utf8Bytes ++ rest) = chars ++ utf8Chars none rest := by
  induction chars with
  | nil => rfl
  | cons char others ih =>
      rw [List.flatMap_cons, List.append_assoc, utf8Chars_utf8Bytes, ih, List.cons_append]

theorem prefix_of_utf8Bytes {text now : List Char}
    (starts : text.flatMap utf8Bytes <+: now.flatMap utf8Bytes)
    : text <+: now := by
  obtain ⟨rest, same⟩ := starts
  have read := congrArg (utf8Chars none) same
  rw [utf8Chars_flatMap_append, utf8Chars_flatMap] at read
  exact ⟨_, read⟩

theorem flatMap_utf8Bytes_eq_nil {text : List Char} : text.flatMap utf8Bytes = [] ↔ text = [] := by
  constructor
  · intro none
    have read := utf8Chars_flatMap text
    rw [none] at read
    exact read.symm
  · rintro rfl
    rfl

theorem utf8Chars_continuation {byte : Nat} (within : 0x80 ≤ byte ∧ byte ≤ 0xBF)
    : utf8Chars none (byte :: rest) = replacementCharacter :: utf8Chars none rest := by
  rw [utf8Chars, utf8Next, utf8First, if_neg (by omega), if_neg (by omega), if_neg (by omega),
    if_neg (by omega)]
  rfl

/-- The bytes of a character behind the first one go on with it. -/
theorem continuation_of_mem_tail {byte : Nat} (member : byte ∈ (utf8Bytes char).tail)
    : 0x80 ≤ byte ∧ byte ≤ 0xBF := by
  unfold utf8Bytes at member
  dsimp only at member
  split at member
  · simp at member
  split at member
  · simp only [List.tail_cons, List.mem_singleton] at member
    omega
  split at member
  · simp only [List.tail_cons, List.mem_cons, List.not_mem_nil, or_false] at member
    omega
  · simp only [List.tail_cons, List.mem_cons, List.not_mem_nil, or_false] at member
    omega

theorem utf8Chars_continuations {bytes : List Nat}
    (within : ∀ byte ∈ bytes, 0x80 ≤ byte ∧ byte ≤ 0xBF)
    : utf8Chars none (bytes ++ rest)
      = List.replicate bytes.length replacementCharacter ++ utf8Chars none rest := by
  induction bytes with
  | nil => rfl
  | cons byte bytes ih =>
      obtain ⟨first, others⟩ := List.forall_mem_cons.mp within
      rw [List.cons_append, utf8Chars_continuation first, ih others]
      rfl

/-- Where the bytes of a text are read from the middle, a cut character is replaced and the ones
behind it are read, by induction over the text.
-/
theorem utf8Chars_drop (text : List Char) (count : Nat)
    : ∃ (replaced : Nat) (back : List Char), back <:+ text
      ∧ utf8Chars none ((text.flatMap utf8Bytes).drop count)
        = List.replicate replaced replacementCharacter ++ back := by
  induction text generalizing count with
  | nil => exact ⟨0, [], List.suffix_rfl, by simp [utf8Chars]⟩
  | cons char text ih =>
      rw [List.flatMap_cons]
      by_cases whole : (utf8Bytes char).length ≤ count
      · obtain ⟨replaced, back, ends, read⟩ := ih (count - (utf8Bytes char).length)
        refine ⟨replaced, back, ends.trans (List.suffix_cons _ _), ?_⟩
        rw [List.drop_append, List.drop_eq_nil_of_le whole, List.nil_append, read]
      · rw [List.drop_append_of_le_length (by omega)]
        cases count with
        | zero =>
            refine ⟨0, char :: text, List.suffix_rfl, ?_⟩
            rw [List.drop_zero, utf8Chars_utf8Bytes, utf8Chars_flatMap]
            rfl
        | succ behind =>
            refine ⟨((utf8Bytes char).drop (behind + 1)).length, text, List.suffix_cons _ _, ?_⟩
            rw [utf8Chars_continuations, utf8Chars_flatMap]
            intro byte member
            rw [← List.drop_tail] at member
            exact continuation_of_mem_tail (List.mem_of_mem_drop member)

/-- The characters without a byte order mark at the start. -/
def dropByteOrderMark : List Char → List Char
  | [] => []
  | first :: rest => if first = byteOrderMark then rest else first :: rest

theorem utf8Bytes_byteOrderMark : utf8Bytes byteOrderMark = [0xEF, 0xBB, 0xBF] := by
  decide

theorem utf8Decode_flatMap (chars : List Char)
    : utf8Decode (chars.flatMap utf8Bytes) = .ofList (dropByteOrderMark chars) := by
  have read := utf8Chars_flatMap chars
  unfold utf8Decode
  split
  next rest marked =>
    have mark : utf8Chars none (0xEF :: 0xBB :: 0xBF :: rest)
        = byteOrderMark :: utf8Chars none rest := by
      rw [← utf8Chars_utf8Bytes, utf8Bytes_byteOrderMark]
      rfl
    rw [← read, marked, mark, dropByteOrderMark, if_pos rfl]
  next unmarked =>
    rw [read]
    cases chars with
    | nil => rfl
    | cons first rest =>
        rw [dropByteOrderMark, if_neg]
        rintro rfl
        refine unmarked (rest.flatMap utf8Bytes) ?_
        rw [List.flatMap_cons, utf8Bytes_byteOrderMark]
        rfl

theorem lt_of_mem_utf8Bytes {byte : Nat} (member : byte ∈ utf8Bytes char) : byte < 256 := by
  have valid := toNat_valid char
  unfold utf8Bytes at member
  dsimp only at member
  split at member
  · rw [List.mem_singleton] at member
    omega
  split at member
  · simp only [List.mem_cons, List.not_mem_nil, or_false] at member
    omega
  split at member
  · simp only [List.mem_cons, List.not_mem_nil, or_false] at member
    omega
  · simp only [List.mem_cons, List.not_mem_nil, or_false] at member
    omega

theorem utf8Bytes_ne_nil (char : Char) : utf8Bytes char ≠ [] := by
  unfold utf8Bytes
  dsimp only
  split_ifs <;> exact List.cons_ne_nil _ _

end Decoding

end AiSdlc.Js
