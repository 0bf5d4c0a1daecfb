import AiSdlc.Js.Json

/-! `JSON.stringify` of strings, and how lists of texts between commas are told apart. -/

namespace AiSdlc.Js

@[elab_as_elim]
theorem Json.induct {Number : Type} {motive : Json Number → Prop} (null : motive .null)
    (bool : ∀ value, motive (.bool value)) (number : ∀ value, motive (.number value))
    (string : ∀ units, motive (.string units))
    (array : ∀ items, (∀ item ∈ items, motive item) → motive (.array items))
    (object : ∀ members : List (CodeUnits × Json Number),
      (∀ member ∈ members, motive member.2) → motive (.object members))
    (value : Json Number)
    : motive value :=
  @Json.rec Number motive (fun items => ∀ item ∈ items, motive item)
    (fun members => ∀ member ∈ members, motive member.2) (fun member => motive member.2)
    null bool number string array object
    (fun _ member => absurd member List.not_mem_nil)
    (fun _ _ first others _ member => (List.mem_cons.mp member).elim (· ▸ first) (others _))
    (fun _ member => absurd member List.not_mem_nil)
    (fun _ _ first others _ member => (List.mem_cons.mp member).elim (· ▸ first) (others _))
    (fun _ _ holds => holds) value

/-- The first half of a surrogate pair. -/
def isLead (unit : Nat) : Bool :=
  0xD800 ≤ unit && unit ≤ 0xDBFF

/-- The second half of a surrogate pair. -/
def isTrail (unit : Nat) : Bool :=
  0xDC00 ≤ unit && unit ≤ 0xDFFF

/-- The code unit of a hexadecimal digit. -/
def hexUnit (digit : Nat) : Nat :=
  if digit < 10 then 0x30 + digit else 0x57 + digit

/-- `\uXXXX`. -/
def unicodeEscape (unit : Nat) : CodeUnits :=
  [0x5C, 0x75, hexUnit (unit / 4096), hexUnit (unit / 256 % 16), hexUnit (unit / 16 % 16),
    hexUnit (unit % 16)]

/-- The letters that follow a backslash, and the code units that they stand for. -/
def escapeLetters : List (Nat × Nat) :=
  [(0x8, 0x62), (0x9, 0x74), (0xA, 0x6E), (0xC, 0x66), (0xD, 0x72), (0x22, 0x22), (0x5C, 0x5C)]

/-- A code unit that is no half of a surrogate pair, as a string is quoted. -/
def quoteUnit (unit : Nat) : CodeUnits :=
  match escapeLetters.lookup unit with
  | some letter => [0x5C, letter]
  | none => if unit < 0x20 || isLead unit || isTrail unit then unicodeEscape unit else [unit]

def quoteUnits : CodeUnits → CodeUnits
  | [] => []
  | [unit] => quoteUnit unit
  | unit :: next :: rest =>
      if isLead unit && isTrail next then unit :: next :: quoteUnits rest
      else quoteUnit unit ++ quoteUnits (next :: rest)

/-- `JSON.stringify` of a string. -/
def quote (units : CodeUnits) : CodeUnits :=
  0x22 :: quoteUnits units ++ [0x22]

example : quote [0x61, 0xA, 0xD83D, 0xDE00, 0xDE00]
    = [0x22, 0x61, 0x5C, 0x6E, 0xD83D, 0xDE00, 0x5C, 0x75, 0x64, 0x65, 0x30, 0x30, 0x22] := by
  decide

/-- The digit of a code unit. -/
def hexValue (unit : Nat) : Nat :=
  if unit < 0x3A then unit - 0x30 else unit - 0x57

/-- The code unit that a letter behind a backslash stands for. -/
def unescape (letter : Nat) : Nat :=
  ((escapeLetters.find? fun escape => escape.2 = letter).map Prod.fst).getD letter

/-- Reads a quoted string behind its opening quotation mark. -/
def readQuoted : CodeUnits → Option (CodeUnits × CodeUnits)
  | [] => none
  | 0x22 :: rest => some ([], rest)
  | 0x5C :: 0x75 :: first :: second :: third :: fourth :: rest =>
      let value := ((hexValue first * 16 + hexValue second) * 16 + hexValue third) * 16
        + hexValue fourth
      (readQuoted rest).map fun read => (value :: read.1, read.2)
  | 0x5C :: letter :: rest => (readQuoted rest).map fun read => (unescape letter :: read.1, read.2)
  | unit :: rest => (readQuoted rest).map fun read => (unit :: read.1, read.2)

section Quoted

variable {unit : Nat} {units others rest rest' : CodeUnits}

theorem hexValue_hexUnit {digit : Nat} (least : digit < 16) : hexValue (hexUnit digit) = digit := by
  unfold hexValue hexUnit
  split <;> split <;> omega

theorem readQuoted_plain (quotes : unit ≠ 0x22) (backslash : unit ≠ 0x5C)
    : readQuoted (unit :: rest) = (readQuoted rest).map fun read => (unit :: read.1, read.2) := by
  rw [readQuoted]
  · exact quotes
  · exact fun _ _ _ _ _ same => absurd same backslash
  · exact fun _ _ same => absurd same backslash

theorem readQuoted_unicodeEscape (least : unit < 0x10000)
    : readQuoted (unicodeEscape unit ++ rest)
      = (readQuoted rest).map fun read => (unit :: read.1, read.2) := by
  have value : ((unit / 4096 * 16 + unit / 256 % 16) * 16 + unit / 16 % 16) * 16 + unit % 16
      = unit := by
    omega
  have digit {value : Nat} : hexValue (hexUnit (value % 16)) = value % 16 :=
    hexValue_hexUnit (Nat.mod_lt _ (by decide))
  unfold unicodeEscape
  simp only [List.cons_append, List.nil_append]
  rw [readQuoted, hexValue_hexUnit (by omega : unit / 4096 < 16), digit, digit, digit]
  simp only [value]

theorem unescape_of_lookup {letter : Nat} (listed : escapeLetters.lookup unit = some letter)
    : unescape letter = unit ∧ letter ≠ 0x75 := by
  obtain ⟨before, after, same, -⟩ := List.lookup_eq_some_iff.mp listed
  have each : ∀ escape ∈ escapeLetters, unescape escape.2 = escape.1 ∧ escape.2 ≠ 0x75 := by
    decide
  exact each (unit, letter) (same ▸ List.mem_append_right _ List.mem_cons_self)

theorem readQuoted_escape {letter : Nat} (listed : escapeLetters.lookup unit = some letter)
    : readQuoted (0x5C :: letter :: rest)
      = (readQuoted rest).map fun read => (unit :: read.1, read.2) := by
  obtain ⟨same, other⟩ := unescape_of_lookup listed
  rw [readQuoted, same]
  intro _ _ _ _ _ unicode
  exact absurd unicode other

theorem readQuoted_quoteUnit (unit : Nat) (rest : CodeUnits)
    : readQuoted (quoteUnit unit ++ rest)
      = (readQuoted rest).map fun read => (unit :: read.1, read.2) := by
  unfold quoteUnit
  cases listed : escapeLetters.lookup unit with
  | some letter => exact readQuoted_escape listed
  | none =>
      dsimp only
      split
      next escaped =>
        refine readQuoted_unicodeEscape ?_
        simp only [isLead, isTrail, Bool.or_eq_true, Bool.and_eq_true, decide_eq_true_eq] at escaped
        omega
      next plain =>
        refine readQuoted_plain ?_ ?_
        · rintro rfl
          cases listed
        · rintro rfl
          cases listed

/-- A quoted string is read back, by induction over its code units. -/
theorem readQuoted_quoteUnits (units rest : CodeUnits)
    : readQuoted (quoteUnits units ++ 0x22 :: rest) = some (units, rest) := by
  induction units using quoteUnits.induct with
  | case1 => rfl
  | case2 unit =>
      rw [quoteUnits, readQuoted_quoteUnit]
      rfl
  | case3 unit next units pair ih =>
      rw [quoteUnits, if_pos pair]
      simp only [isLead, isTrail, Bool.and_eq_true, decide_eq_true_eq] at pair
      rw [List.cons_append, List.cons_append, readQuoted_plain (by omega) (by omega),
        readQuoted_plain (by omega) (by omega), ih]
      rfl
  | case4 unit next units apart ih =>
      rw [quoteUnits, if_neg apart, List.append_assoc, readQuoted_quoteUnit, ih]
      rfl

/-- Quoted strings are told apart, whatever follows them. -/
theorem quote_append_inj (same : quote units ++ rest = quote others ++ rest')
    : units = others ∧ rest = rest' := by
  simp only [quote, List.cons_append, List.append_assoc, List.nil_append, List.cons.injEq,
    true_and] at same
  have read := congrArg readQuoted same
  rw [readQuoted_quoteUnits, readQuoted_quoteUnits, Option.some.injEq, Prod.mk.injEq] at read
  exact read

end Quoted

/-- The code units of a text without single surrogates. -/
inductive Paired : CodeUnits → Prop
  | nil : Paired []
  | single {unit : Nat} {rest : CodeUnits} (lead : isLead unit = false)
      (trail : isTrail unit = false) (others : Paired rest)
      : Paired (unit :: rest)
  | pair {unit next : Nat} {rest : CodeUnits} (lead : isLead unit = true)
      (trail : isTrail next = true) (others : Paired rest)
      : Paired (unit :: next :: rest)

section Pairs

variable {units others : CodeUnits}

theorem Paired.append (paired : Paired units) (also : Paired others)
    : Paired (units ++ others) := by
  induction paired with
  | nil => exact also
  | single lead trail _ ih => exact .single lead trail ih
  | pair lead trail _ ih => exact .pair lead trail ih

/-- ASCII characters are no surrogates. -/
theorem paired_of_ascii (ascii : ∀ unit ∈ units, unit < 0x80) : Paired units := by
  induction units with
  | nil => exact .nil
  | cons unit units ih =>
      obtain ⟨first, rest⟩ := List.forall_mem_cons.mp ascii
      refine .single ?_ ?_ (ih rest)
      · simp only [isLead, Bool.and_eq_false_iff, decide_eq_false_iff_not]
        omega
      · simp only [isTrail, Bool.and_eq_false_iff, decide_eq_false_iff_not]
        omega

/-- Single surrogates are escaped. -/
theorem paired_quoteUnit (unit : Nat) : Paired (quoteUnit unit) := by
  unfold quoteUnit
  cases listed : escapeLetters.lookup unit with
  | some letter =>
      obtain ⟨before, after, same, -⟩ := List.lookup_eq_some_iff.mp listed
      have each : ∀ escape ∈ escapeLetters, escape.2 < 0x80 := by
        decide
      have least := each (unit, letter) (same ▸ List.mem_append_right _ List.mem_cons_self)
      exact paired_of_ascii (by simpa using least)
  | none =>
      dsimp only
      split
      next escaped =>
        have digit (value : Nat) : hexUnit (value % 16) < 0x80 := by
          unfold hexUnit
          split <;> omega
        have first : hexUnit (unit / 4096) < 0x80 := by
          simp only [isLead, isTrail, Bool.or_eq_true, Bool.and_eq_true, decide_eq_true_eq]
            at escaped
          unfold hexUnit
          split <;> omega
        refine paired_of_ascii ?_
        simp [unicodeEscape, digit, first]
      next plain =>
        simp only [Bool.or_eq_true, not_or, Bool.not_eq_true] at plain
        exact .single plain.1.2 plain.2 .nil

/-- A quoted string has no single surrogate, by induction over its code units. -/
theorem paired_quote (units : CodeUnits) : Paired (quote units) := by
  have paired : Paired (quoteUnits units) := by
    induction units using quoteUnits.induct with
    | case1 => exact .nil
    | case2 unit => exact paired_quoteUnit unit
    | case3 unit next units pair ih =>
        rw [quoteUnits, if_pos pair]
        rw [Bool.and_eq_true] at pair
        exact .pair pair.1 pair.2 ih
    | case4 unit next units apart ih =>
        rw [quoteUnits, if_neg apart]
        exact (paired_quoteUnit unit).append ih
  exact (Paired.single rfl rfl paired).append (.single rfl rfl .nil)

end Pairs

section Joined

variable {α β : Type} {text : α → CodeUnits} {other : β → CodeUnits} {related : α → β → Prop}
  {closing : Nat} {items : List α} {others : List β} {rest rest' : CodeUnits}

/-- What follows a value: nothing, a comma, or what closes a list. -/
def Delimits (rest : CodeUnits) : Prop :=
  ∀ unit ∈ rest.head?, unit = 0x2C ∨ unit = 0x5D ∨ unit = 0x7D

/-- The texts of two values are told apart, whatever follows them. -/
def TellsApart (text : α → CodeUnits) (other : β → CodeUnits) (related : α → β → Prop)
    (item : α) (item' : β)
    : Prop :=
  ∀ rest rest', Delimits rest → Delimits rest' → text item ++ rest = other item' ++ rest'
    → related item item' ∧ rest = rest'

theorem intercalate_cons {γ : Type} (separator : γ) (part : List γ) (parts : List (List γ))
    : [separator].intercalate (part :: parts)
      = part ++ parts.flatMap fun next => separator :: next := by
  induction parts generalizing part with
  | nil => simp
  | cons next parts ih =>
      rw [List.intercalate_cons_of_ne_nil (List.cons_ne_nil _ _), ih, List.flatMap_cons]
      simp

theorem paired_intercalate {texts : List CodeUnits} (each : ∀ text ∈ texts, Paired text)
    : Paired ([0x2C].intercalate texts) := by
  cases texts with
  | nil => exact .nil
  | cons text texts =>
      obtain ⟨first, others⟩ := List.forall_mem_cons.mp each
      rw [intercalate_cons]
      refine first.append ?_
      clear each
      induction texts with
      | nil => exact .nil
      | cons next texts ih =>
          obtain ⟨first, others⟩ := List.forall_mem_cons.mp others
          exact (Paired.single rfl rfl first).append (ih others)

/-- What follows a value in a list is a comma, or closes the list. -/
theorem delimits_behind (closes : closing = 0x5D ∨ closing = 0x7D)
    : Delimits (items.flatMap (0x2C :: text ·) ++ closing :: rest) := by
  intro unit first
  cases items with
  | nil =>
      cases first
      exact .inr closes
  | cons item items =>
      cases first
      exact .inl rfl

/-- Texts behind commas are told apart one by one, by induction over the values. -/
theorem commas_inj (closes : closing = 0x5D ∨ closing = 0x7D)
    (apart : ∀ item ∈ items, ∀ item' ∈ others, TellsApart text other related item item')
    (same : items.flatMap (0x2C :: text ·) ++ closing :: rest
      = others.flatMap (0x2C :: other ·) ++ closing :: rest')
    : List.Forall₂ related items others ∧ rest = rest' := by
  induction items generalizing others with
  | nil =>
      cases others with
      | nil => exact ⟨.nil, (List.cons.inj same).2⟩
      | cons item' others =>
          have first := (List.cons.inj same).1
          omega
  | cons item items ih =>
      cases others with
      | nil =>
          have first := (List.cons.inj same).1
          omega
      | cons item' others =>
          rw [List.flatMap_cons, List.flatMap_cons, List.append_assoc, List.append_assoc] at same
          obtain ⟨-, same⟩ := List.cons.inj same
          obtain ⟨found, same⟩ := apart item List.mem_cons_self item' List.mem_cons_self _ _
            (delimits_behind closes) (delimits_behind closes) same
          obtain ⟨found', ends⟩ := ih (fun item member item' member' =>
            apart item (List.mem_cons_of_mem _ member) item' (List.mem_cons_of_mem _ member')) same
          exact ⟨.cons found found', ends⟩

/-- Texts between commas are told apart one by one, where none of them closes the list. -/
theorem joined_inj (closes : closing = 0x5D ∨ closing = 0x7D)
    (opens : ∀ item ∈ items, ∃ unit more, text item = unit :: more ∧ unit ≠ closing)
    (opens' : ∀ item' ∈ others, ∃ unit more, other item' = unit :: more ∧ unit ≠ closing)
    (apart : ∀ item ∈ items, ∀ item' ∈ others, TellsApart text other related item item')
    (same : [0x2C].intercalate (items.map text) ++ closing :: rest
      = [0x2C].intercalate (others.map other) ++ closing :: rest')
    : List.Forall₂ related items others ∧ rest = rest' := by
  cases items with
  | nil =>
      cases others with
      | nil => exact ⟨.nil, (List.cons.inj same).2⟩
      | cons item' others =>
          obtain ⟨unit, more, starts, differs⟩ := opens' item' List.mem_cons_self
          rw [List.map_cons, intercalate_cons, starts] at same
          exact absurd (List.cons.inj same).1.symm differs
  | cons item items =>
      cases others with
      | nil =>
          obtain ⟨unit, more, starts, differs⟩ := opens item List.mem_cons_self
          rw [List.map_cons, intercalate_cons, starts] at same
          exact absurd (List.cons.inj same).1 differs
      | cons item' others =>
          rw [List.map_cons, List.map_cons, intercalate_cons, intercalate_cons, List.flatMap_map,
            List.flatMap_map, List.append_assoc, List.append_assoc] at same
          obtain ⟨found, same⟩ := apart item List.mem_cons_self item' List.mem_cons_self _ _
            (delimits_behind closes) (delimits_behind closes) same
          obtain ⟨found', ends⟩ := commas_inj closes (fun item member item' member' =>
            apart item (List.mem_cons_of_mem _ member) item' (List.mem_cons_of_mem _ member')) same
          exact ⟨.cons found found', ends⟩

end Joined

end AiSdlc.Js
