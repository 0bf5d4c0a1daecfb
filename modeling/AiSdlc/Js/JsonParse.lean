import AiSdlc.Js.Json

/-! `JSON.parse`, read by recursive descent. What number a literal stands for is left open. -/

namespace AiSdlc.Js

namespace Json

-----------------------------------------------------------------------------------------
-- Tokens
-----------------------------------------------------------------------------------------

/-- The white space between tokens. -/
def isSpace (char : Char) : Bool :=
  char ∈ [' ', '\t', '\n', '\r']

def skipSpace (chars : List Char) : List Char :=
  chars.dropWhile isSpace

/-- The value of a hexadecimal digit. -/
def hexDigit? (char : Char) : Option Nat :=
  if char.isDigit then some (char.toNat - '0'.toNat)
  else if 'a' ≤ char && char ≤ 'f' then some (char.toNat - 'a'.toNat + 10)
  else if 'A' ≤ char && char ≤ 'F' then some (char.toNat - 'A'.toNat + 10)
  else none

/-- The code unit that four hexadecimal digits name. -/
def hexUnit? (digits : List Char) : Option Nat :=
  digits.foldlM (fun unit char => (hexDigit? char).map (unit * 16 + ·)) 0

/-- The code unit of an escape of one character. -/
def escapeUnit? : Char → Option Nat
  | '"' => some 0x22
  | '\\' => some 0x5C
  | '/' => some 0x2F
  | 'b' => some 0x8
  | 'f' => some 0xC
  | 'n' => some 0xA
  | 'r' => some 0xD
  | 't' => some 0x9
  | _ => none

/-- Reads a string behind its opening quotation mark. -/
def readString : List Char → Option (CodeUnits × List Char)
  | [] => none
  | '"' :: rest => some ([], rest)
  | '\\' :: 'u' :: first :: second :: third :: fourth :: rest => do
      let unit ← hexUnit? [first, second, third, fourth]
      let (units, rest) ← readString rest
      some (unit :: units, rest)
  | '\\' :: char :: rest => do
      let unit ← escapeUnit? char
      let (units, rest) ← readString rest
      some (unit :: units, rest)
  | char :: rest =>
      if char = '\\' || char.toNat < 0x20 then none
      else do
        let (units, rest) ← readString rest
        some (charUnits char ++ units, rest)

/-- Reads one or more digits. -/
def readDigits (chars : List Char) : Option (List Char × List Char) :=
  match chars.span Char.isDigit with
  | ([], _) => none
  | (digits, rest) => some (digits, rest)

/-- Reads the whole part of a number, which has no leading zero. -/
def readWhole (chars : List Char) : Option (List Char × List Char) := do
  let (digits, rest) ← readDigits chars
  if digits.head? = some '0' && 1 < digits.length then none else some (digits, rest)

def readFraction : List Char → Option (List Char × List Char)
  | '.' :: rest => (readDigits rest).map fun (digits, rest) => ('.' :: digits, rest)
  | rest => some ([], rest)

def readExponent : List Char → Option (List Char × List Char)
  | char :: rest =>
      if char = 'e' || char = 'E' then
        match rest with
        | '+' :: rest => (readDigits rest).map fun (digits, rest) => (char :: '+' :: digits, rest)
        | '-' :: rest => (readDigits rest).map fun (digits, rest) => (char :: '-' :: digits, rest)
        | rest => (readDigits rest).map fun (digits, rest) => (char :: digits, rest)
      else some ([], char :: rest)
  | [] => some ([], [])

def readSign : List Char → List Char × List Char
  | '-' :: rest => (['-'], rest)
  | rest => ([], rest)

/-- Reads the literal of a number. -/
def readNumber (chars : List Char) : Option (List Char × List Char) := do
  let (sign, rest) := readSign chars
  let (whole, rest) ← readWhole rest
  let (fraction, rest) ← readFraction rest
  let (exponent, rest) ← readExponent rest
  some (sign ++ whole ++ fraction ++ exponent, rest)

section Values

variable {Number : Type} (toNumber : List Char → Number)

/-- Defines a member: a later one replaces an earlier one of the same key. -/
def setMember (members : List (CodeUnits × Json Number)) (member : CodeUnits × Json Number)
    : List (CodeUnits × Json Number) :=
  if member.1 ∈ members.map Prod.fst then
    members.map fun other => if other.1 = member.1 then member else other
  else members ++ [member]

mutual

/-- Reads a value; every step down into one uses up some fuel. -/
def readValue : Nat → List Char → Option (Json Number × List Char)
  | 0, _ => none
  | fuel + 1, chars =>
      match skipSpace chars with
      | 'n' :: 'u' :: 'l' :: 'l' :: rest => some (null, rest)
      | 't' :: 'r' :: 'u' :: 'e' :: rest => some (bool true, rest)
      | 'f' :: 'a' :: 'l' :: 's' :: 'e' :: rest => some (bool false, rest)
      | '"' :: rest => (readString rest).map fun (units, rest) => (string units, rest)
      | '[' :: rest =>
          match skipSpace rest with
          | ']' :: rest => some (array [], rest)
          | rest => (readItems fuel rest).map fun (items, rest) => (array items, rest)
      | '{' :: rest =>
          match skipSpace rest with
          | '}' :: rest => some (object [], rest)
          | rest =>
              (readMembers fuel rest).map fun (members, rest) =>
                (object (members.foldl setMember []), rest)
      | rest => (readNumber rest).map fun (literal, rest) => (number (toNumber literal), rest)

/-- Reads the items of an array, up to its closing bracket. -/
def readItems : Nat → List Char → Option (List (Json Number) × List Char)
  | 0, _ => none
  | fuel + 1, chars => do
      let (item, rest) ← readValue fuel chars
      match skipSpace rest with
      | ',' :: rest => do
          let (items, rest) ← readItems fuel rest
          some (item :: items, rest)
      | ']' :: rest => some ([item], rest)
      | _ => none

/-- Reads the members of an object, up to its closing brace. -/
def readMembers : Nat → List Char → Option (List (CodeUnits × Json Number) × List Char)
  | 0, _ => none
  | fuel + 1, chars =>
      match skipSpace chars with
      | '"' :: rest => do
          let (key, rest) ← readString rest
          match skipSpace rest with
          | ':' :: rest => do
              let (value, rest) ← readValue fuel rest
              match skipSpace rest with
              | ',' :: rest => do
                  let (members, rest) ← readMembers fuel rest
                  some ((key, value) :: members, rest)
              | '}' :: rest => some ([(key, value)], rest)
              | _ => none
          | _ => none
      | _ => none

end

/-- `JSON.parse(text)`: a value and nothing behind it, or no value where it throws. -/
def parse (text : String) : Option (Json Number) :=
  match readValue toNumber (2 * text.toList.length + 1) text.toList with
  | some (value, rest) => if skipSpace rest = [] then some value else none
  | none => none

end Values

section Reads

variable {chars rest digits literal : List Char} {units : CodeUnits}

theorem skipSpace_length (chars : List Char) : (skipSpace chars).length ≤ chars.length :=
  (List.dropWhile_sublist _).length_le

/-- Four digits that name a code unit are hexadecimal, by induction over them. -/
theorem hexDigit_of_hexUnit {unit : Nat} (names : hexUnit? digits = some unit)
    : ∀ char ∈ digits, (hexDigit? char).isSome = true := by
  unfold hexUnit? at names
  generalize 0 = start at names
  induction digits generalizing start with
  | nil => exact fun _ member => nomatch member
  | cons first rest ih =>
      rw [List.foldlM_cons] at names
      obtain ⟨next, here, later⟩ := Option.bind_eq_some_iff.mp names
      obtain ⟨value, digit, -⟩ := Option.map_eq_some_iff.mp here
      exact List.forall_mem_cons.mpr ⟨Option.isSome_iff_exists.mpr ⟨value, digit⟩, ih _ later⟩

/-- Hexadecimal digits are told apart from what delimits strings. -/
theorem ne_of_hexDigit {char : Char} (digit : (hexDigit? char).isSome = true)
    : char ≠ '"' ∧ char ≠ '\\' := by
  refine ⟨?_, ?_⟩
  · rintro rfl
    exact absurd digit (by decide)
  · rintro rfl
    exact absurd digit (by decide)

/-- A string that is read leaves fewer characters, by induction over them. -/
theorem readString_length (read : readString chars = some (units, rest))
    : rest.length < chars.length := by
  fun_induction readString chars generalizing units rest with
  | case1 => cases read
  | case2 more =>
      cases read
      simp
  | case3 first second third fourth more ih =>
      simp only [bind, Option.bind_eq_some_iff] at read
      obtain ⟨unit, -, ⟨inner, left⟩, reads, same⟩ := read
      cases same
      have shorter := ih reads
      simp only [List.length_cons]
      omega
  | case4 char more _ ih =>
      simp only [bind, Option.bind_eq_some_iff] at read
      obtain ⟨unit, -, ⟨inner, left⟩, reads, same⟩ := read
      cases same
      have shorter := ih reads
      simp only [List.length_cons]
      omega
  | case5 => cases read
  | case6 char more _ _ _ _ ih =>
      simp only [bind, Option.bind_eq_some_iff] at read
      obtain ⟨⟨inner, left⟩, reads, same⟩ := read
      cases same
      have shorter := ih reads
      simp only [List.length_cons]
      omega

theorem readDigits_length (read : readDigits chars = some (digits, rest))
    : rest.length < chars.length := by
  unfold readDigits at read
  split at read
  · cases read
  next first more nonempty spanned =>
    cases read
    rw [List.span_eq_takeWhile_dropWhile] at spanned
    obtain ⟨rfl, rfl⟩ := Prod.mk.inj spanned
    have parts := congrArg List.length (List.takeWhile_append_dropWhile (p := Char.isDigit)
      (l := chars))
    rw [List.length_append] at parts
    cases taken : chars.takeWhile Char.isDigit with
    | nil => exact (nonempty taken).elim
    | cons digit digits =>
        rw [taken, List.length_cons] at parts
        omega

theorem readFraction_length (read : readFraction chars = some (digits, rest))
    : rest.length ≤ chars.length := by
  unfold readFraction at read
  split at read
  · obtain ⟨⟨inner, left⟩, reads, same⟩ := Option.map_eq_some_iff.mp read
    cases same
    have shorter := readDigits_length reads
    simp only [List.length_cons]
    omega
  · cases read
    exact le_rfl

theorem readExponent_length (read : readExponent chars = some (digits, rest))
    : rest.length ≤ chars.length := by
  unfold readExponent at read
  split at read
  · split at read
    · split at read <;>
        obtain ⟨⟨inner, left⟩, reads, same⟩ := Option.map_eq_some_iff.mp read <;>
        cases same <;>
        have shorter := readDigits_length reads <;>
        simp only [List.length_cons] <;>
        omega
    · cases read
      exact le_rfl
  · cases read
    exact le_rfl

theorem readSign_length (chars : List Char) : (readSign chars).2.length ≤ chars.length := by
  unfold readSign
  split
  · simp
  · exact le_rfl

theorem readNumber_length (read : readNumber chars = some (literal, rest))
    : rest.length < chars.length := by
  simp only [readNumber, bind, Option.bind_eq_some_iff] at read
  obtain ⟨⟨whole, behind⟩, reads, ⟨fraction, later⟩, reads', ⟨exponent, last⟩, reads'', same⟩ :=
    read
  cases same
  have signed := readSign_length chars
  have fractional := readFraction_length reads'
  have exponential := readExponent_length reads''
  dsimp only at signed fractional exponential ⊢
  simp only [readWhole, bind, Option.bind_eq_some_iff] at reads
  obtain ⟨⟨digits, left⟩, digital, kept⟩ := reads
  split at kept
  · cases kept
  · cases kept
    have shorter := readDigits_length digital
    dsimp only at fractional
    omega

/-- The characters of the literals of numbers. -/
def Numeric (char : Char) : Prop :=
  char.isDigit = true ∨ char ∈ ['-', '+', '.', 'e', 'E']

/-- What is read of a number is its literal. -/
structure ReadsLiteral (literal chars rest : List Char) : Prop where
  split : chars = literal ++ rest
  numeric : ∀ char ∈ literal, Numeric char

theorem readsLiteral_nil (chars : List Char) : ReadsLiteral [] chars chars :=
  ⟨rfl, fun _ member => nomatch member⟩

theorem ReadsLiteral.cons {char : Char} (reads : ReadsLiteral literal chars rest)
    (numeric : Numeric char)
    : ReadsLiteral (char :: literal) (char :: chars) rest :=
  ⟨congrArg _ reads.split, List.forall_mem_cons.mpr ⟨numeric, reads.numeric⟩⟩

theorem ReadsLiteral.append {first second middle : List Char}
    (reads : ReadsLiteral first chars middle) (later : ReadsLiteral second middle rest)
    : ReadsLiteral (first ++ second) chars rest := by
  refine ⟨?_, fun char member => ?_⟩
  · rw [reads.split, later.split, List.append_assoc]
  · rcases List.mem_append.mp member with front | back
    · exact reads.numeric char front
    · exact later.numeric char back

theorem readsLiteral_digits (read : readDigits chars = some (digits, rest))
    : ReadsLiteral digits chars rest := by
  unfold readDigits at read
  split at read
  next => exact nomatch read
  next spanned =>
    cases read
    rw [List.span_eq_takeWhile_dropWhile] at spanned
    obtain ⟨rfl, rfl⟩ := Prod.mk.inj spanned
    exact ⟨List.takeWhile_append_dropWhile.symm,
      fun _ member => .inl (List.mem_takeWhile_imp member)⟩

theorem readsLiteral_whole (read : readWhole chars = some (digits, rest))
    : ReadsLiteral digits chars rest := by
  obtain ⟨⟨whole, left⟩, reads, kept⟩ := Option.bind_eq_some_iff.mp read
  dsimp only at kept
  split at kept
  next => exact nomatch kept
  next =>
    cases kept
    exact readsLiteral_digits reads

theorem readsLiteral_fraction (read : readFraction chars = some (digits, rest))
    : ReadsLiteral digits chars rest := by
  unfold readFraction at read
  split at read
  next =>
    obtain ⟨⟨inner, left⟩, reads, same⟩ := Option.map_eq_some_iff.mp read
    cases same
    exact (readsLiteral_digits reads).cons (.inr (by decide))
  next =>
    cases read
    exact readsLiteral_nil _

theorem readsLiteral_exponent (read : readExponent chars = some (digits, rest))
    : ReadsLiteral digits chars rest := by
  unfold readExponent at read
  split at read
  next char behind =>
    split at read
    next marked =>
      have numeric : Numeric char := by
        rcases Bool.or_eq_true_iff.mp marked with lower | upper
        · exact .inr (by simp [of_decide_eq_true lower])
        · exact .inr (by simp [of_decide_eq_true upper])
      split at read
      next =>
        obtain ⟨⟨inner, left⟩, reads, same⟩ := Option.map_eq_some_iff.mp read
        cases same
        exact ((readsLiteral_digits reads).cons (.inr (by decide))).cons numeric
      next =>
        obtain ⟨⟨inner, left⟩, reads, same⟩ := Option.map_eq_some_iff.mp read
        cases same
        exact ((readsLiteral_digits reads).cons (.inr (by decide))).cons numeric
      next =>
        obtain ⟨⟨inner, left⟩, reads, same⟩ := Option.map_eq_some_iff.mp read
        cases same
        exact (readsLiteral_digits reads).cons numeric
    next =>
      cases read
      exact readsLiteral_nil _
  next =>
    cases read
    exact readsLiteral_nil _

theorem readsLiteral_sign (chars : List Char)
    : ReadsLiteral (readSign chars).1 chars (readSign chars).2 := by
  unfold readSign
  split
  next behind => exact (readsLiteral_nil behind).cons (.inr (by decide))
  next => exact readsLiteral_nil _

theorem readsLiteral_number (read : readNumber chars = some (literal, rest))
    : ReadsLiteral literal chars rest := by
  simp only [readNumber, bind, Option.bind_eq_some_iff] at read
  obtain ⟨⟨whole, behind⟩, reads, ⟨fraction, later⟩, reads', ⟨exponent, last⟩, reads'', same⟩ :=
    read
  cases same
  exact (((readsLiteral_sign chars).append (readsLiteral_whole reads)).append
    (readsLiteral_fraction reads')).append (readsLiteral_exponent reads'')

theorem head_of_readDigits (read : readDigits chars = some (digits, rest))
    : ∃ char more, chars = char :: more ∧ char.isDigit = true := by
  cases chars with
  | nil => exact nomatch read
  | cons char more =>
      refine ⟨char, more, rfl, ?_⟩
      by_contra other
      simp [readDigits, List.span_eq_takeWhile_dropWhile, other] at read

theorem head_of_readNumber (read : readNumber chars = some (literal, rest))
    : ∃ char more, chars = char :: more
        ∧ (char.isDigit = true ∨ char = '-' ∧ more.head?.any Char.isDigit = true) := by
  obtain ⟨⟨whole, behind⟩, reads, -⟩ := Option.bind_eq_some_iff.mp read
  obtain ⟨⟨digits, left⟩, digital, -⟩ := Option.bind_eq_some_iff.mp reads
  obtain ⟨char, more, starts, digit⟩ := head_of_readDigits digital
  split at starts
  next unsigned =>
    refine ⟨'-', unsigned, rfl, .inr ⟨rfl, ?_⟩⟩
    rw [show unsigned = char :: more from starts]
    simpa using digit
  next => exact ⟨char, more, starts, .inl digit⟩

variable {Number : Type} {toNumber : List Char → Number} {fuel : Nat}

/-- The members that are defined one after another have distinct keys. -/
theorem nodup_setMember {members : List (CodeUnits × Json Number)}
    {member : CodeUnits × Json Number} (distinct : (members.map Prod.fst).Nodup)
    : ((setMember members member).map Prod.fst).Nodup := by
  unfold setMember
  split
  · have keys : (members.map fun other => if other.1 = member.1 then member else other).map
        Prod.fst = members.map Prod.fst := by
      rw [List.map_map]
      refine List.map_congr_left fun other _ => ?_
      simp only [Function.comp_apply]
      split
      next same => exact same.symm
      next => rfl
    rwa [keys]
  next fresh =>
    rw [List.map_append]
    exact distinct.append (List.nodup_singleton _) (by simpa using fresh)

theorem mem_setMember {members : List (CodeUnits × Json Number)}
    {member other : CodeUnits × Json Number} (held : other ∈ setMember members member)
    : other ∈ members ∨ other = member := by
  unfold setMember at held
  split at held
  · obtain ⟨old, within, same⟩ := List.mem_map.mp held
    split at same
    · exact .inr same.symm
    · exact .inl (same ▸ within)
  · simpa using held

/-- Where members of a key are replaced, others are found as before, by induction over them. -/
theorem lookup_replaced {members : List (CodeUnits × Json Number)}
    {member : CodeUnits × Json Number} {key : CodeUnits}
    : (members.map fun other => if other.1 = member.1 then member else other).lookup key
      = if key = member.1 then
          if (members.lookup key).isSome then some member.2 else none
        else members.lookup key := by
  induction members with
  | nil => simp
  | cons other members ih =>
      rw [List.map_cons, lookup_members, lookup_members, ih]
      by_cases here : key = member.1
      · subst here
        by_cases replaced : other.1 = member.1
        · simp [replaced]
        · have differs : ¬member.1 = other.1 := fun same => replaced same.symm
          rw [if_neg replaced, if_neg differs, if_neg differs, if_pos rfl]
      · by_cases replaced : other.1 = member.1
        · simp [replaced, here]
        · simp [replaced, here]

theorem lookup_setMember {members : List (CodeUnits × Json Number)} {key other : CodeUnits}
    {value : Json Number}
    : (setMember members (key, value)).lookup other
      = if other = key then some value else members.lookup other := by
  unfold setMember
  split
  next held =>
    simp only [List.mem_map] at held
    obtain ⟨within, belongs, same⟩ := held
    rw [lookup_replaced]
    split
    next here =>
      subst here
      exact if_pos (List.lookup_isSome_iff.mpr ⟨within, belongs, by simpa using same.symm⟩)
    next => rfl
  next fresh =>
    rw [List.lookup_append, lookup_members, List.lookup_nil]
    dsimp only
    split
    next here =>
      subst here
      have missing : members.lookup other = none := by
        rw [List.lookup_eq_none_iff]
        intro member belongs
        simp only [List.mem_map, not_exists, not_and] at fresh
        simpa using fun same : other = member.1 => fresh member belongs same.symm
      rw [missing]
      rfl
    next => exact Option.or_none

/-- Well-formed members make a well-formed object, by induction over the members. -/
theorem wellFormed_defined {members : List (CodeUnits × Json Number)}
    (each : ∀ member ∈ members, member.2.WellFormed)
    : (object (members.foldl setMember [])).WellFormed := by
  have kept (members defined : List (CodeUnits × Json Number))
      (distinct : (defined.map Prod.fst).Nodup)
      (each : ∀ member ∈ defined ++ members, member.2.WellFormed)
      : (object (members.foldl setMember defined)).WellFormed := by
    induction members generalizing defined with
    | nil => exact wellFormed_object distinct (by simpa using each)
    | cons member members ih =>
        refine ih (setMember defined member) (nodup_setMember distinct) fun other held => ?_
        rcases List.mem_append.mp held with defines | later
        · rcases mem_setMember defines with within | rfl
          · exact each other (List.mem_append_left _ within)
          · exact each other (by simp)
        · exact each other (by simp [later])
  exact kept members [] List.nodup_nil (by simpa using each)

theorem wellFormed_leaf {value : Json Number} (noItems : ∀ items, value ≠ array items)
    (noMembers : ∀ members, value ≠ object members)
    : value.WellFormed := by
  intro path members found
  cases path with
  | nil =>
      cases found
      exact (noMembers members rfl).elim
  | cons step path =>
      cases value with
      | array items => exact (noItems items rfl).elim
      | object members => exact (noMembers members rfl).elim
      | null | bool | number | string => cases step <;> cases found

/-- What is read leaves fewer characters and is well formed. -/
structure Read (wellFormed : Prop) (chars rest : List Char) : Prop where
  shorter : rest.length < chars.length
  wellFormed : wellFormed

/-- The readers of some fuel read well. -/
structure ReadsWell (toNumber : List Char → Number) (fuel : Nat) : Prop where
  value {chars rest : List Char} {value : Json Number}
    (read : readValue toNumber fuel chars = some (value, rest))
    : Read value.WellFormed chars rest
  items {chars rest : List Char} {items : List (Json Number)}
    (read : readItems toNumber fuel chars = some (items, rest))
    : Read (∀ item ∈ items, item.WellFormed) chars rest
  members {chars rest : List Char} {members : List (CodeUnits × Json Number)}
    (read : readMembers toNumber fuel chars = some (members, rest))
    : Read (∀ member ∈ members, member.2.WellFormed) chars rest

theorem ReadsWell.readValue (well : ReadsWell toNumber fuel) {value : Json Number}
    (read : Json.readValue toNumber (fuel + 1) chars = some (value, rest))
    : Read value.WellFormed chars rest := by
  have spaced := skipSpace_length chars
  rw [Json.readValue] at read
  split at read
  next token =>
    cases read
    rw [token] at spaced
    exact ⟨by simp at spaced; omega, wellFormed_leaf (fun _ => nofun) (fun _ => nofun)⟩
  next token =>
    cases read
    rw [token] at spaced
    exact ⟨by simp at spaced; omega, wellFormed_leaf (fun _ => nofun) (fun _ => nofun)⟩
  next token =>
    cases read
    rw [token] at spaced
    exact ⟨by simp at spaced; omega, wellFormed_leaf (fun _ => nofun) (fun _ => nofun)⟩
  next token =>
    obtain ⟨⟨units, left⟩, reads, same⟩ := Option.map_eq_some_iff.mp read
    cases same
    have shorter := readString_length reads
    rw [token, List.length_cons] at spaced
    exact ⟨by omega, wellFormed_leaf (fun _ => nofun) (fun _ => nofun)⟩
  next behind token =>
    have inner := skipSpace_length behind
    rw [token, List.length_cons] at spaced
    split at read
    next closed =>
      cases read
      rw [closed, List.length_cons] at inner
      exact ⟨by omega, wellFormed_array (by simp)⟩
    next =>
      obtain ⟨⟨items, left⟩, reads, same⟩ := Option.map_eq_some_iff.mp read
      cases same
      obtain ⟨shorter, wellFormed⟩ := well.items reads
      exact ⟨by omega, wellFormed_array wellFormed⟩
  next behind token =>
    have inner := skipSpace_length behind
    rw [token, List.length_cons] at spaced
    split at read
    next closed =>
      cases read
      rw [closed, List.length_cons] at inner
      exact ⟨by omega, wellFormed_object List.nodup_nil (by simp)⟩
    next =>
      obtain ⟨⟨members, left⟩, reads, same⟩ := Option.map_eq_some_iff.mp read
      cases same
      obtain ⟨shorter, wellFormed⟩ := well.members reads
      exact ⟨by omega, wellFormed_defined wellFormed⟩
  next =>
    obtain ⟨⟨literal, left⟩, reads, same⟩ := Option.map_eq_some_iff.mp read
    cases same
    have shorter := readNumber_length reads
    exact ⟨by omega, wellFormed_leaf (fun _ => nofun) (fun _ => nofun)⟩

theorem ReadsWell.readItems (well : ReadsWell toNumber fuel) {items : List (Json Number)}
    (read : Json.readItems toNumber (fuel + 1) chars = some (items, rest))
    : Read (∀ item ∈ items, item.WellFormed) chars rest := by
  simp only [Json.readItems, bind, Option.bind_eq_some_iff] at read
  obtain ⟨⟨item, behind⟩, reads, later⟩ := read
  have first := well.value reads
  have shorter := first.shorter
  have spaced := skipSpace_length behind
  dsimp only at later
  split at later
  next token =>
    obtain ⟨⟨others, left⟩, continues, same⟩ := Option.bind_eq_some_iff.mp later
    cases same
    obtain ⟨fewer, wellFormed⟩ := well.items continues
    rw [token, List.length_cons] at spaced
    dsimp only at fewer ⊢
    exact ⟨by omega, by simpa using ⟨first.wellFormed, wellFormed⟩⟩
  next token =>
    cases later
    rw [token, List.length_cons] at spaced
    exact ⟨by omega, by simpa using first.wellFormed⟩
  next => cases later

theorem ReadsWell.readMembers (well : ReadsWell toNumber fuel)
    {members : List (CodeUnits × Json Number)}
    (read : Json.readMembers toNumber (fuel + 1) chars = some (members, rest))
    : Read (∀ member ∈ members, member.2.WellFormed) chars rest := by
  have spaced := skipSpace_length chars
  rw [Json.readMembers] at read
  split at read
  next token =>
    rw [token, List.length_cons] at spaced
    obtain ⟨⟨key, behind⟩, reads, later⟩ := Option.bind_eq_some_iff.mp read
    have keyed := readString_length reads
    have between := skipSpace_length behind
    dsimp only at later
    split at later
    next colon =>
      rw [colon, List.length_cons] at between
      obtain ⟨⟨value, left⟩, reads', last⟩ := Option.bind_eq_some_iff.mp later
      have first := well.value reads'
      have shorter := first.shorter
      have ending := skipSpace_length left
      dsimp only at last
      split at last
      next token =>
        rw [token, List.length_cons] at ending
        obtain ⟨⟨others, final⟩, continues, same⟩ := Option.bind_eq_some_iff.mp last
        cases same
        obtain ⟨fewer, wellFormed⟩ := well.members continues
        dsimp only at fewer ⊢
        exact ⟨by omega, by simpa using ⟨first.wellFormed, by simpa using wellFormed⟩⟩
      next token =>
        cases last
        rw [token, List.length_cons] at ending
        exact ⟨by omega, by simpa using first.wellFormed⟩
      next => cases last
    next => cases later
  next => cases read

/-- What is read is well formed, by induction over the fuel. -/
theorem readsWell (toNumber : List Char → Number) (fuel : Nat) : ReadsWell toNumber fuel := by
  induction fuel with
  | zero =>
      exact ⟨(fun read => nomatch read), (fun read => nomatch read), fun read => nomatch read⟩
  | succ fuel well => exact ⟨well.readValue, well.readItems, well.readMembers⟩

/-- With enough fuel, one more unit of it changes nothing. -/
structure Suffices (toNumber : List Char → Number) (fuel : Nat) : Prop where
  value {chars : List Char} (enough : 2 * chars.length + 1 ≤ fuel)
    : readValue toNumber (fuel + 1) chars = readValue toNumber fuel chars
  items {chars : List Char} (enough : 2 * chars.length + 2 ≤ fuel)
    : readItems toNumber (fuel + 1) chars = readItems toNumber fuel chars
  members {chars : List Char} (enough : 2 * chars.length + 2 ≤ fuel)
    : readMembers toNumber (fuel + 1) chars = readMembers toNumber fuel chars

theorem Suffices.readValue (enoughFuel : Suffices toNumber fuel)
    (enough : 2 * chars.length + 1 ≤ fuel + 1)
    : Json.readValue toNumber (fuel + 1 + 1) chars = Json.readValue toNumber (fuel + 1) chars := by
  have spaced := skipSpace_length chars
  rw [Json.readValue, Json.readValue]
  split
  · rfl
  · rfl
  · rfl
  · rfl
  next behind token =>
    rw [token, List.length_cons] at spaced
    have inner := skipSpace_length behind
    split
    · rfl
    · rw [enoughFuel.items (by omega)]
  next behind token =>
    rw [token, List.length_cons] at spaced
    have inner := skipSpace_length behind
    split
    · rfl
    · rw [enoughFuel.members (by omega)]
  · rfl

theorem Suffices.readItems (enoughFuel : Suffices toNumber fuel)
    (enough : 2 * chars.length + 2 ≤ fuel + 1)
    : Json.readItems toNumber (fuel + 1 + 1) chars
      = Json.readItems toNumber (fuel + 1) chars := by
  rw [Json.readItems, Json.readItems, enoughFuel.value (by omega)]
  cases first : Json.readValue toNumber fuel chars with
  | none => rfl
  | some read =>
      obtain ⟨item, behind⟩ := read
      have shorter := ((readsWell toNumber fuel).value first).shorter
      have spaced := skipSpace_length behind
      simp only [bind, Option.bind_some]
      split
      next token =>
        rw [token, List.length_cons] at spaced
        rw [enoughFuel.items (by omega)]
      · rfl
      · rfl

theorem Suffices.readMembers (enoughFuel : Suffices toNumber fuel)
    (enough : 2 * chars.length + 2 ≤ fuel + 1)
    : Json.readMembers toNumber (fuel + 1 + 1) chars
      = Json.readMembers toNumber (fuel + 1) chars := by
  have spaced := skipSpace_length chars
  rw [Json.readMembers, Json.readMembers]
  split
  next token =>
    rw [token, List.length_cons] at spaced
    refine Option.bind_congr fun (key, behind) reads => ?_
    have keyed := readString_length reads
    have between := skipSpace_length behind
    dsimp only
    split
    next colon =>
      rw [colon, List.length_cons] at between
      rw [enoughFuel.value (by omega)]
      refine Option.bind_congr fun (value, left) reads' => ?_
      have shorter := ((readsWell toNumber fuel).value reads').shorter
      have ending := skipSpace_length left
      dsimp only
      split
      next token =>
        rw [token, List.length_cons] at ending
        rw [enoughFuel.members (by omega)]
      · rfl
      · rfl
    · rfl
  · rfl

/-- The fuel suffices for a text of half the length, by induction over the fuel. -/
theorem fuel_suffices (toNumber : List Char → Number) (fuel : Nat) : Suffices toNumber fuel := by
  induction fuel with
  | zero => exact ⟨(fun enough => by omega), (fun enough => by omega), fun enough => by omega⟩
  | succ fuel enoughFuel =>
      exact ⟨enoughFuel.readValue, enoughFuel.readItems, enoughFuel.readMembers⟩

theorem parse_eq_of_fuel {text : String} (enough : 2 * text.toList.length + 1 ≤ fuel)
    : parse toNumber text
      = match readValue toNumber fuel text.toList with
        | some (value, rest) => if skipSpace rest = [] then some value else none
        | none => none := by
  have same : readValue toNumber fuel text.toList
      = readValue toNumber (2 * text.toList.length + 1) text.toList := by
    induction fuel, enough using Nat.le_induction with
    | base => rfl
    | succ fuel enough ih => exact ((fuel_suffices toNumber fuel).value enough).trans ih
  rw [same]
  rfl

/-- What is read is read with one more unit of fuel. -/
structure Lasts (toNumber : List Char → Number) (fuel : Nat) : Prop where
  value {chars : List Char} {read : Json Number × List Char}
    (reads : readValue toNumber fuel chars = some read)
    : readValue toNumber (fuel + 1) chars = some read
  items {chars : List Char} {read : List (Json Number) × List Char}
    (reads : readItems toNumber fuel chars = some read)
    : readItems toNumber (fuel + 1) chars = some read
  members {chars : List Char} {read : List (CodeUnits × Json Number) × List Char}
    (reads : readMembers toNumber fuel chars = some read)
    : readMembers toNumber (fuel + 1) chars = some read

theorem Lasts.readValue (lasts : Lasts toNumber fuel) {read : Json Number × List Char}
    (reads : Json.readValue toNumber (fuel + 1) chars = some read)
    : Json.readValue toNumber (fuel + 1 + 1) chars = some read := by
  rw [Json.readValue] at reads ⊢
  split at reads
  · exact reads
  · exact reads
  · exact reads
  · exact reads
  · split at reads
    · exact reads
    · obtain ⟨items, inner, same⟩ := Option.map_eq_some_iff.mp reads
      rw [lasts.items inner, Option.map_some, same]
  · split at reads
    · exact reads
    · obtain ⟨members, inner, same⟩ := Option.map_eq_some_iff.mp reads
      rw [lasts.members inner, Option.map_some, same]
  · exact reads

theorem Lasts.readItems (lasts : Lasts toNumber fuel) {read : List (Json Number) × List Char}
    (reads : Json.readItems toNumber (fuel + 1) chars = some read)
    : Json.readItems toNumber (fuel + 1 + 1) chars = some read := by
  rw [Json.readItems] at reads ⊢
  obtain ⟨⟨item, behind⟩, first, later⟩ := Option.bind_eq_some_iff.mp reads
  rw [lasts.value first]
  refine Option.bind_eq_some_iff.mpr ⟨_, rfl, ?_⟩
  dsimp only at later ⊢
  split at later
  next =>
    obtain ⟨others, continues, same⟩ := Option.bind_eq_some_iff.mp later
    exact Option.bind_eq_some_iff.mpr ⟨others, lasts.items continues, same⟩
  next => exact later
  next => exact later

theorem Lasts.readMembers (lasts : Lasts toNumber fuel)
    {read : List (CodeUnits × Json Number) × List Char}
    (reads : Json.readMembers toNumber (fuel + 1) chars = some read)
    : Json.readMembers toNumber (fuel + 1 + 1) chars = some read := by
  rw [Json.readMembers] at reads ⊢
  split at reads
  next =>
    obtain ⟨⟨key, behind⟩, keyed, later⟩ := Option.bind_eq_some_iff.mp reads
    refine Option.bind_eq_some_iff.mpr ⟨_, keyed, ?_⟩
    dsimp only at later ⊢
    split at later
    next =>
      obtain ⟨⟨value, left⟩, first, last⟩ := Option.bind_eq_some_iff.mp later
      refine Option.bind_eq_some_iff.mpr ⟨_, lasts.value first, ?_⟩
      dsimp only at last ⊢
      split at last
      next =>
        obtain ⟨others, continues, same⟩ := Option.bind_eq_some_iff.mp last
        exact Option.bind_eq_some_iff.mpr ⟨others, lasts.members continues, same⟩
      next => exact last
      next => exact last
    next => exact later
  next => exact reads

/-- More fuel reads the same, by induction over the fuel. -/
theorem reads_last (toNumber : List Char → Number) (fuel : Nat) : Lasts toNumber fuel := by
  induction fuel with
  | zero =>
      exact ⟨(fun read => nomatch read), (fun read => nomatch read), fun read => nomatch read⟩
  | succ fuel lasts => exact ⟨lasts.readValue, lasts.readItems, lasts.readMembers⟩

theorem parse_of_read {text : String} {value : Json Number} {rest : List Char}
    (read : readValue toNumber fuel text.toList = some (value, rest))
    (ends : skipSpace rest = [])
    : parse toNumber text = some value := by
  have more (extra : Nat)
      : readValue toNumber (fuel + extra) text.toList = some (value, rest) := by
    induction extra with
    | zero => exact read
    | succ extra ih => exact (reads_last toNumber (fuel + extra)).value ih
  have enough := more (2 * text.toList.length + 1)
  rw [parse_eq_of_fuel (Nat.le_add_left _ _), enough]
  exact if_pos ends

theorem wellFormed_of_parse {text : String} {value : Json Number}
    (parsed : parse toNumber text = some value)
    : value.WellFormed := by
  unfold parse at parsed
  split at parsed
  next read =>
    split at parsed
    · cases parsed
      exact ((readsWell toNumber _).value read).wellFormed
    · cases parsed
  next => cases parsed

end Reads

end Json

end AiSdlc.Js
