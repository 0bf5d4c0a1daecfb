import AiSdlc.Js.JsonTree

/-! The inspection of candidate artifacts: the scanner that finds the keys that an object repeats
works on the text, since `JSON.parse` keeps only the last of the members of a key.
-/

namespace AiSdlc.Application.CandidateValidation

open AiSdlc.Js

/-- An entry of the stack of `findDuplicateJsonKeys`; `keys` is a set. -/
structure ScanFrame where
  isObject : Bool
  keys : List CodeUnits

/-- The loop over a string behind its opening mark: what it copies, and what it leaves. -/
def readRaw : List Char → List Char × List Char
  | [] => ([], [])
  | '\\' :: next :: rest => ('\\' :: next :: (readRaw rest).1, (readRaw rest).2)
  | '"' :: rest => ([], rest)
  | curr :: rest => (curr :: (readRaw rest).1, (readRaw rest).2)

/-- The name that `str` spells, or `str` itself where it is no string of JSON. -/
def keyName (str : List Char) : CodeUnits :=
  match Json.parse (fun _ => ()) (.ofList ('"' :: str ++ ['"'])) with
  | some (.string units) => units
  | _ => str.flatMap charUnits

/-- What a key adds to the duplicates, and the stack behind it. -/
def noteKey (stack : List ScanFrame) (name : CodeUnits) : List CodeUnits × List ScanFrame :=
  match stack with
  | top :: below =>
      if top.isObject then
        if name ∈ top.keys then ([name], stack)
        else ([], { top with keys := name :: top.keys } :: below)
      else ([], stack)
  | [] => ([], [])

/-- The loop of `findDuplicateJsonKeys`; every turn uses up some of the text. -/
def scanKeys : Nat → List ScanFrame → List Char → List CodeUnits
  | 0, _, _ => []
  | _, _, [] => []
  | fuel + 1, stack, char :: rest =>
      if char = '{' then scanKeys fuel (⟨true, []⟩ :: stack) rest
      else if char = '}' then scanKeys fuel stack.tail rest
      else if char = '[' then scanKeys fuel (⟨false, []⟩ :: stack) rest
      else if char = ']' then scanKeys fuel stack.tail rest
      else if char = '"' then
        match Json.skipSpace (readRaw rest).2 with
        | ':' :: behind =>
            (noteKey stack (keyName (readRaw rest).1)).1
              ++ scanKeys fuel (noteKey stack (keyName (readRaw rest).1)).2 behind
        | _ => scanKeys fuel stack (readRaw rest).2
      else scanKeys fuel stack rest

def findDuplicateJsonKeys (raw : String) : List CodeUnits :=
  scanKeys raw.toList.length [] raw.toList

-----------------------------------------------------------------------------------------
-- The turns of the scanner
-----------------------------------------------------------------------------------------

/-- The scan of what is left of a text. -/
def scan (stack : List ScanFrame) (chars : List Char) : List CodeUnits :=
  scanKeys chars.length stack chars

/-- The characters that the scanner steps over outside of strings. -/
def SteppedOver (char : Char) : Prop :=
  char ∉ ['{', '}', '[', ']', '"']

instance decidableSteppedOver (char : Char) : Decidable (SteppedOver char) :=
  inferInstanceAs (Decidable (char ∉ ['{', '}', '[', ']', '"']))

section Turns

variable {chars rest behind str : List Char} {stack : List ScanFrame} {char : Char}

/-- A string leaves no more than what stands behind its mark, by induction over it. -/
theorem readRaw_length (chars : List Char) : (readRaw chars).2.length ≤ chars.length := by
  fun_induction readRaw chars with
  | case1 => exact le_rfl
  | case2 next rest ih =>
      simp only [List.length_cons]
      omega
  | case3 => simp
  | case4 curr rest _ _ ih =>
      simp only [List.length_cons]
      omega

/-- More fuel than the text is long changes nothing, by induction over the fuel. -/
theorem scanKeys_succ (fuel : Nat) {chars : List Char} (enough : chars.length ≤ fuel)
    (stack : List ScanFrame)
    : scanKeys (fuel + 1) stack chars = scanKeys fuel stack chars := by
  induction fuel generalizing chars stack with
  | zero =>
      rw [List.length_eq_zero_iff.mp (Nat.le_zero.mp enough)]
      rfl
  | succ fuel ih =>
      cases chars with
      | nil => rfl
      | cons char rest =>
          have shorter : rest.length ≤ fuel := Nat.le_of_succ_le_succ enough
          have left := readRaw_length rest
          have spaced := Json.skipSpace_length (readRaw rest).2
          rw [scanKeys, scanKeys]
          simp only [ih shorter, ih (left.trans shorter)]
          iterate 4
            split
            next => rfl
          split
          next =>
            split
            next behind colon =>
              rw [colon, List.length_cons] at spaced
              rw [ih (by omega)]
            next => rfl
          next => rfl

theorem scanKeys_eq_scan {fuel : Nat} (enough : chars.length ≤ fuel) (stack : List ScanFrame)
    : scanKeys fuel stack chars = scan stack chars := by
  induction fuel, enough using Nat.le_induction with
  | base => rfl
  | succ fuel enough ih => rw [scanKeys_succ fuel enough, ih]

theorem scan_nil (stack : List ScanFrame) : scan stack [] = [] := rfl

theorem scan_brace (stack : List ScanFrame) (rest : List Char)
    : scan stack ('{' :: rest) = scan (⟨true, []⟩ :: stack) rest := by
  simp [scan, scanKeys]

theorem scan_closing_brace (stack : List ScanFrame) (rest : List Char)
    : scan stack ('}' :: rest) = scan stack.tail rest := by
  simp [scan, scanKeys]

theorem scan_bracket (stack : List ScanFrame) (rest : List Char)
    : scan stack ('[' :: rest) = scan (⟨false, []⟩ :: stack) rest := by
  simp [scan, scanKeys]

theorem scan_closing_bracket (stack : List ScanFrame) (rest : List Char)
    : scan stack (']' :: rest) = scan stack.tail rest := by
  simp [scan, scanKeys]

theorem scan_cons (inert : SteppedOver char) (stack : List ScanFrame) (rest : List Char)
    : scan stack (char :: rest) = scan stack rest := by
  simp only [SteppedOver, List.mem_cons, List.not_mem_nil, or_false, not_or] at inert
  obtain ⟨brace, closes, bracket, closing, quotes⟩ := inert
  rw [scan, List.length_cons, scanKeys, if_neg brace, if_neg closes, if_neg bracket,
    if_neg closing, if_neg quotes]
  rfl

/-- Characters are stepped over one after another, by induction over them. -/
theorem scan_append {inert : List Char} (each : ∀ char ∈ inert, SteppedOver char)
    (stack : List ScanFrame) (rest : List Char)
    : scan stack (inert ++ rest) = scan stack rest := by
  induction inert with
  | nil => rfl
  | cons char inert ih =>
      obtain ⟨first, others⟩ := List.forall_mem_cons.mp each
      rw [List.cons_append, scan_cons first, ih others]

theorem scan_skipSpace (stack : List ScanFrame) (chars : List Char)
    : scan stack (Json.skipSpace chars) = scan stack chars := by
  have spaces : ∀ char ∈ chars.takeWhile Json.isSpace, SteppedOver char := by
    intro char member
    have space := List.mem_takeWhile_imp member
    simp only [Json.isSpace, List.mem_cons, List.not_mem_nil, or_false,
      decide_eq_true_eq] at space
    rcases space with rfl | rfl | rfl | rfl <;> decide
  have both := List.takeWhile_append_dropWhile (p := Json.isSpace) (l := chars)
  calc scan stack (Json.skipSpace chars)
    _ = scan stack (chars.takeWhile Json.isSpace ++ chars.dropWhile Json.isSpace) :=
        (scan_append spaces stack _).symm
    _ = scan stack chars := by rw [both]

theorem scan_key (leaves : (readRaw rest).2 = behind) {later : List Char}
    (colon : Json.skipSpace behind = ':' :: later) (stack : List ScanFrame)
    : scan stack ('"' :: rest)
      = (noteKey stack (keyName (readRaw rest).1)).1
        ++ scan (noteKey stack (keyName (readRaw rest).1)).2 later := by
  have left := readRaw_length rest
  have spaced := Json.skipSpace_length behind
  rw [leaves] at left
  rw [colon, List.length_cons] at spaced
  rw [scan, List.length_cons, scanKeys]
  simp only [leaves, colon, show ('"' = '{') = False from by decide,
    show ('"' = '}') = False from by decide, show ('"' = '[') = False from by decide,
    show ('"' = ']') = False from by decide, if_false, if_true]
  rw [scanKeys_eq_scan (by omega)]

/-- Another string is left as it is. -/
theorem scan_string (leaves : (readRaw rest).2 = behind)
    (other : ∀ later, Json.skipSpace behind ≠ ':' :: later) (stack : List ScanFrame)
    : scan stack ('"' :: rest) = scan stack behind := by
  have left := readRaw_length rest
  rw [leaves] at left
  rw [scan, List.length_cons, scanKeys]
  simp only [leaves, show ('"' = '{') = False from by decide,
    show ('"' = '}') = False from by decide, show ('"' = '[') = False from by decide,
    show ('"' = ']') = False from by decide, if_false, if_true]
  exact scanKeys_eq_scan left stack

end Turns

section Grammar

variable {Number : Type} {toNumber : List Char → Number} {fuel : Nat}
  {chars rest behind str : List Char} {units : CodeUnits} {stack : List ScanFrame} {char : Char}

theorem readRaw_escape (char : Char) (rest : List Char)
    : readRaw ('\\' :: char :: rest)
      = ('\\' :: char :: (readRaw rest).1, (readRaw rest).2) := rfl

theorem readRaw_cons (quotes : char ≠ '"') (backslash : char ≠ '\\') (rest : List Char)
    : readRaw (char :: rest) = (char :: (readRaw rest).1, (readRaw rest).2) := by
  rw [readRaw]
  · exact fun _ _ same _ => backslash same
  · exact quotes

/-- The scanner copies a string as far as the string reaches, by induction over it. -/
theorem readRaw_of_readString (read : Json.readString chars = some (units, rest))
    : (readRaw chars).2 = rest
      ∧ Json.readString ((readRaw chars).1 ++ ['"']) = some (units, []) := by
  fun_induction Json.readString chars generalizing units rest with
  | case1 => cases read
  | case2 more =>
      cases read
      exact ⟨rfl, rfl⟩
  | case3 first second third fourth more ih =>
      obtain ⟨unit, names, later⟩ := Option.bind_eq_some_iff.mp read
      obtain ⟨⟨inner, left⟩, reads, same⟩ := Option.bind_eq_some_iff.mp later
      cases same
      obtain ⟨leaves, copied⟩ := ih reads
      have digits := Json.hexDigit_of_hexUnit names
      simp only [List.forall_mem_cons] at digits
      obtain ⟨one, two, three, four, -⟩ := digits
      have apart {digit : Char} (hex : (Json.hexDigit? digit).isSome = true) (rest : List Char) :=
        readRaw_cons (Json.ne_of_hexDigit hex).1 (Json.ne_of_hexDigit hex).2 rest
      rw [readRaw_escape, apart one, apart two, apart three, apart four]
      refine ⟨leaves, ?_⟩
      simp only [List.cons_append, Json.readString, names, copied, bind, Option.bind_some]
  | case4 escaped more other ih =>
      obtain ⟨unit, escapes, later⟩ := Option.bind_eq_some_iff.mp read
      obtain ⟨⟨inner, left⟩, reads, same⟩ := Option.bind_eq_some_iff.mp later
      cases same
      obtain ⟨leaves, copied⟩ := ih reads
      have notUnicode : escaped ≠ 'u' := by
        rintro rfl
        cases escapes
      rw [readRaw_escape]
      refine ⟨leaves, ?_⟩
      rw [List.cons_append, List.cons_append, Json.readString]
      · simp only [escapes, copied, bind, Option.bind_some]
      · intro first second third fourth behind same
        exact absurd same notUnicode
  | case5 => cases read
  | case6 char more quotes unicode escape plain ih =>
      obtain ⟨⟨inner, left⟩, reads, same⟩ := Option.bind_eq_some_iff.mp read
      cases same
      obtain ⟨leaves, copied⟩ := ih reads
      have backslash : char ≠ '\\' := fun same => plain (by simp [same])
      have mark : char ≠ '"' := fun same => quotes same
      rw [readRaw_cons mark backslash]
      refine ⟨leaves, ?_⟩
      rw [List.cons_append, Json.readString]
      · rw [if_neg plain, copied]
        rfl
      · exact quotes
      · exact fun _ _ _ _ _ same => absurd same backslash
      · exact fun _ _ same => absurd same backslash

theorem keyName_of_readString (read : Json.readString chars = some (units, rest))
    : keyName (readRaw chars).1 = units := by
  obtain ⟨-, copied⟩ := readRaw_of_readString read
  have reads : Json.readValue (fun _ => ()) 1
      (String.ofList ('"' :: (readRaw chars).1 ++ ['"'])).toList = some (.string units, []) := by
    rw [String.toList_ofList, List.cons_append, Json.readValue]
    simp [Json.skipSpace, Json.isSpace, copied]
  have parsed := Json.parse_of_read reads rfl
  rw [keyName, parsed]

/-- No colon comes next. -/
def NoColon (chars : List Char) : Prop :=
  ∀ later, Json.skipSpace chars ≠ ':' :: later

/-- The scan of what is read meets the repetitions of its tree, and goes on behind it. -/
structure Scans (toNumber : List Char → Number) (fuel : Nat) : Prop where
  value {chars rest : List Char} {tree : Json Number}
    (read : Json.readTree toNumber fuel chars = some (tree, rest)) (ends : NoColon rest)
    (stack : List ScanFrame)
    : scan stack chars = tree.repeatedKeys ++ scan stack rest
  items {chars rest : List Char} {items : List (Json Number)}
    (read : Json.readTreeItems toNumber fuel chars = some (items, rest))
    (keys : List CodeUnits) (stack : List ScanFrame)
    : scan (⟨false, keys⟩ :: stack) chars = Json.repeatedInItems items ++ scan stack rest
  members {chars rest : List Char} {members : List (CodeUnits × Json Number)}
    (read : Json.readTreeMembers toNumber fuel chars = some (members, rest))
    (seen : List CodeUnits) (stack : List ScanFrame)
    : scan (⟨true, seen⟩ :: stack) chars
      = Json.repeatedInMembers seen members ++ scan stack rest

theorem noColon_of_token {token : Char} (next : Json.skipSpace chars = token :: rest)
    (other : token ≠ ':')
    : NoColon chars := by
  intro later colon
  rw [next] at colon
  exact other (List.cons.inj colon).1

theorem steppedOver_of_numeric (numeric : Json.Numeric char) : SteppedOver char := by
  intro held
  simp only [List.mem_cons, List.not_mem_nil, or_false] at held
  rcases held with rfl | rfl | rfl | rfl | rfl <;> revert numeric <;> unfold Json.Numeric <;> decide

theorem Scans.readTree (scans : Scans toNumber fuel) {tree : Json Number}
    (read : Json.readTree toNumber (fuel + 1) chars = some (tree, rest)) (ends : NoColon rest)
    (stack : List ScanFrame)
    : scan stack chars = tree.repeatedKeys ++ scan stack rest := by
  rw [← scan_skipSpace stack chars]
  rw [Json.readTree] at read
  split at read
  next behind token =>
    cases read
    rw [token]
    have inert : ∀ char ∈ ['n', 'u', 'l', 'l'], SteppedOver char := by decide
    exact scan_append inert stack rest
  next behind token =>
    cases read
    rw [token]
    have inert : ∀ char ∈ ['t', 'r', 'u', 'e'], SteppedOver char := by decide
    exact scan_append inert stack rest
  next behind token =>
    cases read
    rw [token]
    have inert : ∀ char ∈ ['f', 'a', 'l', 's', 'e'], SteppedOver char := by decide
    exact scan_append inert stack rest
  next behind token =>
    obtain ⟨⟨units, left⟩, reads, same⟩ := Option.map_eq_some_iff.mp read
    cases same
    obtain ⟨leaves, -⟩ := readRaw_of_readString reads
    rw [token]
    exact scan_string leaves ends stack
  next behind token =>
    rw [token, scan_bracket, ← scan_skipSpace _ behind]
    split at read
    next closed =>
      cases read
      rw [closed, scan_closing_bracket]
      rfl
    next =>
      obtain ⟨⟨items, left⟩, reads, same⟩ := Option.map_eq_some_iff.mp read
      cases same
      exact scans.items reads [] stack
  next behind token =>
    rw [token, scan_brace, ← scan_skipSpace _ behind]
    split at read
    next closed =>
      cases read
      rw [closed, scan_closing_brace]
      rfl
    next =>
      obtain ⟨⟨members, left⟩, reads, same⟩ := Option.map_eq_some_iff.mp read
      cases same
      exact scans.members reads [] stack
  next =>
    obtain ⟨⟨literal, left⟩, reads, same⟩ := Option.map_eq_some_iff.mp read
    cases same
    have spelled := Json.readsLiteral_number reads
    have inert (char : Char) (member : char ∈ literal) : SteppedOver char :=
      steppedOver_of_numeric (spelled.numeric char member)
    rw [spelled.split]
    exact scan_append inert stack rest

theorem Scans.readTreeItems (scans : Scans toNumber fuel) {items : List (Json Number)}
    (read : Json.readTreeItems toNumber (fuel + 1) chars = some (items, rest))
    (keys : List CodeUnits) (stack : List ScanFrame)
    : scan (⟨false, keys⟩ :: stack) chars = Json.repeatedInItems items ++ scan stack rest := by
  simp only [Json.readTreeItems, bind, Option.bind_eq_some_iff] at read
  obtain ⟨⟨item, behind⟩, reads, later⟩ := read
  dsimp only at later
  split at later
  next left token =>
    obtain ⟨⟨others, final⟩, continues, same⟩ := Option.bind_eq_some_iff.mp later
    cases same
    rw [scans.value reads (noColon_of_token token (by decide)), Json.repeatedInItems,
      ← scan_skipSpace _ behind, token, scan_cons (by decide), scans.items continues,
      List.append_assoc]
  next left token =>
    cases later
    rw [scans.value reads (noColon_of_token token (by decide)), Json.repeatedInItems,
      Json.repeatedInItems, List.append_nil, ← scan_skipSpace _ behind, token,
      scan_closing_bracket]
    rfl
  next => cases later

theorem Scans.others (scans : Scans toNumber fuel) {others : List (CodeUnits × Json Number)}
    (ends : (∃ behind, Json.skipSpace chars = ',' :: behind
        ∧ Json.readTreeMembers toNumber fuel behind = some (others, rest))
      ∨ Json.skipSpace chars = '}' :: rest ∧ others = [])
    : NoColon chars
      ∧ ∀ keys stack, scan (⟨true, keys⟩ :: stack) chars
          = Json.repeatedInMembers keys others ++ scan stack rest := by
  rcases ends with ⟨behind, token, continues⟩ | ⟨token, rfl⟩
  · refine ⟨noColon_of_token token (by decide), fun keys stack => ?_⟩
    rw [← scan_skipSpace _ chars, token, scan_cons (by decide), scans.members continues]
  · refine ⟨noColon_of_token token (by decide), fun keys stack => ?_⟩
    rw [← scan_skipSpace _ chars, token, scan_closing_brace]
    rfl

theorem Scans.readTreeMembers (scans : Scans toNumber fuel)
    {members : List (CodeUnits × Json Number)}
    (read : Json.readTreeMembers toNumber (fuel + 1) chars = some (members, rest))
    (seen : List CodeUnits) (stack : List ScanFrame)
    : scan (⟨true, seen⟩ :: stack) chars
      = Json.repeatedInMembers seen members ++ scan stack rest := by
  rw [Json.readTreeMembers] at read
  split at read
  next mark token =>
    obtain ⟨⟨key, behind⟩, reads, later⟩ := Option.bind_eq_some_iff.mp read
    obtain ⟨leaves, -⟩ := readRaw_of_readString reads
    have names := keyName_of_readString reads
    dsimp only at later
    split at later
    next opened colon =>
      obtain ⟨⟨value, left⟩, reads', last⟩ := Option.bind_eq_some_iff.mp later
      obtain ⟨others, rfl, ends⟩ : ∃ others, members = (key, value) :: others
          ∧ ((∃ behind, Json.skipSpace left = ',' :: behind
              ∧ Json.readTreeMembers toNumber fuel behind = some (others, rest))
            ∨ Json.skipSpace left = '}' :: rest ∧ others = []) := by
        dsimp only at last
        split at last
        next behind comma =>
          obtain ⟨⟨others, final⟩, continues, same⟩ := Option.bind_eq_some_iff.mp last
          cases same
          exact ⟨others, rfl, .inl ⟨behind, comma, continues⟩⟩
        next behind brace =>
          cases last
          exact ⟨[], rfl, .inr ⟨brace, rfl⟩⟩
        next => cases last
      obtain ⟨noColon, onward⟩ := scans.others ends
      rw [← scan_skipSpace _ chars, token, scan_key leaves colon, names,
        Json.repeatedInMembers]
      by_cases met : key ∈ seen
      · simp only [noteKey, met, if_true]
        rw [scans.value reads' noColon, onward seen]
        simp only [List.cons_append, List.nil_append, List.append_assoc]
      · simp only [noteKey, met, if_true, if_false]
        rw [scans.value reads' noColon, onward (key :: seen)]
        simp only [List.nil_append, List.append_assoc]
    next => cases later
  next => cases read

/-- The scanner keeps in step with the readers, by induction over their fuel. -/
theorem scans_reads (toNumber : List Char → Number) (fuel : Nat) : Scans toNumber fuel := by
  induction fuel with
  | zero =>
      refine ⟨fun read => ?_, fun read => ?_, fun read => ?_⟩
      · cases read
      · cases read
      · cases read
  | succ fuel scans => exact ⟨scans.readTree, scans.readTreeItems, scans.readTreeMembers⟩

theorem findDuplicateJsonKeys_eq {text : String} {tree : Json Number}
    (parsed : Json.parseTree toNumber text = some tree)
    : findDuplicateJsonKeys text = tree.repeatedKeys := by
  unfold Json.parseTree at parsed
  split at parsed
  next tree rest read =>
    split at parsed
    next ends =>
      cases parsed
      have noColon : NoColon rest := fun later colon =>
        List.cons_ne_nil _ _ (colon.symm.trans ends)
      have scanned := (scans_reads toNumber _).value read noColon []
      rw [← scan_skipSpace [] rest, ends, scan_nil, List.append_nil] at scanned
      exact scanned
    next => cases parsed
  next => cases parsed

/-- Of a text that parses, every repetition of a key within one object is found, once each. -/
theorem duplicates_of_parsed {text : String} {value : Json Number}
    (parsed : Json.parse toNumber text = some value)
    : ∃ tree, Json.parseTree toNumber text = some tree
        ∧ tree.defined = value
        ∧ ∀ name, (findDuplicateJsonKeys text).count name
            = Json.repetitions name tree.objectKeys := by
  rw [Json.parse_eq_defined, Option.map_eq_some_iff] at parsed
  obtain ⟨tree, spelled, defines⟩ := parsed
  refine ⟨tree, spelled, defines, fun name => ?_⟩
  rw [findDuplicateJsonKeys_eq spelled, Json.count_repeatedKeys]

/-- A name and an escaped spelling of it. -/
def escapedTwice : List Char :=
  ['\x7b', '"', 'a', '"', ':', '1', ',', '"', '\\', 'u', '0', '0', '6', '1', '"', ':', '2', '\x7d']

theorem parse_escapedTwice
    : Json.parse id (.ofList escapedTwice) = some (.object [([97], .number ['2'])]) := by
  have read : Json.readValue id 6 (String.ofList escapedTwice).toList
      = some (.object [([97], .number ['2'])], []) := by
    rw [String.toList_ofList]
    rfl
  exact Json.parse_of_read read rfl

theorem duplicates_of_escaped
    : ∃ tree, Json.parseTree id (.ofList escapedTwice) = some tree
        ∧ tree.defined = .object [([97], .number ['2'])]
        ∧ ∀ name, (findDuplicateJsonKeys (.ofList escapedTwice)).count name
            = Json.repetitions name tree.objectKeys :=
  duplicates_of_parsed parse_escapedTwice

/-- Nothing is found just where `JSON.parse` keeps every member that the text has. -/
theorem no_duplicates_iff_kept {text : String} {value : Json Number}
    (parsed : Json.parse toNumber text = some value)
    : findDuplicateJsonKeys text = [] ↔ Json.parseTree toNumber text = some value := by
  rw [Json.parse_eq_defined, Option.map_eq_some_iff] at parsed
  obtain ⟨tree, spelled, rfl⟩ := parsed
  rw [findDuplicateJsonKeys_eq spelled, spelled, Option.some_inj, eq_comm (a := tree)]
  exact Json.repeatedKeys_eq_nil_iff tree

theorem no_duplicates_iff_kept_escaped
    : findDuplicateJsonKeys (.ofList escapedTwice) = []
      ↔ Json.parseTree id (.ofList escapedTwice)
          = some (.object [([97], .number ['2'])]) :=
  no_duplicates_iff_kept parse_escapedTwice

end Grammar

end AiSdlc.Application.CandidateValidation
