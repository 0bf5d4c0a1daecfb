import AiSdlc.Js.FirstMention
import AiSdlc.Js.TextOperations

/-! The words of a text, which white space separates, and where each of them stands. -/

namespace AiSdlc.Js

/-- `text.split(/\s+/).filter((word) => word.length > 0)`, as characters. -/
def charWords (chars : List Char) : List (List Char) :=
  (chars.splitOnP isWhitespace).filter (· ≠ [])

/-- A run of characters without white space. -/
def Solid (chars : List Char) : Prop :=
  ∀ char ∈ chars, isWhitespace char = false
  deriving Decidable

/-- What is behind the first words of a text. -/
def dropWords : Nat → List Char → List Char
  | 0, chars => chars
  | count + 1, chars =>
      dropWords count ((chars.dropWhile isWhitespace).dropWhile (!isWhitespace ·))

variable {chars word front back : List Char} {char : Char}

@[simp]
theorem charWords_nil : charWords [] = [] := rfl

theorem charWords_append_space (space : isWhitespace char = true) (front back : List Char)
    : charWords (front ++ char :: back) = charWords front ++ charWords back := by
  unfold charWords
  rw [List.splitOnP_append_cons front back space, List.filter_append]

theorem charWords_space (space : isWhitespace char = true) (back : List Char)
    : charWords (char :: back) = charWords back :=
  charWords_append_space space [] back

theorem charWords_solid (solid : Solid word) (nonempty : word ≠ []) : charWords word = [word] := by
  rw [charWords, List.splitOnP_eq_singleton solid]
  simp [nonempty]

/-- White space in front holds no words, by induction over the text. -/
theorem charWords_dropWhile (chars : List Char)
    : charWords (chars.dropWhile isWhitespace) = charWords chars := by
  induction chars with
  | nil => rfl
  | cons first chars ih =>
      by_cases space : isWhitespace first = true
      · rw [List.dropWhile_cons_of_pos space, charWords_space space, ih]
      · rw [List.dropWhile_cons_of_neg space]

theorem behind_word (chars : List Char)
    : chars.dropWhile (!isWhitespace ·) = []
      ∨ ∃ space rest, isWhitespace space = true
          ∧ chars.dropWhile (!isWhitespace ·) = space :: rest := by
  cases behind : chars.dropWhile (!isWhitespace ·) with
  | nil => exact .inl rfl
  | cons space rest =>
      have stops := List.head?_dropWhile_not (!isWhitespace ·) chars
      rw [behind] at stops
      exact .inr ⟨space, rest, by simpa using stops, rfl⟩

theorem solid_takeWhile (chars : List Char) : Solid (chars.takeWhile (!isWhitespace ·)) :=
  fun _ member => by simpa using List.mem_takeWhile_imp member

/-- A text is a first run without white space, and what is behind it. -/
theorem charWords_eq (chars : List Char)
    : charWords chars
      = (if chars.takeWhile (!isWhitespace ·) = [] then []
          else [chars.takeWhile (!isWhitespace ·)])
        ++ charWords (chars.dropWhile (!isWhitespace ·)) := by
  have first : charWords (chars.takeWhile (!isWhitespace ·))
      = if chars.takeWhile (!isWhitespace ·) = [] then []
        else [chars.takeWhile (!isWhitespace ·)] := by
    split
    next empty => rw [empty, charWords_nil]
    next nonempty => exact charWords_solid (solid_takeWhile chars) nonempty
  have parts := List.takeWhile_append_dropWhile (p := (!isWhitespace ·)) (l := chars)
  rcases behind_word chars with ends | ⟨space, rest, white, behind⟩
  · rw [ends, List.append_nil] at parts
    rw [← first, parts, ends, charWords_nil, List.append_nil]
  · rw [← first, behind, charWords_space white, ← charWords_append_space white, ← behind, parts]

theorem charWords_of_word (starts : chars.head?.any isWhitespace = false) (nonempty : chars ≠ [])
    : charWords chars
      = chars.takeWhile (!isWhitespace ·)
        :: charWords (chars.dropWhile (!isWhitespace ·)) := by
  rw [charWords_eq]
  cases chars with
  | nil => exact absurd rfl nonempty
  | cons first chars =>
      have solid : isWhitespace first = false := by simpa using starts
      simp [solid]

/-- A text is built from words and the white space between them. -/
@[elab_as_elim]
theorem words_induction {motive : List Char → Prop} (nil : motive [])
    (space : ∀ char rest, isWhitespace char = true → motive rest → motive (char :: rest))
    (last : ∀ word, Solid word → word ≠ [] → motive word)
    (more : ∀ word char rest, Solid word → word ≠ [] → isWhitespace char = true → motive rest
      → motive (word ++ char :: rest))
    (chars : List Char)
    : motive chars := by
  induction length : chars.length using Nat.strong_induction_on generalizing chars with
  | _ length ih =>
    subst length
    cases chars with
    | nil => exact nil
    | cons first rest =>
        by_cases starts : isWhitespace first = true
        · exact space first rest starts (ih rest.length (by simp) rest rfl)
        · have parts := List.takeWhile_append_dropWhile (p := (!isWhitespace ·))
            (l := first :: rest)
          have solid := solid_takeWhile (first :: rest)
          have nonempty : (first :: rest).takeWhile (!isWhitespace ·) ≠ [] := by simp [starts]
          rcases behind_word (first :: rest) with ends | ⟨char, back, white, behind⟩
          · rw [ends, List.append_nil] at parts
            rw [parts] at solid nonempty
            exact last _ solid nonempty
          · rw [behind] at parts
            have shorter := congrArg List.length parts
            rw [List.length_append, List.length_cons] at shorter
            rw [← parts]
            refine more _ char back solid nonempty white (ih back.length ?_ back rfl)
            omega

/-- Words are nonempty and hold no white space, by induction over the text. -/
theorem of_mem_charWords {chars : List Char} (member : word ∈ charWords chars)
    : word ≠ [] ∧ Solid word := by
  induction chars using words_induction with
  | nil => exact nomatch member
  | space char rest white ih =>
      rw [charWords_space white] at member
      exact ih member
  | last word' solid nonempty =>
      rw [charWords_solid solid nonempty, List.mem_singleton] at member
      exact member ▸ ⟨nonempty, solid⟩
  | more word' char rest solid nonempty white ih =>
      rw [charWords_append_space white, charWords_solid solid nonempty] at member
      rcases List.mem_append.mp member with here | later
      · exact List.mem_singleton.mp here ▸ ⟨nonempty, solid⟩
      · exact ih later

theorem dropWhile_dropWhile_space (chars : List Char)
    : (chars.dropWhile isWhitespace).dropWhile isWhitespace = chars.dropWhile isWhitespace := by
  induction chars with
  | nil => rfl
  | cons first chars ih =>
      by_cases white : isWhitespace first = true
      · rw [List.dropWhile_cons_of_pos white, ih]
      · rw [List.dropWhile_cons_of_neg white, List.dropWhile_cons_of_neg white]

theorem dropWhile_space (starts : chars.head?.any isWhitespace = false)
    : chars.dropWhile isWhitespace = chars := by
  cases chars with
  | nil => rfl
  | cons first chars =>
      have solid : isWhitespace first = false := by simpa using starts
      exact List.dropWhile_cons_of_neg (by simp [solid])

theorem head?_dropWhile_space (chars : List Char)
    : (chars.dropWhile isWhitespace).head?.any isWhitespace = false := by
  cases behind : chars.dropWhile isWhitespace with
  | nil => rfl
  | cons first rest =>
      have stops := List.head?_dropWhile_not isWhitespace chars
      rw [behind] at stops
      simpa using stops

@[simp]
theorem dropWords_nil (count : Nat) : dropWords count [] = [] := by
  induction count with
  | zero => rfl
  | succ count ih => exact ih

theorem dropWords_dropWhile (count : Nat) (chars : List Char)
    : dropWords (count + 1) (chars.dropWhile isWhitespace) = dropWords (count + 1) chars := by
  rw [dropWords, dropWords, dropWhile_dropWhile_space]

/-- One more word is dropped behind the others, by induction over their number. -/
theorem dropWords_succ (count : Nat) (chars : List Char)
    : dropWords (count + 1) chars
      = ((dropWords count chars).dropWhile isWhitespace).dropWhile (!isWhitespace ·) := by
  induction count generalizing chars with
  | zero => rfl
  | succ count ih => rw [dropWords, ih, dropWords]

/-- The words behind the first ones, by induction over their number. -/
theorem charWords_dropWords (count : Nat) (chars : List Char)
    : charWords (dropWords count chars) = (charWords chars).drop count := by
  induction count with
  | zero => rfl
  | succ count ih =>
      rw [dropWords_succ, ← List.drop_drop, ← ih, ← charWords_dropWhile (dropWords count chars)]
      by_cases empty : (dropWords count chars).dropWhile isWhitespace = []
      · rw [empty]
        rfl
      · rw [charWords_of_word (head?_dropWhile_space _) empty]
        rfl

theorem dropWords_suffix (count : Nat) (chars : List Char) : dropWords count chars <:+ chars := by
  induction count with
  | zero => exact List.suffix_rfl
  | succ count ih =>
      rw [dropWords_succ]
      exact ((List.dropWhile_suffix _).trans (List.dropWhile_suffix _)).trans ih

section Edits

variable {name : List Char} {edit : List Char → List Char}

/-- Edits behind the first mention of the name in a word. -/
def editFirstWord (name : List Char) (edit : List Char → List Char)
    : List (List Char) → List (List Char)
  | [] => []
  | word :: words =>
      if name <:+: word then editFirst name edit word :: words
      else word :: editFirstWord name edit words

/-- A name without white space is mentioned in one of the words, by induction over the text. -/
theorem infix_iff_words (solid : Solid name) (nonempty : name ≠ []) (chars : List Char)
    : name <:+: chars ↔ ∃ word ∈ charWords chars, name <:+: word := by
  have foreign {char : Char} (white : isWhitespace char = true) : char ∉ name := fun member =>
    Bool.false_ne_true ((solid char member).symm.trans white)
  induction chars using words_induction with
  | nil => simp [nonempty]
  | space char rest white ih =>
      replace ih : name <:+: rest ↔ ∃ word ∈ charWords rest, name <:+: word := ih
      rw [charWords_space white, ← ih, ← List.nil_append (char :: rest),
        infix_append_foreign (foreign white) nonempty]
      simp [nonempty]
  | last word solid' nonempty' => simp [charWords_solid solid' nonempty']
  | more word char rest solid' nonempty' white ih =>
      replace ih : name <:+: rest ↔ ∃ word ∈ charWords rest, name <:+: word := ih
      rw [charWords_append_space white, charWords_solid solid' nonempty',
        infix_append_foreign (foreign white) nonempty, ih]
      simp

/-- A word stays a word where it is edited, by induction over it. -/
theorem solid_editFirst (solid : Solid name) (edited : ∀ word, Solid word → Solid (edit word))
    (solid' : Solid word)
    : Solid (editFirst name edit word) := by
  induction word with
  | nil => exact solid'
  | cons first word ih =>
      rw [editFirst]
      split
      next =>
        intro char member
        rcases List.mem_append.mp member with named | later
        · exact solid char named
        · refine edited _ (fun char member => ?_) char later
          exact solid' char (List.mem_of_mem_drop member)
      next =>
        intro char member
        rcases List.mem_cons.mp member with rfl | later
        · exact solid' _ (by simp)
        · exact ih (fun char member => solid' char (by simp [member])) char later

/-- Edits behind the first mention in a text edit one of its words, by induction over it. -/
theorem charWords_editFirst (solid : Solid name) (nonempty : name ≠ [])
    (stops : ∀ char, isWhitespace char = true → ∀ front back,
      edit (front ++ char :: back) = edit front ++ char :: back)
    (edited : ∀ word, Solid word → Solid (edit word)) (chars : List Char)
    : charWords (editFirst name edit chars) = editFirstWord name edit (charWords chars) := by
  have foreign {char : Char} (white : isWhitespace char = true) : char ∉ name := fun member =>
    Bool.false_ne_true ((solid char member).symm.trans white)
  have editedWord {word : List Char} (solid' : Solid word) (nonempty' : word ≠ [])
      : charWords (editFirst name edit word) = [editFirst name edit word] := by
    refine charWords_solid (solid_editFirst solid edited solid') fun empty => ?_
    have starts := @head?_editFirst _ name _ edit word nonempty
    rw [empty] at starts
    exact nonempty' (List.head?_eq_none_iff.mp starts.symm)
  induction chars using words_induction with
  | nil => rfl
  | space char rest white ih =>
      have apart := @editFirst_append_foreign _ name [] rest char _ edit (foreign white) nonempty
        (stops char white)
      rw [if_neg (by simpa using nonempty)] at apart
      rw [List.nil_append] at apart
      rw [apart, List.nil_append, charWords_space white, charWords_space white, ih]
  | last word solid' nonempty' =>
      rw [editedWord solid' nonempty', charWords_solid solid' nonempty', editFirstWord]
      split
      next => rfl
      next none => rw [editFirst_unmentioned none, editFirstWord]
  | more word char rest solid' nonempty' white ih =>
      rw [editFirst_append_foreign (foreign white) nonempty (stops char white),
        charWords_append_space white, charWords_solid solid' nonempty', List.singleton_append,
        editFirstWord]
      split
      next =>
        rw [charWords_append_space white, editedWord solid' nonempty', List.singleton_append]
      next =>
        rw [charWords_append_space white, charWords_solid solid' nonempty', ih,
          List.singleton_append]

end Edits

end AiSdlc.Js
