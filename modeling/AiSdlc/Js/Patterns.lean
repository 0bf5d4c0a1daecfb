import AiSdlc.Js.TextOperations

/-! Searches by regular expressions whose alternatives are words with white space between them, and
which do not tell the cases of letters apart.
-/

namespace AiSdlc.Js

/-- A word in small letters, or white space, which is `\s*` where it is optional and else `\s+`. -/
inductive PatternPart
  | word (text : String)
  | space (optional : Bool)
  deriving DecidableEq, Repr

/-- The parts match a text one after the other; the flag `i` folds the letters of ASCII only. -/
inductive Matches : List PatternPart → List Char → Prop
  | nil : Matches [] []
  | word {text : String} {chars rest : List Char} {parts : List PatternPart}
      (same : chars.map Char.toLower = text.toList) (matched : Matches parts rest)
      : Matches (.word text :: parts) (chars ++ rest)
  | space {optional : Bool} {run rest : List Char} {parts : List PatternPart}
      (blank : ∀ char ∈ run, isWhitespace char = true) (enough : optional = true ∨ run ≠ [])
      (matched : Matches parts rest)
      : Matches (.space optional :: parts) (run ++ rest)

/-- What follows a word at the start of a text. -/
def afterWord : List Char → List Char → Option (List Char)
  | [], chars => some chars
  | _ :: _, [] => none
  | letter :: word, char :: chars => if char.toLower = letter then afterWord word chars else none

/-- What may follow white space at the start of a text. -/
def afterSpace (optional : Bool) : List Char → List (List Char)
  | [] => if optional then [[]] else []
  | char :: rest =>
      (if optional then [char :: rest] else [])
        ++ if isWhitespace char then afterSpace true rest else []

/-- What may follow a pattern at the start of a text. -/
def afterPattern : List PatternPart → List Char → List (List Char)
  | [], chars => [chars]
  | .word text :: parts, chars =>
      (afterWord text.toList chars).toList.flatMap (afterPattern parts)
  | .space optional :: parts, chars => (afterSpace optional chars).flatMap (afterPattern parts)

/-- What may follow `.*` at the start of a text. -/
def afterDots : List Char → List (List Char)
  | [] => [[]]
  | char :: rest => (char :: rest) :: if isDotCharacter char then afterDots rest else []

/-- `/first|second|…/i.test(text)`. -/
def searches (alternatives : List (List PatternPart)) (chars : List Char) : Bool :=
  chars.tails.any fun start => alternatives.any fun parts => afterPattern parts start ≠ []

/-- `/(?:…).*(?:…)/i.test(text)`. -/
def searchesInLine (alternatives others : List (List PatternPart)) (chars : List Char) : Bool :=
  chars.tails.any fun start => alternatives.any fun parts =>
    (afterPattern parts start).any fun behind => (afterDots behind).any fun rest =>
      others.any fun other => afterPattern other rest ≠ []

section Searches

variable {parts : List PatternPart} {alternatives others : List (List PatternPart)}
  {word chars rest : List Char} {optional : Bool}

theorem Matches.ne_nil {text : String} (matched : Matches (.word text :: parts) chars)
    (named : text ≠ "")
    : chars ≠ [] := by
  cases matched with
  | word same _ =>
      intro empty
      obtain ⟨rfl, -⟩ := List.append_eq_nil_iff.mp empty
      exact named (String.toList_inj.mp same.symm)

theorem afterWord_eq_some
    : afterWord word chars = some rest
      ↔ ∃ front, chars = front ++ rest ∧ front.map Char.toLower = word := by
  induction word generalizing chars with
  | nil =>
      simp only [afterWord, Option.some_inj, List.map_eq_nil_iff]
      constructor
      · rintro rfl
        exact ⟨[], rfl, rfl⟩
      · rintro ⟨_, rfl, rfl⟩
        rfl
  | cons letter word ih =>
      cases chars with
      | nil =>
          simp only [afterWord, reduceCtorEq, false_iff]
          rintro ⟨front, split, same⟩
          obtain ⟨rfl, -⟩ := List.append_eq_nil_iff.mp split.symm
          exact List.cons_ne_nil _ _ same.symm
      | cons char chars =>
          rw [afterWord]
          split
          next same =>
            rw [ih]
            constructor
            · rintro ⟨front, rfl, rfl⟩
              exact ⟨char :: front, rfl, by rw [List.map_cons, same]⟩
            · rintro ⟨front, split, mapped⟩
              cases front with
              | nil => exact absurd mapped (List.cons_ne_nil _ _).symm
              | cons first front =>
                  obtain ⟨rfl, rfl⟩ := List.cons.inj split
                  exact ⟨front, rfl, (List.cons.inj mapped).2⟩
          next other =>
            simp only [reduceCtorEq, false_iff]
            rintro ⟨front, split, mapped⟩
            cases front with
            | nil => exact absurd mapped (List.cons_ne_nil _ _).symm
            | cons first front =>
                obtain ⟨rfl, rfl⟩ := List.cons.inj split
                exact other (List.cons.inj mapped).1

theorem mem_afterSpace
    : rest ∈ afterSpace optional chars
      ↔ ∃ run, chars = run ++ rest ∧ (∀ char ∈ run, isWhitespace char = true)
        ∧ (optional = true ∨ run ≠ []) := by
  induction chars generalizing optional with
  | nil =>
      rw [afterSpace]
      constructor
      · intro member
        split at member
        next skips =>
          obtain rfl := List.mem_singleton.mp member
          exact ⟨[], rfl, fun _ within => absurd within List.not_mem_nil, .inl skips⟩
        next => exact absurd member List.not_mem_nil
      · rintro ⟨run, split, -, enough⟩
        obtain ⟨rfl, rfl⟩ := List.append_eq_nil_iff.mp split.symm
        rw [if_pos (enough.resolve_right fun some => some rfl)]
        exact List.mem_singleton_self _
  | cons char chars ih =>
      rw [afterSpace, List.mem_append]
      constructor
      · rintro (here | later)
        · split at here
          next skips =>
            obtain rfl := List.mem_singleton.mp here
            exact ⟨[], rfl, fun _ within => absurd within List.not_mem_nil, .inl skips⟩
          next => exact absurd here List.not_mem_nil
        · split at later
          next blank =>
            obtain ⟨run, rfl, all, -⟩ := ih.mp later
            exact ⟨char :: run, rfl, List.forall_mem_cons.mpr ⟨blank, all⟩,
              .inr (List.cons_ne_nil _ _)⟩
          next => exact absurd later List.not_mem_nil
      · rintro ⟨run, split, all, enough⟩
        cases run with
        | nil =>
            have skips := enough.resolve_right fun some => some rfl
            rw [if_pos skips]
            exact .inl (List.mem_singleton.mpr split.symm)
        | cons first run =>
            obtain ⟨rfl, rfl⟩ := List.cons.inj split
            obtain ⟨blank, others⟩ := List.forall_mem_cons.mp all
            rw [if_pos blank]
            exact .inr (ih.mpr ⟨run, rfl, others, .inl rfl⟩)

/-- What follows a pattern is behind a text that it matches, by induction over its parts. -/
theorem mem_afterPattern
    : rest ∈ afterPattern parts chars ↔ ∃ front, chars = front ++ rest ∧ Matches parts front := by
  induction parts generalizing chars with
  | nil =>
      rw [afterPattern, List.mem_singleton]
      constructor
      · rintro rfl
        exact ⟨[], rfl, .nil⟩
      · rintro ⟨front, rfl, matched⟩
        cases matched
        rfl
  | cons part parts ih =>
      cases part with
      | word text =>
          simp only [afterPattern, List.mem_flatMap, Option.mem_toList, afterWord_eq_some, ih]
          constructor
          · rintro ⟨_, ⟨front, rfl, same⟩, more, rfl, matched⟩
            exact ⟨front ++ more, (List.append_assoc _ _ _).symm, .word same matched⟩
          · rintro ⟨_, rfl, matched⟩
            cases matched with
            | word same later =>
                exact ⟨_, ⟨_, List.append_assoc _ _ _, same⟩, _, rfl, later⟩
      | space optional =>
          simp only [afterPattern, List.mem_flatMap, mem_afterSpace, ih]
          constructor
          · rintro ⟨_, ⟨run, rfl, blank, enough⟩, more, rfl, matched⟩
            exact ⟨run ++ more, (List.append_assoc _ _ _).symm, .space blank enough matched⟩
          · rintro ⟨_, rfl, matched⟩
            cases matched with
            | space blank enough later =>
                exact ⟨_, ⟨_, List.append_assoc _ _ _, blank, enough⟩, _, rfl, later⟩

theorem afterPattern_ne_nil
    : afterPattern parts chars ≠ []
      ↔ ∃ front rest, chars = front ++ rest ∧ Matches parts front := by
  constructor
  · intro some
    obtain ⟨rest, member⟩ := List.exists_mem_of_ne_nil _ some
    obtain ⟨front, split, matched⟩ := mem_afterPattern.mp member
    exact ⟨front, rest, split, matched⟩
  · rintro ⟨front, rest, split, matched⟩
    exact List.ne_nil_of_mem (mem_afterPattern.mpr ⟨front, split, matched⟩)

theorem mem_afterDots
    : rest ∈ afterDots chars
      ↔ ∃ gap, chars = gap ++ rest ∧ ∀ char ∈ gap, isDotCharacter char = true := by
  induction chars with
  | nil =>
      rw [afterDots, List.mem_singleton]
      constructor
      · rintro rfl
        exact ⟨[], rfl, fun _ within => absurd within List.not_mem_nil⟩
      · rintro ⟨gap, split, -⟩
        exact (List.append_eq_nil_iff.mp split.symm).2
  | cons char chars ih =>
      rw [afterDots, List.mem_cons]
      constructor
      · rintro (rfl | later)
        · exact ⟨[], rfl, fun _ within => absurd within List.not_mem_nil⟩
        · split at later
          next dot =>
            obtain ⟨gap, rfl, all⟩ := ih.mp later
            exact ⟨char :: gap, rfl, List.forall_mem_cons.mpr ⟨dot, all⟩⟩
          next => exact absurd later List.not_mem_nil
      · rintro ⟨gap, split, all⟩
        cases gap with
        | nil => exact .inl split.symm
        | cons first gap =>
            obtain ⟨rfl, rfl⟩ := List.cons.inj split
            obtain ⟨dot, others⟩ := List.forall_mem_cons.mp all
            rw [if_pos dot]
            exact .inr (ih.mpr ⟨gap, rfl, others⟩)

theorem searches_iff
    : searches alternatives chars = true
      ↔ ∃ parts ∈ alternatives, ∃ before matched after, chars = before ++ (matched ++ after)
        ∧ Matches parts matched := by
  simp only [searches, List.any_eq_true, List.mem_tails, decide_eq_true_eq, afterPattern_ne_nil]
  constructor
  · rintro ⟨start, ⟨before, rfl⟩, parts, listed, front, rest, rfl, matched⟩
    exact ⟨parts, listed, before, front, rest, rfl, matched⟩
  · rintro ⟨parts, listed, before, front, rest, rfl, matched⟩
    exact ⟨front ++ rest, ⟨before, rfl⟩, parts, listed, front, rest, rfl, matched⟩

theorem searchesInLine_iff
    : searchesInLine alternatives others chars = true
      ↔ ∃ parts ∈ alternatives, ∃ other ∈ others, ∃ before first gap second after,
        chars = before ++ (first ++ (gap ++ (second ++ after)))
        ∧ Matches parts first ∧ (∀ char ∈ gap, isDotCharacter char = true)
        ∧ Matches other second := by
  simp only [searchesInLine, List.any_eq_true, List.mem_tails, decide_eq_true_eq,
    afterPattern_ne_nil, mem_afterPattern, mem_afterDots]
  constructor
  · rintro ⟨_, ⟨before, rfl⟩, parts, listed, _, ⟨first, rfl, matched⟩, _, ⟨gap, rfl, dots⟩, other,
      also, second, after, rfl, last⟩
    exact ⟨parts, listed, other, also, before, first, gap, second, after, rfl, matched, dots, last⟩
  · rintro ⟨parts, listed, other, also, before, first, gap, second, after, rfl, matched, dots, last⟩
    exact ⟨_, ⟨before, rfl⟩, parts, listed, _, ⟨first, rfl, matched⟩, _, ⟨gap, rfl, dots⟩, other,
      also, second, after, rfl, last⟩

end Searches

end AiSdlc.Js
