import AiSdlc.Application.LiteralVitest

/-! How the literal runs of one test file are recognised, by their words. -/

namespace AiSdlc.Application

open AiSdlc.Js

section Runners

variable {chars rest front back word : List Char} {run words : List (List Char)}

/-- A word, which white space ends. -/
def IsWord (word : List Char) : Prop :=
  word ≠ [] ∧ Solid word
  deriving Decidable

/-- A text starts with a word and white space. -/
theorem starts_word_iff (named : IsWord word)
    : (word.isPrefixOf chars && (chars.drop word.length).head?.any isWhitespace) = true
      ↔ chars.takeWhile (!isWhitespace ·) = word ∧ chars.dropWhile (!isWhitespace ·) ≠ [] := by
  rw [Bool.and_eq_true, List.isPrefixOf_iff_prefix]
  constructor
  · rintro ⟨⟨behind, rfl⟩, white⟩
    rw [List.drop_left] at white
    cases behind with
    | nil => exact absurd white (by simp)
    | cons space behind =>
        have white : isWhitespace space = true := by simpa using white
        have solid : ∀ char ∈ word, (!isWhitespace char) = true := fun char member => by
          simp [named.2 char member]
        rw [List.takeWhile_append_of_pos solid, List.dropWhile_append_of_pos solid]
        simp [white]
  · rintro ⟨rfl, nonempty⟩
    have parts := List.takeWhile_append_dropWhile (p := (!isWhitespace ·)) (l := chars)
    rcases behind_word chars with ends | ⟨space, more, white, behind⟩
    · exact absurd ends nonempty
    · have prefixed : chars.takeWhile (!isWhitespace ·) <+: chars := ⟨_, parts⟩
      refine ⟨prefixed, ?_⟩
      have dropped : chars.drop (chars.takeWhile (!isWhitespace ·)).length = space :: more := by
        have cut := congrArg (List.drop (chars.takeWhile (!isWhitespace ·)).length) parts
        rw [List.drop_left, behind] at cut
        exact cut.symm
      simp [dropped, white]

theorem drop_word (starts : chars.takeWhile (!isWhitespace ·) = word)
    : chars.drop word.length = chars.dropWhile (!isWhitespace ·) := by
  have cut := congrArg (List.drop word.length)
    (List.takeWhile_append_dropWhile (p := (!isWhitespace ·)) (l := chars))
  rw [starts, List.drop_left] at cut
  exact cut.symm

/-- Words are skipped where a text starts with them and something follows, by induction over
them.
-/
theorem skipWords_iff (named : ∀ word ∈ run, IsWord word)
    (starts : chars.head?.any isWhitespace = false)
    : skipWords run chars = some rest
      ↔ run <+: charWords chars ∧ (run ≠ [] → dropWords run.length chars ≠ [])
        ∧ rest = (dropWords run.length chars).dropWhile isWhitespace := by
  induction run generalizing chars with
  | nil =>
      have tight := dropWhile_space starts
      rw [skipWords]
      simp [dropWords, tight, eq_comm]
  | cons word run ih =>
      obtain ⟨first, others⟩ := List.forall_mem_cons.mp named
      have tight := dropWhile_space starts
      have behind := @ih ((chars.dropWhile (!isWhitespace ·)).dropWhile isWhitespace)
        others (head?_dropWhile_space _)
      rw [skipWords]
      by_cases here
        : chars.takeWhile (!isWhitespace ·) = word ∧ chars.dropWhile (!isWhitespace ·) ≠ []
      · obtain ⟨same, nonempty⟩ := here
        rw [if_pos ((starts_word_iff first).mpr ⟨same, nonempty⟩), drop_word same, behind]
        have filled : chars ≠ [] := by
          rintro rfl
          exact nonempty rfl
        rw [charWords_of_word starts filled, same, List.cons_prefix_cons, charWords_dropWhile]
        simp only [true_and, List.length_cons, dropWords, tight]
        refine and_congr_right fun _ => ?_
        cases run with
        | nil => simp [dropWords, nonempty, dropWhile_dropWhile_space]
        | cons next run => simp [dropWords_dropWhile]
      · rw [if_neg (fun begins => here ((starts_word_iff first).mp begins))]
        refine iff_of_false (by simp) ?_
        rintro ⟨begins, nonempty, -⟩
        have filled : chars ≠ [] := by
          rintro rfl
          exact absurd begins.length_le (by simp)
        rw [charWords_of_word starts filled, List.cons_prefix_cons] at begins
        refine absurd ⟨begins.1.symm, fun empty => nonempty (by simp) ?_⟩ here
        rw [List.length_cons, dropWords, tight, empty, dropWords_nil]

theorem skipWords_space (named : IsWord word) (white : chars.head?.any isWhitespace = true)
    : skipWords (word :: run) chars = none := by
  rw [skipWords, if_neg]
  intro begins
  obtain ⟨same, -⟩ := (starts_word_iff named).mp begins
  cases chars with
  | nil => exact nomatch white
  | cons first chars =>
      have space : isWhitespace first = true := by simpa using white
      rw [List.takeWhile_cons_of_neg (by simp [space])] at same
      exact named.1 same.symm

/-- Lists of words of which none starts another. -/
def Apart (runs : List (List (List Char))) : Prop :=
  ∀ run ∈ runs, ∀ other ∈ runs, run <+: other → run = other
  deriving Decidable

theorem Apart.eq {runs : List (List (List Char))} {other : List (List Char)} (apart : Apart runs)
    (member : run ∈ runs) (member' : other ∈ runs) (starts : run <+: words)
    (starts' : other <+: words)
    : run = other := by
  rcases List.prefix_or_prefix_of_prefix starts starts' with shorter | longer
  · exact apart run member other member' shorter
  · exact (apart other member' run member longer).symm

theorem isWord_of_mem_vitestRuns (member : run ∈ vitestRuns) : ∀ word ∈ run, IsWord word := by
  have each : ∀ run ∈ vitestRuns, ∀ word ∈ run, IsWord word := by decide
  exact each run member

/-- What stands behind the words of a runner. -/
theorem runner_iff
    : vitestRuns.findSome? (skipWords · chars) = some rest
      ↔ chars.head?.any isWhitespace = false
        ∧ ∃ run ∈ vitestRuns, run <+: charWords chars ∧ dropWords run.length chars ≠ []
            ∧ rest = (dropWords run.length chars).dropWhile isWhitespace := by
  have apart : Apart vitestRuns := by decide
  have filled : ∀ run ∈ vitestRuns, run ≠ [] := by decide
  constructor
  · intro found
    obtain ⟨run, member, skips⟩ := List.exists_of_findSome?_eq_some found
    have starts : chars.head?.any isWhitespace = false := by
      by_contra white
      obtain ⟨word, others, rfl⟩ := List.exists_cons_of_ne_nil (filled run member)
      rw [skipWords_space (isWord_of_mem_vitestRuns member word (by simp)) (by simpa using white)]
        at skips
      exact nomatch skips
    obtain ⟨begins, nonempty, same⟩ :=
      (skipWords_iff (isWord_of_mem_vitestRuns member) starts).mp skips
    exact ⟨starts, run, member, begins, nonempty (filled run member), same⟩
  · rintro ⟨starts, run, member, begins, nonempty, same⟩
    have skips := (skipWords_iff (isWord_of_mem_vitestRuns member) starts).mpr
      ⟨begins, fun _ => nonempty, same⟩
    have some : (vitestRuns.findSome? (skipWords · chars)).isSome = true :=
      List.findSome?_isSome_iff.mpr ⟨run, member, by rw [skips]; rfl⟩
    obtain ⟨other, found⟩ := Option.isSome_iff_exists.mp some
    obtain ⟨run', member', skips'⟩ := List.exists_of_findSome?_eq_some found
    obtain ⟨begins', -, -⟩ := (skipWords_iff (isWord_of_mem_vitestRuns member') starts).mp skips'
    obtain rfl := apart.eq member member' begins begins'
    exact found.trans (skips'.symm.trans skips)

end Runners

end AiSdlc.Application
