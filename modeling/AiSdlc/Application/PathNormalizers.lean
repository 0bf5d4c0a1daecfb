import Mathlib.Algebra.GroupWithZero.Nat
import AiSdlc.Application.ProtectedPaths

/-! The normal forms of paths, compared: what is trimmed from a path once must not show up at the
ends of its normal form, and the normalizers of the repository agree on relative paths.
-/

namespace AiSdlc.Application

open AiSdlc.Js
open AiSdlc.Domain

-----------------------------------------------------------------------------------------
-- The names that stay in a path
-----------------------------------------------------------------------------------------

/-- The parts of a path. -/
def pathParts (path : String) : List (List Char) :=
  (posixChars (trim path)).splitOn '/'

/-- How many directories a list of parts climbs above the one where it starts. -/
def climbs : List (List Char) → Nat
  | [] => 0
  | part :: rest =>
      if part = [] || part = ['.'] then climbs rest
      else if part = ['.', '.'] then climbs rest + 1
      else climbs rest - 1

/-- The names that the parts after them do not climb out of. -/
def stayingNames : List (List Char) → List (List Char)
  | [] => []
  | part :: rest =>
      if part = [] || part = ['.'] || part = ['.', '.'] || climbs rest ≠ 0 then stayingNames rest
      else part :: stayingNames rest

/-- No white space stands before the first name that stays, and none after the last one. -/
structure TightEnds (path : String) : Prop where
  front : ∀ name ∈ (stayingNames (pathParts path)).head?, name.dropWhile isWhitespace = name
  back : ∀ name ∈ (stayingNames (pathParts path)).getLast?, name.rdropWhile isWhitespace = name

/-- The stack keeps what is not climbed out of, and then the names that stay, by induction over
the parts.
-/
theorem stackSegments_eq {stack parts : List (List Char)}
    : stackSegments stack parts
      = stack.take (stack.length - climbs parts) ++ stayingNames parts := by
  induction parts generalizing stack with
  | nil => simp [stackSegments, climbs, stayingNames]
  | cons part rest ih =>
      unfold stackSegments climbs stayingNames
      by_cases skipped : (decide (part = []) || decide (part = ['.'])) = true
      · simp only [skipped, if_true, Bool.true_or]
        exact ih
      · by_cases up : part = ['.', '.']
        · have kept : stack.dropLast.take (stack.dropLast.length - climbs rest)
              = stack.take (stack.length - (climbs rest + 1)) := by
            rw [List.length_dropLast, List.dropLast_eq_take, List.take_take]
            congr 1
            omega
          subst up
          exact ih.trans (congrArg (· ++ stayingNames rest) kept)
        · simp only [skipped, up, Bool.false_eq_true, if_false, decide_false, Bool.or_false,
            Bool.false_or, ih, List.length_append, List.length_singleton]
          by_cases left : climbs rest = 0
          · simp only [left, ne_eq, not_true_eq_false, decide_false, Bool.false_eq_true, if_false,
              Nat.sub_zero, Nat.zero_sub]
            rw [List.take_of_length_le (by simp), List.take_length, List.append_assoc]
            rfl
          · rw [List.take_append_of_le_length (by omega)]
            simp only [left, ne_eq, not_false_eq_true, decide_true, if_true]
            congr 2
            omega

theorem taskSegments_eq_stayingNames (path : String)
    : taskSegments path = stayingNames (pathParts path) := by
  rw [taskSegments, stackSegments_eq, List.take_nil, List.nil_append, pathParts]

-----------------------------------------------------------------------------------------
-- Lengths
-----------------------------------------------------------------------------------------

/-- The characters of some parts, each with a slash. -/
def partsLength (parts : List (List Char)) : Nat :=
  (parts.map fun part => part.length + 1).sum

theorem length_segmentChars {segs : List (List Char)} (some : segs ≠ [])
    : (segmentChars segs).length + 1 = partsLength segs := by
  induction segs with
  | nil => contradiction
  | cons first rest ih =>
      cases rest with
      | nil => simp [segmentChars, partsLength]
      | cons second rest =>
          have later := ih (List.cons_ne_nil _ _)
          rw [segmentChars_cons (List.cons_ne_nil _ _)]
          simp only [partsLength, List.map_cons, List.sum_cons, List.length_append,
            List.length_cons] at later ⊢
          omega

/-- The names that stay are not longer than the parts, by induction over these. -/
theorem partsLength_stayingNames (parts : List (List Char))
    : partsLength (stayingNames parts) ≤ partsLength parts := by
  induction parts with
  | nil => exact Nat.le_refl _
  | cons part rest ih =>
      unfold stayingNames
      split
      · exact ih.trans (Nat.le_add_left _ _)
      · exact Nat.add_le_add_left ih _

/-- A normal form is not longer than the trimmed path. -/
theorem length_normalizeTaskPath (path : String)
    : (normalizeTaskPath path).toList.length ≤ (trim path).toList.length := by
  rw [normalizeTaskPath_eq, joinSegments, String.toList_ofList]
  change (segmentChars (taskSegments path)).length ≤ _
  have chars : (posixChars (trim path)).length = (trim path).toList.length := by
    simp [posixChars]
  have whole : segmentChars (pathParts path) = posixChars (trim path) :=
    List.intercalate_splitOn _
  have parts := length_segmentChars (List.splitOn_ne_nil '/' (posixChars (trim path)))
  by_cases none : taskSegments path = []
  · simp [none, segmentChars]
  · have names := length_segmentChars none
    have shorter := partsLength_stayingNames (pathParts path)
    rw [← taskSegments_eq_stayingNames, ← names] at shorter
    change (segmentChars (pathParts path)).length + 1 = partsLength (pathParts path) at parts
    rw [whole] at parts
    omega

-----------------------------------------------------------------------------------------
-- Ends of a normal form
-----------------------------------------------------------------------------------------

/-- A text keeps its start exactly when its first character is kept. -/
theorem dropWhile_cons_eq {keeps : Char → Bool} {char : Char} {rest : List Char}
    : (char :: rest).dropWhile keeps = char :: rest ↔ keeps char = false := by
  rw [List.dropWhile_cons]
  split
  next dropped =>
    refine iff_of_false (fun same => ?_) (by simp [dropped])
    have shorter := (List.dropWhile_suffix keeps (l := rest)).length_le
    rw [same, List.length_cons] at shorter
    omega
  next kept => simpa using kept

theorem rdropWhile_concat_eq {keeps : Char → Bool} {char : Char} {front : List Char}
    : (front ++ [char]).rdropWhile keeps = front ++ [char] ↔ keeps char = false := by
  rw [List.rdropWhile, List.reverse_append, List.reverse_singleton, List.singleton_append,
    List.reverse_eq_iff, List.reverse_append, List.reverse_singleton, List.singleton_append]
  exact dropWhile_cons_eq

section Ends

variable {segs : List (List Char)} (filled : ∀ seg ∈ segs, seg ≠ [])
include filled

/-- The segments keep their start where the first of them does. -/
theorem dropWhile_segmentChars
    : (segmentChars segs).dropWhile isWhitespace = segmentChars segs
      ↔ ∀ name ∈ segs.head?, name.dropWhile isWhitespace = name := by
  cases segs with
  | nil => simp [segmentChars]
  | cons first rest =>
      obtain ⟨char, chars, rfl⟩ := List.exists_cons_of_ne_nil (filled first List.mem_cons_self)
      have starts : ∃ more, segmentChars ((char :: chars) :: rest) = char :: more := by
        cases rest with
        | nil => exact ⟨chars, by simp [segmentChars]⟩
        | cons second rest => exact ⟨_, segmentChars_cons (List.cons_ne_nil _ _)⟩
      obtain ⟨more, same⟩ := starts
      rw [same, dropWhile_cons_eq]
      simp only [List.head?_cons, Option.mem_def, Option.some.injEq, forall_eq']
      exact dropWhile_cons_eq.symm

/-- The segments keep their end where the last of them does. -/
theorem rdropWhile_segmentChars
    : (segmentChars segs).rdropWhile isWhitespace = segmentChars segs
      ↔ ∀ name ∈ segs.getLast?, name.rdropWhile isWhitespace = name := by
  rcases List.eq_nil_or_concat' segs with rfl | ⟨front, last, rfl⟩
  · simp [segmentChars]
  · obtain none | ⟨chars, char, rfl⟩ := List.eq_nil_or_concat' last
    · exact absurd none (filled last (by simp))
    have ends : ∃ more, segmentChars (front ++ [chars ++ [char]]) = more ++ [char] := by
      by_cases alone : front = []
      · exact ⟨chars, by simp [alone, segmentChars]⟩
      · exact ⟨segmentChars front ++ '/' :: chars, by rw [segmentChars_concat alone]; simp⟩
    obtain ⟨more, same⟩ := ends
    rw [same, rdropWhile_concat_eq]
    simp only [List.getLast?_append, List.getLast?_singleton, Option.some_or, Option.mem_def,
      Option.some.injEq, forall_eq']
    exact rdropWhile_concat_eq.symm

end Ends

theorem length_trim_le (text : String) : (trim text).toList.length ≤ text.toList.length := by
  rw [trim, String.toList_ofList]
  exact (List.rdropWhile_prefix _ _).length_le.trans (List.dropWhile_suffix _).length_le

/-- Nothing is trimmed from a text exactly when nothing is dropped at either end. -/
theorem trim_eq_self {text : String}
    : trim text = text
      ↔ text.toList.dropWhile isWhitespace = text.toList
        ∧ text.toList.rdropWhile isWhitespace = text.toList := by
  have chars : trim text = text
      ↔ (text.toList.dropWhile isWhitespace).rdropWhile isWhitespace = text.toList := by
    rw [trim, ← String.toList_inj, String.toList_ofList]
  rw [chars]
  constructor
  · intro same
    have front : text.toList.dropWhile isWhitespace = text.toList := by
      refine (List.dropWhile_suffix _).eq_of_length_le ?_
      exact (congrArg List.length same).ge.trans (List.rdropWhile_prefix _ _).length_le
    rw [front] at same
    exact ⟨front, same⟩
  · intro both
    rw [both.1, both.2]

theorem trim_normalizeTaskPath {path : String}
    : trim (normalizeTaskPath path) = normalizeTaskPath path ↔ TightEnds path := by
  have filled : ∀ seg ∈ taskSegments path, seg ≠ [] :=
    fun seg within => (isSegment_of_mem_taskSegments seg within).nonempty
  rw [trim_eq_self, normalizeTaskPath_eq, joinSegments, String.toList_ofList]
  refine (and_congr (dropWhile_segmentChars filled) (rdropWhile_segmentChars filled)).trans ?_
  rw [taskSegments_eq_stayingNames]
  exact ⟨fun both => ⟨both.1, both.2⟩, fun tight => ⟨tight.front, tight.back⟩⟩

/-- A normal form from which nothing is trimmed is one for good; any other one gets shorter. -/
theorem normalizeTaskPath_twice {path : String}
    : normalizeTaskPath (normalizeTaskPath path) = normalizeTaskPath path ↔ TightEnds path := by
  rw [← trim_normalizeTaskPath]
  constructor
  · intro same
    have shorter := length_normalizeTaskPath (normalizeTaskPath path)
    rw [same] at shorter
    have trimmed : (trim (normalizeTaskPath path)).toList.length
        = (normalizeTaskPath path).toList.length :=
      Nat.le_antisymm (length_trim_le _) shorter
    rw [trim, String.toList_ofList] at trimmed
    have back := List.rdropWhile_prefix isWhitespace
      ((normalizeTaskPath path).toList.dropWhile isWhitespace)
    have front := List.dropWhile_suffix (l := (normalizeTaskPath path).toList) isWhitespace
    rw [← String.toList_inj, trim, String.toList_ofList,
      back.eq_of_length_le (front.length_le.trans trimmed.ge)]
    exact front.eq_of_length_le (trimmed.ge.trans back.length_le)
  · intro tight
    by_cases empty : normalizeTaskPath path = ""
    · rw [empty, normalizeTaskPath_empty]
    · have plain := @backslash_not_mem_of_normal path _ rfl
      have trims : trim (normalizeTaskPath path) = .ofList (normalizeTaskPath path).toList :=
        tight.trans String.ofList_toList.symm
      rw [normalizeTaskPath_eq (normalizeTaskPath path), taskSegments_of_trim trims plain,
        splitOn_normalizeTaskPath rfl empty]
      have stays := @stackSegments_append [] (taskSegments path) [] isSegment_of_mem_taskSegments
      rw [List.append_nil] at stays
      rw [stays, normalizeTaskPath_eq path, stackSegments, List.nil_append]

-----------------------------------------------------------------------------------------
-- The other normalizers
-----------------------------------------------------------------------------------------

/-- Parts that do not climb out are stacked in the same way, by induction over the parts. -/
theorem stackSegments_of_normalizeParts {stack parts normalized : List (List Char)}
    (normalizes : normalizeParts stack parts = some normalized)
    : stackSegments stack parts = normalized := by
  induction parts generalizing stack with
  | nil => exact Option.some.inj normalizes
  | cons part rest ih =>
      unfold normalizeParts at normalizes
      unfold stackSegments
      split at normalizes
      next skipped =>
        rw [if_pos skipped]
        exact ih normalizes
      next kept =>
        rw [if_neg kept]
        split at normalizes
        next up =>
          rw [if_pos up]
          split at normalizes
          · contradiction
          · exact ih normalizes
        next down =>
          rw [if_neg down]
          exact ih normalizes

theorem dot_plain : '/' ∉ ['.'] := by
  decide

/-- Leading dots are skipped by the stack, by recursion over them. -/
theorem stackSegments_dropDotSlash (stack : List (List Char)) (chars : List Char)
    : stackSegments stack ((dropDotSlash chars).splitOn '/')
      = stackSegments stack (chars.splitOn '/') := by
  fun_induction dropDotSlash chars with
  | case1 rest ih =>
      have parts : ('.' :: '/' :: rest).splitOn '/' = ['.'] :: rest.splitOn '/' :=
        List.splitOn_append_cons_self_of_not_mem dot_plain rest
      rw [ih, parts]
      rfl
  | case2 chars other => rfl

theorem normalizeTaskPath_of_parts {path : String} {normalized : List (List Char)}
    (stacked : stackSegments [] (pathParts path) = normalized)
    : normalizeTaskPath path = joinSegments normalized := by
  rw [normalizeTaskPath_eq, taskSegments]
  exact congrArg joinSegments stacked

theorem normalizeRepoRelativePath_eq {path normalized : String}
    (accepts : normalizeRepoRelativePath path = some normalized)
    : normalizeTaskPath path = normalized := by
  unfold normalizeRepoRelativePath at accepts
  split at accepts
  · exact nomatch accepts
  · dsimp only at accepts
    split at accepts
    · exact nomatch accepts
    · generalize made : normalizeParts [] _ = result at accepts
      match result, accepts with
      | some (first :: rest), accepts =>
          have stacked := stackSegments_of_normalizeParts made
          rw [stackSegments_dropDotSlash] at stacked
          exact (normalizeTaskPath_of_parts stacked).trans (Option.some.inj accepts)

theorem normalizeRepositoryPath_eq {path cwd normalized : String}
    (relative : isRootedPath (posixChars (trim path)) = false)
    (accepts : normalizeRepositoryPath path cwd = some normalized)
    : normalizeTaskPath path = normalized := by
  simp only [normalizeRepositoryPath, belowDirectory, relative, Bool.false_eq_true, if_false,
    Option.bind_some] at accepts
  split at accepts
  · exact nomatch accepts
  · generalize made : normalizeParts [] _ = result at accepts
    match result, accepts with
    | some (first :: rest), accepts =>
        have stacked := stackSegments_of_normalizeParts made
        exact (normalizeTaskPath_of_parts stacked).trans (Option.some.inj accepts)

-----------------------------------------------------------------------------------------
-- All together
-----------------------------------------------------------------------------------------

/-- What is expected of the normal forms of a path. -/
structure NormalizesWell (path : String) : Prop where
  idempotent : normalizeTaskPath (normalizeTaskPath path) = normalizeTaskPath path
  dotless : startsWith (normalizeTaskPath path) "./" = false
  slashed : '\\' ∉ (normalizeTaskPath path).toList
  repoRelative : ∀ normalized, normalizeRepoRelativePath path = some normalized →
    normalized = normalizeTaskPath path
  repository : ∀ cwd normalized, isRootedPath (posixChars (trim path)) = false →
    normalizeRepositoryPath path cwd = some normalized → normalized = normalizeTaskPath path

theorem dotless_normalizeTaskPath (path : String)
    : startsWith (normalizeTaskPath path) "./" = false := by
  by_contra dotted
  rw [Bool.not_eq_false, startsWith] at dotted
  obtain ⟨rest, starts⟩ := List.isPrefixOf_iff_prefix.mp dotted
  have nonempty : normalizeTaskPath path ≠ "" := by
    intro empty
    rw [empty] at starts
    cases starts
  have segments := isSegment_of_normalizeTaskPath rfl nonempty
  have parts : (normalizeTaskPath path).toList.splitOn '/' = ['.'] :: rest.splitOn '/' := by
    rw [← starts]
    exact List.splitOn_append_cons_self_of_not_mem dot_plain rest
  rw [parts] at segments
  exact (segments ['.'] List.mem_cons_self).here rfl

/-- The normal forms of a path are as expected exactly when its ends are tight: white space that
is left at an end is trimmed the next time.
-/
theorem normalizesWell_iff (path : String) : NormalizesWell path ↔ TightEnds path := by
  constructor
  · intro well
    exact normalizeTaskPath_twice.mp well.idempotent
  · intro tight
    exact {
      idempotent := normalizeTaskPath_twice.mpr tight
      dotless := dotless_normalizeTaskPath path
      slashed := backslash_not_mem_of_normal rfl
      repoRelative := fun _ accepts => (normalizeRepoRelativePath_eq accepts).symm
      repository := fun _ _ relative accepts =>
        (normalizeRepositoryPath_eq relative accepts).symm
    }

/-- The first normal form begins with white space, and the second one does not. -/
theorem spaced_normalForm : ¬∀ path, NormalizesWell path := by
  intro claim
  have same := (claim "./ a").idempotent
  have once : normalizeTaskPath "./ a" = " a" := by decide
  have twice : normalizeTaskPath " a" = "a" := by decide
  rw [once, twice] at same
  exact absurd same (by decide)

end AiSdlc.Application
