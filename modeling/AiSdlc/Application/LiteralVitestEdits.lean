import AiSdlc.Application.LiteralVitestRuns

/-! How commands that are texts are matched once the setting is edited or appended. -/

namespace AiSdlc.Application

open AiSdlc.Js

-----------------------------------------------------------------------------------------
-- The setting
-----------------------------------------------------------------------------------------

/-- A command with its first mention set to false. -/
abbrev editSetting : List Char → List Char :=
  editFirst passWithNoTests setFalse

/-- A command with the setting at its end. -/
abbrev appendSetting (command : List Char) : List Char :=
  command ++ ' ' :: failWithNoTests

section Setting

variable {chars front back : List Char} {char : Char}

/-- The characters that the settings consist of. -/
def settingChars : List Char :=
  "--passWithNoTests=true=false".toList

theorem passWithNoTests_nonempty : passWithNoTests ≠ [] := by
  decide

theorem solid_passWithNoTests : Solid passWithNoTests := by
  decide

theorem notSetting_of_space (white : isWhitespace char = true) : char ∉ settingChars := by
  have solid : Solid settingChars := by decide
  exact fun member => Bool.false_ne_true ((solid char member).symm.trans white)

theorem foreign_of_notSetting (foreign : char ∉ settingChars)
    : char ∉ passWithNoTests ∧ char ∉ "=true".toList ∧ char ∉ "=false".toList := by
  have each : ∀ char ∈ passWithNoTests ++ "=true".toList ++ "=false".toList,
      char ∈ settingChars := by
    decide
  exact ⟨fun member => foreign (each char (by simp [member])),
    fun member => foreign (each char (List.mem_append_left _ (List.mem_append_right _ member))),
    fun member => foreign (each char (List.mem_append_right _ member))⟩

/-- A value ends in front of every other character. -/
theorem setFalse_stops (foreign : char ∉ settingChars) (front back : List Char)
    : setFalse (front ++ char :: back) = setFalse front ++ char :: back := by
  obtain ⟨-, positive, negative⟩ := foreign_of_notSetting foreign
  unfold setFalse
  simp only [List.isPrefixOf_iff_prefix, prefix_append_foreign positive,
    prefix_append_foreign negative]
  split
  next starts =>
    have within : 5 ≤ front.length := starts.length_le
    rw [List.drop_append_of_le_length within, List.append_assoc]
  next =>
    split
    next starts =>
      have within : 6 ≤ front.length := starts.length_le
      rw [List.drop_append_of_le_length within, List.append_assoc]
    next => rw [List.append_assoc]

theorem setFalse_setFalse (behind : List Char) : setFalse (setFalse behind) = setFalse behind := by
  unfold setFalse
  rfl

theorem all_setFalse {holds : Char → Bool} (named : settingChars.all holds = true)
    (behind : List Char)
    : (setFalse behind).all holds = behind.all holds := by
  have each (value : List Char) (within : ∀ char ∈ value, char ∈ settingChars)
      : value.all holds = true :=
    List.all_eq_true.mpr fun char member => List.all_eq_true.mp named char (within char member)
  have positive := each "=true".toList (by decide)
  have negative := each "=false".toList (by decide)
  unfold setFalse
  rw [List.all_append, negative, Bool.true_and]
  split
  next starts =>
    obtain ⟨rest, rfl⟩ := List.isPrefixOf_iff_prefix.mp starts
    rw [List.all_append, positive, Bool.true_and]
    rfl
  next =>
    split
    next starts =>
      obtain ⟨rest, rfl⟩ := List.isPrefixOf_iff_prefix.mp starts
      rw [List.all_append, negative, Bool.true_and]
      rfl
    next => rfl

theorem all_editSetting {holds : Char → Bool} (named : settingChars.all holds = true)
    (chars : List Char)
    : (editSetting chars).all holds = chars.all holds :=
  all_editFirst (all_setFalse named)

theorem editSetting_append (foreign : char ∉ settingChars) (front back : List Char)
    : editSetting (front ++ char :: back)
      = if passWithNoTests <:+: front then editSetting front ++ char :: back
        else front ++ char :: editSetting back :=
  editFirst_append_foreign (foreign_of_notSetting foreign).1 passWithNoTests_nonempty
    (setFalse_stops foreign)

theorem editSetting_cons (foreign : char ∉ settingChars) (back : List Char)
    : editSetting (char :: back) = char :: editSetting back := by
  have apart := editSetting_append foreign [] back
  rwa [if_neg (by simpa using passWithNoTests_nonempty)] at apart

theorem head?_editSetting (chars : List Char) : (editSetting chars).head? = chars.head? :=
  head?_editFirst chars passWithNoTests_nonempty

theorem isEmpty_editSetting (chars : List Char)
    : (editSetting chars).isEmpty = chars.isEmpty := by
  have starts := head?_editSetting chars
  cases chars with
  | nil => rfl
  | cons first chars =>
      cases edited : editSetting (first :: chars) with
      | nil =>
          rw [edited] at starts
          exact nomatch starts
      | cons => rfl

/-- White space in front is no part of the edit, by induction over it. -/
theorem dropWhile_editSetting (chars : List Char)
    : (editSetting chars).dropWhile isWhitespace
      = editSetting (chars.dropWhile isWhitespace) := by
  induction chars with
  | nil => rfl
  | cons first chars ih =>
      by_cases white : isWhitespace first = true
      · rw [editSetting_cons (notSetting_of_space white), List.dropWhile_cons_of_pos white, ih,
          List.dropWhile_cons_of_pos white]
      · rw [List.dropWhile_cons_of_neg white]
        refine dropWhile_space ?_
        rw [head?_editSetting]
        simpa using white

theorem isTrailing_editSetting (trailing : List Char)
    : isTrailing (editSetting trailing) = isTrailing trailing := by
  unfold isTrailing
  rw [isEmpty_editSetting, head?_editSetting, dropWhile_editSetting,
    all_editSetting (by decide)]

theorem isTrailing_appendSetting (trailing : List Char)
    : isTrailing (appendSetting trailing) = isTrailing trailing := by
  have last : ((' ' :: failWithNoTests).dropWhile isWhitespace).all (!isLineTerminator ·) = true
      ∧ (' ' :: failWithNoTests).all (!isLineTerminator ·) = true := by
    decide
  cases trailing with
  | nil => decide
  | cons first trailing =>
      have appended : ((first :: trailing ++ ' ' :: failWithNoTests).dropWhile isWhitespace).all
            (!isLineTerminator ·)
          = ((first :: trailing).dropWhile isWhitespace).all (!isLineTerminator ·) := by
        rw [List.dropWhile_append]
        split
        next empty => rw [last.1, List.isEmpty_iff.mp empty, List.all_nil]
        next => rw [List.all_append, last.2, Bool.and_true]
      rw [isTrailing, appended]
      rfl

-----------------------------------------------------------------------------------------
-- Targets
-----------------------------------------------------------------------------------------

/-- The edit is in the target, or behind it. -/
def editRun (run : List Char × List Char) : List Char × List Char :=
  if passWithNoTests <:+: run.1 then (editSetting run.1, run.2) else (run.1, editSetting run.2)

def appendRun (run : List Char × List Char) : List Char × List Char :=
  (run.1, appendSetting run.2)

theorem quotedTarget_eq {mark : Char} {target : List Char} (unmarked : ∀ char ∈ target, char ≠ mark)
    (trailing : List Char)
    : quotedTarget mark (mark :: (target ++ mark :: trailing))
      = if target ≠ [] && isTrailing trailing then some (target, trailing) else none := by
  have within : ∀ char ∈ target, decide (char ≠ mark) = true := fun char member =>
    decide_eq_true (unmarked char member)
  have ends : (mark :: trailing).dropWhile (fun char => decide (char ≠ mark))
      = mark :: trailing :=
    List.dropWhile_cons_of_neg (by simp)
  have ends' : (mark :: trailing).takeWhile (fun char => decide (char ≠ mark)) = [] :=
    List.takeWhile_cons_of_neg (by simp)
  rw [quotedTarget, List.dropWhile_append_of_pos within, ends, List.takeWhile_append_of_pos within,
    ends', List.append_nil]
  simp

theorem quotedTarget_of_head {mark : Char} (starts : chars.head? ≠ some mark)
    : quotedTarget mark chars = none := by
  cases chars with
  | nil => rfl
  | cons first inner =>
      have apart : first ≠ mark := fun same => starts (by rw [same]; rfl)
      rw [quotedTarget]
      split
      · rfl
      · simp [apart]

theorem quotedTarget_open {mark : Char} {inner : List Char} (unmarked : ∀ char ∈ inner, char ≠ mark)
    (first : Char)
    : quotedTarget mark (first :: inner) = none := by
  have within : inner.dropWhile (fun char => decide (char ≠ mark)) = [] :=
    List.dropWhile_eq_nil_iff.mpr fun char member => decide_eq_true (unmarked char member)
  rw [quotedTarget, within]

theorem quoted_cases (mark : Char) (chars : List Char)
    : chars.head? ≠ some mark
      ∨ (∃ inner, chars = mark :: inner ∧ ∀ char ∈ inner, char ≠ mark)
      ∨ ∃ target trailing, chars = mark :: (target ++ mark :: trailing)
          ∧ ∀ char ∈ target, char ≠ mark := by
  cases chars with
  | nil => exact .inl (by simp)
  | cons first inner =>
      by_cases same : first = mark
      · subst same
        by_cases member : first ∈ inner
        · obtain ⟨target, trailing, split, apart⟩ := List.eq_append_cons_of_mem member
          exact .inr (.inr ⟨target, trailing, by rw [split], fun char within same =>
            apart (same ▸ within)⟩)
        · exact .inr (.inl ⟨inner, rfl, fun char within same => member (same ▸ within)⟩)
      · exact .inl fun starts => same (Option.some.inj starts)

theorem editSetting_ne_nil (chars : List Char) : editSetting chars ≠ [] ↔ chars ≠ [] := by
  have same := isEmpty_editSetting chars
  simp only [ne_eq, ← List.isEmpty_iff, same]

/-- A target in marks is found where it was, once the setting is edited. -/
theorem quotedTarget_editSetting {mark : Char} (foreign : mark ∉ settingChars) (chars : List Char)
    : quotedTarget mark (editSetting chars) = (quotedTarget mark chars).map editRun := by
  have unmarked {inner : List Char} (apart : ∀ char ∈ inner, char ≠ mark)
      : ∀ char ∈ editSetting inner, char ≠ mark := by
    have named : settingChars.all (· ≠ mark) = true :=
      List.all_eq_true.mpr fun char member =>
        decide_eq_true fun same => foreign (same ▸ member)
    have same := all_editSetting named inner
    rw [List.all_eq_true.mpr fun char member => decide_eq_true (apart char member)] at same
    exact fun char member => of_decide_eq_true (List.all_eq_true.mp same char member)
  rcases quoted_cases mark chars with starts | ⟨inner, rfl, apart⟩ | ⟨target, trailing, rfl, apart⟩
  · rw [quotedTarget_of_head starts, quotedTarget_of_head (by rwa [head?_editSetting])]
    rfl
  · rw [editSetting_cons foreign, quotedTarget_open apart, quotedTarget_open (unmarked apart)]
    rfl
  · rw [editSetting_cons foreign, editSetting_append foreign, quotedTarget_eq apart]
    by_cases mentioned : passWithNoTests <:+: target
    · rw [if_pos mentioned, quotedTarget_eq (unmarked apart)]
      simp only [editSetting_ne_nil]
      split
      next => rw [Option.map_some, editRun, if_pos mentioned]
      next => rfl
    · rw [if_neg mentioned, quotedTarget_eq apart, isTrailing_editSetting]
      split
      next => rw [Option.map_some, editRun, if_neg mentioned]
      next => rfl

theorem quotedTarget_appendSetting {mark : Char} (foreign : mark ∉ ' ' :: failWithNoTests)
    {chars : List Char} (nonempty : chars ≠ [])
    : quotedTarget mark (appendSetting chars) = (quotedTarget mark chars).map appendRun := by
  rcases quoted_cases mark chars with starts | ⟨inner, rfl, apart⟩ | ⟨target, trailing, rfl, apart⟩
  · rw [quotedTarget_of_head starts, quotedTarget_of_head]
    · rfl
    · rwa [appendSetting, List.head?_append_of_ne_nil _ nonempty]
  · rw [quotedTarget_open apart, appendSetting, List.cons_append, quotedTarget_open]
    · rfl
    · intro char member same
      rcases List.mem_append.mp member with within | last
      · exact apart char within same
      · exact foreign (same ▸ last)
  · have parts : appendSetting (mark :: (target ++ mark :: trailing))
        = mark :: (target ++ mark :: appendSetting trailing) := by
      simp [appendSetting]
    rw [parts, quotedTarget_eq apart, quotedTarget_eq apart, isTrailing_appendSetting]
    split
    next => rfl
    next => rfl

/-- A target without marks. -/
theorem bareTarget_eq {target : List Char} (solid : Solid target)
    {behind : List Char} (ends : behind = [] ∨ behind.head?.any isWhitespace = true)
    : bareTarget (target ++ behind)
      = if target ≠ [] && isTrailing behind then some (target, behind) else none := by
  have within : ∀ char ∈ target, (!isWhitespace char) = true := fun char member => by
    simp [solid char member]
  have cut : behind.takeWhile (!isWhitespace ·) = []
      ∧ behind.dropWhile (!isWhitespace ·) = behind := by
    cases behind with
    | nil => exact ⟨rfl, rfl⟩
    | cons space rest =>
        have white : isWhitespace space = true := by simpa using ends
        exact ⟨List.takeWhile_cons_of_neg (by simp [white]),
          List.dropWhile_cons_of_neg (by simp [white])⟩
  rw [bareTarget, List.takeWhile_append_of_pos within, List.dropWhile_append_of_pos within, cut.1,
    cut.2, List.append_nil]

/-- A text is a target without white space, with nothing or with white space behind it. -/
theorem bare_cases (chars : List Char)
    : Solid chars
      ∨ ∃ target space rest, chars = target ++ space :: rest ∧ Solid target
          ∧ isWhitespace space = true := by
  have parts := List.takeWhile_append_dropWhile (p := (!isWhitespace ·)) (l := chars)
  rcases behind_word chars with ends | ⟨space, rest, white, behind⟩
  · rw [ends, List.append_nil] at parts
    exact .inl (parts ▸ solid_takeWhile chars)
  · rw [behind] at parts
    exact .inr ⟨_, space, rest, parts.symm, solid_takeWhile chars, white⟩

theorem solid_editSetting (solid : Solid chars) : Solid (editSetting chars) := by
  have plain : chars.all (!isWhitespace ·) = true :=
    List.all_eq_true.mpr fun char member => by simp [solid char member]
  have edited : (editSetting chars).all (!isWhitespace ·) = true :=
    (all_editSetting (by decide) chars).trans plain
  exact fun char member => by simpa using List.all_eq_true.mp edited char member

/-- A target without white space is found where it was, once the setting is edited. -/
theorem bareTarget_editSetting (chars : List Char)
    : bareTarget (editSetting chars) = (bareTarget chars).map editRun := by
  rcases bare_cases chars with solid | ⟨target, space, rest, rfl, solid, white⟩
  · have plain := bareTarget_eq solid (.inl rfl)
    have edited := bareTarget_eq (solid_editSetting solid) (.inl rfl)
    rw [List.append_nil] at plain edited
    rw [plain, edited]
    simp only [editSetting_ne_nil]
    split
    next =>
      rw [Option.map_some, editRun]
      split
      next => rfl
      next none => exact congrArg (fun target => some (target, [])) (editFirst_unmentioned none)
    next => rfl
  · have ends (rest : List Char)
        : space :: rest = [] ∨ (space :: rest).head?.any isWhitespace = true :=
      .inr (by simpa using white)
    have foreign := notSetting_of_space white
    rw [editSetting_append foreign, bareTarget_eq solid (ends rest)]
    by_cases mentioned : passWithNoTests <:+: target
    · rw [if_pos mentioned, bareTarget_eq (solid_editSetting solid) (ends rest)]
      simp only [editSetting_ne_nil]
      split
      next => rw [Option.map_some, editRun, if_pos mentioned]
      next => rfl
    · have trailing := isTrailing_editSetting (space :: rest)
      rw [editSetting_cons foreign] at trailing
      rw [if_neg mentioned, bareTarget_eq solid (ends _), trailing]
      split
      next => rw [Option.map_some, editRun, if_neg mentioned, editSetting_cons foreign]
      next => rfl

theorem bareTarget_appendSetting (chars : List Char)
    : bareTarget (appendSetting chars) = (bareTarget chars).map appendRun := by
  have split (target behind : List Char) (solid : Solid target)
      (ends : behind = [] ∨ behind.head?.any isWhitespace = true)
      : bareTarget (appendSetting (target ++ behind))
        = (bareTarget (target ++ behind)).map appendRun := by
    have ends' : (appendSetting behind).head?.any isWhitespace = true := by
      rcases ends with rfl | white
      · decide
      · cases behind with
        | nil => exact nomatch white
        | cons space rest => exact white
    have parts : appendSetting (target ++ behind) = target ++ appendSetting behind :=
      List.append_assoc ..
    rw [parts, bareTarget_eq solid (.inr ends'), bareTarget_eq solid ends,
      isTrailing_appendSetting]
    split
    next => rfl
    next => rfl
  rcases bare_cases chars with solid | ⟨target, space, rest, rfl, solid, white⟩
  · have plain := split chars [] solid (.inl rfl)
    rwa [List.append_nil] at plain
  · exact split target (space :: rest) solid (.inr (by simpa using white))

theorem vitestTarget_editSetting (chars : List Char)
    : vitestTarget (editSetting chars) = (vitestTarget chars).map editRun := by
  have double : '"' ∉ settingChars := by decide
  have single : '\'' ∉ settingChars := by decide
  rw [vitestTarget, vitestTarget, quotedTarget_editSetting double, quotedTarget_editSetting single,
    bareTarget_editSetting, Option.map_or, Option.map_or]

theorem vitestTarget_appendSetting (nonempty : chars ≠ [])
    : vitestTarget (appendSetting chars) = (vitestTarget chars).map appendRun := by
  have double : '"' ∉ ' ' :: failWithNoTests := by decide
  have single : '\'' ∉ ' ' :: failWithNoTests := by decide
  rw [vitestTarget, vitestTarget, quotedTarget_appendSetting double nonempty,
    quotedTarget_appendSetting single nonempty, bareTarget_appendSetting, Option.map_or,
    Option.map_or]

-----------------------------------------------------------------------------------------
-- Runs
-----------------------------------------------------------------------------------------

/-- What is skipped has no hyphen, and does not depend on the rest, by induction over the words. -/
theorem skipWords_front {run : List (List Char)} {rest : List Char}
    (named : ∀ word ∈ run, IsWord word ∧ '-' ∉ word) (starts : chars.head?.any isWhitespace = false)
    (skips : skipWords run chars = some rest)
    : ∃ front, chars = front ++ rest ∧ '-' ∉ front ∧ rest.head?.any isWhitespace = false
        ∧ ∀ other, other.head?.any isWhitespace = false
            → (front ++ other).head?.any isWhitespace = false
              ∧ skipWords run (front ++ other) = some other := by
  induction run generalizing chars with
  | nil =>
      cases skips
      exact ⟨[], rfl, by simp, starts, fun other starts' => ⟨starts', rfl⟩⟩
  | cons word run ih =>
      obtain ⟨⟨isWord, hyphen⟩, others⟩ := List.forall_mem_cons.mp named
      rw [skipWords] at skips
      split at skips
      next begins =>
        obtain ⟨same, nonempty⟩ := (starts_word_iff isWord).mp begins
        obtain ⟨front, split, apart, starts', stable⟩ := ih others (head?_dropWhile_space _) skips
        rw [drop_word same] at split
        generalize spaced : (chars.dropWhile (!isWhitespace ·)).takeWhile isWhitespace = gap
        have parts : chars = word ++ (gap ++ (front ++ rest)) := by
          rw [← split, ← spaced, List.takeWhile_append_dropWhile, ← same,
            List.takeWhile_append_dropWhile]
        have white : ∀ char ∈ gap, isWhitespace char = true := fun char member =>
          List.mem_takeWhile_imp (spaced ▸ member)
        have solid : ∀ char ∈ word, (!isWhitespace char) = true := fun char member => by
          simp [isWord.2 char member]
        obtain ⟨space, gap, rfl⟩ : ∃ space more, gap = space :: more := by
          rcases behind_word chars with ends | ⟨space, more, white, behind⟩
          · exact absurd ends nonempty
          · rw [behind, List.takeWhile_cons_of_pos white] at spaced
            exact ⟨space, _, spaced.symm⟩
        have spaced' : isWhitespace space = true := white space (by simp)
        refine ⟨word ++ (space :: gap ++ front), by simp [parts], fun member => ?_, starts',
          fun other tight => ?_⟩
        · rcases List.mem_append.mp member with within | later
          · exact hyphen within
          · rcases List.mem_append.mp later with between | behind
            · exact absurd (white '-' between) (by decide)
            · exact apart behind
        · obtain ⟨tight', skips'⟩ := stable other tight
          have whole : word ++ (space :: gap ++ front) ++ other
              = word ++ space :: (gap ++ (front ++ other)) := by
            simp
          have cut : (word ++ space :: (gap ++ (front ++ other))).takeWhile (!isWhitespace ·) = word
              ∧ (word ++ space :: (gap ++ (front ++ other))).dropWhile (!isWhitespace ·)
                = space :: (gap ++ (front ++ other)) := by
            rw [List.takeWhile_append_of_pos solid, List.dropWhile_append_of_pos solid,
              List.takeWhile_cons_of_neg (by simp [spaced']),
              List.dropWhile_cons_of_neg (by simp [spaced']), List.append_nil]
            exact ⟨rfl, rfl⟩
          have begins' := (starts_word_iff isWord).mpr ⟨cut.1, by simp [cut.2]⟩
          have behind : (space :: (gap ++ (front ++ other))).dropWhile isWhitespace
              = front ++ other := by
            rw [← List.cons_append, List.dropWhile_append_of_pos white, dropWhile_space tight']
          rw [whole, skipWords, if_pos begins', drop_word cut.1, cut.2, behind]
          refine ⟨?_, skips'⟩
          obtain ⟨first, others', rfl⟩ := List.exists_cons_of_ne_nil isWord.1
          simpa using isWord.2 first (by simp)
      next => cases skips

/-- A command is read as a front without hyphens, and a target with what is behind it. -/
theorem directVitestRun_front {run : List Char × List Char}
    (reads : directVitestRun chars = some run)
    : ∃ front rest, chars = front ++ rest ∧ '-' ∉ front ∧ vitestTarget rest = some run
        ∧ rest.head?.any isWhitespace = false
        ∧ ∀ other, other.head?.any isWhitespace = false
            → directVitestRun (front ++ other) = vitestTarget other := by
  have named : ∀ words ∈ vitestRuns, ∀ word ∈ words, IsWord word ∧ '-' ∉ word := by
    decide
  obtain ⟨rest, found, targets⟩ := Option.bind_eq_some_iff.mp reads
  obtain ⟨starts, -⟩ := runner_iff.mp found
  obtain ⟨words, member, skips⟩ := List.exists_of_findSome?_eq_some found
  obtain ⟨front, split, apart, tight, stable⟩ := skipWords_front (named words member) starts skips
  refine ⟨front, rest, split, apart, targets, tight, fun other tight' => ?_⟩
  obtain ⟨starts', skips'⟩ := stable other tight'
  have filled : ∀ words ∈ vitestRuns, words ≠ [] := by decide
  obtain ⟨begins, nonempty, same⟩ :=
    (skipWords_iff (isWord_of_mem_vitestRuns member) starts').mp skips'
  have found' := runner_iff.mpr
    ⟨starts', words, member, begins, nonempty (filled words member), same⟩
  rw [directVitestRun, found', Option.bind_some]

theorem directVitestRun_editSetting {run : List Char × List Char}
    (reads : directVitestRun chars = some run)
    : directVitestRun (editSetting chars) = some (editRun run) := by
  obtain ⟨front, rest, rfl, apart, targets, tight, stable⟩ := directVitestRun_front reads
  have edited : editSetting (front ++ rest) = front ++ editSetting rest :=
    editFirst_append_apart apart
  rw [edited, stable _ (by rwa [head?_editSetting]), vitestTarget_editSetting, targets]
  rfl

theorem directVitestRun_appendSetting {run : List Char × List Char}
    (reads : directVitestRun chars = some run)
    : directVitestRun (appendSetting chars) = some (appendRun run) := by
  obtain ⟨front, rest, rfl, apart, targets, tight, stable⟩ := directVitestRun_front reads
  have nonempty : rest ≠ [] := by
    rintro rfl
    have none : vitestTarget [] = none := rfl
    exact nomatch none.symm.trans targets
  have appended : appendSetting (front ++ rest) = front ++ appendSetting rest :=
    List.append_assoc ..
  rw [appended, stable _ (by rwa [appendSetting, List.head?_append_of_ne_nil _ nonempty]),
    vitestTarget_appendSetting nonempty, targets]
  rfl

end Setting

end AiSdlc.Application
