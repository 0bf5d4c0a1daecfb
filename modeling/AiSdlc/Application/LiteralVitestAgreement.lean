import AiSdlc.Application.LiteralVitestStrict

/-! When a text without quotation marks is made strict like the tokens that it consists of. -/

namespace AiSdlc.Application

open AiSdlc.Js

section Decisions

variable {chars target trailing : List Char} {args rest run : List (List Char)}

/-- Texts without quotation marks and shell operators. -/
structure Unquoted (chars : List Char) : Prop where
  double : '"' ∉ chars
  single : '\'' ∉ chars
  operators : hasShellOperator chars = false

/-- Behind its first words, a text has options only: no white space is in front of it, no line
break behind the first option, and each option but those that `--config` takes has a hyphen.
-/
structure Tidy (count : Nat) (chars : List Char) : Prop where
  starts : chars.head?.any isWhitespace = false
  unbroken : ((dropWords count chars).dropWhile isWhitespace).all (!isLineTerminator ·) = true
  options : onlyOptions (charWords (dropWords count chars)) = true

/-- The words of the runner that only texts may have. -/
def npxExecRun : List (List Char) :=
  ["npx", "exec", "vitest", "run"].map String.toList

theorem mem_vitestRuns : run ∈ vitestRuns ↔ run ∈ argvRuns ∨ run = npxExecRun := by
  have sound : ∀ run ∈ vitestRuns, run ∈ argvRuns ∨ run = npxExecRun := by decide
  have complete : ∀ run ∈ argvRuns, run ∈ vitestRuns := by decide
  have exec : npxExecRun ∈ vitestRuns := by decide
  refine ⟨sound run, ?_⟩
  rintro (member | rfl)
  · exact complete run member
  · exact exec

theorem isTrailing_iff (ends : trailing = [] ∨ trailing.head?.any isWhitespace = true)
    : isTrailing trailing = (trailing.dropWhile isWhitespace).all (!isLineTerminator ·) := by
  rcases ends with rfl | white
  · rfl
  · rw [isTrailing, white, Bool.true_and]
    cases trailing with
    | nil => cases white
    | cons => rfl

/-- Where a text starts with it, a target is the first word. -/
theorem bareTarget_iff (starts : chars.head?.any isWhitespace = false)
    : bareTarget chars = some (target, trailing)
      ↔ charWords chars = target :: charWords trailing
        ∧ trailing = chars.dropWhile (!isWhitespace ·)
        ∧ (trailing.dropWhile isWhitespace).all (!isLineTerminator ·) = true := by
  have ends : chars.dropWhile (!isWhitespace ·) = []
      ∨ (chars.dropWhile (!isWhitespace ·)).head?.any isWhitespace = true := by
    rcases behind_word chars with ends | ⟨space, more, white, behind⟩
    · exact .inl ends
    · exact .inr (by simpa [behind] using white)
  constructor
  · intro found
    rw [bareTarget, isTrailing_iff ends] at found
    split at found
    next holds =>
      cases found
      obtain ⟨nonempty, unbroken⟩ := Bool.and_eq_true_iff.mp holds
      refine ⟨charWords_of_word starts ?_, rfl, unbroken⟩
      rintro rfl
      exact absurd nonempty (by decide)
    next => cases found
  · rintro ⟨words, rfl, unbroken⟩
    have filled : chars ≠ [] := by
      rintro rfl
      cases words
    have word : target ≠ [] ∧ Solid target :=
      of_mem_charWords (show target ∈ charWords chars by simp [words])
    rw [charWords_of_word starts filled, List.cons.injEq] at words
    rw [bareTarget, isTrailing_iff ends, words.1, unbroken]
    simp [word.1]

/-- Without quotation marks, a run is read word by word. -/
theorem directVitestRun_unquoted (double : '"' ∉ chars) (single : '\'' ∉ chars)
    : directVitestRun chars = some (target, trailing)
      ↔ chars.head?.any isWhitespace = false
        ∧ ∃ run ∈ vitestRuns, charWords chars = run ++ target :: charWords trailing
            ∧ trailing = dropWords (run.length + 1) chars
            ∧ (trailing.dropWhile isWhitespace).all (!isLineTerminator ·) = true := by
  have bare (count : Nat)
      : vitestTarget ((dropWords count chars).dropWhile isWhitespace)
        = bareTarget ((dropWords count chars).dropWhile isWhitespace) := by
    have within : (dropWords count chars).dropWhile isWhitespace <:+ chars :=
      (List.dropWhile_suffix _).trans (dropWords_suffix count chars)
    have unmarked (mark : Char) (apart : mark ∉ chars)
        : quotedTarget mark ((dropWords count chars).dropWhile isWhitespace) = none :=
      quotedTarget_of_head fun starts => apart (within.subset (List.mem_of_head? starts))
    rw [vitestTarget, unmarked '"' double, unmarked '\'' single]
    rfl
  rw [directVitestRun]
  constructor
  · intro reads
    obtain ⟨rest, found, targets⟩ := Option.bind_eq_some_iff.mp reads
    obtain ⟨starts, run, member, begins, -, rfl⟩ := runner_iff.mp found
    rw [bare] at targets
    obtain ⟨words, same, unbroken⟩ := (bareTarget_iff (head?_dropWhile_space _)).mp targets
    rw [← dropWords_succ] at same
    refine ⟨starts, run, member, ?_, same, unbroken⟩
    rw [charWords_dropWhile, charWords_dropWords] at words
    rw [← words, List.prefix_iff_eq_append.mp begins]
  · rintro ⟨starts, run, member, words, rfl, unbroken⟩
    have behind : charWords ((dropWords run.length chars).dropWhile isWhitespace)
        = target :: charWords (dropWords (run.length + 1) chars) := by
      rw [charWords_dropWhile, charWords_dropWords, words, List.drop_left]
    have nonempty : dropWords run.length chars ≠ [] := by
      intro empty
      rw [empty] at behind
      cases behind
    have begins : run <+: charWords chars := words ▸ List.prefix_append _ _
    have found := runner_iff.mpr ⟨starts, run, member, begins, nonempty, rfl⟩
    have targets := (bareTarget_iff (head?_dropWhile_space _)).mpr
      ⟨behind, dropWords_succ run.length chars, unbroken⟩
    rw [found, Option.bind_some, bare, targets]

/-- Among options only, no token is an extra positional one, by induction over the options. -/
theorem not_hasExtraPositional (options : onlyOptions args = true) (previous : Option (List Char))
    : hasExtraPositional previous args = false := by
  have hyphen {arg : List Char} (config : isConfigOption arg = true)
      : ['-'].isPrefixOf arg = true := by
    rcases Bool.or_eq_true_iff.mp config with long | short
    · rw [of_decide_eq_true long]
      decide
    · rw [of_decide_eq_true short]
      decide
  fun_induction onlyOptions args generalizing previous with
  | case1 => rfl
  | case2 arg config => simp [hasExtraPositional, hyphen config]
  | case3 arg config value rest ih =>
      simp [hasExtraPositional, hyphen config, config, ih options]
  | case4 arg rest config ih =>
      obtain ⟨starts, others⟩ := Bool.and_eq_true_iff.mp options
      simp [hasExtraPositional, starts, ih others]

theorem literalArgvRun?_iff {tokens : List (List Char)}
    : literalArgvRun? tokens = some (target, args)
      ↔ (∃ run ∈ argvRuns, tokens = run ++ target :: args) ∧ isLiteralTestFile target = true
        ∧ hasGlob target = false ∧ hasExtraPositional none args = false := by
  rw [literalArgvRun?, Option.filter_eq_some_iff, parseVitestArgv_iff]
  simp only [Bool.and_eq_true, Bool.not_eq_true', and_assoc]

theorem hasShellOperator_dropWords (none : hasShellOperator chars = false) (count : Nat)
    : hasShellOperator (dropWords count chars) = false := by
  have within := dropWords_suffix count chars
  simp only [hasShellOperator, Bool.or_eq_false_iff, decide_eq_false_iff_not] at none ⊢
  obtain ⟨⟨conjunction, disjunction⟩, others⟩ := none
  refine ⟨⟨fun found => conjunction (found.trans within.isInfix),
    fun found => disjunction (found.trans within.isInfix)⟩, ?_⟩
  exact List.any_eq_false.mpr fun char member =>
    List.any_eq_false.mp others char (within.subset member)

theorem literalRun?_unquoted (unquoted : Unquoted chars)
    : literalRun? chars = some (target, trailing)
      ↔ (∃ run ∈ vitestRuns, charWords chars = run ++ target :: charWords trailing
            ∧ trailing = dropWords (run.length + 1) chars ∧ Tidy (run.length + 1) chars)
        ∧ isLiteralTestFile target = true ∧ hasGlob target = false := by
  rw [literalRun?, Option.filter_eq_some_iff,
    directVitestRun_unquoted unquoted.double unquoted.single]
  simp only [Bool.and_eq_true, Bool.not_eq_true', and_assoc]
  constructor
  · rintro ⟨starts, ⟨run, member, words, rfl, unbroken⟩, literal, glob, -, options⟩
    exact ⟨⟨run, member, words, rfl, starts, unbroken, options⟩, literal, glob⟩
  · rintro ⟨⟨run, member, words, rfl, starts, unbroken, options⟩, literal, glob⟩
    exact ⟨starts, ⟨run, member, words, rfl, unbroken⟩, literal, glob,
      hasShellOperator_dropWords unquoted.operators _, options⟩

/-- The two decisions are the same where every literal run of tokens is tidy as a text, and no
text is one by `npx exec`.
-/
theorem sameDecision_iff (unquoted : Unquoted chars)
    : (literalRun? chars).isSome = (literalArgvRun? (charWords chars)).isSome
      ↔ (∀ target trailing, literalArgvRun? (charWords chars) = some (target, trailing)
            → Tidy ((charWords chars).length - trailing.length) chars)
        ∧ ∀ target trailing, charWords chars = npxExecRun ++ target :: trailing
            → isLiteralTestFile target = true → hasGlob target = false → ¬ Tidy 5 chars := by
  have apart : Apart vitestRuns := by decide
  have alone : npxExecRun ∉ argvRuns := by decide
  have exec : npxExecRun ∈ vitestRuns := by decide
  have count {run args : List (List Char)} {target : List Char}
      (words : charWords chars = run ++ target :: args)
      : (charWords chars).length - args.length = run.length + 1 := by
    rw [words, List.length_append, List.length_cons]
    omega
  have behind {run args : List (List Char)} {target : List Char}
      (words : charWords chars = run ++ target :: args)
      : charWords (dropWords (run.length + 1) chars) = args := by
    rw [charWords_dropWords, words, ← List.drop_drop, List.drop_left, List.drop_one, List.tail_cons]
  rw [Bool.eq_iff_iff, Option.isSome_iff_exists, Option.isSome_iff_exists]
  constructor
  · intro same
    constructor
    · intro target trailing reads
      obtain ⟨⟨run, member, words⟩, -⟩ := literalArgvRun?_iff.mp reads
      obtain ⟨⟨target', trailing'⟩, reads'⟩ := same.mpr ⟨_, reads⟩
      obtain ⟨⟨other, member', words', -, tidy⟩, -⟩ := (literalRun?_unquoted unquoted).mp reads'
      have starts : run <+: charWords chars := words ▸ List.prefix_append _ _
      have starts' : other <+: charWords chars := words' ▸ List.prefix_append _ _
      obtain rfl := apart.eq (mem_vitestRuns.mpr (.inl member)) member' starts starts'
      rwa [count words]
    · intro target trailing words literal glob tidy
      have reads := (literalRun?_unquoted unquoted).mpr
        ⟨⟨npxExecRun, exec, by rw [behind words]; exact words, rfl, tidy⟩, literal, glob⟩
      obtain ⟨⟨target', trailing'⟩, reads'⟩ := same.mp ⟨_, reads⟩
      obtain ⟨⟨other, member', words'⟩, -⟩ := literalArgvRun?_iff.mp reads'
      have starts : npxExecRun <+: charWords chars := words ▸ List.prefix_append _ _
      have starts' : other <+: charWords chars := words' ▸ List.prefix_append _ _
      obtain rfl := apart.eq exec (mem_vitestRuns.mpr (.inl member')) starts starts'
      exact alone member'
  · rintro ⟨tidies, apart'⟩
    constructor
    · rintro ⟨⟨target, trailing⟩, reads⟩
      obtain ⟨⟨run, member, words, same, tidy⟩, literal, glob⟩ :=
        (literalRun?_unquoted unquoted).mp reads
      rcases mem_vitestRuns.mp member with known | rfl
      · have options : onlyOptions (charWords trailing) = true := same ▸ tidy.options
        exact ⟨_, literalArgvRun?_iff.mpr ⟨⟨run, known, words⟩, literal, glob,
          not_hasExtraPositional options none⟩⟩
      · exact absurd tidy (apart' target _ words literal glob)
    · rintro ⟨⟨target, trailing⟩, reads⟩
      have tidy := tidies target trailing reads
      obtain ⟨⟨run, member, words⟩, literal, glob, -⟩ := literalArgvRun?_iff.mp reads
      rw [count words] at tidy
      exact ⟨_, (literalRun?_unquoted unquoted).mpr
        ⟨⟨run, mem_vitestRuns.mpr (.inl member), by rw [behind words]; exact words, rfl, tidy⟩,
          literal, glob⟩⟩

end Decisions

section Results

variable {args : List (List Char)}

/-- Words agree with tokens on the setting: nothing mentions it, or there is one that can be set,
and the first mention is that one, or is set to false as that one is.
-/
def SameMention (args : List (List Char)) : Prop :=
  match args.find? (passWithNoTests <:+: ·) with
  | none => True
  | some mention =>
      ∃ setting, args.filter (· ∈ noTestsSettings) = [setting]
        ∧ (mention = setting
          ∨ setting = failWithNoTests
            ∧ (behindFirst passWithNoTests mention).any ("=false".toList.isPrefixOf ·) = true)

theorem length_editFirstWord (args : List (List Char))
    : (editFirstWord passWithNoTests setFalse args).length = args.length := by
  induction args with
  | nil => rfl
  | cons arg args ih =>
      rw [editFirstWord]
      split
      next => rfl
      next => rw [List.length_cons, ih, List.length_cons]

/-- A value that is false already is left as it is. -/
theorem setFalse_eq_self_iff (behind : List Char)
    : setFalse behind = behind ↔ "=false".toList.isPrefixOf behind = true := by
  constructor
  · intro same
    rw [← same]
    exact List.isPrefixOf_iff_prefix.mpr (List.prefix_append _ _)
  · intro starts
    obtain ⟨rest, rfl⟩ := List.isPrefixOf_iff_prefix.mp starts
    rfl

theorem mentions_of_settles {setting : List Char} (settles : setting ∈ noTestsSettings)
    : passWithNoTests <:+: setting :=
  (starts_of_isSetting (isSetting_of_settles settles)).isInfix

/-- Words that mention the setting are edited like tokens where they agree on it. -/
theorem editFirstWord_eq_iff (mentioned : ∃ arg ∈ args, passWithNoTests <:+: arg)
    : editFirstWord passWithNoTests setFalse args = setArgvFalse args ↔ SameMention args := by
  rcases setting_cases args with none | ⟨front, setting, back, rfl, settles, none⟩
  · -- Tokens get one more setting.
    obtain ⟨arg, member, mentions⟩ := mentioned
    have differs : ¬ editFirstWord passWithNoTests setFalse args = setArgvFalse args := by
      intro same
      have lengths := congrArg List.length same
      rw [length_editFirstWord, setArgvFalse_none none, List.length_append] at lengths
      exact absurd lengths (by simp)
    have unset : args.filter (· ∈ noTestsSettings) = [] :=
      List.filter_eq_nil_iff.mpr fun arg member => by simpa using none arg member
    refine iff_of_false differs fun same => ?_
    rw [SameMention] at same
    split at same
    next missing => exact List.find?_eq_none.mp missing arg member (decide_eq_true mentions)
    next =>
      obtain ⟨setting, one, -⟩ := same
      rw [unset] at one
      exact nomatch one
  · have unset : front.filter (· ∈ noTestsSettings) = [] :=
      List.filter_eq_nil_iff.mpr fun arg member => by simpa using none arg member
    have filtered : (front ++ setting :: back).filter (· ∈ noTestsSettings)
        = setting :: back.filter (· ∈ noTestsSettings) := by
      simp [List.filter_append, unset, settles]
    have kept : back = back.filter (· ∉ noTestsSettings)
        ↔ back.filter (· ∈ noTestsSettings) = [] := by
      rw [eq_comm, List.filter_eq_self, List.filter_eq_nil_iff]
      simp
    rw [setArgvFalse_append none settles]
    rcases mention_cases front with
      unmentioned | ⟨first, mention, second, rfl, mentions, unmentioned⟩
    · -- The first mention is the setting.
      have found := @find?_mention setting front back unmentioned (mentions_of_settles settles)
      have edited := editSetting_of_starts (starts_of_isSetting (isSetting_of_settles settles))
      rw [editFirstWord_append unmentioned (mentions_of_settles settles), edited.2.mpr settles,
        List.append_cancel_left_eq, List.cons.injEq, kept, SameMention, found]
      simp [filtered]
    · -- The first mention is another word.
      have whole : first ++ mention :: second ++ setting :: back
          = first ++ mention :: (second ++ setting :: back) := by
        simp
      have found := @find?_mention mention first (second ++ setting :: back) unmentioned mentions
      have differs : mention ≠ setting := by
        rintro rfl
        exact none mention (by simp) settles
      have same := @editFirst_eq_self_iff _ passWithNoTests mention _ setFalse mentions
        passWithNoTests_nonempty
      have false_ : (∃ behind, behindFirst passWithNoTests mention = some behind
            ∧ setFalse behind = behind)
          ↔ (behindFirst passWithNoTests mention).any ("=false".toList.isPrefixOf ·) = true := by
        simp only [setFalse_eq_self_iff]
        cases behindFirst passWithNoTests mention <;> simp
      rw [false_] at same
      have parts : first ++ editSetting mention :: (second ++ setting :: back)
            = first ++ mention :: second ++ failWithNoTests :: back.filter (· ∉ noTestsSettings)
          ↔ editSetting mention = mention ∧ setting = failWithNoTests
            ∧ back = back.filter (· ∉ noTestsSettings) := by
        rw [List.append_assoc, List.append_cancel_left_eq, List.cons_append, List.cons.injEq,
          List.append_cancel_left_eq, List.cons.injEq]
      rw [whole] at filtered ⊢
      rw [editFirstWord_append unmentioned mentions, parts, same, kept, SameMention, found]
      simp only [filtered]
      constructor
      · rintro ⟨negative, rfl, alone⟩
        exact ⟨failWithNoTests, by rw [alone], .inr ⟨rfl, negative⟩⟩
      · rintro ⟨setting', one, same⟩
        obtain ⟨rfl, alone⟩ := List.cons.inj one
        obtain ⟨isFalse, negative⟩ := same.resolve_left differs
        exact ⟨negative, isFalse, alone⟩

end Results

section Commands

variable {chars target trailing : List Char} {tokens args : List (List Char)}

/-- A text that is made strict stays as it is the second time. -/
theorem makeLiteralVitestStringStrict_idempotent (chars : List Char)
    : makeLiteralVitestStringStrict (makeLiteralVitestStringStrict chars)
      = makeLiteralVitestStringStrict chars := by
  have stays {result : List Char} (mentions : passWithNoTests <:+: result)
      (same : editSetting result = result)
      : makeLiteralVitestStringStrict result = result := by
    unfold makeLiteralVitestStringStrict
    split
    next => rfl
    next => exact (if_pos mentions).trans same
  cases literal : literalRun? chars with
  | none =>
      have unchanged : makeLiteralVitestStringStrict chars = chars := by
        rw [makeLiteralVitestStringStrict, literal]
      rw [unchanged, unchanged]
  | some run =>
      by_cases mentions : passWithNoTests <:+: chars
      · have edited : makeLiteralVitestStringStrict chars = editSetting chars := by
          rw [makeLiteralVitestStringStrict, literal]
          exact if_pos mentions
        rw [edited]
        exact stays (infix_editFirst mentions passWithNoTests_nonempty)
          (editFirst_editFirst setFalse_setFalse)
      · have appended : makeLiteralVitestStringStrict chars = appendSetting chars := by
          rw [makeLiteralVitestStringStrict, literal]
          exact if_neg mentions
        have last : editSetting failWithNoTests = failWithNoTests := by decide
        rw [appended]
        refine stays ?_ ?_
        · exact (mentions_append (by decide) chars failWithNoTests).mpr
            (.inr (List.prefix_append _ _).isInfix)
        · rw [editSetting_append (by decide), if_neg mentions, last]

theorem makeLiteralVitestArgvStrict_idempotent (tokens : List (List Char))
    : makeLiteralVitestArgvStrict (makeLiteralVitestArgvStrict tokens)
      = makeLiteralVitestArgvStrict tokens := by
  by_cases literal : (literalArgvRun? tokens).isSome = true
  · have settled : makeLiteralVitestArgvStrict tokens = setArgvFalse tokens := if_pos literal
    rw [settled, makeLiteralVitestArgvStrict]
    split
    next => exact setArgvFalse_setArgvFalse tokens
    next => rfl
  · have unchanged : makeLiteralVitestArgvStrict tokens = tokens := if_neg literal
    rw [unchanged, unchanged]

/-- The arguments behind the target of a run. -/
def textOptions (chars : List Char) : List (List Char) :=
  ((directVitestRun chars).map fun run => charWords run.2).getD []

def argvOptions (tokens : List (List Char)) : List (List Char) :=
  ((parseVitestArgv tokens).map Prod.snd).getD []

/-- The settings of a literal run that is a text, once it is made strict. -/
theorem settings_textOptions (literal : literalRun? chars = some (target, trailing))
    : settings (textOptions (makeLiteralVitestStringStrict chars)) = [failWithNoTests]
      ↔ SetsOne target (charWords trailing) := by
  obtain ⟨reads, checks⟩ := Option.filter_eq_some_iff.mp literal
  have isLiteral : isLiteralTestFile target = true := by
    simp only [Bool.and_eq_true] at checks
    exact checks.1.1.1
  have mentioned := mentions_directVitestRun reads
  rw [mentions_iff_words trailing] at mentioned
  by_cases mentions : passWithNoTests <:+: chars
  · have edited : makeLiteralVitestStringStrict chars = editSetting chars := by
      rw [makeLiteralVitestStringStrict, literal]
      exact if_pos mentions
    have options : textOptions (editSetting chars)
        = if passWithNoTests <:+: target then charWords trailing
          else editFirstWord passWithNoTests setFalse (charWords trailing) := by
      rw [textOptions, directVitestRun_editSetting reads, editRun]
      split
      next => rfl
      next => exact charWords_editSetting trailing
    rw [edited, options]
    exact settings_editRun isLiteral (mentioned.mp mentions)
  · have appended : makeLiteralVitestStringStrict chars = appendSetting chars := by
      rw [makeLiteralVitestStringStrict, literal]
      exact if_neg mentions
    have options : textOptions (appendSetting chars) = charWords trailing ++ [failWithNoTests] := by
      rw [textOptions, directVitestRun_appendSetting reads]
      exact charWords_appendSetting trailing
    obtain ⟨apart, others⟩ := not_or.mp (mentioned.not.mp mentions)
    have unmentioned : ∀ arg ∈ target :: charWords trailing, ¬ passWithNoTests <:+: arg :=
      List.forall_mem_cons.mpr ⟨apart, fun arg member found => others ⟨arg, member, found⟩⟩
    have missing : (target :: charWords trailing).find? (passWithNoTests <:+: ·) = none :=
      List.find?_eq_none.mpr fun arg member => by simpa using unmentioned arg member
    have last : settings [failWithNoTests] = [failWithNoTests] := by decide
    rw [appended, options, settings_append, last,
      settings_eq_nil_of_not_mentioned fun arg member => unmentioned arg (by simp [member]),
      SetsOne, missing]
    simp

theorem settings_argvOptions (literal : literalArgvRun? tokens = some (target, args))
    : settings (argvOptions (makeLiteralVitestArgvStrict tokens)) = [failWithNoTests]
      ↔ ∀ arg ∈ args, isSetting arg = true → arg ∈ noTestsSettings := by
  obtain ⟨⟨run, member, rfl⟩, isLiteral, -⟩ := literalArgvRun?_iff.mp literal
  have settled : makeLiteralVitestArgvStrict (run ++ target :: args)
      = setArgvFalse (run ++ target :: args) :=
    if_pos (by rw [literal]; rfl)
  have apart : ∀ setting ∈ noTestsSettings, isLiteralTestFile setting = false := by
    decide
  have runs : ∀ run ∈ argvRuns, ∀ arg ∈ run, arg ∉ noTestsSettings := by decide
  have none : ∀ arg ∈ run ++ [target], arg ∉ noTestsSettings := by
    intro arg within settles
    rcases List.mem_append.mp within with before | last
    · exact runs run member arg before settles
    · rw [List.mem_singleton.mp last] at settles
      exact absurd isLiteral (by simp [apart target settles])
  have split : setArgvFalse (run ++ target :: args) = run ++ target :: setArgvFalse args := by
    have front := setArgvFalse_front none args
    simpa using front
  have reads := parseVitestArgv_iff.mpr ⟨run, member, split⟩
  rw [settled, argvOptions, reads]
  exact settings_setArgvFalse args

/-- A text without quotation marks is made strict like its words. -/
theorem agrees_iff (unquoted : Unquoted chars)
    : (literalRun? chars).isSome = (literalArgvRun? (charWords chars)).isSome
        ∧ charWords (makeLiteralVitestStringStrict chars)
          = makeLiteralVitestArgvStrict (charWords chars)
      ↔ (∀ target trailing, literalArgvRun? (charWords chars) = some (target, trailing)
            → Tidy ((charWords chars).length - trailing.length) chars
              ∧ SameMention (charWords chars))
        ∧ ∀ target trailing, charWords chars = npxExecRun ++ target :: trailing
            → isLiteralTestFile target = true → hasGlob target = false → ¬ Tidy 5 chars := by
  have results (literal : (literalRun? chars).isSome = true)
      (literal' : (literalArgvRun? (charWords chars)).isSome = true)
      : charWords (makeLiteralVitestStringStrict chars)
          = makeLiteralVitestArgvStrict (charWords chars)
        ↔ SameMention (charWords chars) := by
    obtain ⟨run, reads⟩ := Option.isSome_iff_exists.mp literal
    have settled : makeLiteralVitestArgvStrict (charWords chars) = setArgvFalse (charWords chars) :=
      if_pos literal'
    rw [settled]
    by_cases mentions : passWithNoTests <:+: chars
    · have edited : makeLiteralVitestStringStrict chars = editSetting chars := by
        rw [makeLiteralVitestStringStrict, reads]
        exact if_pos mentions
      rw [edited, charWords_editSetting]
      exact editFirstWord_eq_iff ((mentions_iff_words chars).mp mentions)
    · have appended : makeLiteralVitestStringStrict chars = appendSetting chars := by
        rw [makeLiteralVitestStringStrict, reads]
        exact if_neg mentions
      have unmentioned : ∀ word ∈ charWords chars, ¬ passWithNoTests <:+: word :=
        fun word member found => mentions ((mentions_iff_words chars).mpr ⟨word, member, found⟩)
      have missing : (charWords chars).find? (passWithNoTests <:+: ·) = none :=
        List.find?_eq_none.mpr fun word member => by simpa using unmentioned word member
      have unset : ∀ word ∈ charWords chars, word ∉ noTestsSettings :=
        fun word member settles => unmentioned word member (mentions_of_settles settles)
      rw [appended, charWords_appendSetting, setArgvFalse_none unset, SameMention, missing]
      simp
  constructor
  · rintro ⟨same, equal⟩
    obtain ⟨tidies, apart⟩ := (sameDecision_iff unquoted).mp same
    refine ⟨fun target trailing reads => ⟨tidies target trailing reads, ?_⟩, apart⟩
    have literal' : (literalArgvRun? (charWords chars)).isSome = true := by
      rw [reads]
      rfl
    exact (results (same.trans literal') literal').mp equal
  · rintro ⟨agree, apart⟩
    have same := (sameDecision_iff unquoted).mpr
      ⟨fun target trailing reads => (agree target trailing reads).1, apart⟩
    refine ⟨same, ?_⟩
    cases reads : literalArgvRun? (charWords chars) with
    | some run =>
        have literal' : (literalArgvRun? (charWords chars)).isSome = true := by
          rw [reads]
          rfl
        exact (results (same.trans literal') literal').mpr (agree run.1 run.2 reads).2
    | none =>
        have literal : literalRun? chars = none := by
          rw [reads] at same
          exact Option.isSome_eq_false_iff.mp same |> Option.isNone_iff_eq_none.mp
        rw [makeLiteralVitestStringStrict, literal, makeLiteralVitestArgvStrict, reads]
        rfl

end Commands

-----------------------------------------------------------------------------------------
-- What is promised of all commands
-----------------------------------------------------------------------------------------

/-- Whether a command is recognised as a literal run of one test file. -/
def isLiteralRun : ValidationCommand → Bool
  | .text command => (literalRun? command.toList).isSome
  | .tokens command => (literalArgvRun? (command.map String.toList)).isSome

/-- A text is split into its words. -/
def splitCommand : ValidationCommand → ValidationCommand
  | .text command => .tokens (words command)
  | .tokens command => .tokens command

/-- The arguments behind the target. -/
def commandOptions : ValidationCommand → List (List Char)
  | .text command => textOptions command.toList
  | .tokens command => argvOptions (command.map String.toList)

/-- The promise: what is strict stays as it is, a text of plain words is made strict like the
tokens that it is split into, and a literal run has one setting then, which is false.
-/
structure MakesStrict (command : ValidationCommand) : Prop where
  idempotent
    : makeLiteralVitestCommandStrict (makeLiteralVitestCommandStrict command)
      = makeLiteralVitestCommandStrict command
  agrees (text : String) (same : command = .text text) (unquoted : Unquoted text.toList)
    : isLiteralRun command = isLiteralRun (splitCommand command)
      ∧ splitCommand (makeLiteralVitestCommandStrict command)
        = makeLiteralVitestCommandStrict (splitCommand command)
  setsFalse (literal : isLiteralRun command = true)
    : settings (commandOptions (makeLiteralVitestCommandStrict command)) = [failWithNoTests]

/-- When the promise is kept for a text: what mentions the setting can be set once, and, without
quotation marks, the text is laid out and mentions the setting as the tokens are read.
-/
structure StrictText (chars : List Char) : Prop where
  sets (target trailing : List Char) (literal : literalRun? chars = some (target, trailing))
    : SetsOne target (charWords trailing)
  tidy (unquoted : Unquoted chars) (target : List Char) (trailing : List (List Char))
    (literal : literalArgvRun? (charWords chars) = some (target, trailing))
    : Tidy ((charWords chars).length - trailing.length) chars ∧ SameMention (charWords chars)
  exec (unquoted : Unquoted chars) (target : List Char) (trailing : List (List Char))
    (words : charWords chars = npxExecRun ++ target :: trailing)
    (literal : isLiteralTestFile target = true) (glob : hasGlob target = false)
    : ¬ Tidy 5 chars

/-- When the promise is kept: for tokens, where no setting has a value of its own. -/
def StrictCondition : ValidationCommand → Prop
  | .text command => StrictText command.toList
  | .tokens command =>
      ∀ target trailing, literalArgvRun? (command.map String.toList) = some (target, trailing)
        → ∀ arg ∈ trailing, isSetting arg = true → arg ∈ noTestsSettings

theorem toList_ofList_map (args : List (List Char))
    : (args.map String.ofList).map String.toList = args := by
  rw [List.map_map]
  exact (List.map_congr_left fun arg _ => String.toList_ofList).trans (List.map_id args)

theorem ofList_map_inj {args others : List (List Char)}
    : args.map String.ofList = others.map String.ofList ↔ args = others := by
  refine ⟨fun same => ?_, fun same => by rw [same]⟩
  have lists := congrArg (List.map String.toList) same
  rwa [toList_ofList_map, toList_ofList_map] at lists

theorem makeLiteralVitestCommandStrict_idempotent (command : ValidationCommand)
    : makeLiteralVitestCommandStrict (makeLiteralVitestCommandStrict command)
      = makeLiteralVitestCommandStrict command := by
  cases command with
  | text command =>
      simp only [makeLiteralVitestCommandStrict, String.toList_ofList,
        makeLiteralVitestStringStrict_idempotent]
  | tokens command =>
      simp only [makeLiteralVitestCommandStrict, toList_ofList_map,
        makeLiteralVitestArgvStrict_idempotent]

/-- The promise is kept for a command where its condition holds. -/
theorem makesStrict_iff (command : ValidationCommand)
    : MakesStrict command ↔ StrictCondition command := by
  cases command with
  | tokens command =>
      constructor
      · intro strict target trailing literal
        have sets := strict.setsFalse (by rw [isLiteralRun, literal]; rfl)
        rw [makeLiteralVitestCommandStrict, commandOptions, toList_ofList_map] at sets
        exact (settings_argvOptions literal).mp sets
      · intro condition
        refine ⟨makeLiteralVitestCommandStrict_idempotent _, (fun _ same => by cases same), ?_⟩
        intro literal
        obtain ⟨⟨target, trailing⟩, reads⟩ := Option.isSome_iff_exists.mp literal
        rw [makeLiteralVitestCommandStrict, commandOptions, toList_ofList_map]
        exact (settings_argvOptions reads).mpr (condition target trailing reads)
  | text command =>
      have same : (isLiteralRun (.text command) = isLiteralRun (splitCommand (.text command))
            ∧ splitCommand (makeLiteralVitestCommandStrict (.text command))
              = makeLiteralVitestCommandStrict (splitCommand (.text command)))
          ↔ (literalRun? command.toList).isSome
              = (literalArgvRun? (charWords command.toList)).isSome
            ∧ charWords (makeLiteralVitestStringStrict command.toList)
              = makeLiteralVitestArgvStrict (charWords command.toList) := by
        have split : (words command).map String.toList = charWords command.toList :=
          toList_ofList_map _
        have resplit (result : List Char)
            : words (.ofList result) = (charWords result).map String.ofList := by
          rw [words, String.toList_ofList]
          rfl
        refine and_congr (by rw [isLiteralRun, splitCommand, isLiteralRun, split]) ?_
        rw [makeLiteralVitestCommandStrict, splitCommand, splitCommand,
          makeLiteralVitestCommandStrict, split, resplit, ValidationCommand.tokens.injEq,
          ofList_map_inj]
      constructor
      · intro strict
        have agree (unquoted : Unquoted command.toList) :=
          (agrees_iff unquoted).mp (same.mp (strict.agrees command rfl unquoted))
        refine ⟨fun target trailing literal => ?_, fun unquoted => (agree unquoted).1,
          fun unquoted => (agree unquoted).2⟩
        have sets := strict.setsFalse (by rw [isLiteralRun, literal]; rfl)
        rw [makeLiteralVitestCommandStrict, commandOptions, String.toList_ofList] at sets
        exact (settings_textOptions literal).mp sets
      · intro condition
        refine ⟨makeLiteralVitestCommandStrict_idempotent _, fun text equal unquoted => ?_,
          fun literal => ?_⟩
        · cases equal
          exact same.mpr
            ((agrees_iff unquoted).mpr ⟨condition.tidy unquoted, condition.exec unquoted⟩)
        · obtain ⟨⟨target, trailing⟩, reads⟩ := Option.isSome_iff_exists.mp literal
          rw [makeLiteralVitestCommandStrict, commandOptions, String.toList_ofList]
          exact (settings_textOptions reads).mpr (condition.sets target trailing reads)

/-- A setting that occurs twice is left twice. -/
theorem repeated_setting_left
    : ¬ MakesStrict (.text "vitest run a.test.ts --passWithNoTests --passWithNoTests") := by
  intro strict
  have sets := strict.setsFalse (by decide +kernel)
  exact absurd sets (by decide +kernel)

end AiSdlc.Application
