import AiSdlc.Application.LiteralVitestArgv

/-! When the two ways of making a literal run strict agree and leave one setting, which is false. -/

namespace AiSdlc.Application

open AiSdlc.Js

section Mentions

variable {chars rest target trailing mention : List Char} {args front back : List (List Char)}

/-- Words mention the setting: none does, or there is a first one. -/
theorem mention_cases (args : List (List Char))
    : (∀ arg ∈ args, ¬ passWithNoTests <:+: arg)
      ∨ ∃ front mention back, args = front ++ mention :: back ∧ passWithNoTests <:+: mention
          ∧ ∀ arg ∈ front, ¬ passWithNoTests <:+: arg := by
  cases found : args.find? (passWithNoTests <:+: ·) with
  | none =>
      exact .inl fun arg member mentions =>
        List.find?_eq_none.mp found arg member (decide_eq_true mentions)
  | some mention =>
      obtain ⟨mentions, front, back, split, none⟩ := List.find?_eq_some_iff_append.mp found
      refine .inr ⟨front, mention, back, split, of_decide_eq_true mentions, fun arg member => ?_⟩
      simpa using none arg member

theorem find?_mention (none : ∀ arg ∈ front, ¬ passWithNoTests <:+: arg)
    (mentions : passWithNoTests <:+: mention)
    : (front ++ mention :: back).find? (passWithNoTests <:+: ·) = some mention := by
  refine List.find?_eq_some_iff_append.mpr ⟨decide_eq_true mentions, front, back, rfl, ?_⟩
  intro arg member
  simpa using none arg member

/-- The first word that mentions the setting is edited, by induction over those in front. -/
theorem editFirstWord_append (none : ∀ arg ∈ front, ¬ passWithNoTests <:+: arg)
    (mentions : passWithNoTests <:+: mention)
    : editFirstWord passWithNoTests setFalse (front ++ mention :: back)
      = front ++ editSetting mention :: back := by
  induction front with
  | nil => exact if_pos mentions
  | cons arg front ih =>
      obtain ⟨first, others⟩ := List.forall_mem_cons.mp none
      rw [List.cons_append, editFirstWord, if_neg first, ih others, List.cons_append]

theorem charWords_editSetting (chars : List Char)
    : charWords (editSetting chars) = editFirstWord passWithNoTests setFalse (charWords chars) := by
  refine charWords_editFirst solid_passWithNoTests passWithNoTests_nonempty
    (fun char white => setFalse_stops (notSetting_of_space white)) (fun word solid => ?_) chars
  have plain : word.all (!isWhitespace ·) = true :=
    List.all_eq_true.mpr fun char member => by simp [solid char member]
  have edited : (setFalse word).all (!isWhitespace ·) = true :=
    (all_setFalse (by decide) word).trans plain
  exact fun char member => by simpa using List.all_eq_true.mp edited char member

theorem charWords_appendSetting (chars : List Char)
    : charWords (appendSetting chars) = charWords chars ++ [failWithNoTests] := by
  have last : charWords failWithNoTests = [failWithNoTests] := by decide
  rw [appendSetting, charWords_append_space (by decide), last]

theorem mentions_iff_words (chars : List Char)
    : passWithNoTests <:+: chars ↔ ∃ word ∈ charWords chars, passWithNoTests <:+: word :=
  infix_iff_words solid_passWithNoTests passWithNoTests_nonempty chars

theorem mentions_append {char : Char} (foreign : char ∉ settingChars) (front back : List Char)
    : passWithNoTests <:+: front ++ char :: back
      ↔ passWithNoTests <:+: front ∨ passWithNoTests <:+: back :=
  infix_append_foreign (foreign_of_notSetting foreign).1 passWithNoTests_nonempty

theorem mentions_cons {char : Char} (foreign : char ∉ settingChars) (back : List Char)
    : passWithNoTests <:+: char :: back ↔ passWithNoTests <:+: back := by
  have apart := mentions_append foreign [] back
  rwa [List.nil_append, List.infix_nil, or_iff_right passWithNoTests_nonempty] at apart

theorem of_quotedTarget {mark : Char} (found : quotedTarget mark rest = some (target, trailing))
    : rest = mark :: (target ++ mark :: trailing) := by
  rcases quoted_cases mark rest with starts | ⟨inner, rfl, apart⟩ | ⟨within, behind, rfl, apart⟩
  · rw [quotedTarget_of_head starts] at found
    exact nomatch found
  · rw [quotedTarget_open apart] at found
    exact nomatch found
  · rw [quotedTarget_eq apart] at found
    split at found
    next =>
      cases found
      rfl
    next => exact nomatch found

theorem of_bareTarget (found : bareTarget rest = some (target, trailing))
    : rest = target ++ trailing ∧ Solid target
      ∧ (trailing = [] ∨ trailing.head?.any isWhitespace = true) := by
  rw [bareTarget] at found
  split at found
  next =>
    cases found
    refine ⟨List.takeWhile_append_dropWhile.symm, solid_takeWhile rest, ?_⟩
    rcases behind_word rest with ends | ⟨space, more, white, behind⟩
    · exact .inl ends
    · exact .inr (by simpa [behind] using white)
  next => cases found

theorem mentions_vitestTarget (targets : vitestTarget rest = some (target, trailing))
    : passWithNoTests <:+: rest
      ↔ passWithNoTests <:+: target ∨ passWithNoTests <:+: trailing := by
  have quoted {mark : Char} (foreign : mark ∉ settingChars)
      (found : quotedTarget mark rest = some (target, trailing))
      : passWithNoTests <:+: rest
        ↔ passWithNoTests <:+: target ∨ passWithNoTests <:+: trailing := by
    rw [of_quotedTarget found, mentions_cons foreign, mentions_append foreign]
  rcases Option.or_eq_some_iff.mp targets with double | ⟨-, targets⟩
  · exact quoted (by decide) double
  · rcases Option.or_eq_some_iff.mp targets with single | ⟨-, bare⟩
    · exact quoted (by decide) single
    · obtain ⟨rfl, -, rfl | white⟩ := of_bareTarget bare
      · simp [passWithNoTests_nonempty]
      · cases trailing with
        | nil => exact nomatch white
        | cons space more =>
            have foreign := @notSetting_of_space space (by simpa using white)
            rw [mentions_append foreign, mentions_cons foreign]

theorem mentions_directVitestRun (reads : directVitestRun chars = some (target, trailing))
    : passWithNoTests <:+: chars
      ↔ passWithNoTests <:+: target ∨ passWithNoTests <:+: trailing := by
  obtain ⟨front, rest, rfl, apart, targets, -⟩ := directVitestRun_front reads
  rw [← mentions_vitestTarget targets]
  exact infix_append_apart apart

end Mentions

section Edited

variable {target mention : List Char} {args front back : List (List Char)}

/-- In a text, one setting is left and false: nothing mentions the setting, or there is one that
can be set, and the first mention is that one, or does no harm to one that is false already.
-/
def SetsOne (target : List Char) (args : List (List Char)) : Prop :=
  match (target :: args).find? (passWithNoTests <:+: ·) with
  | none => True
  | some mention =>
      ∃ setting ∈ noTestsSettings, settings args = [setting]
        ∧ (mention = setting
          ∨ setting = failWithNoTests ∧ (mention = target ∨ ¬ passWithNoTests <+: mention))

theorem starts_of_isSetting {arg : List Char} (sets : isSetting arg = true)
    : passWithNoTests <+: arg := by
  rcases Bool.or_eq_true_iff.mp sets with same | starts
  · rw [of_decide_eq_true same]
  · exact (List.prefix_append _ _).trans (List.isPrefixOf_iff_prefix.mp starts)

theorem settings_eq_nil_of_not_mentioned (none : ∀ arg ∈ args, ¬ passWithNoTests <:+: arg)
    : settings args = [] := by
  refine settings_eq_nil.mpr fun arg member => ?_
  by_contra sets
  exact none arg member (starts_of_isSetting (by simpa using sets)).isInfix

/-- What is behind a name that can be set. -/
theorem setFalse_eq_iff (behind : List Char)
    : setFalse behind = "=false".toList ↔ passWithNoTests ++ behind ∈ noTestsSettings := by
  have settled : passWithNoTests ++ behind ∈ noTestsSettings
      ↔ behind = [] ∨ behind = "=true".toList ∨ behind = "=false".toList := by
    simp only [noTestsSettings, List.map_cons, List.map_nil, List.mem_cons, List.not_mem_nil,
      or_false, List.append_cancel_left_eq]
    rfl
  have differs (rest : List Char) : "=true".toList ++ rest ≠ "=false".toList := fun same =>
    absurd (Option.some.inj (congrArg (·[1]?) same) : 't' = 'f') (by decide)
  have differs' (rest : List Char) : "=false".toList ++ rest ≠ "=true".toList := fun same =>
    absurd (Option.some.inj (congrArg (·[1]?) same) : 'f' = 't') (by decide)
  rw [settled]
  unfold setFalse
  refine (@List.append_right_eq_self Char "=false".toList _).trans ?_
  split
  next starts =>
    obtain ⟨rest, rfl⟩ := List.isPrefixOf_iff_prefix.mp starts
    change rest = [] ↔ _
    constructor
    · rintro rfl
      exact .inr (.inl (List.append_nil _))
    · rintro (empty | same | same)
      · exact (List.append_eq_nil_iff.mp empty).2
      · exact List.append_right_eq_self.mp same
      · exact absurd same (differs rest)
  next positive =>
    split
    next starts =>
      obtain ⟨rest, rfl⟩ := List.isPrefixOf_iff_prefix.mp starts
      change rest = [] ↔ _
      constructor
      · rintro rfl
        exact .inr (.inr (List.append_nil _))
      · rintro (empty | same | same)
        · exact (List.append_eq_nil_iff.mp empty).2
        · exact absurd same (differs' rest)
        · exact List.append_right_eq_self.mp same
    next negative =>
      refine ⟨.inl, ?_⟩
      rintro (empty | rfl | rfl)
      · exact empty
      · exact absurd (by decide) positive
      · exact absurd (by decide) negative

theorem editSetting_of_starts (starts : passWithNoTests <+: mention)
    : isSetting (editSetting mention) = true
      ∧ (editSetting mention = failWithNoTests ↔ mention ∈ noTestsSettings) := by
  obtain ⟨behind, rfl⟩ := starts
  have edited : editSetting (passWithNoTests ++ behind) = passWithNoTests ++ setFalse behind :=
    editFirst_append_of_name passWithNoTests_nonempty behind
  rw [edited, failWithNoTests, List.append_cancel_left_eq, setFalse_eq_iff]
  refine ⟨Bool.or_eq_true_iff.mpr (.inr (List.isPrefixOf_iff_prefix.mpr ?_)), Iff.rfl⟩
  exact (List.prefix_append_right_inj passWithNoTests).mpr ⟨_, rfl⟩

theorem editSetting_of_not_starts (apart : ¬ passWithNoTests <+: mention)
    : isSetting (editSetting mention) = false := by
  by_contra sets
  exact apart (prefix_of_prefix_editFirst (starts_of_isSetting (by simpa using sets)) le_rfl)

/-- The settings once the first mention is edited. -/
theorem settings_editRun (literal : isLiteralTestFile target = true)
    (mentioned : passWithNoTests <:+: target ∨ ∃ arg ∈ args, passWithNoTests <:+: arg)
    : settings (if passWithNoTests <:+: target then args
          else editFirstWord passWithNoTests setFalse args) = [failWithNoTests]
      ↔ SetsOne target args := by
  have apart : ∀ setting ∈ noTestsSettings, isLiteralTestFile setting = false := by
    decide
  by_cases here : passWithNoTests <:+: target
  · have found : (target :: args).find? (passWithNoTests <:+: ·) = some target :=
      @find?_mention target [] args (by simp) here
    rw [if_pos here, SetsOne, found]
    constructor
    · intro one
      exact ⟨failWithNoTests, failWithNoTests_settles, one, .inr ⟨rfl, .inl rfl⟩⟩
    · rintro ⟨setting, settles, one, rfl | ⟨rfl, -⟩⟩
      · exact absurd (apart _ settles) (by simp [literal])
      · exact one
  · obtain ⟨front, mention, back, rfl, mentions, none⟩ :=
      (mention_cases args).resolve_left fun none =>
        (mentioned.resolve_left here).elim fun arg ⟨member, mentions⟩ => none arg member mentions
    have found : (target :: (front ++ mention :: back)).find? (passWithNoTests <:+: ·)
        = some mention :=
      @find?_mention mention (target :: front) back
        (List.forall_mem_cons.mpr ⟨here, none⟩) mentions
    have differs : mention ≠ target := by
      rintro rfl
      exact here mentions
    rw [if_neg here, SetsOne, found, editFirstWord_append none mentions, settings_append,
      settings_eq_nil_of_not_mentioned none, List.nil_append]
    have split (first : List Char)
        : settings (front ++ first :: back) = settings (first :: back) := by
      rw [settings_append, settings_eq_nil_of_not_mentioned none, List.nil_append]
    simp only [split, differs, false_or]
    by_cases starts : passWithNoTests <+: mention
    · obtain ⟨sets, settled⟩ := editSetting_of_starts starts
      have first : settings (editSetting mention :: back) = editSetting mention :: settings back :=
        List.filter_cons_of_pos sets
      rw [first, List.cons.injEq, settled]
      constructor
      · rintro ⟨settles, others⟩
        have here : settings (mention :: back) = mention :: settings back :=
          List.filter_cons_of_pos (isSetting_of_settles settles)
        exact ⟨mention, settles, by rw [here, others], .inl rfl⟩
      · rintro ⟨setting, settles, one, rfl | ⟨-, apart⟩⟩
        · have here : settings (mention :: back) = mention :: settings back :=
            List.filter_cons_of_pos (isSetting_of_settles settles)
          rw [here, List.cons.injEq] at one
          exact ⟨settles, one.2⟩
        · exact absurd starts apart
    · have unset : isSetting mention = false := by
        by_contra sets
        exact starts (starts_of_isSetting (by simpa using sets))
      have first : settings (editSetting mention :: back) = settings back :=
        List.filter_cons_of_neg (by simp [editSetting_of_not_starts starts])
      have first' : settings (mention :: back) = settings back :=
        List.filter_cons_of_neg (by simp [unset])
      rw [first, first']
      constructor
      · intro one
        exact ⟨failWithNoTests, failWithNoTests_settles, one, .inr ⟨rfl, starts⟩⟩
      · rintro ⟨setting, settles, one, rfl | ⟨rfl, -⟩⟩
        · exact absurd (isSetting_of_settles settles) (by simp [unset])
        · exact one

end Edited

end AiSdlc.Application
