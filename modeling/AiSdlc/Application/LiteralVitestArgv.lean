import AiSdlc.Application.LiteralVitestEdits

/-! How literal runs that are tokens are read, and how their settings are set to false. -/

namespace AiSdlc.Application

open AiSdlc.Js

section Argv

variable {command front back trailing : List (List Char)} {target setting : List Char}

-----------------------------------------------------------------------------------------
-- Reading
-----------------------------------------------------------------------------------------

theorem argvTarget_iff {run : List (List Char)}
    : argvTarget run command = some (target, trailing) ↔ command = run ++ target :: trailing := by
  constructor
  · intro read
    unfold argvTarget at read
    split at read
    next behind =>
      split at read
      next starts =>
        cases read
        obtain ⟨rest, rfl⟩ := List.isPrefixOf_iff_prefix.mp starts
        rw [List.drop_left] at behind
        rw [behind]
      next => exact nomatch read
    next => exact nomatch read
  · rintro rfl
    rw [argvTarget, List.drop_left]
    exact if_pos (List.isPrefixOf_iff_prefix.mpr (List.prefix_append _ _))

theorem parseVitestArgv_iff
    : parseVitestArgv command = some (target, trailing)
      ↔ ∃ run ∈ argvRuns, command = run ++ target :: trailing := by
  have apart : Apart argvRuns := by decide
  constructor
  · intro parsed
    obtain ⟨run, member, read⟩ := List.exists_of_findSome?_eq_some parsed
    exact ⟨run, member, argvTarget_iff.mp read⟩
  · rintro ⟨run, member, split⟩
    have here := argvTarget_iff.mpr split
    have some : (parseVitestArgv command).isSome = true :=
      List.findSome?_isSome_iff.mpr ⟨run, member, by rw [here]; rfl⟩
    obtain ⟨found, parsed⟩ := Option.isSome_iff_exists.mp some
    obtain ⟨other, member', read⟩ := List.exists_of_findSome?_eq_some parsed
    have starts : run <+: command := split ▸ List.prefix_append _ _
    have starts' : other <+: command := argvTarget_iff.mp read ▸ List.prefix_append _ _
    obtain rfl := apart.eq member member' starts starts'
    exact parsed.trans (read.symm.trans here)

-----------------------------------------------------------------------------------------
-- Settings
-----------------------------------------------------------------------------------------

/-- The indices other than one are kept by what they hold, by induction over the items. -/
theorem filter_zipIdx {α : Type} {keeps : α → Bool} {index start : Nat} (items : List α)
    (apart : index < start)
    : ((items.zipIdx start).filter fun pair => pair.2 = index || keeps pair.1).map Prod.fst
      = items.filter keeps := by
  induction items generalizing start with
  | nil => rfl
  | cons item items ih =>
      have differs : ¬ start = index := by omega
      rw [List.zipIdx_cons, List.filter_cons, List.filter_cons]
      simp only [differs, decide_false, Bool.false_or]
      cases keeps item with
      | true => simp [ih (Nat.lt_succ_of_lt apart)]
      | false => simp [ih (Nat.lt_succ_of_lt apart)]

theorem setArgvFalse_none (none : ∀ arg ∈ command, arg ∉ noTestsSettings)
    : setArgvFalse command = command ++ [failWithNoTests] := by
  have missing : command.findIdx? (· ∈ noTestsSettings) = Option.none :=
    List.findIdx?_eq_none_iff.mpr fun arg member => decide_eq_false (none arg member)
  rw [setArgvFalse, missing]

/-- The first setting is set to false, and the others are removed. -/
theorem setArgvFalse_append (none : ∀ arg ∈ front, arg ∉ noTestsSettings)
    (settles : setting ∈ noTestsSettings)
    : setArgvFalse (front ++ setting :: back)
      = front ++ failWithNoTests :: back.filter (· ∉ noTestsSettings) := by
  have missing : front.findIdx? (· ∈ noTestsSettings) = Option.none :=
    List.findIdx?_eq_none_iff.mpr fun arg member => decide_eq_false (none arg member)
  have found : (front ++ setting :: back).findIdx? (· ∈ noTestsSettings) = some front.length := by
    rw [List.findIdx?_append, missing, List.findIdx?_cons, decide_eq_true settles]
    simp
  have mapped : ((front ++ setting :: back).mapIdx fun idx arg =>
      if idx = front.length then failWithNoTests else arg) = front ++ failWithNoTests :: back := by
    rw [List.mapIdx_append, List.mapIdx_cons]
    congr 1
    · refine List.ext_getElem (by simp) fun index within _ => ?_
      have apart : index ≠ front.length := by
        simp at within
        omega
      simp [apart]
    · simp
      refine List.ext_getElem (by simp) fun index _ _ => ?_
      simp
  have before : (front.zipIdx.filter fun entry =>
      entry.2 = front.length || !(entry.1 ∈ noTestsSettings)) = front.zipIdx := by
    refine List.filter_eq_self.mpr fun entry member => ?_
    have within := List.fst_mem_of_mem_zipIdx member
    simp [none entry.1 within]
  rw [setArgvFalse, found]
  dsimp only
  rw [mapped, List.zipIdx_append, List.zipIdx_cons, List.filter_append, List.filter_cons]
  simp only [Nat.zero_add, decide_true, Bool.true_or, if_true]
  have behind := @filter_zipIdx _ (fun arg => !decide (arg ∈ noTestsSettings)) front.length
    (front.length + 1) back (Nat.lt_succ_self _)
  rw [before, List.map_append, List.map_cons, behind, List.zipIdx_map_fst]
  simp only [decide_not]

/-- Tokens without a setting, or the first one with those around it. -/
theorem setting_cases (command : List (List Char))
    : (∀ arg ∈ command, arg ∉ noTestsSettings)
      ∨ ∃ front setting back, command = front ++ setting :: back ∧ setting ∈ noTestsSettings
          ∧ ∀ arg ∈ front, arg ∉ noTestsSettings := by
  cases found : command.find? (· ∈ noTestsSettings) with
  | none =>
      exact .inl fun arg member settles =>
        List.find?_eq_none.mp found arg member (decide_eq_true settles)
  | some setting =>
      obtain ⟨settles, front, back, split, none⟩ := List.find?_eq_some_iff_append.mp found
      refine .inr ⟨front, setting, back, split, of_decide_eq_true settles, fun arg member => ?_⟩
      simpa using none arg member

theorem failWithNoTests_settles : failWithNoTests ∈ noTestsSettings := by
  decide

theorem setArgvFalse_front (none : ∀ arg ∈ front, arg ∉ noTestsSettings)
    (command : List (List Char))
    : setArgvFalse (front ++ command) = front ++ setArgvFalse command := by
  rcases setting_cases command with none' | ⟨front', setting, back, rfl, settles, none'⟩
  · have all : ∀ arg ∈ front ++ command, arg ∉ noTestsSettings := fun arg member =>
      (List.mem_append.mp member).elim (none arg) (none' arg)
    rw [setArgvFalse_none all, setArgvFalse_none none', List.append_assoc]
  · have all : ∀ arg ∈ front ++ front', arg ∉ noTestsSettings := fun arg member =>
      (List.mem_append.mp member).elim (none arg) (none' arg)
    rw [setArgvFalse_append none' settles, ← List.append_assoc, setArgvFalse_append all settles,
      List.append_assoc]

theorem setArgvFalse_setArgvFalse (command : List (List Char))
    : setArgvFalse (setArgvFalse command) = setArgvFalse command := by
  rcases setting_cases command with none | ⟨front, setting, back, rfl, settles, none⟩
  · rw [setArgvFalse_none none, setArgvFalse_append none failWithNoTests_settles]
    rfl
  · rw [setArgvFalse_append none settles, setArgvFalse_append none failWithNoTests_settles,
      List.filter_filter]
    simp

-----------------------------------------------------------------------------------------
-- What the settings are
-----------------------------------------------------------------------------------------

/-- A setting of the option: its name, or its name and a value. -/
def isSetting (arg : List Char) : Bool :=
  arg = passWithNoTests || (passWithNoTests ++ ['=']).isPrefixOf arg

def settings (args : List (List Char)) : List (List Char) :=
  args.filter isSetting

theorem isSetting_of_settles (settles : setting ∈ noTestsSettings) : isSetting setting = true := by
  have each : ∀ setting ∈ noTestsSettings, isSetting setting = true := by decide
  exact each setting settles

theorem isSetting_failWithNoTests : isSetting failWithNoTests = true :=
  isSetting_of_settles failWithNoTests_settles

theorem settings_append (front back : List (List Char))
    : settings (front ++ back) = settings front ++ settings back :=
  List.filter_append ..

theorem settings_eq_nil {args : List (List Char)}
    : settings args = [] ↔ ∀ arg ∈ args, isSetting arg = false := by
  simp [settings, List.filter_eq_nil_iff]

theorem append_cons_eq_singleton {α : Type} {front back : List α} {item : α}
    : front ++ item :: back = [item] ↔ front = [] ∧ back = [] := by
  refine ⟨fun same => ?_, fun ⟨first, last⟩ => by rw [first, last]; rfl⟩
  have length := congrArg List.length same
  simp only [List.length_append, List.length_cons, List.length_nil] at length
  exact ⟨List.length_eq_zero_iff.mp (by omega), List.length_eq_zero_iff.mp (by omega)⟩

/-- One setting is left where no setting has another value. -/
theorem settings_setArgvFalse (command : List (List Char))
    : settings (setArgvFalse command) = [failWithNoTests]
      ↔ ∀ arg ∈ command, isSetting arg = true → arg ∈ noTestsSettings := by
  rcases setting_cases command with none | ⟨front, setting, back, rfl, settles, none⟩
  · have last : settings [failWithNoTests] = [failWithNoTests] := by decide
    rw [setArgvFalse_none none, settings_append, last, append_cons_eq_singleton, settings_eq_nil]
    simp only [and_true]
    constructor
    · intro unset arg member sets
      exact absurd sets (by simp [unset arg member])
    · intro others arg member
      by_contra sets
      exact none arg member (others arg member (by simpa using sets))
  · have split : settings (failWithNoTests :: back.filter (· ∉ noTestsSettings))
        = failWithNoTests :: settings (back.filter (· ∉ noTestsSettings)) :=
      List.filter_cons_of_pos isSetting_failWithNoTests
    rw [setArgvFalse_append none settles, settings_append, split, append_cons_eq_singleton,
      settings_eq_nil, settings_eq_nil]
    constructor
    · rintro ⟨first, last⟩ arg member sets
      by_contra other
      rcases List.mem_append.mp member with before | behind
      · exact absurd sets (by simp [first arg before])
      · rcases List.mem_cons.mp behind with rfl | behind
        · exact other settles
        · have kept : arg ∈ back.filter (· ∉ noTestsSettings) :=
            List.mem_filter.mpr ⟨behind, decide_eq_true other⟩
          exact absurd sets (by simp [last arg kept])
    · intro others
      constructor
      · intro arg member
        by_contra sets
        exact none arg member (others arg (by simp [member]) (by simpa using sets))
      · intro arg member
        obtain ⟨behind, other⟩ := List.mem_filter.mp member
        by_contra sets
        exact of_decide_eq_true other (others arg (by simp [behind]) (by simpa using sets))

end Argv

end AiSdlc.Application
