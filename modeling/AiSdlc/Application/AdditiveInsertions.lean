import Mathlib.Data.List.Perm.Subperm
import AiSdlc.Application.AdditiveConfig

/-! What the gate accepts: the values compare equal outside of the lists that may grow, and those
lists have the old entries in their old order. The tiers are compared without their borders.
-/

namespace AiSdlc.Application

open AiSdlc.Js

variable {Number : Type} [DecidableEq Number]

-----------------------------------------------------------------------------------------
-- The comparison
-----------------------------------------------------------------------------------------

omit [DecidableEq Number] in
/-- Objects with one member for each key are the same when each member of the one has the same
value in the other, and there are as many.
-/
theorem same_object_of_members {members others : List (CodeUnits × Json Number)}
    (lengths : members.length = others.length)
    (wellFormed : (Json.object members).WellFormed)
    (held : ∀ member ∈ members,
      ∃ value, others.lookup member.1 = some value ∧ Json.Same member.2 value)
    : Json.Same (.object members) (.object others) := by
  have within : members.map Prod.fst ⊆ others.map Prod.fst := by
    intro key member
    obtain ⟨pair, belongs, rfl⟩ := List.mem_map.mp member
    obtain ⟨value, found, -⟩ := held pair belongs
    exact List.mem_map.mpr ⟨_, Json.mem_of_lookup found, rfl⟩
  have keys : (members.map Prod.fst).Perm (others.map Prod.fst) :=
    (List.subperm_of_subset wellFormed.nodup within).perm_of_length_le (by simp [lengths])
  refine Json.same_object_iff.mpr fun key => ?_
  cases found : members.lookup key with
  | some value =>
      obtain ⟨same, found', equal⟩ := held _ (Json.mem_of_lookup found)
      rw [found']
      exact .some equal
  | none =>
      cases found' : others.lookup key with
      | none => exact .none
      | some value =>
          have here := keys.mem_iff.mpr (List.mem_map_of_mem (Json.mem_of_lookup found'))
          obtain ⟨member, belongs, same⟩ := List.mem_map.mp here
          have again : members.lookup member.1 = some member.2 :=
            Json.lookup_of_mem wellFormed.nodup belongs
          rw [same] at again
          rw [again] at found
          cases found

mutual

/-- Values that compare equal are the same, by induction over the first one. -/
theorem same_of_deepEqual {first second : Json Number} (equal : deepEqual first second = true)
    (wellFormed : first.WellFormed) (other : second.WellFormed)
    : Json.Same first second := by
  unfold deepEqual at equal
  split at equal
  · exact Json.same_refl _
  · obtain rfl := of_decide_eq_true equal
    exact Json.same_refl _
  · obtain rfl := of_decide_eq_true equal
    exact Json.same_refl _
  · obtain rfl := of_decide_eq_true equal
    exact Json.same_refl _
  next items others =>
    simp only [Bool.and_eq_true, decide_eq_true_eq] at equal
    refine Json.same_array_iff.mpr ⟨equal.1, ?_⟩
    exact same_of_everyItem equal.1 equal.2 (fun _ => wellFormed.item) fun _ => other.item
  next members others =>
    simp only [Bool.and_eq_true, decide_eq_true_eq] at equal
    refine same_object_of_members equal.1 wellFormed ?_
    exact same_of_everyMember equal.2 (fun _ => wellFormed.member)
      fun _ _ found => other.member (Json.mem_of_lookup found)
  · cases equal
termination_by sizeOf first

theorem same_of_everyItem {items others : List (Json Number)}
    (lengths : items.length = others.length) (equal : everyItem items others = true)
    (wellFormed : ∀ item ∈ items, item.WellFormed) (other : ∀ item ∈ others, item.WellFormed)
    (index : Nat)
    : Option.Rel Json.Same items[index]? others[index]? := by
  match items, others with
  | [], [] => exact .none
  | [], _ :: _ => cases lengths
  | _ :: _, [] => cases lengths
  | item :: items, second :: others =>
      rw [everyItem, Bool.and_eq_true] at equal
      cases index with
      | zero =>
          exact .some (same_of_deepEqual equal.1 (wellFormed _ List.mem_cons_self)
            (other _ List.mem_cons_self))
      | succ index =>
          exact same_of_everyItem (by simpa using lengths) equal.2
            (fun _ held => wellFormed _ (List.mem_cons_of_mem _ held))
            (fun _ held => other _ (List.mem_cons_of_mem _ held)) index
termination_by sizeOf items

theorem same_of_everyMember {members others : List (CodeUnits × Json Number)}
    (equal : everyMember members others = true)
    (wellFormed : ∀ member ∈ members, member.2.WellFormed)
    (other : ∀ key value, others.lookup key = some value → value.WellFormed)
    : ∀ member ∈ members,
        ∃ value, others.lookup member.1 = some value ∧ Json.Same member.2 value := by
  match members with
  | [] => exact fun _ held => nomatch held
  | (key, value) :: members =>
      rw [everyMember, Bool.and_eq_true] at equal
      intro member held
      rcases List.mem_cons.mp held with rfl | later
      · have here := equal.1
        split at here
        next found =>
          exact ⟨_, found, same_of_deepEqual here (wellFormed _ List.mem_cons_self)
            (other _ _ found)⟩
        next => cases here
      · exact same_of_everyMember equal.2
          (fun _ held => wellFormed _ (List.mem_cons_of_mem _ held)) other member later
termination_by sizeOf members

end

section Gate

omit [DecidableEq Number]

/-- A walk meets all entries of a list where they stand in order, by induction over the walk. -/
theorem unmet_eq_nil {oldArr newArr : List CodeUnits}
    : unmet oldArr newArr = [] ↔ oldArr.Sublist newArr := by
  induction newArr generalizing oldArr with
  | nil => cases oldArr <;> simp [unmet]
  | cons item newArr ih =>
      cases oldArr with
      | nil => simp [unmet]
      | cons entry oldArr =>
          rw [unmet]
          split
          next same =>
            subst same
            exact ih.trans List.cons_sublist_cons.symm
          next differs =>
            refine ih.trans ⟨fun sub => sub.cons item, fun sub => ?_⟩
            cases sub with
            | cons _ sub => exact sub
            | cons_cons => exact absurd rfl differs

theorem sublist_of_isPureInsertion {oldArr newArr : List CodeUnits}
    (inserts : isPureInsertion oldArr newArr = true)
    : oldArr.Sublist newArr := by
  simp only [isPureInsertion, Bool.and_eq_true, decide_eq_true_eq] at inserts
  exact unmet_eq_nil.mp inserts.2

theorem string?_eq_some {value : Json Number} {units : CodeUnits}
    : string? value = some units ↔ value = .string units := by
  cases value <;> simp [string?]

/-- A partial map of a list succeeds where the list is an image, by induction over it. -/
theorem mapM_eq_some_iff {α β : Type} {partly : α → Option β} {back : β → α}
    {valid : β → Prop}
    (inverse : ∀ value result, partly value = some result ↔ value = back result ∧ valid result)
    {values : List α} {results : List β}
    : values.mapM partly = some results
      ↔ values = results.map back ∧ ∀ result ∈ results, valid result := by
  induction values generalizing results with
  | nil => cases results <;> simp
  | cons value values ih =>
      simp only [List.mapM_cons, bind, Option.bind_eq_some_iff, inverse, ih, pure,
        Option.some.injEq]
      constructor
      · rintro ⟨result, ⟨rfl, valid⟩, others, ⟨rfl, each⟩, rfl⟩
        exact ⟨rfl, List.forall_mem_cons.mpr ⟨valid, each⟩⟩
      · rintro ⟨image, each⟩
        cases results with
        | nil => cases image
        | cons result results =>
            obtain ⟨rfl, rfl⟩ := List.cons.inj image
            rw [List.forall_mem_cons] at each
            exact ⟨result, ⟨rfl, each.1⟩, results, ⟨rfl, each.2⟩, rfl⟩

theorem stringArray?_eq_some {value : Json Number} {strings : List CodeUnits}
    : stringArray? value = some strings ↔ value = .array (strings.map .string) := by
  have inverse (value : Json Number) (units : CodeUnits)
      : string? value = some units ↔ value = .string units ∧ True := by
    rw [string?_eq_some, and_true]
  cases value with
  | array items => simp [stringArray?, mapM_eq_some_iff inverse]
  | null | bool | number | string | object => simp [stringArray?]

/-- The value of some tiers. -/
abbrev tiersValue (tiers : List (List CodeUnits)) : Json Number :=
  .array (tiers.map fun tier => .array (tier.map .string))

theorem stringTiers?_eq_some {value : Json Number} {tiers : List (List CodeUnits)}
    : stringTiers? value = some tiers
      ↔ value = tiersValue tiers ∧ ∀ tier ∈ tiers, isCommandTier tier = true := by
  have inverse (value : Json Number) (tier : List CodeUnits)
      : (stringArray? value).filter isCommandTier = some tier
        ↔ value = .array (tier.map .string) ∧ isCommandTier tier = true := by
    rw [Option.filter_eq_some_iff, stringArray?_eq_some]
  cases value with
  | array items => simp [stringTiers?, tiersValue, mapM_eq_some_iff inverse]
  | null | bool | number | string | object => simp [stringTiers?, tiersValue]

end Gate

section Accepted

variable {oldValue newValue : Option (Json Number)}

/-- Undefined or well formed. -/
def WellFormedOptional (value : Option (Json Number)) : Prop :=
  ∀ held, value = some held → held.WellFormed

theorem same_of_deepEqualOptional (equal : deepEqualOptional oldValue newValue = true)
    (wellFormed : WellFormedOptional oldValue) (other : WellFormedOptional newValue)
    : Option.Rel Json.Same oldValue newValue := by
  cases oldValue with
  | none =>
      cases newValue with
      | none => exact .none
      | some second => cases equal
  | some first =>
      cases newValue with
      | none => cases equal
      | some second => exact .some (same_of_deepEqual equal (wellFormed _ rfl) (other _ rfl))

theorem entriesInserted_of_commandInsertion {inserted : Bool}
    (accepted : commandInsertion oldValue newValue = some inserted)
    (wellFormed : WellFormedOptional oldValue) (other : WellFormedOptional newValue)
    : EntriesInserted oldValue newValue := by
  unfold commandInsertion at accepted
  split at accepted
  next equal => exact .inl (same_of_deepEqualOptional equal wellFormed other)
  next =>
    split at accepted
    next few many narrowed narrowed' =>
      split at accepted
      next inserts =>
        obtain ⟨first, rfl, strings⟩ := Option.bind_eq_some_iff.mp narrowed
        obtain ⟨second, rfl, strings'⟩ := Option.bind_eq_some_iff.mp narrowed'
        obtain rfl := stringArray?_eq_some.mp strings
        obtain rfl := stringArray?_eq_some.mp strings'
        exact .inr ⟨few, many, rfl, rfl, sublist_of_isPureInsertion inserts⟩
      next => cases accepted
    next => cases accepted

theorem tiers_of_tierInsertion {inserted : Bool}
    (accepted : tierInsertion oldValue newValue = some inserted)
    : (oldValue = none ∧ newValue = none)
      ∨ ∃ few many, oldValue.bind stringTiers? = some few
        ∧ newValue.bind stringTiers? = some many := by
  unfold tierInsertion at accepted
  split at accepted
  · exact .inl ⟨rfl, rfl⟩
  next first second =>
    split at accepted
    next few many narrowed narrowed' => exact .inr ⟨few, many, narrowed, narrowed'⟩
    next => cases accepted
  next => cases accepted
  next => cases accepted

end Accepted

section Values

omit [DecidableEq Number]

theorem eq_of_same_map {α : Type} {value : α → Json Number}
    (apart : ∀ first second, Json.Same (value first) (value second) → first = second)
    {first second : List α}
    (same : Json.Same (.array (first.map value)) (.array (second.map value)))
    : first = second := by
  obtain ⟨lengths, items⟩ := Json.same_array_iff.mp same
  refine List.ext_getElem? fun index => ?_
  have here := items index
  rw [List.getElem?_map, List.getElem?_map] at here
  cases found : first[index]? with
  | none =>
      cases found' : second[index]? with
      | none => rfl
      | some item =>
          rw [found, found'] at here
          cases here
  | some item =>
      cases found' : second[index]? with
      | none =>
          rw [found, found'] at here
          cases here
      | some other =>
          rw [found, found'] at here
          cases here with
          | some equal => rw [apart _ _ equal]

theorem eq_of_same_tiers {first second : List (List CodeUnits)}
    (same : Json.Same (tiersValue first : Json Number) (tiersValue second))
    : first = second :=
  eq_of_same_map (fun _ _ => eq_of_same_map fun _ _ => Json.eq_of_same_string) same

theorem groupedAlike_refl (tiers : List (List CodeUnits)) : GroupedAlike tiers tiers :=
  List.sublistForall₂_iff.mpr
    ⟨tiers, List.forall₂_same.mpr fun tier _ => List.Sublist.refl tier, .refl _⟩

theorem tiersInserted_iff {oldValue newValue : Option (Json Number)}
    {few many : List (List CodeUnits)} (narrowed : oldValue.bind stringTiers? = some few)
    (narrowed' : newValue.bind stringTiers? = some many)
    : TiersInserted oldValue newValue ↔ GroupedAlike few many := by
  obtain ⟨first, rfl, tiers⟩ := Option.bind_eq_some_iff.mp narrowed
  obtain ⟨second, rfl, tiers'⟩ := Option.bind_eq_some_iff.mp narrowed'
  obtain ⟨rfl, -⟩ := stringTiers?_eq_some.mp tiers
  obtain ⟨rfl, -⟩ := stringTiers?_eq_some.mp tiers'
  constructor
  · intro inserted
    rcases inserted with same | ⟨others, more, same, same', grouped⟩
    · cases same with
      | some same =>
          obtain rfl := eq_of_same_tiers same
          exact groupedAlike_refl few
    · have first : Json.Same (tiersValue few : Json Number) (tiersValue others) := by
        rw [Option.some.inj same]
        exact Json.same_refl _
      have second : Json.Same (tiersValue many : Json Number) (tiersValue more) := by
        rw [Option.some.inj same']
        exact Json.same_refl _
      rw [eq_of_same_tiers first, eq_of_same_tiers second]
      exact grouped
  · exact fun grouped => .inr ⟨few, many, rfl, rfl, grouped⟩

end Values

section Others

omit [DecidableEq Number]

variable {json validation : List (CodeUnits × Json Number)} {key : CodeUnits}

theorem wellFormed_withoutCommandArrays (wellFormed : (Json.object json).WellFormed)
    (inner : (Json.object validation).WellFormed)
    : (withoutCommandArrays json validation).WellFormed := by
  have stripped : (Json.object (stripCommandArrays validation)).WellFormed := by
    refine Json.wellFormed_object ?_ fun member held => ?_
    · exact inner.nodup.sublist (List.filter_sublist.map _)
    · exact inner.member (List.mem_filter.mp held).1
  refine Json.wellFormed_object (Json.nodup_setMember wellFormed.nodup) fun member held => ?_
  rcases Json.mem_setMember held with within | rfl
  · exact wellFormed.member within
  · exact stripped

theorem lookup_stripCommandArrays (other : key ∉ growingKeys)
    : (stripCommandArrays validation).lookup key = validation.lookup key := by
  let keeps (key : CodeUnits) : Bool := decide (key ∉ growingKeys)
  have stays : keeps key = true := decide_eq_true other
  exact Json.lookup_filter stays

theorem wellFormed_lookup (wellFormed : (Json.object json).WellFormed)
    : WellFormedOptional (json.lookup key) :=
  fun _ held => wellFormed.member (Json.mem_of_lookup held)

end Others

/-- Where the gate accepts two values, entries were inserted if the tiers are grouped alike. -/
theorem onlyInserts_iff_of_isAdditiveChange {before after : Json Number}
    (accepted : isAdditiveChange before after = true) (wellFormed : before.WellFormed)
    (other : after.WellFormed)
    : OnlyInserts before after ↔ KeepsTiers before after := by
  unfold isAdditiveChange at accepted
  split at accepted
  next oldJson newJson =>
    split at accepted
    next oldValidation newValidation found found' =>
      dsimp only at accepted
      split at accepted
      next commands additional tiers accepts accepts' accepts'' =>
        rw [Bool.and_eq_true] at accepted
        have inner := wellFormed.member (Json.mem_of_lookup found)
        have inner' := other.member (Json.mem_of_lookup found')
        have rest := same_of_deepEqual accepted.2
          (wellFormed_withoutCommandArrays wellFormed inner)
          (wellFormed_withoutCommandArrays other inner')
        have members := Json.same_object_iff.mp rest
        have outside (key : CodeUnits) (differs : key ≠ codeUnits "validation")
            : Option.Rel Json.Same (oldJson.lookup key) (newJson.lookup key) := by
          have here := members key
          rwa [Json.lookup_setMember, Json.lookup_setMember, if_neg differs, if_neg differs] at here
        have inside (key : CodeUnits) (differs : key ∉ growingKeys)
            : Option.Rel Json.Same (oldValidation.lookup key) (newValidation.lookup key) := by
          have here := members (codeUnits "validation")
          rw [Json.lookup_setMember, Json.lookup_setMember, if_pos rfl, if_pos rfl] at here
          cases here with
          | some same =>
              have here := Json.same_object_iff.mp same key
              rwa [lookup_stripCommandArrays differs, lookup_stripCommandArrays differs] at here
        have grown (key : CodeUnits)
            (held : key ∈ [codeUnits "commands", codeUnits "additionalCommands"])
            : EntriesInserted (oldValidation.lookup key) (newValidation.lookup key) := by
          simp only [List.mem_cons, List.not_mem_nil, or_false] at held
          rcases held with rfl | rfl
          · exact entriesInserted_of_commandInsertion accepts (wellFormed_lookup inner)
              (wellFormed_lookup inner')
          · exact entriesInserted_of_commandInsertion accepts' (wellFormed_lookup inner)
              (wellFormed_lookup inner')
        have iffTiers : OnlyInserts (.object oldJson) (.object newJson)
            ↔ TiersInserted (oldValidation.lookup (codeUnits "tiers"))
              (newValidation.lookup (codeUnits "tiers")) := by
          constructor
          · rintro ⟨_, _, _, _, same, same', found, found', -, -, -, inserted⟩
            cases same
            cases same'
            simp_all
          · exact fun inserted => ⟨oldJson, newJson, oldValidation, newValidation, rfl, rfl, found,
              found', outside, inside, grown, inserted⟩
        have tiersOf (json validation : List (CodeUnits × Json Number))
            (held : json.lookup (codeUnits "validation") = some (.object validation))
            : validationTiers? (.object json)
              = (validation.lookup (codeUnits "tiers")).bind stringTiers? := by
          rw [validationTiers?, held]
        unfold KeepsTiers
        rw [iffTiers, tiersOf _ _ found, tiersOf _ _ found']
        rcases tiers_of_tierInsertion accepts'' with ⟨missing, missing'⟩ | ⟨few, many, held, held'⟩
        · rw [missing, missing']
          exact iff_of_true (.inl .none) fun _ _ narrowed => nomatch narrowed
        · rw [tiersInserted_iff held held', held, held']
          exact ⟨fun alike _ _ same same' => Option.some.inj same ▸ Option.some.inj same' ▸ alike,
            fun alike => alike few many rfl rfl⟩
      next => cases accepted
    next => cases accepted
  next => cases accepted

/-- Of two texts that the gate accepts, the new value is the old one with insertions exactly where
the tiers are grouped alike.
-/
theorem additive_change_iff_keepsTiers {toNumber : List Char → Number}
    {oldContent newContent : String}
    (accepted : isAdditiveOrchestratorConfigChange toNumber oldContent newContent = true)
    : ∃ before after, Json.parse toNumber oldContent = some before
        ∧ Json.parse toNumber newContent = some after
        ∧ (OnlyInserts before after ↔ KeepsTiers before after) := by
  unfold isAdditiveOrchestratorConfigChange at accepted
  split at accepted
  next before after parsed parsed' =>
    refine ⟨before, after, parsed, parsed', ?_⟩
    exact onlyInserts_iff_of_isAdditiveChange accepted (Json.wellFormed_of_parse parsed)
      (Json.wellFormed_of_parse parsed')
  next => cases accepted

-----------------------------------------------------------------------------------------
-- Two tiers that are merged
-----------------------------------------------------------------------------------------

/-- Two tiers of one command each. -/
def twoTiers : String :=
  "\x7b\"validation\":\x7b\"tiers\":[[\"a\"],[\"b\"]]\x7d\x7d"

/-- One tier of three commands. -/
def oneTier : String :=
  "\x7b\"validation\":\x7b\"tiers\":[[\"a\",\"b\",\"c\"]]\x7d\x7d"

/-- Two tiers, the second one with a new command. -/
def longerTier : String :=
  "\x7b\"validation\":\x7b\"tiers\":[[\"a\"],[\"b\",\"c\"]]\x7d\x7d"

def commandsOf (names : List (List String)) : List (List CodeUnits) :=
  names.map (·.map codeUnits)

/-- A change that merges the tiers passes the gate, where only the inserted command shows. -/
theorem merged_tiers_are_accepted
    : ¬∀ oldContent newContent : String,
        isAdditiveOrchestratorConfigChange id oldContent newContent = true →
        ∃ before after, Json.parse id oldContent = some before
          ∧ Json.parse id newContent = some after ∧ OnlyInserts before after := by
  intro claim
  obtain ⟨before, after, parsed, parsed', oldJson, newJson, oldValidation, newValidation, rfl, rfl,
    found, found', -, -, -, inserted⟩ := claim twoTiers oneTier (by decide +kernel)
  have few : (Json.parse id twoTiers).bind validationTiers?
      = some (commandsOf [["a"], ["b"]]) := by
    decide +kernel
  have many : (Json.parse id oneTier).bind validationTiers?
      = some (commandsOf [["a", "b", "c"]]) := by
    decide +kernel
  rw [parsed, Option.bind_some, validationTiers?, found] at few
  rw [parsed', Option.bind_some, validationTiers?, found'] at many
  have grouped := (tiersInserted_iff few many).mp inserted
  have shorter := (List.sublistForall₂_iff.mp grouped)
  obtain ⟨within, alike, sub⟩ := shorter
  have lengths := alike.length_eq
  have longer := sub.length_le
  rw [← lengths] at longer
  exact absurd longer (by decide)

theorem additive_change_iff_keepsTiers_longerTier
    : ∃ before after, Json.parse id twoTiers = some before
        ∧ Json.parse id longerTier = some after
        ∧ (OnlyInserts before after ↔ KeepsTiers before after) :=
  additive_change_iff_keepsTiers (by decide +kernel)

end AiSdlc.Application
