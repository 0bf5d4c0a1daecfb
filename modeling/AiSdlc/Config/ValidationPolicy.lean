import Mathlib.Data.List.Induction
import AiSdlc.Config.Loader
import AiSdlc.Js.Groups

/-! The validation policy after any sequence of layers: which commands and tiers it has, where
both are lists of strings. The tiers are grouped from the commands, and a target that declares
commands drops the ones from before.
-/

namespace AiSdlc.Config

open AiSdlc.Js

variable {Number : Type}

-----------------------------------------------------------------------------------------
-- Lists of commands
-----------------------------------------------------------------------------------------

/-- Tiers that group some of the commands, each at most once. -/
structure Coherent (commands : List CodeUnits) (tiers : List (List CodeUnits)) : Prop where
  within : ∀ tier ∈ tiers, ∀ command ∈ tier, command ∈ commands
  distinct : tiers.flatten.Nodup
  nonempty : [] ∉ tiers

section Lists

variable {commands seen tier : List CodeUnits} {tiers : List (List CodeUnits)}
  {command : CodeUnits}

theorem mem_stableUnique : command ∈ stableUnique commands ↔ command ∈ commands :=
  List.mem_eraseDups

theorem nodup_stableUnique : (stableUnique commands).Nodup :=
  nodup_eraseDups _

/-- A tier keeps commands that were not seen before, each of them once, by induction over the
tier.
-/
theorem cleanTier_spec
    : (∀ command ∈ cleanTier commands seen tier, command ∈ commands ∧ command ∉ seen)
      ∧ (cleanTier commands seen tier).Nodup := by
  induction tier generalizing seen with
  | nil => exact ⟨fun _ kept => absurd kept List.not_mem_nil, List.nodup_nil⟩
  | cons cmd tier ih =>
      rw [cleanTier]
      split
      next fresh =>
        obtain ⟨kept, distinct⟩ := @ih (seen ++ [cmd])
        have later (command : CodeUnits)
            (held : command ∈ cleanTier commands (seen ++ [cmd]) tier)
            : command ∈ commands ∧ command ∉ seen ∧ command ≠ cmd := by
          simpa using kept command held
        constructor
        · intro command held
          rcases List.mem_cons.mp held with rfl | held
          · exact fresh
          · exact ⟨(later command held).1, (later command held).2.1⟩
        · exact List.nodup_cons.mpr ⟨fun held => (later cmd held).2.2 rfl, distinct⟩
      next => exact ih

/-- Tiers keep commands that were not seen before, and none of them is empty, by induction over
the tiers.
-/
theorem cleanTiers_spec
    : (∀ command ∈ (cleanTiers commands seen tiers).flatten,
        command ∈ commands ∧ command ∉ seen)
      ∧ Coherent commands (cleanTiers commands seen tiers) := by
  induction tiers generalizing seen with
  | nil =>
      refine ⟨fun _ kept => absurd kept List.not_mem_nil, ?_, List.nodup_nil, List.not_mem_nil⟩
      exact fun _ held => absurd held List.not_mem_nil
  | cons tier tiers ih =>
      obtain ⟨cleaned, distinct⟩ := @cleanTier_spec commands seen tier
      rw [cleanTiers]
      generalize cleanTier commands seen tier = clean at cleaned distinct ⊢
      obtain ⟨kept, coherent⟩ := @ih (seen ++ clean)
      have later (command : CodeUnits)
          (held : command ∈ (cleanTiers commands (seen ++ clean) tiers).flatten)
          : command ∈ commands ∧ command ∉ seen ∧ command ∉ clean := by
        simpa using kept command held
      split
      next nonempty =>
        refine ⟨fun command held => ?_, fun group member command held => ?_, ?_, ?_⟩
        · rw [List.flatten_cons] at held
          rcases List.mem_append.mp held with held | held
          · exact cleaned command held
          · exact ⟨(later command held).1, (later command held).2.1⟩
        · rcases List.mem_cons.mp member with rfl | member
          · exact (cleaned command held).1
          · exact coherent.within group member command held
        · rw [List.flatten_cons]
          refine distinct.append coherent.distinct fun command here held => ?_
          exact (later command held).2.2 here
        · intro member
          rcases List.mem_cons.mp member with rfl | member
          · exact absurd nonempty (Nat.lt_irrefl 0)
          · exact coherent.nonempty member
      next =>
        refine ⟨fun command held => ?_, coherent⟩
        exact ⟨(later command held).1, (later command held).2.1⟩

theorem normalizeTiers_coherent {normalized : List (List CodeUnits)}
    (normalizes : normalizeTiers tiers commands = some normalized)
    : Coherent commands normalized := by
  unfold normalizeTiers at normalizes
  dsimp only at normalizes
  split at normalizes
  · exact Option.some.inj normalizes ▸ cleanTiers_spec.2
  · contradiction

/-- Strings are read back, by induction over them. -/
theorem stringArray?_ofStrings {strings : List CodeUnits}
    : stringArray? (ofStrings strings : Value Number) = some strings := by
  unfold stringArray? ofStrings
  induction strings with
  | nil => rfl
  | cons units strings ih => simp [string?, ih]

/-- Lists of strings are read back, by induction over them. -/
theorem stringArrays?_ofStrings {lists : List (List CodeUnits)}
    : stringArrays? (.array (lists.map ofStrings) : Value Number) = some lists := by
  unfold stringArrays?
  induction lists with
  | nil => rfl
  | cons strings lists ih => simp [stringArray?_ofStrings, ih]

end Lists

section Rules

variable {layer : LayerMetadata} {commands : List CodeUnits} {tiers : List (List CodeUnits)}
  {baseCommands overrideCommands overrideAdditions resolved other : Option (Value Number)}

/-- Whether a target replaces the inherited commands. -/
def replacesCommands (layer : LayerMetadata) (overrideCommands : Option (Value Number)) : Bool :=
  layer.isTarget && (overrideCommands.bind stringArray?).isSome

theorem stringsOrEmpty_of_some {value : Option (Value Number)}
    (strings : value.bind stringArray? = some commands)
    : stringsOrEmpty value = commands := by
  simp [stringsOrEmpty, strings]

theorem resolveCommands_nodup
    (inherited : ∀ held, baseCommands.bind stringArray? = some held → held.Nodup)
    (resolved
      : (resolveCommands layer baseCommands overrideCommands overrideAdditions).bind stringArray?
        = some commands)
    : commands.Nodup := by
  unfold resolveCommands at resolved
  dsimp only at resolved
  split at resolved
  · split at resolved
    · rw [Option.bind_some, stringArray?_ofStrings] at resolved
      exact Option.some.inj resolved ▸ nodup_stableUnique
    next none => exact absurd resolved (by simp [none])
  · split at resolved
    · rw [Option.bind_some, stringArray?_ofStrings] at resolved
      exact Option.some.inj resolved ▸ nodup_stableUnique
    · exact inherited commands resolved

/-- Commands that are resolved are declared by the layer, or inherited where it does not replace
them.
-/
theorem mem_of_resolveCommands
    (resolved
      : (resolveCommands layer baseCommands overrideCommands overrideAdditions).bind stringArray?
        = some commands)
    {command : CodeUnits} (held : command ∈ commands)
    : command ∈ stringsOrEmpty overrideCommands ++ stringsOrEmpty overrideAdditions
      ∨ (replacesCommands layer overrideCommands = false
        ∧ ∃ inherited, baseCommands.bind stringArray? = some inherited
          ∧ command ∈ inherited) := by
  have ofBase (held : command ∈ stringsOrEmpty baseCommands)
      : ∃ inherited, baseCommands.bind stringArray? = some inherited ∧ command ∈ inherited := by
    unfold stringsOrEmpty at held
    cases strings : baseCommands.bind stringArray? with
    | none => simp [strings] at held
    | some inherited => exact ⟨inherited, rfl, by simpa [strings] using held⟩
  unfold resolveCommands at resolved
  dsimp only at resolved
  split at resolved
  next declaring =>
    split at resolved
    next declared strings =>
      rw [Option.bind_some, stringArray?_ofStrings] at resolved
      obtain rfl := Option.some.inj resolved
      have own : stringsOrEmpty (some declaring) = declared := stringsOrEmpty_of_some strings
      rw [own]
      rcases List.mem_append.mp (mem_stableUnique.mp held) with held | held
      · rcases List.mem_append.mp held with held | held
        · by_cases target : layer.isTarget = true
          · simp [target] at held
          · rw [if_neg target] at held
            refine .inr ⟨?_, ofBase held⟩
            simp [replacesCommands, target]
        · exact .inl (List.mem_append_left _ held)
      · exact .inl (List.mem_append_right _ held)
    next none => exact absurd resolved (by simp [none])
  · have retains : replacesCommands layer (none : Option (Value Number)) = false := by
      simp [replacesCommands]
    split at resolved
    next additions strings =>
      rw [Option.bind_some, stringArray?_ofStrings] at resolved
      obtain rfl := Option.some.inj resolved
      rcases List.mem_append.mp (mem_stableUnique.mp held) with held | held
      · exact .inr ⟨retains, ofBase held⟩
      · refine .inl (List.mem_append_right _ ?_)
        rw [stringsOrEmpty_of_some strings]
        exact held
    next => exact .inr ⟨retains, commands, resolved, held⟩

theorem normalizeResolved_coherent
    (effective : other.bind stringArray? = some commands)
    (grouped : (normalizeResolved resolved other).bind stringArrays? = some tiers)
    : Coherent commands tiers := by
  unfold normalizeResolved at grouped
  split at grouped
  next lists strings _ same =>
    obtain rfl := Option.some.inj (effective.symm.trans same)
    obtain ⟨value, normalizes, lists⟩ := Option.bind_eq_some_iff.mp grouped
    obtain ⟨normalized, coherent, rfl⟩ := Option.map_eq_some_iff.mp normalizes
    rw [stringArrays?_ofStrings] at lists
    exact Option.some.inj lists ▸ normalizeTiers_coherent coherent
  next differs => exact (differs tiers commands grouped effective).elim

end Rules

section Merges

variable {base override value out : Value Number} {key : CodeUnits} {layer : LayerMetadata}
  {inherited commands tiers : Option (Value Number)}

/-- Whether an object has an object as its own `__proto__`. -/
def linksObject (value : Value Number) : Bool :=
  value.entries.any fun (key, proto) => key = Value.protoKey && proto.isPlainObject

theorem leaf_of_linksObject {proto : Value Number} (links : linksObject value = false)
    (member : (key, proto) ∈ value.entries) (same : key = Value.protoKey)
    : proto.isPlainObject = false := by
  subst same
  have none := List.any_eq_false.mp links _ member
  simpa using none

theorem linksObject_of_isUnlinked (unlinked : value.IsUnlinked) : linksObject value = false := by
  cases value with
  | object members assigned =>
      refine List.any_eq_false.mpr fun member held => ?_
      obtain ⟨key, proto⟩ := member
      simp only [Bool.and_eq_true, decide_eq_true_eq, not_and, Bool.not_eq_true]
      rintro rfl
      exact unlinked.2 proto held
  | null | bool | number | string | array => exact unlinked.elim

theorem isUnlinked_of_parsed {members : List (CodeUnits × Json Number)}
    (links : linksObject (.ofJson (.object members)) = false)
    : (Value.ofJson (.object members)).IsUnlinked := by
  simp only [Value.ofJson] at links ⊢
  exact ⟨fun _ assigned => (nomatch assigned), fun proto held =>
    leaf_of_linksObject links held rfl⟩

/-- The keys of a parsed object are the ones of its text. -/
theorem nodup_entries_parsed {layer : ConfigLayer Number}
    : (layer.parsed.entries.map Prod.fst).Nodup := by
  have keys (members : List (CodeUnits × Json Number))
      : (Value.ofMembers members).map Prod.fst = members.map Prod.fst := by
    induction members with
    | nil => rfl
    | cons member members ih =>
        obtain ⟨key, value⟩ := member
        rw [Value.ofMembers, List.map_cons, List.map_cons, ih]
  have parsed : layer.parsed.entries = Value.ofMembers layer.members := by
    rw [ConfigLayer.parsed, Value.ofJson, Value.entries]
  rw [parsed, keys]
  exact layer.wellFormed [] layer.members rfl

variable [NatCast Number]

theorem isPlainObject_genericMerge (leaf : value.isPlainObject = false)
    : (genericMerge inherited value).isPlainObject = false := by
  unfold genericMerge
  cases value with
  | object => exact nomatch leaf
  | array items => cases inherited with
    | none => rfl
    | some held => cases held <;> rfl
  | null | bool | number | string => rfl

/-- What is built beside the commands and the tiers: an object without links, that has
neither.
-/
structure Bare (out : Value Number) : Prop where
  unlinked : out.IsUnlinked
  commands : out.own? (codeUnits "commands") = none
  tiers : out.own? (codeUnits "tiers") = none

theorem Bare.set (bare : Bare out) (other : key ≠ codeUnits "commands")
    (another : key ≠ codeUnits "tiers")
    (plain : key = Value.protoKey → value.isPlainObject = false)
    : Bare (out.set key value) := by
  refine ⟨bare.unlinked.set plain, ?_, ?_⟩
  · rw [Value.own?_set_of_ne (Ne.symm other)]
    exact bare.commands
  · rw [Value.own?_set_of_ne (Ne.symm another)]
    exact bare.tiers

theorem Bare.setDefined (bare : Bare out) (other : key ≠ codeUnits "commands")
    (another : key ≠ codeUnits "tiers") (ordinary : key ≠ Value.protoKey)
    : Bare (setDefined out key inherited) := by
  unfold Config.setDefined
  split
  · exact bare.set other another fun proto => absurd proto ordinary
  · exact bare

theorem isPolicyKey_of_ne (generic : isPolicyKey key ≠ true)
    : key ≠ codeUnits "commands" ∧ key ≠ codeUnits "tiers" := by
  constructor <;> rintro rfl <;> exact generic (by decide)

/-- The properties that are copied and merged generically are none of the policy. -/
theorem bare_mergeOthers (ofBase : linksObject base = false)
    (ofOverride : linksObject override = false)
    : Bare (mergeOthers override (copyOthers base .empty)) := by
  have copied : Bare (copyOthers base (.empty : Value Number)) := by
    refine List.foldlRecOn _ _ ⟨Value.isUnlinked_empty, rfl, rfl⟩ fun out bare entry member => ?_
    obtain ⟨k, v⟩ := entry
    dsimp only
    split
    next => exact bare
    next generic =>
      obtain ⟨other, another⟩ := isPolicyKey_of_ne generic
      exact bare.set other another (leaf_of_linksObject ofBase member)
  refine List.foldlRecOn _ _ copied fun out bare entry member => ?_
  obtain ⟨k, v⟩ := entry
  dsimp only
  split
  next => exact bare
  next generic =>
    obtain ⟨other, another⟩ := isPolicyKey_of_ne generic
    exact bare.set other another fun proto =>
      isPlainObject_genericMerge (leaf_of_linksObject ofOverride member proto)

theorem isMemberKey_commands : Value.IsMemberKey (codeUnits "commands") :=
  ⟨by decide, by decide, by decide⟩

theorem isMemberKey_tiers : Value.IsMemberKey (codeUnits "tiers") :=
  ⟨by decide, by decide, by decide⟩

theorem isMemberKey_validation : Value.IsMemberKey (codeUnits "validation") :=
  ⟨by decide, by decide, by decide⟩

/-- The commands and the tiers are set last. -/
theorem Bare.finished (bare : Bare out)
    : (finishPolicy out commands tiers).IsUnlinked
      ∧ (finishPolicy out commands tiers).get? (codeUnits "commands") = commands
      ∧ (finishPolicy out commands tiers).get? (codeUnits "tiers") = tiers := by
  have first : (Config.setDefined out (codeUnits "commands") commands).IsUnlinked
      ∧ (Config.setDefined out (codeUnits "commands") commands).own? (codeUnits "commands")
        = commands := by
    cases commands with
    | none => exact ⟨bare.unlinked, bare.commands⟩
    | some commands =>
        exact ⟨bare.unlinked.set fun proto => absurd proto (by decide),
          Value.own?_set bare.unlinked.isPlainObject (by decide)⟩
  have all : (finishPolicy out commands tiers).IsUnlinked
      ∧ (finishPolicy out commands tiers).own? (codeUnits "commands") = commands
      ∧ (finishPolicy out commands tiers).own? (codeUnits "tiers") = tiers := by
    unfold finishPolicy
    cases tiers with
    | none =>
        refine ⟨first.1.delete, ?_, ?_⟩
        · rw [Value.own?_delete, if_neg (by decide)]
          exact first.2
        · rw [Value.own?_delete, if_pos rfl]
    | some tiers =>
        refine ⟨first.1.set fun proto => absurd proto (by decide), ?_, ?_⟩
        · rw [Value.own?_set_of_ne (by decide)]
          exact first.2
        · exact Value.own?_set first.1.isPlainObject (by decide)
  refine ⟨all.1, ?_, ?_⟩
  · rw [all.1.get?_eq isMemberKey_commands]
    exact all.2.1
  · rw [all.1.get?_eq isMemberKey_tiers]
    exact all.2.2

theorem mergePolicies_spec (layer : LayerMetadata) (ofBase : linksObject base = false)
    (ofOverride : linksObject override = false)
    : (mergePolicies base override layer).IsUnlinked
      ∧ (mergePolicies base override layer).get? (codeUnits "commands")
        = resolveCommands layer (base.get? (codeUnits "commands"))
          (override.get? (codeUnits "commands"))
          (override.get? (codeUnits "additionalCommands"))
      ∧ (mergePolicies base override layer).get? (codeUnits "tiers")
        = normalizeResolved
          (resolveTiers layer (base.get? (codeUnits "tiers"))
            (override.get? (codeUnits "tiers")) (override.get? (codeUnits "commands")))
          (resolveCommands layer (base.get? (codeUnits "commands"))
            (override.get? (codeUnits "commands"))
            (override.get? (codeUnits "additionalCommands"))) := by
  refine Bare.finished (Bare.setDefined ?_ (by decide) (by decide) (by decide))
  refine Bare.setDefined ?_ (by decide) (by decide) (by decide)
  refine Bare.setDefined ?_ (by decide) (by decide) (by decide)
  exact bare_mergeOthers ofBase ofOverride

/-- A layer merges its validation policy into the one of the base. -/
theorem mergeLayer_spec (layer : LayerMetadata) (unlinked : base.IsUnlinked)
    (plain : override.isPlainObject = true) (links : linksObject override = false)
    (distinct : (override.entries.map Prod.fst).Nodup)
    : (mergeLayer base override layer).IsUnlinked
      ∧ (mergeLayer base override layer).own? (codeUnits "validation")
        = match override.own? (codeUnits "validation") with
          | some value =>
              some (mergeValidationPolicy (base.own? (codeUnits "validation")) value layer)
          | none => base.own? (codeUnits "validation") := by
  have merges : mergeLayer base override layer
      = override.entries.foldl (fun out (k, value) => out.set k (mergeEntry base layer k value))
        (.spread base .empty) := by
    simp [mergeLayer, unlinked.isPlainObject, plain]
  rw [merges]
  constructor
  · refine List.foldlRecOn _ _ unlinked.copy fun out unlinked entry member => ?_
    obtain ⟨k, value⟩ := entry
    refine unlinked.set fun proto => ?_
    have leaf := leaf_of_linksObject links member proto
    have generic : mergeEntry base layer k value = genericMerge (base.get? k) value := by
      subst proto
      unfold mergeEntry
      rw [if_neg (by decide), if_neg (by decide)]
    rw [generic]
    exact isPlainObject_genericMerge leaf
  · rw [Value.own?_assigned rfl (by decide) distinct]
    cases held : override.entries.lookup (codeUnits "validation") with
    | some value =>
        have own : override.own? (codeUnits "validation") = some value := held
        rw [own]
        dsimp only
        rw [mergeEntry, if_pos rfl, unlinked.get?_eq isMemberKey_validation]
    | none =>
        have own : override.own? (codeUnits "validation") = none := held
        rw [own]
        rfl

end Merges

section Layers

variable [NatCast Number]

/-- `config.validation[key]`. -/
def policy? (config : Value Number) (key : String) : Option (Value Number) :=
  (config.get? (codeUnits "validation")).bind (·.get? (codeUnits key))

/-- The commands that a layer declares. -/
def ConfigLayer.declares (layer : ConfigLayer Number) : List CodeUnits :=
  stringsOrEmpty (policy? layer.parsed "commands")
  ++ stringsOrEmpty (policy? layer.parsed "additionalCommands")

/-- A target layer that declares a list of commands. -/
def ConfigLayer.replaces (layer : ConfigLayer Number) : Bool :=
  replacesCommands layer.toLayerMetadata (policy? layer.parsed "commands")

/-- Whether a layer has an object as `__proto__`, itself or in its validation policy. -/
def ConfigLayer.linksObject (layer : ConfigLayer Number) : Bool :=
  Config.linksObject layer.parsed
  || (layer.parsed.own? (codeUnits "validation")).any Config.linksObject

/-- A command that was declared since the commands were replaced. -/
def DeclaredSince (layers : List (ConfigLayer Number)) (command : CodeUnits) : Prop :=
  ∀ before layer after, layers = before ++ layer :: after → layer.replaces = true →
    (∀ later ∈ after, later.replaces = false) →
    ∃ declaring ∈ layer :: after, command ∈ declaring.declares

/-- The policy of the merged configuration is coherent, where it has lists of strings. -/
def IsPolicyCoherent (layers : List (ConfigLayer Number)) : Prop :=
  ∀ commands tiers,
    (policy? (mergeConfigLayers layers) "commands").bind stringArray? = some commands →
    (policy? (mergeConfigLayers layers) "tiers").bind stringArrays? = some tiers →
    Coherent commands tiers ∧ commands.Nodup
      ∧ ∀ command ∈ commands, DeclaredSince layers command

section Since

variable {layers : List (ConfigLayer Number)} {layer : ConfigLayer Number} {command : CodeUnits}

/-- The last layer was not dropped by any other one. -/
theorem declaredSince_of_declares (declares : command ∈ layer.declares)
    : DeclaredSince (layers ++ [layer]) command := by
  intro before replacing after same replaces last
  have held : layer ∈ replacing :: after := by
    have ends : (layers ++ [layer]).getLast? = (before ++ replacing :: after).getLast? :=
      congrArg List.getLast? same
    rw [List.getLast?_append_cons, List.getLast?_append_cons] at ends
    exact List.mem_of_getLast? ends.symm
  exact ⟨layer, held, declares⟩

theorem DeclaredSince.append (since : DeclaredSince layers command)
    (retains : layer.replaces = false)
    : DeclaredSince (layers ++ [layer]) command := by
  intro before replacing after same replaces last
  rcases List.eq_nil_or_concat after with rfl | ⟨earlier, ending, rfl⟩
  · obtain ⟨-, ends⟩ := List.append_inj' same rfl
    obtain rfl := List.singleton_inj.mp ends
    exact absurd replaces (by simp [retains])
  · rw [List.concat_eq_append, ← List.cons_append, ← List.append_assoc] at same
    obtain ⟨rfl, -⟩ := List.append_inj' same rfl
    have earliest (later : ConfigLayer Number) (held : later ∈ earlier)
        : later.replaces = false :=
      last later (by simp [held])
    obtain ⟨declaring, held, declares⟩ := since before replacing earlier rfl replaces earliest
    refine ⟨declaring, ?_, declares⟩
    rw [List.concat_eq_append, ← List.cons_append]
    exact List.mem_append_left _ held

end Since

/-- What the layers so far have made of the validation policy. -/
structure Sound (layers : List (ConfigLayer Number)) (validation : Option (Value Number))
    : Prop where
  unlinked : ∀ policy, validation = some policy → policy.isPlainObject = true → policy.IsUnlinked
  commands
    : ∀ commands,
        (validation.bind (·.get? (codeUnits "commands"))).bind stringArray? = some commands →
        commands.Nodup ∧ ∀ command ∈ commands, DeclaredSince layers command
  tiers
    : ∀ commands tiers,
        (validation.bind (·.get? (codeUnits "commands"))).bind stringArray? = some commands →
        (validation.bind (·.get? (codeUnits "tiers"))).bind stringArrays? = some tiers →
        Coherent commands tiers

section Soundness

variable {layers : List (ConfigLayer Number)} {layer : ConfigLayer Number}
  {validation : Option (Value Number)} {value : Value Number}

/-- Without commands there is nothing to say about a policy. -/
theorem sound_of_no_commands
    (unlinked : ∀ policy, validation = some policy → policy.isPlainObject = true →
      policy.IsUnlinked)
    (none : validation.bind (·.get? (codeUnits "commands")) = none)
    : Sound layers validation := by
  refine ⟨unlinked, fun commands strings => ?_, fun commands tiers strings => ?_⟩
  · exact absurd strings (by simp [none])
  · exact absurd strings (by simp [none])

theorem sound_none : Sound layers none :=
  sound_of_no_commands (fun _ held => nomatch held) rfl

theorem sound_of_leaf (leaf : value.isPlainObject = false) : Sound layers (some value) := by
  refine sound_of_no_commands (fun policy held plain => ?_) ?_
  · exact absurd plain (by simp [← Option.some.inj held, leaf])
  · exact Value.get?_of_not_plain leaf isMemberKey_commands

/-- A policy is kept by a layer that has none. -/
theorem Sound.append (sound : Sound layers validation) (retains : layer.replaces = false)
    : Sound (layers ++ [layer]) validation where
  unlinked := sound.unlinked
  commands commands strings :=
    have ⟨distinct, since⟩ := sound.commands commands strings
    ⟨distinct, fun command held => (since command held).append retains⟩
  tiers := sound.tiers

/-- The base of a merge is an object without links. -/
theorem Sound.base (sound : Sound layers validation)
    : (plainOrEmpty validation).IsUnlinked ∧ Sound layers (some (plainOrEmpty validation)) := by
  have nothing : Sound layers (some (Value.empty : Value Number)) := by
    refine sound_of_no_commands (fun policy held _ => ?_) ?_
    · exact Option.some.inj held ▸ Value.isUnlinked_empty
    · exact Value.isUnlinked_empty.get?_eq isMemberKey_commands
  cases validation with
  | none => exact ⟨Value.isUnlinked_empty, nothing⟩
  | some value =>
      cases plain : value.isPlainObject with
      | true =>
          rw [plainOrEmpty, if_pos plain]
          exact ⟨sound.unlinked value rfl plain, sound⟩
      | false =>
          rw [plainOrEmpty, if_neg (by simp [plain])]
          exact ⟨Value.isUnlinked_empty, nothing⟩

/-- The policy that a layer merges is sound where the one before it was. -/
theorem Sound.merged {base override : Value Number} (sound : Sound layers (some base))
    (unlinked : base.IsUnlinked) (links : linksObject override = false)
    (declared : ∀ key, policy? layer.parsed key = override.get? (codeUnits key))
    : Sound (layers ++ [layer])
        (some (mergePolicies base override layer.toLayerMetadata)) := by
  obtain ⟨merged, commandsEq, tiersEq⟩ :=
    mergePolicies_spec layer.toLayerMetadata (linksObject_of_isUnlinked unlinked) links
  refine ⟨fun policy held _ => Option.some.inj held ▸ merged, ?_, ?_⟩
  · intro commands strings
    rw [Option.bind_some, commandsEq] at strings
    constructor
    · refine resolveCommands_nodup (fun held inherited => ?_) strings
      exact (sound.commands held inherited).1
    · intro command held
      rcases mem_of_resolveCommands strings held with own | ⟨retains, inherited, strings, held⟩
      · apply declaredSince_of_declares
        unfold ConfigLayer.declares
        rw [declared, declared]
        exact own
      · apply ((sound.commands inherited strings).2 command held).append
        unfold ConfigLayer.replaces
        rw [declared]
        exact retains
  · intro commands tiers strings grouped
    rw [Option.bind_some, commandsEq] at strings
    rw [Option.bind_some, tiersEq] at grouped
    exact normalizeResolved_coherent strings grouped

theorem replaces_of_no_policy (none : policy? layer.parsed "commands" = none)
    : layer.replaces = false := by
  simp [ConfigLayer.replaces, replacesCommands, none]

/-- A layer keeps the policy sound. -/
theorem Sound.step {base : Value Number} (unlinked : base.IsUnlinked)
    (sound : Sound layers (base.own? (codeUnits "validation")))
    (links : layer.linksObject = false)
    : (mergeLayer base layer.parsed layer.toLayerMetadata).IsUnlinked
      ∧ Sound (layers ++ [layer])
        ((mergeLayer base layer.parsed layer.toLayerMetadata).own? (codeUnits "validation")) := by
  obtain ⟨outer, inner⟩ := Bool.or_eq_false_iff.mp links
  have parsed : layer.parsed.IsUnlinked := isUnlinked_of_parsed outer
  have distinct : (layer.parsed.entries.map Prod.fst).Nodup :=
    nodup_entries_parsed
  obtain ⟨merged, validation⟩ :=
    mergeLayer_spec layer.toLayerMetadata unlinked parsed.isPlainObject outer distinct
  refine ⟨merged, ?_⟩
  rw [validation]
  have read (key : String)
      : policy? layer.parsed key
        = (layer.parsed.own? (codeUnits "validation")).bind (·.get? (codeUnits key)) := by
    unfold policy?
    rw [parsed.get?_eq isMemberKey_validation]
  cases own : layer.parsed.own? (codeUnits "validation") with
  | none => exact sound.append (replaces_of_no_policy (by rw [read, own]; rfl))
  | some value =>
      rw [own] at inner
      have declared (key : String) : policy? layer.parsed key = value.get? (codeUnits key) := by
        rw [read, own]
        rfl
      dsimp only
      unfold mergeValidationPolicy
      split
      next =>
        obtain ⟨objects, begins⟩ := sound.base
        exact begins.merged objects inner declared
      next plain =>
        have leaf : value.isPlainObject = false := by simpa using plain
        have retains : layer.replaces = false := by
          apply replaces_of_no_policy
          rw [declared]
          exact Value.get?_of_not_plain leaf isMemberKey_commands
        cases held : base.own? (codeUnits "validation") with
        | none => exact sound_of_leaf leaf
        | some old =>
            dsimp only
            split
            · rw [held] at sound
              exact sound.append retains
            · exact sound_of_leaf leaf

/-- The policy is sound after any layers that link no objects, by induction over the layers. -/
theorem sound_mergeConfigLayers (links : ∀ layer ∈ layers, layer.linksObject = false)
    : (mergeConfigLayers layers).IsUnlinked
      ∧ Sound layers ((mergeConfigLayers layers).own? (codeUnits "validation")) := by
  induction layers using List.reverseRecOn with
  | nil => exact ⟨Value.isUnlinked_empty, sound_none⟩
  | append_singleton layers layer ih =>
      obtain ⟨unlinked, sound⟩ := ih fun other held => links other (List.mem_append_left _ held)
      have last : layer.linksObject = false := links layer (by simp)
      unfold mergeConfigLayers
      rw [List.foldl_append]
      exact Sound.step unlinked sound last

end Soundness

/-- After any layers that have no object as `__proto__`, the tiers group some of the commands,
and the commands were declared since they were replaced.
-/
theorem merged_policy_coherent (layers : List (ConfigLayer Number))
    (links : ∀ layer ∈ layers, layer.linksObject = false)
    : IsPolicyCoherent layers := by
  obtain ⟨unlinked, sound⟩ := sound_mergeConfigLayers links
  intro commands tiers strings grouped
  unfold policy? at strings grouped
  rw [unlinked.get?_eq isMemberKey_validation] at strings grouped
  obtain ⟨distinct, since⟩ := sound.commands commands strings
  exact ⟨sound.tiers commands tiers strings grouped, distinct, since⟩

end Layers

-----------------------------------------------------------------------------------------
-- A target that replaces commands
-----------------------------------------------------------------------------------------

def commandList (commands : List String) : Json Nat :=
  .array (commands.map fun command => .string (codeUnits command))

def commandsOf (commands : List String) : CodeUnits × Json Nat :=
  (codeUnits "commands", commandList commands)

def tiersOf (tiers : List (List String)) : CodeUnits × Json Nat :=
  (codeUnits "tiers", .array (tiers.map commandList))

theorem wellFormed_commandList {commands : List String} : (commandList commands).WellFormed := by
  refine Json.wellFormed_array fun item held => ?_
  obtain ⟨command, -, rfl⟩ := List.mem_map.mp held
  intro path members found
  cases path with
  | nil => cases found
  | cons step path => cases step <;> cases found

theorem wellFormed_tiersOf {tiers : List (List String)} : (tiersOf tiers).2.WellFormed := by
  refine Json.wellFormed_array fun item held => ?_
  obtain ⟨commands, -, rfl⟩ := List.mem_map.mp held
  exact wellFormed_commandList

/-- A layer that has only a validation policy, with two members. -/
def policyLayer (isTarget : Bool) (first second : CodeUnits × Json Nat)
    (distinct : first.1 ≠ second.1)
    (wellFormed : first.2.WellFormed ∧ second.2.WellFormed)
    : ConfigLayer Nat where
  isTarget
  members := [(codeUnits "validation", .object [first, second])]
  wellFormed := by
    refine Json.wellFormed_object (List.nodup_singleton _) fun member held => ?_
    obtain rfl := List.mem_singleton.mp held
    refine Json.wellFormed_object (by simpa using distinct) fun member held => ?_
    rcases List.mem_cons.mp held with rfl | held
    · exact wellFormed.1
    · obtain rfl := List.mem_singleton.mp held
      exact wellFormed.2

def automationLayer : ConfigLayer Nat :=
  policyLayer false (commandsOf ["lint", "test"]) (tiersOf [["lint"], ["test"]]) (by decide)
    ⟨wellFormed_commandList, wellFormed_tiersOf⟩

def targetLayer : ConfigLayer Nat :=
  policyLayer true (commandsOf ["test", "build"]) (tiersOf [["build"], ["lint", "test"]])
    (by decide) ⟨wellFormed_commandList, wellFormed_tiersOf⟩

/-- The target groups its own commands. -/
theorem merged_policy_coherent_replaced
    : (policy? (mergeConfigLayers [automationLayer, targetLayer]) "tiers").bind stringArrays?
        = some [[codeUnits "build"], [codeUnits "test"]]
      ∧ IsPolicyCoherent [automationLayer, targetLayer] :=
  ⟨by decide, merged_policy_coherent _ (by decide +kernel)⟩

/-- A target whose policy has an object as `__proto__`, which has tiers. -/
def linkingLayer : ConfigLayer Nat :=
  policyLayer true (commandsOf ["test"]) (Value.protoKey, .object [tiersOf [["lint"]]])
    (by decide)
    ⟨wellFormed_commandList,
      Json.wellFormed_object (List.nodup_singleton _) fun member held => by
        obtain rfl := List.mem_singleton.mp held
        exact wellFormed_tiersOf⟩

/-- Tiers that are inherited from `__proto__` group a command that was dropped. -/
theorem merged_policy_inherits_tiers
    : ¬∀ layers : List (ConfigLayer Nat), IsPolicyCoherent layers := by
  intro claim
  have commands : (policy? (mergeConfigLayers [automationLayer, linkingLayer]) "commands").bind
      stringArray? = some [codeUnits "test"] := by
    decide
  have tiers : (policy? (mergeConfigLayers [automationLayer, linkingLayer]) "tiers").bind
      stringArrays? = some [[codeUnits "lint"]] := by
    decide
  have coherent := (claim _ _ _ commands tiers).1
  have dropped : codeUnits "lint" ∈ [codeUnits "test"] :=
    coherent.within _ List.mem_cons_self _ List.mem_cons_self
  exact absurd dropped (by decide)

end AiSdlc.Config
