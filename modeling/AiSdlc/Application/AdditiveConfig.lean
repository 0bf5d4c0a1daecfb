import AiSdlc.Js.JsonParse

/-! The gate for changes of `.ai-orchestrator.json`: an agent may add validation commands, and
nothing else in the file may differ.
-/

namespace AiSdlc.Application

open AiSdlc.Js

variable {Number : Type} [DecidableEq Number]

mutual

/-- `deepEqual`; the values come from two texts, so that no two of them are one reference. -/
def deepEqual : Json Number → Json Number → Bool
  | .null, .null => true
  | .bool first, .bool second => first = second
  | .number first, .number second => first = second
  | .string first, .string second => first = second
  | .array items, .array others => items.length = others.length && everyItem items others
  | .object members, .object others =>
      members.length = others.length && everyMember members others
  | _, _ => false
termination_by structural first => first

/-- `a.every((v, i) => deepEqual(v, b[i]))`. -/
def everyItem : List (Json Number) → List (Json Number) → Bool
  | [], _ => true
  | _ :: _, [] => false
  | item :: items, other :: others => deepEqual item other && everyItem items others
termination_by structural first => first

/-- `aKeys.every((k) => Object.hasOwn(b, k) && deepEqual(a[k], b[k]))`. -/
def everyMember : List (CodeUnits × Json Number) → List (CodeUnits × Json Number) → Bool
  | [], _ => true
  | (key, value) :: members, others =>
      (match others.lookup key with
      | some other => deepEqual value other
      | none => false) && everyMember members others
termination_by structural first => first

end

/-- `deepEqual` of two values that may be undefined. -/
def deepEqualOptional : Option (Json Number) → Option (Json Number) → Bool
  | some first, some second => deepEqual first second
  | none, none => true
  | some _, none | none, some _ => false

section Lists

omit [DecidableEq Number]

def string? : Json Number → Option CodeUnits
  | .string units => some units
  | _ => none

/-- `isStringArray`, which narrows to the strings. -/
def stringArray? : Json Number → Option (List CodeUnits)
  | .array items => items.mapM string?
  | _ => none

def isCommandTier (tier : List CodeUnits) : Bool :=
  tier ≠ [] && tier.all (· ≠ [])

/-- `isStringTiers`, which narrows to the strings. -/
def stringTiers? : Json Number → Option (List (List CodeUnits))
  | .array tiers => tiers.mapM fun tier => (stringArray? tier).filter isCommandTier
  | _ => none

def firstOccurrences (commands : List CodeUnits) : List CodeUnits :=
  commands.eraseDups

def preservesFirstOccurrenceOrder (oldCommands newCommands : List CodeUnits) : Bool :=
  firstOccurrences oldCommands
    = (firstOccurrences newCommands).filter (· ∈ firstOccurrences oldCommands)

/-- The entries of the old list that a walk through the new one does not meet. -/
def unmet : List CodeUnits → List CodeUnits → List CodeUnits
  | oldArr, [] => oldArr
  | [], _ :: _ => []
  | entry :: oldArr, item :: newArr =>
      if item = entry then unmet oldArr newArr else unmet (entry :: oldArr) newArr

def isPureInsertion (oldArr newArr : List CodeUnits) : Bool :=
  oldArr.length < newArr.length && unmet oldArr newArr = []

end Lists

/-- The checks of `commands` and of `additionalCommands`: whether entries were inserted, or
nothing where the gate rejects.
-/
def commandInsertion (oldArr newArr : Option (Json Number)) : Option Bool :=
  if deepEqualOptional oldArr newArr then some false
  else
    match oldArr.bind stringArray?, newArr.bind stringArray? with
    | some oldArr, some newArr => if isPureInsertion oldArr newArr then some true else none
    | _, _ => none

/-- The checks of `tiers`. -/
def tierInsertion (oldTiers newTiers : Option (Json Number)) : Option Bool :=
  match oldTiers, newTiers with
  | none, none => some false
  | some oldTiers, some newTiers =>
      match stringTiers? oldTiers, stringTiers? newTiers with
      | some oldCommands, some newCommands =>
          if deepEqual oldTiers newTiers then some false
          else if isPureInsertion oldCommands.flatten newCommands.flatten
              && preservesFirstOccurrenceOrder oldCommands.flatten newCommands.flatten
            then some true
          else none
      | _, _ => none
  | some _, none | none, some _ => none

/-- The keys of the lists that may grow. -/
def growingKeys : List CodeUnits :=
  [codeUnits "commands", codeUnits "additionalCommands", codeUnits "tiers"]

def stripCommandArrays (validation : List (CodeUnits × Json Number))
    : List (CodeUnits × Json Number) :=
  validation.filter (·.1 ∉ growingKeys)

/-- `{ ...json, validation: stripCommandArrays(validation) }`. -/
def withoutCommandArrays (json validation : List (CodeUnits × Json Number)) : Json Number :=
  .object (Json.setMember json (codeUnits "validation", .object (stripCommandArrays validation)))

/-- The gate for two parsed values. -/
def isAdditiveChange : Json Number → Json Number → Bool
  | .object oldJson, .object newJson =>
      match oldJson.lookup (codeUnits "validation"), newJson.lookup (codeUnits "validation") with
      | some (.object oldValidation), some (.object newValidation) =>
          let insertion (key : String) :=
            commandInsertion (oldValidation.lookup (codeUnits key))
              (newValidation.lookup (codeUnits key))
          let tiers := tierInsertion (oldValidation.lookup (codeUnits "tiers"))
            (newValidation.lookup (codeUnits "tiers"))
          match insertion "commands", insertion "additionalCommands", tiers with
          | some commands, some additionalCommands, some tiers =>
              (commands || additionalCommands || tiers)
              && deepEqual (withoutCommandArrays oldJson oldValidation)
                (withoutCommandArrays newJson newValidation)
          | _, _, _ => false
      | _, _ => false
  | _, _ => false

def isAdditiveOrchestratorConfigChange (toNumber : List Char → Number)
    (oldContent newContent : String)
    : Bool :=
  match Json.parse toNumber oldContent, Json.parse toNumber newContent with
  | some oldJson, some newJson => isAdditiveChange oldJson newJson
  | _, _ => false

section Additive

omit [DecidableEq Number]

/-- Entries were inserted into a list of strings, or the value is as it was. -/
def EntriesInserted (before after : Option (Json Number)) : Prop :=
  Option.Rel Json.Same before after
  ∨ ∃ few many : List CodeUnits, before = some (.array (few.map .string))
    ∧ after = some (.array (many.map .string)) ∧ few.Sublist many

/-- Each tier of the one list is, in order, a tier of the other one without some entries. -/
def GroupedAlike (few many : List (List CodeUnits)) : Prop :=
  List.SublistForall₂ List.Sublist few many

/-- Tiers and entries of tiers were inserted, or the value is as it was. -/
def TiersInserted (before after : Option (Json Number)) : Prop :=
  Option.Rel Json.Same before after
  ∨ ∃ few many : List (List CodeUnits),
    before = some (.array (few.map fun tier => .array (tier.map .string)))
    ∧ after = some (.array (many.map fun tier => .array (tier.map .string)))
    ∧ GroupedAlike few many

/-- One value is obtained from the other by inserting entries into the lists that may grow. -/
def OnlyInserts (before after : Json Number) : Prop :=
  ∃ oldJson newJson oldValidation newValidation,
    before = .object oldJson ∧ after = .object newJson
    ∧ oldJson.lookup (codeUnits "validation") = some (.object oldValidation)
    ∧ newJson.lookup (codeUnits "validation") = some (.object newValidation)
    ∧ (∀ key, key ≠ codeUnits "validation" →
        Option.Rel Json.Same (oldJson.lookup key) (newJson.lookup key))
    ∧ (∀ key, key ∉ growingKeys →
        Option.Rel Json.Same (oldValidation.lookup key) (newValidation.lookup key))
    ∧ (∀ key ∈ [codeUnits "commands", codeUnits "additionalCommands"],
        EntriesInserted (oldValidation.lookup key) (newValidation.lookup key))
    ∧ TiersInserted (oldValidation.lookup (codeUnits "tiers"))
      (newValidation.lookup (codeUnits "tiers"))

/-- `validation.tiers`, where they are lists of commands. -/
def validationTiers? : Json Number → Option (List (List CodeUnits))
  | .object json =>
      match json.lookup (codeUnits "validation") with
      | some (.object validation) =>
          (validation.lookup (codeUnits "tiers")).bind stringTiers?
      | _ => none
  | _ => none

/-- No command changes its tier, and no two tiers their order. -/
def KeepsTiers (before after : Json Number) : Prop :=
  ∀ few many, validationTiers? before = some few → validationTiers? after = some many →
    GroupedAlike few many

end Additive

end AiSdlc.Application
