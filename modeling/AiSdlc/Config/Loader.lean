import AiSdlc.Js.Objects

/-! The configuration is merged layer by layer. The commands and the tiers of the validation
policy are resolved by rules of their own, which tell the layers of the target repository from
the ones of the automation; everything else is merged generically.
-/

namespace AiSdlc.Config

open AiSdlc.Js

variable {Number : Type}

structure LayerMetadata where
  isTarget : Bool
  deriving DecidableEq, Repr

/-- A layer: the object that its file holds. -/
structure ConfigLayer (Number : Type) extends LayerMetadata where
  members : List (CodeUnits × Json Number)
  wellFormed : (Json.object members).WellFormed

def ConfigLayer.parsed (layer : ConfigLayer Number) : Value Number :=
  .ofJson (.object layer.members)

-----------------------------------------------------------------------------------------
-- Lists of commands
-----------------------------------------------------------------------------------------

def string? : Value Number → Option CodeUnits
  | .string units => some units
  | _ => none

/-- `isStringArray`, which narrows to the strings. -/
def stringArray? : Value Number → Option (List CodeUnits)
  | .array items => items.mapM string?
  | _ => none

/-- `is2DStringArray`, which narrows to the lists of strings. -/
def stringArrays? : Value Number → Option (List (List CodeUnits))
  | .array tiers => tiers.mapM stringArray?
  | _ => none

def ofStrings (strings : List CodeUnits) : Value Number :=
  .array (strings.map .string)

/-- `isStringArray(value) ? value : []`. -/
def stringsOrEmpty (value : Option (Value Number)) : List CodeUnits :=
  (value.bind stringArray?).getD []

/-- `stableUnique`: the first occurrences. -/
def stableUnique (items : List CodeUnits) : List CodeUnits :=
  items.eraseDups

/-- The loop over the commands of a tier, with the commands that were seen by then; the ones
that it keeps are seen afterwards.
-/
def cleanTier (commandSet : List CodeUnits) : List CodeUnits → List CodeUnits → List CodeUnits
  | _, [] => []
  | seen, cmd :: tier =>
      if cmd ∈ commandSet ∧ cmd ∉ seen then cmd :: cleanTier commandSet (seen ++ [cmd]) tier
      else cleanTier commandSet seen tier

/-- The loop over the tiers, with the commands that were seen by then. -/
def cleanTiers (commandSet : List CodeUnits)
    : List CodeUnits → List (List CodeUnits) → List (List CodeUnits)
  | _, [] => []
  | seen, tier :: tiers =>
      let clean := cleanTier commandSet seen tier
      let rest := cleanTiers commandSet (seen ++ clean) tiers
      if clean.length > 0 then clean :: rest else rest

def normalizeTiers (tiers : List (List CodeUnits)) (effectiveCommands : List CodeUnits)
    : Option (List (List CodeUnits)) :=
  let normalized := cleanTiers effectiveCommands [] tiers
  if normalized.length > 0 then some normalized else none

-----------------------------------------------------------------------------------------
-- Generic merges
-----------------------------------------------------------------------------------------

/-- `isPlainObject(value) ? value : {}`. -/
def plainOrEmpty (value : Option (Value Number)) : Value Number :=
  match value with
  | some value => if value.isPlainObject then value else .empty
  | none => .empty

/-- The keys whose objects are not merged deeply. -/
def isShallow (key : CodeUnits) : Bool :=
  key = codeUnits "phaseProfiles" || key = codeUnits "phaseRoutes"

/-- The value of such a key. -/
def spreadOver (base : Option (Value Number)) (value : Value Number) : Value Number :=
  Value.spread (plainOrEmpty base) (plainOrEmpty (some value))

section Merge

variable [NatCast Number]

mutual

/-- `genericMerge`; a value that is undefined is not the one of an override. -/
def genericMerge (base : Option (Value Number)) : Value Number → Value Number
  | .array items =>
      match base with
      | some (.array held) => .array (mergeItems held items)
      | _ => .array items
  | .object members assigned =>
      match base with
      | some (.object held linked) =>
          mergeMembers (.object held linked) members (.spread (.object held linked) .empty)
      | _ => .object members assigned
  | .null => .null
  | .bool value => .bool value
  | .number value => .number value
  | .string units => .string units
termination_by structural override => override

/-- The loop over the items of the override. -/
def mergeItems : List (Value Number) → List (Value Number) → List (Value Number)
  | held, [] => held
  | [], item :: items => genericMerge none item :: mergeItems [] items
  | old :: held, item :: items => genericMerge (some old) item :: mergeItems held items
termination_by structural _ items => items

/-- The loop over the entries of the override. -/
def mergeMembers (base : Value Number) : Members Number → Value Number → Value Number
  | [], out => out
  | (k, value) :: members, out =>
      mergeMembers base members
        (out.set k
          (if isShallow k then spreadOver (base.get? k) value
          else genericMerge (base.get? k) value))
termination_by structural members => members

end

-----------------------------------------------------------------------------------------
-- The validation policy
-----------------------------------------------------------------------------------------

/-- The commands that a merge resolves. -/
def resolveCommands (layer : LayerMetadata)
    (baseCommands overrideCommands overrideAdditions : Option (Value Number))
    : Option (Value Number) :=
  match overrideCommands with
  | some commands =>
      match stringArray? commands with
      | some declared =>
          let baseCmds := if layer.isTarget then [] else stringsOrEmpty baseCommands
          let additions := stringsOrEmpty overrideAdditions
          some (ofStrings (stableUnique (baseCmds ++ declared ++ additions)))
      | none => some commands
  | none =>
      match overrideAdditions.bind stringArray? with
      | some additions =>
          some (ofStrings (stableUnique (stringsOrEmpty baseCommands ++ additions)))
      | none => baseCommands

/-- The tiers that a merge resolves: a target that replaces the commands clears the inherited
ones.
-/
def resolveTiers (layer : LayerMetadata)
    (baseTiers overrideTiers overrideCommands : Option (Value Number))
    : Option (Value Number) :=
  match overrideTiers with
  | some tiers => some tiers
  | none => if layer.isTarget && overrideCommands.isSome then none else baseTiers

/-- Tiers are normalized where they and the commands are lists of strings. -/
def normalizeResolved (tiers commands : Option (Value Number)) : Option (Value Number) :=
  match tiers.bind stringArrays?, commands.bind stringArray? with
  | some lists, some effective =>
      (normalizeTiers lists effective).map fun normalized => .array (normalized.map ofStrings)
  | _, _ => tiers

/-- The keys that are not merged generically. -/
def isPolicyKey (key : CodeUnits) : Bool :=
  key = codeUnits "commands" || key = codeUnits "additionalCommands"
  || key = codeUnits "selfVerifyCommands" || key = codeUnits "tiers"
  || key = codeUnits "commandScopes"

/-- `if (value !== undefined) { out[key] = value; }`. -/
def setDefined (out : Value Number) (key : CodeUnits) (value : Option (Value Number))
    : Value Number :=
  match value with
  | some value => out.set key value
  | none => out

/-- The loop that copies the other properties of the base. -/
def copyOthers (base out : Value Number) : Value Number :=
  base.entries.foldl (fun out (k, v) => if isPolicyKey k then out else out.set k v) out

/-- The loop that merges the other properties of the override. -/
def mergeOthers (override out : Value Number) : Value Number :=
  override.entries.foldl
    (fun out (k, v) => if isPolicyKey k then out else out.set k (genericMerge (out.get? k) v))
    out

/-- The scopes of the commands, where either side has some. -/
def mergeScopes (baseScopes overrideScopes : Option (Value Number)) : Option (Value Number) :=
  if baseScopes.any Value.isPlainObject || overrideScopes.any Value.isPlainObject then
    some (.spread (plainOrEmpty baseScopes) (plainOrEmpty overrideScopes))
  else none

/-- The last assignments: the commands and the tiers that were resolved. -/
def finishPolicy (out : Value Number) (resolvedCommands resolvedTiers : Option (Value Number))
    : Value Number :=
  let out := setDefined out (codeUnits "commands") resolvedCommands
  match resolvedTiers with
  | some tiers => out.set (codeUnits "tiers") tiers
  | none => out.delete (codeUnits "tiers")

/-- The validation object that `mergeValidationPolicy` builds. -/
def mergePolicies (base override : Value Number) (layer : LayerMetadata) : Value Number :=
  let ofBase (key : String) := base.get? (codeUnits key)
  let ofOverride (key : String) := override.get? (codeUnits key)
  let resolvedCommands :=
    resolveCommands layer (ofBase "commands") (ofOverride "commands")
      (ofOverride "additionalCommands")
  let resolvedTiers :=
    normalizeResolved
      (resolveTiers layer (ofBase "tiers") (ofOverride "tiers") (ofOverride "commands"))
      resolvedCommands
  let out := mergeOthers override (copyOthers base .empty)
  let out := setDefined out (codeUnits "additionalCommands")
    ((ofOverride "additionalCommands").or (ofBase "additionalCommands"))
  let out := setDefined out (codeUnits "selfVerifyCommands")
    ((ofOverride "selfVerifyCommands").or (ofBase "selfVerifyCommands"))
  let out := setDefined out (codeUnits "commandScopes")
    (mergeScopes (ofBase "commandScopes") (ofOverride "commandScopes"))
  finishPolicy out resolvedCommands resolvedTiers

def mergeValidationPolicy (baseValidation : Option (Value Number))
    (overrideValidation : Value Number) (layer : LayerMetadata)
    : Value Number :=
  if overrideValidation.isPlainObject then
    mergePolicies (plainOrEmpty baseValidation) overrideValidation layer
  else
    match baseValidation with
    | some base => if base.isPlainObject then base else overrideValidation
    | none => overrideValidation

-----------------------------------------------------------------------------------------
-- Layers
-----------------------------------------------------------------------------------------

/-- What an entry of a layer makes of the base. -/
def mergeEntry (base : Value Number) (layer : LayerMetadata) (k : CodeUnits)
    (value : Value Number)
    : Value Number :=
  if k = codeUnits "validation" then
    mergeValidationPolicy (base.get? (codeUnits "validation")) value layer
  else if isShallow k then spreadOver (base.get? k) value
  else genericMerge (base.get? k) value

def mergeLayer (base override : Value Number) (layer : LayerMetadata) : Value Number :=
  if !base.isPlainObject || !override.isPlainObject then override
  else
    override.entries.foldl (fun out (k, value) => out.set k (mergeEntry base layer k value))
      (.spread base .empty)

def mergeConfigLayers (layers : List (ConfigLayer Number)) : Value Number :=
  layers.foldl (fun merged layer => mergeLayer merged layer.parsed layer.toLayerMetadata) .empty

end Merge

end AiSdlc.Config
