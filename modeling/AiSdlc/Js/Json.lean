import Mathlib.Data.List.Forall2
import Mathlib.Data.Option.Basic
import AiSdlc.Js.TextOperations

/-! The values of JSON. Two of them are the same where they hold the same at every path, which
leaves the order of the members of an object open.
-/

namespace AiSdlc.Js

/-- A string of JavaScript, whose code units may be single surrogates. -/
abbrev CodeUnits := List Nat

instance lawfulBEqCodeUnits : LawfulBEq CodeUnits :=
  inferInstance

/-- A value of JSON; numbers are told apart as `===` does. -/
inductive Json (Number : Type)
  | null
  | bool (value : Bool)
  | number (value : Number)
  | string (units : CodeUnits)
  | array (items : List (Json Number))
  | object (members : List (CodeUnits × Json Number))

/-- A step down into a value. -/
inductive JsonStep
  | index (index : Nat)
  | key (key : CodeUnits)

/-- A value without the values that it holds. -/
inductive JsonNode (Number : Type)
  | null
  | bool (value : Bool)
  | number (value : Number)
  | string (units : CodeUnits)
  | array (length : Nat)
  | object

namespace Json

variable {Number : Type}

def node : Json Number → JsonNode Number
  | null => .null
  | bool value => .bool value
  | number value => .number value
  | string units => .string units
  | array items => .array items.length
  | object _ => .object

/-- The value at a path. -/
def at? : List JsonStep → Json Number → Option (Json Number)
  | [], value => some value
  | .index index :: rest, array items => items[index]?.bind (at? rest)
  | .key key :: rest, object members => (members.lookup key).bind (at? rest)
  | _ :: _, _ => none

/-- Two values that hold the same at every path. -/
def Same (first second : Json Number) : Prop :=
  ∀ path, (first.at? path).map node = (second.at? path).map node

/-- An object has one member for each of its keys. -/
def WellFormed (value : Json Number) : Prop :=
  ∀ path members, value.at? path = some (object members) → (members.map Prod.fst).Nodup

section Same

variable {first second third : Json Number} {items others : List (Json Number)}
  {members rest : List (CodeUnits × Json Number)}

theorem same_refl (value : Json Number) : Same value value :=
  fun _ => rfl

theorem Same.node_eq (same : Same first second) : first.node = second.node :=
  Option.some.inj (same [])

/-- Values below two options are the same, or neither option holds one. -/
theorem rel_same_iff {first second : Option (Json Number)}
    : Option.Rel Same first second
      ↔ ∀ path, ((first.bind (at? path)).map node) = (second.bind (at? path)).map node := by
  cases first with
  | none =>
      cases second with
      | none => exact iff_of_true .none fun _ => rfl
      | some second => exact iff_of_false (fun same => nomatch same) fun same => nomatch same []
  | some first =>
      cases second with
      | none => exact iff_of_false (fun same => nomatch same) fun same => nomatch same []
      | some second =>
          exact ⟨fun same => by cases same; assumption, fun same => .some same⟩

theorem same_array_iff
    : Same (array items) (array others)
      ↔ items.length = others.length
        ∧ ∀ index : Nat, Option.Rel Same items[index]? others[index]? := by
  constructor
  · intro same
    have lengths : JsonNode.array items.length = JsonNode.array others.length := same.node_eq
    refine ⟨JsonNode.array.inj lengths, fun index => rel_same_iff.mpr fun path => ?_⟩
    exact same (.index index :: path)
  · rintro ⟨lengths, same⟩ path
    cases path with
    | nil => simp [at?, node, lengths]
    | cons step path =>
        cases step with
        | index index => exact rel_same_iff.mp (same index) path
        | key key => rfl

theorem same_object_iff
    : Same (object members) (object rest)
      ↔ ∀ key, Option.Rel Same (members.lookup key) (rest.lookup key) := by
  constructor
  · intro same key
    exact rel_same_iff.mpr fun path => same (.key key :: path)
  · intro same path
    cases path with
    | nil => rfl
    | cons step path =>
        cases step with
        | index index => rfl
        | key key => exact rel_same_iff.mp (same key) path

theorem eq_of_same_string {units others : CodeUnits}
    (same : Same (string units : Json Number) (string others))
    : units = others :=
  JsonNode.string.inj same.node_eq

end Same

/-- A member that is found is one of the members, by induction over them. -/
theorem mem_of_lookup {members : List (CodeUnits × Json Number)} {key : CodeUnits}
    {value : Json Number} (found : members.lookup key = some value)
    : (key, value) ∈ members := by
  induction members with
  | nil => cases found
  | cons member rest ih =>
      rw [List.lookup_cons] at found
      split at found
      next same =>
        obtain rfl : key = member.1 := by simpa using same
        cases found
        exact List.mem_cons_self
      next => exact List.mem_cons_of_mem _ (ih found)

/-- Under distinct keys each member is found, by induction over the members. -/
theorem lookup_of_mem {members : List (CodeUnits × Json Number)} {key : CodeUnits}
    {value : Json Number} (distinct : (members.map Prod.fst).Nodup)
    (held : (key, value) ∈ members)
    : members.lookup key = some value := by
  induction members with
  | nil => cases held
  | cons member rest ih =>
      rw [List.map_cons, List.nodup_cons] at distinct
      rcases List.mem_cons.mp held with rfl | later
      · exact List.lookup_cons_self
      · have other : key ≠ member.1 := by
          intro same
          exact distinct.1 (List.mem_map.mpr ⟨_, later, same⟩)
        rw [List.lookup_cons, beq_false_of_ne other]
        exact ih distinct.2 later

theorem lookup_members {members : List (CodeUnits × Json Number)}
    {member : CodeUnits × Json Number} {key : CodeUnits}
    : (member :: members).lookup key
      = if key = member.1 then some member.2 else members.lookup key := by
  rw [List.lookup_cons]
  split
  next same => exact (if_pos (eq_of_beq same)).symm
  next differs => exact (if_neg (ne_of_beq_false differs)).symm

theorem lookup_filter {members : List (CodeUnits × Json Number)} {key : CodeUnits}
    {keeps : CodeUnits → Bool} (kept : keeps key = true)
    : (members.filter fun member => keeps member.1).lookup key = members.lookup key := by
  induction members with
  | nil => rfl
  | cons member members ih =>
      rw [lookup_members, List.filter_cons]
      split
      · rw [lookup_members, ih]
      next dropped =>
        have differs : key ≠ member.1 := fun same => dropped (same ▸ kept)
        rw [if_neg differs]
        exact ih

section WellFormed

variable {value : Json Number} {items : List (Json Number)}
  {members : List (CodeUnits × Json Number)}

theorem WellFormed.item (wellFormed : (array items).WellFormed) (held : value ∈ items)
    : value.WellFormed := by
  obtain ⟨index, found⟩ := List.getElem?_of_mem held
  exact fun path members inner =>
    wellFormed (.index index :: path) members (by simpa [at?, found])

theorem WellFormed.nodup (wellFormed : (object members).WellFormed)
    : (members.map Prod.fst).Nodup :=
  wellFormed [] members rfl

theorem WellFormed.member (wellFormed : (object members).WellFormed) {key : CodeUnits}
    (held : (key, value) ∈ members)
    : value.WellFormed := by
  have found := lookup_of_mem wellFormed.nodup held
  exact fun path inner below => wellFormed (.key key :: path) inner (by simpa [at?, found])

theorem wellFormed_array (each : ∀ item ∈ items, item.WellFormed) : (array items).WellFormed := by
  intro path members found
  cases path with
  | nil => cases found
  | cons step path =>
      cases step with
      | key key => cases found
      | index index =>
          obtain ⟨item, held, inner⟩ := Option.bind_eq_some_iff.mp found
          exact each item (List.mem_of_getElem? held) path members inner

theorem wellFormed_object (distinct : (members.map Prod.fst).Nodup)
    (each : ∀ member ∈ members, member.2.WellFormed)
    : (object members).WellFormed := by
  intro path inner found
  cases path with
  | nil =>
      cases found
      exact distinct
  | cons step path =>
      cases step with
      | index index => cases found
      | key key =>
          obtain ⟨value, held, below⟩ := Option.bind_eq_some_iff.mp found
          exact each (key, value) (mem_of_lookup held) path inner below

end WellFormed

end Json

end AiSdlc.Js
