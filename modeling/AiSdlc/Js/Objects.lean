import AiSdlc.Js.Json

/-! Objects in memory that were built from values of JSON. Assigning `__proto__` to an object
sets its prototype, whose properties it then inherits, while `JSON.parse` and a spread define a
property of that name.
-/

namespace AiSdlc.Js

/-- A value in memory: an object has its own properties, and the prototype that was assigned
to it, where one was. `Object.prototype` has no property that is such a value.
-/
inductive Value (Number : Type)
  | null
  | bool (value : Bool)
  | number (value : Number)
  | string (units : CodeUnits)
  | array (items : List (Value Number))
  | object (members : List (CodeUnits × Value Number)) (assigned : Option (Value Number))

/-- The properties of an object, in the order in which they were defined. -/
abbrev Members (Number : Type) : Type :=
  List (CodeUnits × Value Number)

/-- Defines a property: a later one replaces an earlier one of the same key. -/
def defineMember {Number : Type} (key : CodeUnits) (value : Value Number)
    : Members Number → Members Number
  | [] => [(key, value)]
  | (other, held) :: members =>
      if key = other then (other, value) :: members
      else (other, held) :: defineMember key value members

/-- The index that a key of an array stands for. -/
def index? (key : CodeUnits) : Option Nat :=
  if key = [48] then some 0
  else if key ≠ [] && key.head? ≠ some 48 && key.all fun unit => 48 ≤ unit && unit ≤ 57 then
    some (key.foldl (fun index unit => 10 * index + (unit - 48)) 0)
  else none

namespace Value

variable {Number : Type}

def protoKey : CodeUnits :=
  codeUnits "__proto__"

mutual

/-- `JSON.parse` of a text of this value. -/
def ofJson : Json Number → Value Number
  | .null => null
  | .bool value => bool value
  | .number value => number value
  | .string units => string units
  | .array items => array (ofItems items)
  | .object members => object (ofMembers members) none
termination_by structural value => value

def ofItems : List (Json Number) → List (Value Number)
  | [] => []
  | item :: items => ofJson item :: ofItems items
termination_by structural items => items

def ofMembers : List (CodeUnits × Json Number) → Members Number
  | [] => []
  | (key, value) :: members => (key, ofJson value) :: ofMembers members
termination_by structural members => members

end

/-- `{}`. -/
def empty : Value Number :=
  object [] none

/-- `typeof value === 'object' && value !== null && !Array.isArray(value)`. -/
def isPlainObject : Value Number → Bool
  | object _ _ => true
  | _ => false

/-- `typeof value === 'object'`, which may be a prototype. -/
def isReference : Value Number → Bool
  | null | array _ | object _ _ => true
  | _ => false

/-- `Object.entries(value)` of an object. -/
def entries : Value Number → Members Number
  | object members _ => members
  | _ => []

/-- A property that the value has itself. -/
def own? (value : Value Number) (key : CodeUnits) : Option (Value Number) :=
  value.entries.lookup key

/-- `{ ...first, ...second }`. -/
def spread (first second : Value Number) : Value Number :=
  object (second.entries.foldl (fun members (key, value) => defineMember key value members)
    first.entries) none

/-- `delete value[key]`. -/
def delete (key : CodeUnits) : Value Number → Value Number
  | object members assigned => object (members.filter (·.1 ≠ key)) assigned
  | value => value

/-- Whether `Object.prototype` is in the prototype chain. -/
def reachesObjectPrototype : Value Number → Bool
  | object _ none => true
  | object _ (some proto) => proto.reachesObjectPrototype
  | array _ => true
  | _ => false

/-- `Object.getPrototypeOf(value)`; `Object.prototype` has no properties to list, and no
prototype.
-/
def prototype? : Value Number → Option (Value Number)
  | object _ none => some (object [] (some null))
  | object _ (some proto) => some proto
  | _ => none

section Properties

variable [NatCast Number]

/-- A property that the value has itself or inherits, the accessor of `__proto__` apart. -/
def find? (key : CodeUnits) : Value Number → Option (Value Number)
  | object members none => members.lookup key
  | object members (some proto) => (members.lookup key).or (proto.find? key)
  | array items =>
      if key = codeUnits "length" then some (number items.length)
      else (index? key).bind fun index => items[index]?
  | _ => none

/-- Whether a key stands for the accessor that objects inherit from `Object.prototype`. -/
def isAccessor (value : Value Number) (key : CodeUnits) : Bool :=
  key = protoKey && (value.find? key).isNone && value.reachesObjectPrototype

/-- `value[key]`, where it is not undefined. -/
def get? (value : Value Number) (key : CodeUnits) : Option (Value Number) :=
  if value.isAccessor key then value.prototype? else value.find? key

/-- `target[key] = value`, for an object. -/
def set (target : Value Number) (key : CodeUnits) (value : Value Number) : Value Number :=
  match target with
  | object members assigned =>
      if (object members assigned).isAccessor key then
        object members (if value.isReference then some value else assigned)
      else object (defineMember key value members) assigned
  | other => other

end Properties

end Value

section Own

variable {Number : Type}

theorem lookup_entry {α : Type} {members : List (CodeUnits × α)} {key held : CodeUnits}
    {value : α}
    : ((held, value) :: members).lookup key
      = if key = held then some value else members.lookup key := by
  rw [List.lookup_cons]
  by_cases same : key = held
  · simp [same]
  · rw [beq_eq_false_iff_ne.mpr same, if_neg same]

/-- A property that was defined is found, and others are found as before, by induction over
the members.
-/
theorem lookup_defineMember {members : Members Number} {key other : CodeUnits}
    {value : Value Number}
    : (defineMember key value members).lookup other
      = if other = key then some value else members.lookup other := by
  induction members with
  | nil => exact lookup_entry
  | cons member members ih =>
      obtain ⟨held, old⟩ := member
      rw [defineMember]
      by_cases same : key = held
      · subst same
        rw [if_pos rfl, lookup_entry, lookup_entry]
        split <;> rfl
      · rw [if_neg same, lookup_entry, lookup_entry, ih]
        by_cases here : other = held
        · subst here
          have differs : ¬other = key := fun equal => same equal.symm
          rw [if_pos rfl, if_neg differs, if_pos rfl]
        · rw [if_neg here, if_neg here]

/-- What is held after a definition was defined or held before, by induction over the
members.
-/
theorem mem_defineMember {members : Members Number} {key other : CodeUnits}
    {value held : Value Number} (within : (other, held) ∈ defineMember key value members)
    : (other = key ∧ held = value) ∨ (other, held) ∈ members := by
  induction members with
  | nil => exact .inl (Prod.mk.inj (List.mem_singleton.mp within))
  | cons member members ih =>
      obtain ⟨first, old⟩ := member
      rw [defineMember] at within
      by_cases same : key = first
      · rw [if_pos same] at within
        rcases List.mem_cons.mp within with here | within
        · obtain ⟨rfl, rfl⟩ := Prod.mk.inj here
          exact .inl ⟨same.symm, rfl⟩
        · exact .inr (List.mem_cons_of_mem _ within)
      · rw [if_neg same] at within
        rcases List.mem_cons.mp within with here | within
        · exact .inr (here ▸ List.mem_cons_self)
        · exact (ih within).imp_right fun within => List.mem_cons_of_mem _ within

namespace Value

variable {target value : Value Number} {key other : CodeUnits} {members : Members Number}
  {assigned : Option (Value Number)}

/-- An object that has no other object as its prototype, and none to give to a copy. -/
def IsUnlinked : Value Number → Prop
  | object members assigned =>
      (∀ proto, assigned = some proto → proto.isPlainObject = false)
      ∧ ∀ value, (protoKey, value) ∈ members → value.isPlainObject = false
  | _ => False

/-- A key that neither arrays nor `Object.prototype` have a property for. -/
structure IsMemberKey (key : CodeUnits) : Prop where
  notIndex : index? key = none
  notLength : key ≠ codeUnits "length"
  notProto : key ≠ protoKey

theorem isUnlinked_empty : (empty : Value Number).IsUnlinked :=
  ⟨fun _ assigned => (nomatch assigned), fun _ held => absurd held List.not_mem_nil⟩

theorem IsUnlinked.copy (unlinked : target.IsUnlinked) : (target.spread empty).IsUnlinked := by
  cases target with
  | object => exact ⟨fun _ assigned => (nomatch assigned), unlinked.2⟩
  | null | bool | number | string | array => exact unlinked.elim

theorem IsUnlinked.isPlainObject (unlinked : target.IsUnlinked)
    : target.isPlainObject = true := by
  cases target with
  | object => rfl
  | null | bool | number | string | array => exact unlinked.elim

theorem own?_delete {deleted : CodeUnits}
    : (target.delete deleted).own? key = if key = deleted then none else target.own? key := by
  cases target with
  | object members assigned =>
      simp only [own?, delete, entries]
      induction members with
      | nil => split <;> rfl
      | cons member members ih =>
          obtain ⟨held, old⟩ := member
          by_cases here : held = deleted
          · subst here
            rw [List.filter_cons_of_neg (by simp), ih, lookup_entry]
            split <;> rfl
          · rw [List.filter_cons_of_pos (by simpa using here), lookup_entry, lookup_entry, ih]
            by_cases same : key = held
            · subst same
              rw [if_pos rfl, if_neg here, if_pos rfl]
            · rw [if_neg same, if_neg same]
  | null | bool | number | string | array => split <;> rfl

theorem IsUnlinked.delete (unlinked : target.IsUnlinked) : (target.delete key).IsUnlinked := by
  cases target with
  | object => exact ⟨unlinked.1, fun value held => unlinked.2 value (List.mem_of_mem_filter held)⟩
  | null | bool | number | string | array => exact unlinked

section Set

variable [NatCast Number]

theorem isPlainObject_set : (target.set key value).isPlainObject = target.isPlainObject := by
  cases target with
  | object members assigned =>
      unfold set
      dsimp only
      split <;> rfl
  | null | bool | number | string | array => rfl

/-- An assignment leaves the own properties of other keys alone. -/
theorem own?_set_of_ne (different : other ≠ key)
    : (target.set key value).own? other = target.own? other := by
  cases target with
  | object members assigned =>
      unfold set
      dsimp only
      split
      · rfl
      · exact lookup_defineMember.trans (if_neg different)
  | null | bool | number | string | array => rfl

/-- Only the accessor of `__proto__` is not an own property once it was assigned. -/
theorem own?_set (plain : target.isPlainObject = true) (ordinary : key ≠ protoKey)
    : (target.set key value).own? key = some value := by
  cases target with
  | object members assigned =>
      have data : (object members assigned).isAccessor key = false := by
        simp [isAccessor, ordinary]
      simp only [set, data]
      exact lookup_defineMember.trans (if_pos rfl)
  | null | bool | number | string | array => contradiction

/-- Only an object that is assigned to `__proto__` links another one. -/
theorem IsUnlinked.set (unlinked : target.IsUnlinked)
    (plain : key = protoKey → value.isPlainObject = false)
    : (target.set key value).IsUnlinked := by
  cases target with
  | object members assigned =>
      unfold Value.set
      dsimp only
      split
      next accessor =>
        have proto : key = protoKey := by
          simp only [isAccessor, Bool.and_eq_true, decide_eq_true_eq] at accessor
          exact accessor.1.1
        refine ⟨?_, unlinked.2⟩
        split
        · intro linked same
          exact Option.some.inj same ▸ plain proto
        · exact unlinked.1
      next =>
        refine ⟨unlinked.1, fun held within => ?_⟩
        rcases mem_defineMember within with ⟨proto, rfl⟩ | within
        · exact plain proto.symm
        · exact unlinked.2 held within
  | null | bool | number | string | array => exact unlinked.elim

/-- The properties that are assigned one after another, each under its own key, are own
properties afterwards, by induction over them.
-/
theorem own?_assigned {entries : Members Number} {assign : CodeUnits → Value Number → Value Number}
    (plain : target.isPlainObject = true) (ordinary : key ≠ protoKey)
    (distinct : (entries.map Prod.fst).Nodup)
    : (entries.foldl (fun out (k, v) => out.set k (assign k v)) target).own? key
      = match entries.lookup key with
        | some value => some (assign key value)
        | none => target.own? key := by
  induction entries generalizing target with
  | nil => rfl
  | cons entry entries ih =>
      obtain ⟨held, old⟩ := entry
      obtain ⟨fresh, distinct⟩ := List.nodup_cons.mp distinct
      rw [List.foldl_cons, ih (isPlainObject_set.trans plain) distinct, lookup_entry]
      by_cases same : key = held
      · subst same
        have missing : entries.lookup key = none := by
          rw [List.lookup_eq_none_iff]
          intro member belongs
          have differs : key ≠ member.1 := by
            intro same
            apply fresh
            exact List.mem_map.mpr ⟨member, belongs, same.symm⟩
          simpa using differs
        rw [missing, if_pos rfl]
        exact own?_set plain ordinary
      · rw [if_neg same, own?_set_of_ne same]

/-- Neither arrays nor primitive values have members. -/
theorem get?_of_not_plain (leaf : value.isPlainObject = false) (member : IsMemberKey key)
    : value.get? key = none := by
  have data : value.isAccessor key = false := by simp [isAccessor, member.notProto]
  unfold get?
  rw [data, if_neg Bool.false_ne_true]
  cases value with
  | object => exact nomatch leaf
  | array items => simp [find?, member.notLength, member.notIndex]
  | null | bool | number | string => simp only [find?]

/-- A member of an object without links is one of its own. -/
theorem IsUnlinked.get?_eq (unlinked : target.IsUnlinked) (member : IsMemberKey key)
    : target.get? key = target.own? key := by
  have data : target.isAccessor key = false := by simp [isAccessor, member.notProto]
  unfold get?
  rw [data, if_neg Bool.false_ne_true]
  cases target with
  | object members assigned =>
      cases assigned with
      | none => simp only [find?, own?, entries]
      | some proto =>
          have other : proto.isAccessor key = false := by simp [isAccessor, member.notProto]
          have nothing : proto.find? key = none := by
            have none := get?_of_not_plain (unlinked.1 proto rfl) member
            rwa [get?, other, if_neg Bool.false_ne_true] at none
          simp only [find?, nothing, Option.or_none, own?, entries]
  | null | bool | number | string | array => exact unlinked.elim

end Set

end Value

end Own

end AiSdlc.Js
