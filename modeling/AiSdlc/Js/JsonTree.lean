import Mathlib.Algebra.BigOperators.Group.List.Basic
import Mathlib.Algebra.GroupWithZero.Nat
import AiSdlc.Js.JsonParse

/-! The text of a value, in which an object may repeat a key, and the value that it defines. -/

namespace AiSdlc.Js

namespace Json

variable {Number : Type}

section Trees

variable (toNumber : List Char → Number)

mutual

/-- Reads a value as `readValue` does, and keeps each of the members that the text has. -/
def readTree : Nat → List Char → Option (Json Number × List Char)
  | 0, _ => none
  | fuel + 1, chars =>
      match skipSpace chars with
      | 'n' :: 'u' :: 'l' :: 'l' :: rest => some (null, rest)
      | 't' :: 'r' :: 'u' :: 'e' :: rest => some (bool true, rest)
      | 'f' :: 'a' :: 'l' :: 's' :: 'e' :: rest => some (bool false, rest)
      | '"' :: rest => (readString rest).map fun (units, rest) => (string units, rest)
      | '[' :: rest =>
          match skipSpace rest with
          | ']' :: rest => some (array [], rest)
          | rest => (readTreeItems fuel rest).map fun (items, rest) => (array items, rest)
      | '{' :: rest =>
          match skipSpace rest with
          | '}' :: rest => some (object [], rest)
          | rest =>
              (readTreeMembers fuel rest).map fun (members, rest) => (object members, rest)
      | rest => (readNumber rest).map fun (literal, rest) => (number (toNumber literal), rest)

def readTreeItems : Nat → List Char → Option (List (Json Number) × List Char)
  | 0, _ => none
  | fuel + 1, chars => do
      let (item, rest) ← readTree fuel chars
      match skipSpace rest with
      | ',' :: rest => do
          let (items, rest) ← readTreeItems fuel rest
          some (item :: items, rest)
      | ']' :: rest => some ([item], rest)
      | _ => none

def readTreeMembers : Nat → List Char → Option (List (CodeUnits × Json Number) × List Char)
  | 0, _ => none
  | fuel + 1, chars =>
      match skipSpace chars with
      | '"' :: rest => do
          let (key, rest) ← readString rest
          match skipSpace rest with
          | ':' :: rest => do
              let (value, rest) ← readTree fuel rest
              match skipSpace rest with
              | ',' :: rest => do
                  let (members, rest) ← readTreeMembers fuel rest
                  some ((key, value) :: members, rest)
              | '}' :: rest => some ([(key, value)], rest)
              | _ => none
          | _ => none
      | _ => none

end

/-- What a text spells out, with each of its members. -/
def parseTree (text : String) : Option (Json Number) :=
  match readTree toNumber (2 * text.toList.length + 1) text.toList with
  | some (tree, rest) => if skipSpace rest = [] then some tree else none
  | none => none

end Trees

mutual

/-- The value that a tree defines: of the members of a key, the last one counts. -/
def defined : Json Number → Json Number
  | null => null
  | bool value => bool value
  | number value => number value
  | string units => string units
  | array items => array (definedItems items)
  | object members => object ((definedMembers members).foldl setMember [])

def definedItems : List (Json Number) → List (Json Number)
  | [] => []
  | item :: items => defined item :: definedItems items

def definedMembers : List (CodeUnits × Json Number) → List (CodeUnits × Json Number)
  | [] => []
  | (key, value) :: members => (key, defined value) :: definedMembers members

end

mutual

/-- The keys of each of the objects of a tree. -/
def objectKeys : Json Number → List (List CodeUnits)
  | null => []
  | bool _ => []
  | number _ => []
  | string _ => []
  | array items => itemKeys items
  | object members => members.map Prod.fst :: memberKeys members

def itemKeys : List (Json Number) → List (List CodeUnits)
  | [] => []
  | item :: items => objectKeys item ++ itemKeys items

def memberKeys : List (CodeUnits × Json Number) → List (List CodeUnits)
  | [] => []
  | (_, value) :: members => objectKeys value ++ memberKeys members

end

mutual

/-- The keys that an object of a tree repeats, in the order in which they are met. -/
def repeatedKeys : Json Number → List CodeUnits
  | null => []
  | bool _ => []
  | number _ => []
  | string _ => []
  | array items => repeatedInItems items
  | object members => repeatedInMembers [] members

def repeatedInItems : List (Json Number) → List CodeUnits
  | [] => []
  | item :: items => repeatedKeys item ++ repeatedInItems items

/-- The keys that members repeat behind members of the keys `seen`. -/
def repeatedInMembers (seen : List CodeUnits)
    : List (CodeUnits × Json Number) → List CodeUnits
  | [] => []
  | (key, value) :: members =>
      if key ∈ seen then key :: (repeatedKeys value ++ repeatedInMembers seen members)
      else repeatedKeys value ++ repeatedInMembers (key :: seen) members

end

section Defines

variable {toNumber : List Char → Number} {fuel : Nat} {chars : List Char}

/-- The readers of some fuel read what the trees define. -/
structure ReadsDefined (toNumber : List Char → Number) (fuel : Nat) : Prop where
  value (chars : List Char)
    : readValue toNumber fuel chars = (readTree toNumber fuel chars).map (Prod.map defined id)
  items (chars : List Char)
    : readItems toNumber fuel chars
      = (readTreeItems toNumber fuel chars).map (Prod.map definedItems id)
  members (chars : List Char)
    : readMembers toNumber fuel chars
      = (readTreeMembers toNumber fuel chars).map (Prod.map definedMembers id)

theorem ReadsDefined.readTree (reads : ReadsDefined toNumber fuel) (chars : List Char)
    : readValue toNumber (fuel + 1) chars
      = (Json.readTree toNumber (fuel + 1) chars).map (Prod.map defined id) := by
  rw [readValue, Json.readTree]
  generalize skipSpace chars = token
  split
  · rfl
  · rfl
  · rfl
  next behind =>
    simp only
    cases readString behind <;> rfl
  next behind =>
    simp only
    generalize skipSpace behind = inner
    split
    · rfl
    next =>
      simp only [reads.items]
      cases readTreeItems toNumber fuel _ <;> rfl
  next behind =>
    simp only
    generalize skipSpace behind = inner
    split
    · rfl
    next =>
      simp only [reads.members]
      cases readTreeMembers toNumber fuel _ <;> rfl
  next =>
    simp only
    cases readNumber _ <;> rfl

theorem ReadsDefined.readTreeItems (reads : ReadsDefined toNumber fuel) (chars : List Char)
    : readItems toNumber (fuel + 1) chars
      = (Json.readTreeItems toNumber (fuel + 1) chars).map (Prod.map definedItems id) := by
  rw [readItems, Json.readTreeItems, reads.value]
  cases Json.readTree toNumber fuel chars with
  | none => rfl
  | some read =>
      simp only [Option.map_some, bind, Option.bind_some, Prod.map_fst, Prod.map_snd, id_eq]
      generalize skipSpace read.2 = token
      split
      next =>
        simp only [reads.items]
        cases Json.readTreeItems toNumber fuel _ <;> rfl
      next => rfl
      next => simp only [Option.map_none]

theorem ReadsDefined.readTreeMembers (reads : ReadsDefined toNumber fuel) (chars : List Char)
    : readMembers toNumber (fuel + 1) chars
      = (Json.readTreeMembers toNumber (fuel + 1) chars).map (Prod.map definedMembers id) := by
  rw [readMembers, Json.readTreeMembers]
  generalize skipSpace chars = token
  split
  next behind =>
    simp only
    cases readString behind with
    | none => rfl
    | some key =>
        simp only [bind, Option.bind_some]
        generalize skipSpace key.2 = colon
        split
        next later =>
          simp only [reads.value]
          cases Json.readTree toNumber fuel later with
          | none => rfl
          | some read =>
              simp only [Option.map_some, Option.bind_some, Prod.map_fst, Prod.map_snd, id_eq]
              generalize skipSpace read.2 = ending
              split
              next =>
                simp only [reads.members]
                cases Json.readTreeMembers toNumber fuel _ <;> rfl
              next => rfl
              next => simp only [Option.map_none]
        next => simp only [Option.map_none]
  next => simp only [Option.map_none]

/-- The readers read what the trees define, by induction over the fuel. -/
theorem reads_defined (toNumber : List Char → Number) (fuel : Nat)
    : ReadsDefined toNumber fuel := by
  induction fuel with
  | zero => exact ⟨fun _ => rfl, fun _ => rfl, fun _ => rfl⟩
  | succ fuel reads => exact ⟨reads.readTree, reads.readTreeItems, reads.readTreeMembers⟩

theorem parse_eq_defined (toNumber : List Char → Number) (text : String)
    : parse toNumber text = (parseTree toNumber text).map defined := by
  unfold parse parseTree
  rw [(reads_defined toNumber _).value]
  cases readTree toNumber (2 * text.toList.length + 1) text.toList with
  | none => rfl
  | some read =>
      simp only [Option.map_some, Prod.map_fst, Prod.map_snd, id_eq]
      split <;> rfl

end Defines

-----------------------------------------------------------------------------------------
-- How often a key is repeated
-----------------------------------------------------------------------------------------

/-- How often a key is repeated within one of the objects with keys `objects`. -/
def repetitions (name : CodeUnits) (objects : List (List CodeUnits)) : Nat :=
  (objects.map fun keys => keys.count name - 1).sum

@[simp] theorem repetitions_nil (name : CodeUnits) : repetitions name [] = 0 := rfl

@[simp] theorem repetitions_cons (name : CodeUnits) (keys : List CodeUnits)
    (objects : List (List CodeUnits))
    : repetitions name (keys :: objects) = keys.count name - 1 + repetitions name objects :=
  List.sum_cons

@[simp] theorem repetitions_append (name : CodeUnits) (first second : List (List CodeUnits))
    : repetitions name (first ++ second)
      = repetitions name first + repetitions name second := by
  unfold repetitions
  rw [List.map_append, List.sum_append]

mutual

/-- Every repetition of a key within one object is met, by induction over the tree. -/
theorem count_repeatedKeys (name : CodeUnits) (tree : Json Number)
    : (repeatedKeys tree).count name = repetitions name (objectKeys tree) := by
  cases tree with
  | null | bool | number | string => rfl
  | array items =>
      rw [repeatedKeys, objectKeys]
      exact count_repeatedInItems name items
  | object members =>
      rw [repeatedKeys, objectKeys, repetitions_cons]
      exact count_repeatedInMembers name [] members

theorem count_repeatedInItems (name : CodeUnits) (items : List (Json Number))
    : (repeatedInItems items).count name = repetitions name (itemKeys items) := by
  cases items with
  | nil => rfl
  | cons item items =>
      rw [repeatedInItems, itemKeys, List.count_append, repetitions_append,
        count_repeatedKeys name item, count_repeatedInItems name items]

theorem count_repeatedInMembers (name : CodeUnits) (seen : List CodeUnits)
    (members : List (CodeUnits × Json Number))
    : (repeatedInMembers seen members).count name
      = (members.map Prod.fst).count name - (if name ∈ seen then 0 else 1)
        + repetitions name (memberKeys members) := by
  cases members with
  | nil => simp [repeatedInMembers, memberKeys]
  | cons member members =>
      obtain ⟨key, value⟩ := member
      have nested := count_repeatedKeys name value
      rw [repeatedInMembers, memberKeys, repetitions_append, List.map_cons, List.count_cons]
      split
      next met =>
        have later := count_repeatedInMembers name seen members
        rw [List.count_cons, List.count_append, nested, later]
        by_cases same : key = name
        · subst same
          simp only [met, beq_self_eq_true, if_true]
          omega
        · simp only [beq_iff_eq, same, if_false]
          omega
      next fresh =>
        have later := count_repeatedInMembers name (key :: seen) members
        rw [List.count_append, nested, later]
        by_cases same : key = name
        · subst same
          simp only [fresh, List.mem_cons_self, beq_self_eq_true, if_true, if_false]
          omega
        · have other : ¬name = key := fun equal => same equal.symm
          simp only [List.mem_cons, other, false_or, beq_iff_eq, same, if_false]
          omega

end

section Kept

variable {keys : List CodeUnits} {items : List (Json Number)}
  {members : List (CodeUnits × Json Number)}

theorem mem_itemKeys : keys ∈ itemKeys items ↔ ∃ item ∈ items, keys ∈ objectKeys item := by
  induction items with
  | nil => simp [itemKeys]
  | cons item items ih => simp [itemKeys, ih]

theorem mem_memberKeys
    : keys ∈ memberKeys members ↔ ∃ member ∈ members, keys ∈ objectKeys member.2 := by
  induction members with
  | nil => simp [memberKeys]
  | cons member members ih =>
      obtain ⟨key, value⟩ := member
      simp only [memberKeys, List.mem_append, ih, List.mem_cons, exists_eq_or_imp]

theorem repetitions_eq_zero_iff {name : CodeUnits} {objects : List (List CodeUnits)}
    : repetitions name objects = 0 ↔ ∀ keys ∈ objects, keys.count name ≤ 1 := by
  induction objects with
  | nil => simp
  | cons keys objects ih =>
      rw [repetitions_cons, Nat.add_eq_zero_iff, ih, List.forall_mem_cons,
        Nat.sub_eq_zero_iff_le]

theorem repeatedKeys_eq_nil (tree : Json Number)
    : repeatedKeys tree = [] ↔ ∀ keys ∈ objectKeys tree, keys.Nodup := by
  simp only [List.eq_nil_iff_forall_not_mem, ← List.count_eq_zero, count_repeatedKeys,
    repetitions_eq_zero_iff, List.nodup_iff_count_le_one]
  exact ⟨fun each keys held name => each name keys held,
    fun each name keys held => each keys held name⟩

theorem nodup_defined (members defined : List (CodeUnits × Json Number))
    (distinct : (defined.map Prod.fst).Nodup)
    : ((members.foldl setMember defined).map Prod.fst).Nodup := by
  induction members generalizing defined with
  | nil => exact distinct
  | cons member members ih => exact ih (setMember defined member) (nodup_setMember distinct)

theorem mem_defined {member : CodeUnits × Json Number}
    (members defined : List (CodeUnits × Json Number))
    (held : member ∈ members.foldl setMember defined)
    : member ∈ defined ∨ member ∈ members := by
  induction members generalizing defined with
  | nil => exact .inl held
  | cons first members ih =>
      rcases ih (setMember defined first) held with before | later
      · rcases mem_setMember before with before | rfl
        · exact .inl before
        · exact .inr List.mem_cons_self
      · exact .inr (List.mem_cons_of_mem first later)

/-- Members of distinct keys are all kept, by induction over them. -/
theorem foldl_setMember_of_nodup (members defined : List (CodeUnits × Json Number))
    (distinct : ((defined ++ members).map Prod.fst).Nodup)
    : members.foldl setMember defined = defined ++ members := by
  induction members generalizing defined with
  | nil => exact (List.append_nil defined).symm
  | cons member members ih =>
      have fresh : member.1 ∉ defined.map Prod.fst := by
        intro held
        rw [List.map_append, List.map_cons] at distinct
        exact (List.nodup_append.mp distinct).2.2 _ held _ List.mem_cons_self rfl
      have next : setMember defined member = defined ++ [member] := if_neg fresh
      rw [List.foldl_cons, next, ih _ (by simpa using distinct), List.append_assoc]
      rfl

mutual

/-- The objects of what a tree defines have distinct keys, by induction over the tree. -/
theorem nodup_objectKeys_defined (tree : Json Number)
    : ∀ keys ∈ objectKeys (defined tree), keys.Nodup := by
  cases tree with
  | null | bool | number | string => simp [defined, objectKeys]
  | array items =>
      intro keys held
      rw [defined, objectKeys, mem_itemKeys] at held
      obtain ⟨item, within, found⟩ := held
      exact nodup_definedItems items item within keys found
  | object members =>
      intro keys held
      rw [defined, objectKeys, List.mem_cons, mem_memberKeys] at held
      rcases held with rfl | ⟨member, within, found⟩
      · exact nodup_defined _ [] List.nodup_nil
      · rcases mem_defined _ [] within with none | within
        · cases none
        · exact nodup_definedMembers members member within keys found

theorem nodup_definedItems (items : List (Json Number))
    : ∀ item ∈ definedItems items, ∀ keys ∈ objectKeys item, keys.Nodup := by
  cases items with
  | nil => simp [definedItems]
  | cons item items =>
      rw [definedItems]
      exact List.forall_mem_cons.mpr ⟨nodup_objectKeys_defined item, nodup_definedItems items⟩

theorem nodup_definedMembers (members : List (CodeUnits × Json Number))
    : ∀ member ∈ definedMembers members, ∀ keys ∈ objectKeys member.2, keys.Nodup := by
  cases members with
  | nil => simp [definedMembers]
  | cons member members =>
      obtain ⟨key, value⟩ := member
      rw [definedMembers]
      exact List.forall_mem_cons.mpr ⟨nodup_objectKeys_defined value, nodup_definedMembers members⟩

end

mutual

/-- A tree of distinct keys defines itself, by induction over it. -/
theorem defined_of_nodup (tree : Json Number) (distinct : ∀ keys ∈ objectKeys tree, keys.Nodup)
    : defined tree = tree := by
  cases tree with
  | null | bool | number | string => rfl
  | array items =>
      rw [defined, definedItems_of_nodup items distinct]
  | object members =>
      rw [objectKeys, List.forall_mem_cons] at distinct
      rw [defined, definedMembers_of_nodup members distinct.2,
        foldl_setMember_of_nodup members [] distinct.1]
      rfl

theorem definedItems_of_nodup (items : List (Json Number))
    (distinct : ∀ keys ∈ itemKeys items, keys.Nodup)
    : definedItems items = items := by
  cases items with
  | nil => rfl
  | cons item items =>
      rw [itemKeys, List.forall_mem_append] at distinct
      rw [definedItems, defined_of_nodup item distinct.1, definedItems_of_nodup items distinct.2]

theorem definedMembers_of_nodup (members : List (CodeUnits × Json Number))
    (distinct : ∀ keys ∈ memberKeys members, keys.Nodup)
    : definedMembers members = members := by
  cases members with
  | nil => rfl
  | cons member members =>
      obtain ⟨key, value⟩ := member
      rw [memberKeys, List.forall_mem_append] at distinct
      rw [definedMembers, defined_of_nodup value distinct.1,
        definedMembers_of_nodup members distinct.2]

end

theorem repeatedKeys_eq_nil_iff (tree : Json Number)
    : repeatedKeys tree = [] ↔ defined tree = tree := by
  rw [repeatedKeys_eq_nil]
  constructor
  · exact defined_of_nodup tree
  · intro same
    have distinct := nodup_objectKeys_defined tree
    rwa [same] at distinct

end Kept

end Json

end AiSdlc.Js
