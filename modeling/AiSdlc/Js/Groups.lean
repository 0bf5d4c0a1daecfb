import Mathlib.Data.List.Basic
import Mathlib.Data.List.Nodup
import Mathlib.Data.List.Perm.Basic

/-! Values collected in a set, which keeps the first of equal values, and by keys in a map, which
keeps the order in which the keys were first met, and values cut into chunks.
-/

namespace AiSdlc.Js

universe u v

variable {κ : Type u} {α : Type v}

/-- A set holds each value once, by induction over the length of the list. -/
theorem nodup_eraseDups [BEq α] [LawfulBEq α] : (values : List α) → values.eraseDups.Nodup
  | [] => List.nodup_nil
  | value :: values => by
      rw [List.eraseDups_cons]
      refine List.nodup_cons.mpr ⟨?_, nodup_eraseDups _⟩
      simp [List.mem_eraseDups]
termination_by values => values.length
decreasing_by exact Nat.lt_succ_of_le (List.length_filter_le _ _)

@[simp]
theorem eraseDups_singleton [BEq α] {value : α} : [value].eraseDups = [value] := rfl

theorem eraseDups_replicate [BEq α] [LawfulBEq α] {value : α} {count : Nat} (some : count ≠ 0)
    : (List.replicate count value).eraseDups = [value] := by
  obtain ⟨more, rfl⟩ := Nat.exists_eq_succ_of_ne_zero some
  have others : (List.replicate more value).filter (fun other => !other == value) = [] := by
    simp
  rw [List.replicate_succ, List.eraseDups_cons, others, List.eraseDups_nil]

/-- The values of each key, in the order in which the keys were first met. -/
abbrev Groups (κ : Type u) (α : Type v) : Type (max u v) :=
  List (κ × List α)

namespace Groups

variable [DecidableEq κ]

/-- Adds a value to those of its key. -/
def push (key : κ) (value : α) : Groups κ α → Groups κ α
  | [] => [(key, [value])]
  | (other, values) :: rest =>
      if other = key then (other, values ++ [value]) :: rest
      else (other, values) :: push key value rest

/-- `groups.get(key)`. -/
def get (groups : Groups κ α) (key : κ) : Option (List α) :=
  List.lookup key groups

/-- The values one after the other, each by its key. -/
def collect (keyOf : α → κ) (values : List α) : Groups κ α :=
  values.foldl (fun groups value => groups.push (keyOf value) value) []

theorem mem_keys_push {key other : κ} {value : α} {groups : Groups κ α}
    : other ∈ (groups.push key value).map Prod.fst
      ↔ other = key ∨ other ∈ groups.map Prod.fst := by
  induction groups with
  | nil => simp [push]
  | cons group rest ih =>
      by_cases same : group.1 = key
      · simp only [push, if_pos same, List.map_cons, List.mem_cons]
        rw [same]
        exact ⟨fun member => member.elim .inl fun later => .inr (.inr later),
          fun member => member.elim .inl fun later => later⟩
      · simp only [push, if_neg same, List.map_cons, List.mem_cons, ih]
        exact or_left_comm

theorem nodup_push {key : κ} {value : α} {groups : Groups κ α}
    (distinct : (groups.map Prod.fst).Nodup)
    : ((groups.push key value).map Prod.fst).Nodup := by
  induction groups with
  | nil => simp [push]
  | cons group rest ih =>
      obtain ⟨apart, later⟩ := List.nodup_cons.mp distinct
      by_cases same : group.1 = key
      · rw [push, if_pos same]
        exact List.nodup_cons.mpr ⟨apart, later⟩
      · rw [push, if_neg same]
        refine List.nodup_cons.mpr ⟨fun member => ?_, ih later⟩
        exact (mem_keys_push.mp member).elim same apart

/-- A group after the addition is one of another key, or that of the key with the value. -/
theorem mem_push {key : κ} {value : α} {groups : Groups κ α} {group : κ × List α}
    (distinct : (groups.map Prod.fst).Nodup) (member : group ∈ groups.push key value)
    : group ∈ groups ∧ group.1 ≠ key
      ∨ (∃ values, (key, values) ∈ groups ∧ group = (key, values ++ [value]))
      ∨ key ∉ groups.map Prod.fst ∧ group = (key, [value]) := by
  induction groups with
  | nil => exact .inr (.inr ⟨List.not_mem_nil, List.mem_singleton.mp member⟩)
  | cons first rest ih =>
      obtain ⟨apart, later⟩ := List.nodup_cons.mp distinct
      by_cases same : first.1 = key
      · rw [push, if_pos same] at member
        rcases List.mem_cons.mp member with rfl | member
        · refine .inr (.inl ⟨first.2, ?_, by rw [same]⟩)
          rw [← same]
          exact List.mem_cons_self
        · refine .inl ⟨List.mem_cons_of_mem _ member, fun other => apart ?_⟩
          rw [same, ← other]
          exact List.mem_map_of_mem member
      · rw [push, if_neg same] at member
        rcases List.mem_cons.mp member with rfl | member
        · exact .inl ⟨List.mem_cons_self, same⟩
        · rcases ih later member with ⟨held, other⟩ | ⟨values, held, rfl⟩ | ⟨fresh, rfl⟩
          · exact .inl ⟨List.mem_cons_of_mem _ held, other⟩
          · exact .inr (.inl ⟨values, List.mem_cons_of_mem _ held, rfl⟩)
          · refine .inr (.inr ⟨fun found => ?_, rfl⟩)
            rw [List.map_cons, List.mem_cons] at found
            exact found.elim (fun here => same here.symm) fresh

/-- Nothing is lost, and nothing added, but the value itself. -/
theorem perm_push (key : κ) (value : α) (groups : Groups κ α)
    : ((groups.push key value).flatMap Prod.snd).Perm (groups.flatMap Prod.snd ++ [value]) := by
  induction groups with
  | nil => simp [push]
  | cons group rest ih =>
      by_cases same : group.1 = key
      · simp only [push, if_pos same, List.flatMap_cons, List.append_assoc]
        exact (List.perm_append_comm).append_left group.2
      · simp only [push, if_neg same, List.flatMap_cons, List.append_assoc]
        exact ih.append_left group.2

/-- The groups of some values: each has the values of its key, in their order. -/
structure Collects (keyOf : α → κ) (values : List α) (groups : Groups κ α) : Prop where
  distinct : (groups.map Prod.fst).Nodup
  whole : ∀ group ∈ groups, group.2 = values.filter fun value => keyOf value = group.1
  filled : ∀ group ∈ groups, group.2 ≠ []
  perm : (groups.flatMap Prod.snd).Perm values

theorem Collects.mem_keys {keyOf : α → κ} {values : List α} {groups : Groups κ α}
    (collects : groups.Collects keyOf values) {value : α} (member : value ∈ values)
    : keyOf value ∈ groups.map Prod.fst := by
  obtain ⟨group, held, within⟩ := List.mem_flatMap.mp (collects.perm.mem_iff.mpr member)
  rw [collects.whole group held] at within
  have same : keyOf value = group.1 := by simpa using (List.mem_filter.mp within).2
  rw [same]
  exact List.mem_map_of_mem held

theorem Collects.push {keyOf : α → κ} {values : List α} {groups : Groups κ α}
    (collects : groups.Collects keyOf values) (value : α)
    : (groups.push (keyOf value) value).Collects keyOf (values ++ [value]) where
  distinct := nodup_push collects.distinct
  whole := by
    intro group member
    rw [List.filter_append]
    rcases mem_push collects.distinct member with ⟨held, other⟩ | ⟨held, found, rfl⟩ | ⟨fresh, rfl⟩
    · simp [collects.whole group held, other.symm]
    · have same : held = _ := collects.whole _ found
      simp [← same]
    · have none : values.filter (fun other => decide (keyOf other = keyOf value)) = [] := by
        rw [List.filter_eq_nil_iff]
        intro other listed same
        exact fresh (of_decide_eq_true same ▸ collects.mem_keys listed)
      simp [none]
  filled := by
    intro group member
    rcases mem_push collects.distinct member with ⟨held, -⟩ | ⟨held, found, rfl⟩ | ⟨fresh, rfl⟩
    · exact collects.filled group held
    · simp
    · simp
  perm := (perm_push (keyOf value) value groups).trans (collects.perm.append_right [value])

theorem collects_collect (keyOf : α → κ) (values : List α)
    : (collect keyOf values).Collects keyOf values := by
  have further (earlier : List α) (groups : Groups κ α) (collects : groups.Collects keyOf earlier)
      : (values.foldl (fun groups value => groups.push (keyOf value) value) groups).Collects keyOf
          (earlier ++ values) := by
    induction values generalizing earlier groups with
    | nil => simpa using collects
    | cons value rest ih =>
        have next := ih _ _ (collects.push value)
        rwa [List.append_assoc] at next
  exact further [] [] ⟨List.nodup_nil, by simp, by simp, .nil⟩

/-- The values of a key, none where it was not met. -/
def values (groups : Groups κ α) (key : κ) : List α :=
  (groups.get key).getD []

/-- Adds several values one after the other. -/
def pushAll (groups : Groups κ α) (pairs : List (κ × α)) : Groups κ α :=
  pairs.foldl (fun groups pair => groups.push pair.1 pair.2) groups

section PushAll

variable {key other : κ} {value : α} {groups : Groups κ α} {pairs more : List (κ × α)}

theorem values_push
    : (groups.push key value).values other
      = groups.values other ++ if key = other then [value] else [] := by
  unfold values get
  induction groups with
  | nil =>
      by_cases found : key = other
      · simp [push, found]
      · simp [push, found, List.lookup_cons, beq_eq_false_iff_ne.mpr (Ne.symm found)]
  | cons group rest ih =>
      obtain ⟨first, held⟩ := group
      by_cases same : first = key
      · subst same
        by_cases found : other = first
        · simp [push, found]
        · simp [push, List.lookup_cons, beq_eq_false_iff_ne.mpr found, Ne.symm found]
      · rw [push, if_neg same]
        by_cases found : other = first
        · have apart : key ≠ other := by
            rintro rfl
            exact same found.symm
          simp [found, Ne.symm same]
        · simpa [List.lookup_cons, beq_eq_false_iff_ne.mpr found] using ih

theorem pushAll_append : groups.pushAll (pairs ++ more) = (groups.pushAll pairs).pushAll more :=
  List.foldl_append

theorem values_pushAll
    : (groups.pushAll pairs).values key
      = groups.values key ++ (pairs.filter (·.1 = key)).map Prod.snd := by
  induction pairs generalizing groups with
  | nil => exact (List.append_nil _).symm
  | cons pair rest ih =>
      have later := @ih (groups.push pair.1 pair.2)
      by_cases same : pair.1 = key
      · simpa [pushAll, values_push, same] using later
      · simpa [pushAll, values_push, same] using later

theorem mem_keys_pushAll
    : key ∈ (groups.pushAll pairs).map Prod.fst
      ↔ key ∈ pairs.map Prod.fst ∨ key ∈ groups.map Prod.fst := by
  induction pairs generalizing groups with
  | nil => simp [pushAll]
  | cons pair rest ih =>
      have later := @ih (groups.push pair.1 pair.2)
      rw [mem_keys_push] at later
      rw [List.map_cons, List.mem_cons]
      exact later.trans (or_left_comm.trans or_assoc.symm)

end PushAll

end Groups

/-- Chunks while there is fuel. -/
def chunksWithin (size : Nat) : Nat → List α → List (List α)
  | 0, _ => []
  | _, [] => []
  | fuel + 1, values => values.take size :: chunksWithin size fuel (values.drop size)

/-- The slices of a size that a loop takes one after the other; each one takes a value at least. -/
def chunks (size : Nat) (values : List α) : List (List α) :=
  chunksWithin size values.length values

section Chunks

variable {size : Nat} {values chunk : List α}

theorem flatten_chunksWithin (positive : 0 < size) {fuel : Nat} (enough : values.length ≤ fuel)
    : (chunksWithin size fuel values).flatten = values := by
  induction fuel generalizing values with
  | zero =>
      rw [List.length_eq_zero_iff.mp (Nat.le_zero.mp enough)]
      rfl
  | succ fuel ih =>
      cases values with
      | nil => rfl
      | cons first rest =>
          have shorter : ((first :: rest).drop size).length ≤ fuel := by
            rw [List.length_drop]
            omega
          rw [chunksWithin, List.flatten_cons, ih shorter, List.take_append_drop]
          exact fun empty => nomatch empty

theorem flatten_chunks (positive : 0 < size) : (chunks size values).flatten = values :=
  flatten_chunksWithin positive (Nat.le_refl _)

theorem mem_chunksWithin (positive : 0 < size) {fuel : Nat}
    (member : chunk ∈ chunksWithin size fuel values)
    : chunk ≠ [] ∧ chunk.length ≤ size ∧ chunk.Sublist values := by
  induction fuel generalizing values with
  | zero => exact nomatch member
  | succ fuel ih =>
      cases values with
      | nil => exact nomatch member
      | cons first rest =>
          rw [chunksWithin] at member
          · rcases List.mem_cons.mp member with rfl | later
            · refine ⟨?_, List.length_take_le _ _, List.take_sublist _ _⟩
              rw [ne_eq, List.take_eq_nil_iff]
              simp [Nat.ne_of_gt positive]
            · obtain ⟨filled, bounded, within⟩ := ih later
              exact ⟨filled, bounded, within.trans (List.drop_sublist _ _)⟩
          · exact fun empty => nomatch empty

theorem mem_chunks (positive : 0 < size) (member : chunk ∈ chunks size values)
    : chunk ≠ [] ∧ chunk.length ≤ size ∧ chunk.Sublist values :=
  mem_chunksWithin positive member

end Chunks

end AiSdlc.Js
