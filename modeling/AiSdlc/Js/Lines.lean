import Mathlib.Algebra.Order.Ring.Int
import Mathlib.Data.List.Basic

/-! The parts of a list between separators, and the positions where `indexOf` and `lastIndexOf`
find the separators.
-/

namespace AiSdlc.Js

variable {α : Type} [DecidableEq α]

/-- `items.indexOf(item, position)`. -/
def indexOf (items : List α) (item : α) (position : Int) : Int :=
  match (items.drop position.toNat).findIdx? (· = item) with
  | some ahead => position.toNat + ahead
  | none => -1

/-- `items.lastIndexOf(item, position)`. -/
def lastIndexOf (items : List α) (item : α) (position : Int) : Int :=
  let front := items.take (position.toNat + 1)
  match front.reverse.findIdx? (· = item) with
  | some behind => front.length - 1 - behind
  | none => -1

/-- The lengths of some parts, each with the separator behind it. -/
def offset : List (List α) → Nat
  | [] => 0
  | part :: rest => part.length + 1 + offset rest

/-- Where the separator behind the first parts stands: in front of the first part for none. -/
def cut (parts : List (List α)) (count : Nat) : Int :=
  offset (parts.take count) - 1

section Parts

variable {separator : α} {front back parts : List (List α)} {part : List α} {first second : Nat}

omit [DecidableEq α] in
@[simp]
theorem offset_append : offset (front ++ back) = offset front + offset back := by
  induction front with
  | nil => simp [offset]
  | cons part rest ih => simp only [List.cons_append, offset, ih, Nat.add_assoc]

omit [DecidableEq α] in
theorem length_flatMap_parts (front : List (List α))
    : (front.flatMap (· ++ [separator])).length = offset front := by
  induction front with
  | nil => rfl
  | cons part rest ih =>
      simp only [List.flatMap_cons, List.length_append, List.length_singleton, ih, offset]

omit [DecidableEq α] in
theorem intercalate_append (filled : back ≠ [])
    : [separator].intercalate (front ++ back)
      = front.flatMap (· ++ [separator]) ++ [separator].intercalate back := by
  induction front with
  | nil => rfl
  | cons part rest ih =>
      have more : rest ++ back ≠ [] := fun none => filled (List.append_eq_nil_iff.mp none).2
      rw [List.cons_append, List.intercalate_cons_of_ne_nil more, ih, List.flatMap_cons,
        List.append_assoc]
      simp

omit [DecidableEq α] in
theorem cut_zero : cut parts 0 = -1 := by
  simp [cut, offset]

omit [DecidableEq α] in
theorem cut_length_append
    : cut (front ++ part :: back) (front.length + 1) = offset front + part.length := by
  rw [cut, List.take_append, List.take_of_length_le (by omega)]
  simp [offset]
  omega

omit [DecidableEq α] in
theorem cut_lt (within : second ≤ parts.length) (less : first < second)
    : cut parts first < cut parts second := by
  obtain ⟨more, rfl⟩ : ∃ more, second = first + more := ⟨second - first, by omega⟩
  rw [cut, cut, List.take_add, offset_append]
  cases later : (parts.drop first).take more with
  | nil =>
      have lengths := congrArg List.length later
      simp at lengths
      omega
  | cons part rest =>
      simp only [offset]
      omega

omit [DecidableEq α] in
theorem cut_le (within : second ≤ parts.length) (atMost : first ≤ second)
    : cut parts first ≤ cut parts second := by
  rcases Nat.lt_or_eq_of_le atMost with less | rfl
  · exact (cut_lt within less).le
  · rfl

omit [DecidableEq α] in
theorem cut_eq_neg_one (within : first ≤ parts.length) : cut parts first = -1 ↔ first = 0 := by
  constructor
  · intro same
    by_contra positive
    have before := cut_lt within (Nat.pos_of_ne_zero positive)
    rw [cut_zero] at before
    omega
  · rintro rfl
    exact cut_zero

omit [DecidableEq α] in
theorem neg_one_le_cut : -1 ≤ cut parts first := by
  unfold cut
  omega

omit [DecidableEq α] in
/-- What stands behind a cut. -/
theorem drop_cut (within : first < parts.length)
    : ([separator].intercalate parts).drop (cut parts first + 1).toNat
      = [separator].intercalate (parts.drop first) := by
  have filled : parts.drop first ≠ [] := List.drop_eq_nil_iff.not.mpr (by omega)
  have start : (cut parts first + 1).toNat
      = ((parts.take first).flatMap (· ++ [separator])).length := by
    rw [length_flatMap_parts, cut]
    omega
  conv =>
    lhs
    rw [← List.take_append_drop first parts, intercalate_append filled,
      List.take_append_drop first parts]
  rw [start, List.drop_left]

omit [DecidableEq α] in
/-- What stands in front of a cut. -/
theorem take_cut (positive : 0 < first) (within : first ≤ parts.length)
    : ([separator].intercalate parts).take (cut parts first).toNat
      = [separator].intercalate (parts.take first) := by
  obtain ⟨last, rfl⟩ : ∃ last, first = last + 1 := ⟨first - 1, by omega⟩
  obtain ⟨part, rest, behind⟩ : ∃ part rest, parts.drop last = part :: rest :=
    List.exists_cons_of_ne_nil (List.drop_eq_nil_iff.not.mpr (by omega))
  obtain ⟨front, rfl⟩ : ∃ front, parts = front ++ part :: rest :=
    ⟨parts.take last, behind ▸ (List.take_append_drop last parts).symm⟩
  obtain rfl : last = front.length := by
    have lengths := congrArg List.length behind
    simp at lengths within
    omega
  have whole : ((offset front + part.length : Nat) : Int).toNat
      = (front.flatMap (· ++ [separator]) ++ part).length := by
    rw [List.length_append, length_flatMap_parts]
    omega
  rw [cut_length_append, ← Nat.cast_add, whole, intercalate_append (List.cons_ne_nil _ _)]
  have first : (front ++ part :: rest).take (front.length + 1) = front ++ [part] := by
    rw [List.take_length_add_append]
    rfl
  rw [first, intercalate_append (List.cons_ne_nil _ _), List.intercalate_singleton]
  cases rest with
  | nil => rw [List.intercalate_singleton, List.take_length]
  | cons next rest =>
      rw [List.intercalate_cons_of_ne_nil (List.cons_ne_nil _ _), List.append_assoc,
        ← List.append_assoc, List.take_left]

/-- Behind a cut, the next separator is the one behind the next part. -/
theorem indexOf_cut (free : ∀ part ∈ parts, separator ∉ part) (within : first < parts.length)
    : indexOf ([separator].intercalate parts) separator (cut parts first + 1)
      = if first + 1 < parts.length then cut parts (first + 1) else -1 := by
  obtain ⟨part, rest, behind⟩ : ∃ part rest, parts.drop first = part :: rest :=
    List.exists_cons_of_ne_nil (List.drop_eq_nil_iff.not.mpr (by omega))
  have member : part ∈ parts := List.mem_of_mem_drop (behind ▸ List.mem_cons_self)
  have missing : part.findIdx? (· = separator) = none :=
    List.findIdx?_eq_none_iff.mpr fun item held =>
      decide_eq_false fun same => free part member (same ▸ held)
  have next : cut parts (first + 1) = cut parts first + 1 + part.length := by
    rw [cut, cut, List.take_add, offset_append, behind]
    simp [offset]
    omega
  have length := congrArg List.length behind
  rw [List.length_drop, List.length_cons] at length
  rw [indexOf, drop_cut within, behind]
  cases rest with
  | nil =>
      rw [List.intercalate_singleton, missing, if_neg (by simp at length; omega)]
  | cons more rest =>
      rw [List.intercalate_cons_of_ne_nil (List.cons_ne_nil _ _), List.append_assoc,
        List.findIdx?_append, missing, if_pos (by simp at length; omega), next]
      have start := @neg_one_le_cut _ parts first
      simp only [List.singleton_append, List.findIdx?_cons, decide_true, if_true, Option.none_or,
        Option.map_some, Nat.zero_add]
      omega

/-- In front of a cut, the last separator is the one behind the part before. -/
theorem lastIndexOf_cut (free : ∀ part ∈ parts, separator ∉ part)
    (within : first < parts.length) (inside : 0 < cut parts (first + 1))
    : lastIndexOf ([separator].intercalate parts) separator (cut parts (first + 1) - 1)
      = cut parts first := by
  obtain ⟨part, rest, behind⟩ : ∃ part rest, parts.drop first = part :: rest :=
    List.exists_cons_of_ne_nil (List.drop_eq_nil_iff.not.mpr (by omega))
  have member : part ∈ parts := List.mem_of_mem_drop (behind ▸ List.mem_cons_self)
  have missing : part.reverse.findIdx? (· = separator) = none :=
    List.findIdx?_eq_none_iff.mpr fun item held =>
      decide_eq_false fun same => free part member (same ▸ List.mem_reverse.mp held)
  have taken : parts.take (first + 1) = parts.take first ++ [part] := by
    rw [List.take_add, behind]
    rfl
  have front : ([separator].intercalate parts).take ((cut parts (first + 1) - 1).toNat + 1)
      = (parts.take first).flatMap (· ++ [separator]) ++ part := by
    have position : (cut parts (first + 1) - 1).toNat + 1 = (cut parts (first + 1)).toNat := by
      omega
    rw [position, take_cut (by omega) (by omega), taken,
      intercalate_append (List.cons_ne_nil _ _), List.intercalate_singleton]
  rw [lastIndexOf]
  simp only [front, List.reverse_append, List.findIdx?_append, missing, Option.none_or]
  cases first with
  | zero => simp [cut_zero]
  | succ before =>
      obtain ⟨last, rest', behind'⟩ : ∃ last rest', parts.drop before = last :: rest' :=
        List.exists_cons_of_ne_nil (List.drop_eq_nil_iff.not.mpr (by omega))
      have taken' : parts.take (before + 1) = parts.take before ++ [last] := by
        rw [List.take_add, behind']
        rfl
      have lengths : ((parts.take (before + 1)).flatMap (· ++ [separator])).length
          = offset (parts.take (before + 1)) :=
        length_flatMap_parts _
      have ends : ((parts.take (before + 1)).flatMap (· ++ [separator])).reverse
          = separator :: ((parts.take before).flatMap (· ++ [separator]) ++ last).reverse := by
        rw [taken', List.flatMap_append]
        simp
      rw [ends]
      simp only [List.findIdx?_cons, decide_true, if_true, Option.map_some, List.length_append,
        List.length_reverse, lengths, cut]
      omega

theorem splitOn_parts {last : List α} (free : ∀ part ∈ parts, separator ∉ part)
    (single : separator ∉ last)
    : (parts.flatMap (· ++ [separator]) ++ last).splitOn separator = parts ++ [last] := by
  have joined := @intercalate_append _ separator parts [last] (List.cons_ne_nil _ _)
  rw [List.intercalate_singleton] at joined
  rw [← joined]
  refine List.splitOn_intercalate separator (fun part member => ?_) (by simp)
  rcases List.mem_append.mp member with among | final
  · exact free part among
  · exact List.mem_singleton.mp final ▸ single

theorem parts_inj {others : List (List α)} {last final : List α}
    (free : ∀ part ∈ parts, separator ∉ part) (single : separator ∉ last)
    (free' : ∀ part ∈ others, separator ∉ part) (single' : separator ∉ final)
    (same : parts.flatMap (· ++ [separator]) ++ last
      = others.flatMap (· ++ [separator]) ++ final)
    : parts = others ∧ last = final := by
  have split := congrArg (List.splitOn separator) same
  rw [splitOn_parts free single, splitOn_parts free' single'] at split
  obtain ⟨same, ends⟩ := List.append_inj' split rfl
  exact ⟨same, List.singleton_inj.mp ends⟩

theorem exists_parts (separator : α) (items : List α)
    : ∃ (parts : List (List α)) (last : List α),
        (∀ part ∈ parts, separator ∉ part) ∧ separator ∉ last
        ∧ items = parts.flatMap (· ++ [separator]) ++ last
        ∧ items.count separator = parts.length := by
  induction items with
  | nil => exact ⟨[], [], by simp, by simp, rfl, rfl⟩
  | cons item items ih =>
      obtain ⟨parts, last, free, single, rfl, count⟩ := ih
      by_cases same : item = separator
      · subst same
        refine ⟨[] :: parts, last, ?_, single, rfl, ?_⟩
        · exact List.forall_mem_cons.mpr ⟨List.not_mem_nil, free⟩
        · rw [List.count_cons_self, count, List.length_cons]
      · rw [List.count_cons_of_ne same, count]
        cases parts with
        | nil =>
            refine ⟨[], item :: last, free, ?_, rfl, rfl⟩
            exact fun member => (List.mem_cons.mp member).elim (fun head => same head.symm) single
        | cons part parts =>
            obtain ⟨first, others⟩ := List.forall_mem_cons.mp free
            refine ⟨(item :: part) :: parts, last, ?_, single, rfl, rfl⟩
            refine List.forall_mem_cons.mpr ⟨fun member => ?_, others⟩
            exact (List.mem_cons.mp member).elim (fun head => same head.symm) first

theorem free_of_mem_splitOn {items : List α} (member : part ∈ items.splitOn separator)
    : separator ∉ part := by
  obtain ⟨parts, last, free, single, rfl, -⟩ := exists_parts separator items
  rw [splitOn_parts free single] at member
  rcases List.mem_append.mp member with among | final
  · exact free part among
  · exact List.mem_singleton.mp final ▸ single

end Parts

end AiSdlc.Js
