import Mathlib.Data.List.Sort
import AiSdlc.Js.TextOperations

/-! The order of the locale in which lists of names are sorted. How `localeCompare` orders texts
depends on the locale of the process.
-/

namespace AiSdlc.Application

open AiSdlc.Js

/-- Texts are compared consistently, and no two of the given ones count as equal. -/
structure Collation (localeCompare : String → String → Int) (ids : List String) : Prop where
  total : ∀ left right, localeCompare left right ≤ 0 ∨ localeCompare right left ≤ 0
  trans
    : ∀ left middle right, localeCompare left middle ≤ 0 → localeCompare middle right ≤ 0 →
        localeCompare left right ≤ 0
  separates
    : ∀ left ∈ ids, ∀ right ∈ ids, localeCompare left right ≤ 0 → localeCompare right left ≤ 0 →
        left = right

/-- Texts are compared consistently: the comparator orders them, up to ties. -/
structure Comparison (localeCompare : String → String → Int) : Prop where
  swap : ∀ left right, localeCompare left right < 0 ↔ 0 < localeCompare right left
  trans
    : ∀ left middle right, localeCompare left middle ≤ 0 → localeCompare middle right ≤ 0 →
        localeCompare left right ≤ 0

theorem Collation.mono {localeCompare : String → String → Int} {ids names : List String}
    (collation : Collation localeCompare ids) (fewer : names ⊆ ids)
    : Collation localeCompare names :=
  ⟨collation.total, collation.trans, fun left here right there =>
    collation.separates left (fewer here) right (fewer there)⟩

theorem compareCodeUnits_collation {ids : List String}
    (separates
      : ∀ left ∈ ids, ∀ right ∈ ids, compareCodeUnits left right ≤ 0 →
          compareCodeUnits right left ≤ 0 → left = right)
    : Collation compareCodeUnits ids := by
  refine ⟨fun left right => ?_, fun left middle right first second => ?_, separates⟩
  · rw [compareCodeUnits_nonpos, compareCodeUnits_nonpos]
    exact le_total _ _
  · rw [compareCodeUnits_nonpos] at first second ⊢
    exact le_trans first second

theorem compareCodeUnits_neg {left right : String}
    : compareCodeUnits left right < 0 ↔ codeUnits left < codeUnits right := by
  have least := @compareCodeUnits_nonpos left right
  unfold compareCodeUnits isGreater at least ⊢
  split at least
  next same => simp [same]
  next apart =>
    have differ : codeUnits left ≠ codeUnits right := fun same => apart (codeUnits_injective same)
    rw [if_neg apart]
    split at least
    next greater =>
      rw [if_pos greater]
      exact iff_of_false (by omega) fun less => absurd (least.mpr (le_of_lt less)) (by omega)
    next smaller =>
      rw [if_neg smaller]
      refine iff_of_true (by omega) ?_
      by_contra notLess
      exact differ (le_antisymm (least.mp (by omega)) (not_lt.mp notLess))

theorem compareCodeUnits_pos {left right : String}
    : 0 < compareCodeUnits left right ↔ codeUnits right < codeUnits left := by
  have least := @compareCodeUnits_nonpos left right
  rw [← not_le, least, not_le]

theorem comparison_compareCodeUnits (rewrite : String → String)
    : Comparison fun left right => compareCodeUnits (rewrite left) (rewrite right) := by
  refine ⟨fun left right => ?_, fun left middle right first second => ?_⟩
  · rw [compareCodeUnits_neg, compareCodeUnits_pos]
  · rw [compareCodeUnits_nonpos] at first second ⊢
    exact le_trans first second

/-- `names.sort((a, b) => a.localeCompare(b))`. -/
def sortByLocale (localeCompare : String → String → Int) (names : List String) : List String :=
  names.insertionSort fun a b => localeCompare a b ≤ 0

section Sorting

variable {localeCompare : String → String → Int} {names others ids : List String}

theorem perm_sortByLocale : (sortByLocale localeCompare names).Perm names :=
  List.perm_insertionSort _ _

theorem pairwise_sortByLocale (collation : Collation localeCompare ids)
    : (sortByLocale localeCompare names).Pairwise fun a b => localeCompare a b ≤ 0 := by
  let sorts (left right : String) : Prop := localeCompare left right ≤ 0
  have total : Std.Total sorts := ⟨collation.total⟩
  have trans : IsTrans String sorts := ⟨collation.trans⟩
  exact List.pairwise_insertionSort sorts _

theorem sortByLocale_eq_of_perm (collation : Collation localeCompare ids) (same : names.Perm others)
    (within : ∀ name ∈ others, name ∈ ids)
    : sortByLocale localeCompare names = sortByLocale localeCompare others := by
  have alike : (sortByLocale localeCompare names).Perm (sortByLocale localeCompare others) :=
    perm_sortByLocale.trans (same.trans perm_sortByLocale.symm)
  have inside (name : String) (member : name ∈ sortByLocale localeCompare others) : name ∈ ids :=
    within name (perm_sortByLocale.mem_iff.mp member)
  refine alike.eq_of_pairwise ?_ (pairwise_sortByLocale collation)
    (pairwise_sortByLocale collation)
  intro left right here there forth back
  exact collation.separates left (inside left (alike.mem_iff.mp here)) right (inside right there)
    forth back

end Sorting

end AiSdlc.Application
