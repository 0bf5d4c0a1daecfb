import Mathlib.Data.List.Infix

/-! Replacements that keep a name and change what stands behind its first mention. -/

namespace AiSdlc.Js

section FirstMention

variable {α : Type} {name items front back : List α} {item : α}

theorem prefix_append_foreign (foreign : item ∉ name)
    : name <+: front ++ item :: back ↔ name <+: front := by
  refine ⟨fun starts => ?_, fun starts => starts.trans (List.prefix_append _ _)⟩
  have marked : front ++ [item] <+: front ++ item :: back := by simp
  rcases List.prefix_or_prefix_of_prefix starts marked with shorter | longer
  · rcases List.prefix_concat_iff.mp shorter with same | within
    · exact absurd (by simp [same]) foreign
    · exact within
  · exact absurd (longer.subset (by simp)) foreign

/-- A mention lies in front of a foreign item or behind it, by induction over the front. -/
theorem infix_append_foreign (foreign : item ∉ name) (nonempty : name ≠ [])
    : name <:+: front ++ item :: back ↔ name <:+: front ∨ name <:+: back := by
  induction front with
  | nil =>
      have apart : ¬ name <+: item :: back := by
        rintro ⟨more, same⟩
        cases name with
        | nil => exact nonempty rfl
        | cons first others => exact foreign (by simp [(List.cons.inj same).1])
      simp [List.infix_cons_iff, apart, nonempty]
  | cons first front ih =>
      rw [List.cons_append, List.infix_cons_iff, ← List.cons_append,
        prefix_append_foreign foreign, ih, List.infix_cons_iff, or_assoc]

theorem infix_append_apart {head : α} {others : List α} (apart : head ∉ front)
    : head :: others <:+: front ++ back ↔ head :: others <:+: back := by
  induction front with
  | nil => rfl
  | cons item front ih =>
      obtain ⟨here, later⟩ := not_or.mp (List.mem_cons.not.mp apart)
      have differs : ¬ head :: others <+: item :: (front ++ back) :=
        fun starts => here (List.cons_prefix_cons.mp starts).1
      rw [List.cons_append, List.infix_cons_iff, or_iff_right differs, ih later]

variable [DecidableEq α] (name) (edit : List α → List α)

/-- Edits what is behind the first mention of the name. -/
def editFirst : List α → List α
  | [] => []
  | item :: rest =>
      if name <+: item :: rest then name ++ edit ((item :: rest).drop name.length)
      else item :: editFirst rest

variable {name edit}

theorem editFirst_cons (apart : ¬ name <+: item :: items)
    : editFirst name edit (item :: items) = item :: editFirst name edit items :=
  if_neg apart

theorem editFirst_append_of_name (nonempty : name ≠ []) (behind : List α)
    : editFirst name edit (name ++ behind) = name ++ edit behind := by
  obtain ⟨head, others, rfl⟩ := List.exists_cons_of_ne_nil nonempty
  have starts : head :: others <+: head :: (others ++ behind) :=
    List.prefix_append (head :: others) behind
  rw [List.cons_append, editFirst, if_pos starts, ← List.cons_append, List.drop_left]

/-- Nothing is edited where the name is not mentioned, by induction over the items. -/
theorem editFirst_unmentioned (none : ¬ name <:+: items) : editFirst name edit items = items := by
  induction items with
  | nil => rfl
  | cons item items ih =>
      rw [List.infix_cons_iff, not_or] at none
      rw [editFirst_cons none.1, ih none.2]

/-- The first mention is in front of a foreign item or behind it, by induction over the front. -/
theorem editFirst_append_foreign (foreign : item ∉ name) (nonempty : name ≠ [])
    (stops : ∀ front back, edit (front ++ item :: back) = edit front ++ item :: back)
    : editFirst name edit (front ++ item :: back)
      = if name <:+: front then editFirst name edit front ++ item :: back
        else front ++ item :: editFirst name edit back := by
  induction front with
  | nil =>
      have apart : ¬ name <+: [] ++ item :: back := by
        rw [prefix_append_foreign foreign]
        simpa using nonempty
      rw [List.nil_append] at apart ⊢
      rw [editFirst_cons apart, if_neg (by simpa using nonempty)]
      rfl
  | cons first front ih =>
      by_cases starts : name <+: first :: front
      · have within : name.length ≤ (first :: front).length := starts.length_le
        have starts' : name <+: first :: (front ++ item :: back) :=
          (prefix_append_foreign foreign).mpr starts
        rw [List.cons_append, editFirst, if_pos starts', editFirst, if_pos starts,
          if_pos starts.isInfix, ← List.cons_append, List.drop_append_of_le_length within, stops,
          List.append_assoc]
      · have starts' : ¬ name <+: first :: (front ++ item :: back) :=
          fun begins => starts ((prefix_append_foreign foreign).mp begins)
        rw [List.cons_append, editFirst_cons starts', ih, editFirst_cons starts,
          List.cons_append, List.cons_append]
        by_cases mentioned : name <:+: front
        · rw [if_pos mentioned, if_pos (List.infix_cons mentioned)]
        · have apart : ¬ name <:+: first :: front := fun within =>
            (List.infix_cons_iff.mp within).elim starts mentioned
          rw [if_neg mentioned, if_neg apart]

theorem infix_editFirst (mentioned : name <:+: items) (nonempty : name ≠ [])
    : name <:+: editFirst name edit items := by
  induction items with
  | nil => exact absurd (List.infix_nil.mp mentioned) nonempty
  | cons item items ih =>
      rw [editFirst]
      split
      next => exact (List.prefix_append _ _).isInfix
      next apart =>
        rw [List.infix_cons_iff, or_iff_right apart] at mentioned
        exact List.infix_cons (ih mentioned)

/-- No shorter start comes about by an edit, by induction over the items. -/
theorem prefix_of_prefix_editFirst {start : List α} (starts : start <+: editFirst name edit items)
    (shorter : start.length ≤ name.length)
    : start <+: items := by
  induction items generalizing start with
  | nil => exact starts
  | cons item items ih =>
      rw [editFirst] at starts
      split at starts
      next begins =>
        have within := List.prefix_of_prefix_length_le starts (List.prefix_append _ _) shorter
        exact within.trans begins
      next =>
        cases start with
        | nil => exact List.nil_prefix
        | cons first start =>
            obtain ⟨rfl, within⟩ := List.cons_prefix_cons.mp starts
            rw [List.length_cons] at shorter
            exact List.cons_prefix_cons.mpr ⟨rfl, ih within (by omega)⟩

/-- A second edit changes nothing more, by induction over the items. -/
theorem editFirst_editFirst (again : ∀ items, edit (edit items) = edit items)
    : editFirst name edit (editFirst name edit items) = editFirst name edit items := by
  have first {items : List α} (starts : name <+: items) (nonempty : items ≠ [])
      : editFirst name edit items = name ++ edit (items.drop name.length) := by
    cases items with
    | nil => exact absurd rfl nonempty
    | cons item items => exact if_pos starts
  induction items with
  | nil => rfl
  | cons item items ih =>
      by_cases starts : name <+: item :: items
      · rw [editFirst, if_pos starts]
        by_cases empty : name ++ edit ((item :: items).drop name.length) = []
        · rw [empty]
          rfl
        · rw [first (List.prefix_append _ _) empty, List.drop_left, again]
      · have apart : ¬ name <+: item :: editFirst name edit items := by
          intro begins
          cases name with
          | nil => exact starts List.nil_prefix
          | cons head name =>
              obtain ⟨rfl, within⟩ := List.cons_prefix_cons.mp begins
              refine starts (List.cons_prefix_cons.mpr ⟨rfl, ?_⟩)
              exact prefix_of_prefix_editFirst within (by simp)
        rw [editFirst_cons starts, editFirst_cons apart, ih]

/-- In front of the start of a name, nothing is edited, by induction over the front. -/
theorem editFirst_append_apart {head : α} {others : List α} (apart : head ∉ front)
    : editFirst (head :: others) edit (front ++ back)
      = front ++ editFirst (head :: others) edit back := by
  induction front with
  | nil => rfl
  | cons item front ih =>
      obtain ⟨here, later⟩ := not_or.mp (List.mem_cons.not.mp apart)
      have differs : ¬ head :: others <+: item :: (front ++ back) :=
        fun starts => here (List.cons_prefix_cons.mp starts).1
      rw [List.cons_append, editFirst_cons differs, ih later, List.cons_append]

theorem head?_editFirst (items : List α) (nonempty : name ≠ [])
    : (editFirst name edit items).head? = items.head? := by
  cases items with
  | nil => rfl
  | cons item items =>
      rw [editFirst]
      split
      next starts =>
        obtain ⟨head, others, rfl⟩ := List.exists_cons_of_ne_nil nonempty
        rw [(List.cons_prefix_cons.mp starts).1]
        rfl
      next => rfl

/-- What holds of all items holds of them where they are edited, by induction over them. -/
theorem all_editFirst {holds : α → Bool}
    (edited : ∀ items, (edit items).all holds = items.all holds)
    : (editFirst name edit items).all holds = items.all holds := by
  induction items with
  | nil => rfl
  | cons item items ih =>
      rw [editFirst]
      split
      next starts =>
        obtain ⟨behind, same⟩ := starts
        rw [← same, List.drop_left, List.all_append, List.all_append, edited]
      next => rw [List.all_cons, List.all_cons, ih]

/-- What is behind the first mention of the name. -/
def behindFirst (name : List α) : List α → Option (List α)
  | [] => none
  | item :: rest =>
      if name <+: item :: rest then some ((item :: rest).drop name.length)
      else behindFirst name rest

/-- An edit keeps what it does not change behind the first mention, by induction. -/
theorem editFirst_eq_self_iff (mentioned : name <:+: items) (nonempty : name ≠ [])
    : editFirst name edit items = items
      ↔ ∃ behind, behindFirst name items = some behind ∧ edit behind = behind := by
  induction items with
  | nil => exact absurd (List.infix_nil.mp mentioned) nonempty
  | cons item items ih =>
      rw [editFirst, behindFirst]
      split
      next starts =>
        obtain ⟨behind, same⟩ := starts
        rw [← same, List.drop_left, List.append_cancel_left_eq]
        simp
      next apart =>
        rw [List.infix_cons_iff, or_iff_right apart] at mentioned
        rw [List.cons.injEq, ih mentioned]
        simp

end FirstMention

end AiSdlc.Js
