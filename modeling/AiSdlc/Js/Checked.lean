import Mathlib.Data.List.Forall2

/-! Steps that throw or give a value: a sequence of them succeeds when each of them does. -/

namespace AiSdlc.Js

@[simp]
theorem checked_bind_eq_ok {ε α β : Type} {step : Except ε α} {next : α → Except ε β}
    {result : β}
    : (step >>= next) = .ok result ↔ ∃ value, step = .ok value ∧ next value = .ok result := by
  cases step <;> simp [bind, Except.bind]

@[simp]
theorem checked_pure_eq_ok {ε α : Type} {value result : α}
    : (pure value : Except ε α) = .ok result ↔ value = result := by
  simp [pure, Except.pure]

@[simp]
theorem checked_ite_eq_ok {ε α : Type} {condition : Prop} [Decidable condition]
    {first second : Except ε α} {result : α}
    : (if condition then first else second) = .ok result
      ↔ condition ∧ first = .ok result ∨ ¬condition ∧ second = .ok result := by
  by_cases taken : condition <;> simp [taken]

@[simp]
theorem checked_bind_eq_error {ε α β : Type} {step : Except ε α} {next : α → Except ε β}
    {thrown : ε}
    : (step >>= next) = .error thrown
      ↔ step = .error thrown ∨ ∃ value, step = .ok value ∧ next value = .error thrown := by
  cases step <;> simp [bind, Except.bind]

@[simp]
theorem checked_ite_eq_error {ε α : Type} {condition : Prop} [Decidable condition]
    {first second : Except ε α} {thrown : ε}
    : (if condition then first else second) = .error thrown
      ↔ condition ∧ first = .error thrown ∨ ¬condition ∧ second = .error thrown := by
  by_cases taken : condition <;> simp [taken]

/-- What is thrown while a list is mapped was thrown for an entry, by induction over the list. -/
theorem throws_of_checked_mapM {ε α β : Type} {step : α → Except ε β} {values : List α}
    {thrown : ε} (throws : values.mapM step = .error thrown)
    : ∃ value ∈ values, step value = .error thrown := by
  induction values with
  | nil => exact nomatch throws
  | cons first rest ih =>
      simp only [List.mapM_cons, checked_bind_eq_error] at throws
      rcases throws with here | ⟨_, -, later | ⟨_, -, pure⟩⟩
      · exact ⟨first, List.mem_cons_self, here⟩
      · obtain ⟨value, member, threw⟩ := ih later
        exact ⟨value, List.mem_cons_of_mem _ member, threw⟩
      · exact nomatch pure

/-- A mapped list holds one result for each entry, by induction over the list. -/
theorem checked_mapM_eq_ok {ε α β : Type} {step : α → Except ε β} {values : List α}
    {results : List β}
    : values.mapM step = .ok results
      ↔ List.Forall₂ (fun value result => step value = .ok result) values results := by
  induction values generalizing results with
  | nil =>
      rw [List.mapM_nil, checked_pure_eq_ok, List.forall₂_nil_left_iff]
      exact eq_comm
  | cons first rest ih =>
      simp only [List.mapM_cons, checked_bind_eq_ok, checked_pure_eq_ok,
        List.forall₂_cons_left_iff]
      constructor
      · rintro ⟨result, here, others, later, rfl⟩
        exact ⟨result, others, here, ih.mp later, rfl⟩
      · rintro ⟨result, others, here, later, rfl⟩
        exact ⟨result, here, others, ih.mpr later, rfl⟩

end AiSdlc.Js
