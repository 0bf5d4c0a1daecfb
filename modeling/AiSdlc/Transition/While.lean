import Mathlib.Logic.Basic

/-! Loops whose rounds may throw, go on or leave, unrolled up to a bound. Where an invariant has
every round succeed and a measure decrease, a large enough bound gives the result.
-/

namespace AiSdlc.Transition

variable {Thrown State : Type*}

/-- How a round of a loop ends: it goes on with the next one, or leaves the loop. -/
inductive Flow
  | goOn
  | leave
  deriving DecidableEq, Repr

/-- `while (guard) { round }` for at most so many rounds; there is no result where they do not
suffice.
-/
def whileLoop (guard : State → Bool) (round : State → Except Thrown (Flow × State))
    (bound : Nat) (state : State)
    : Option (Except Thrown State) :=
  if guard state then
    match bound with
    | 0 => none
    | bound + 1 =>
        match round state with
        | .error thrown => some (.error thrown)
        | .ok (.leave, after) => some (.ok after)
        | .ok (.goOn, after) => whileLoop guard round bound after
  else some (.ok state)

section Rules

variable {guard : State → Bool} {round : State → Except Thrown (Flow × State)}
  {invariant post : State → Prop} {measure : State → Nat}

/-- What a round has to establish: the invariant and a smaller measure to go on, the
postcondition to leave.
-/
def Flow.Keeps (invariant post : State → Prop) (measure : State → Nat) (before after : State)
    : Flow → Prop
  | goOn => invariant after ∧ measure after < measure before
  | leave => post after

theorem whileLoop_of_not_guard {bound : Nat} {state : State} (ended : guard state = false)
    : whileLoop guard round bound state = some (.ok state) := by
  unfold whileLoop
  rw [if_neg (by simp [ended])]

theorem whileLoop_succ {bound : Nat} {state after : State} {flow : Flow}
    (goes : guard state = true) (ran : round state = .ok (flow, after))
    : whileLoop guard round (bound + 1) state
      = match flow with
        | .goOn => whileLoop guard round bound after
        | .leave => some (.ok after) := by
  rw [whileLoop, if_pos goes]
  simp only [ran]
  cases flow <;> rfl

/-- The total rule of the loop, by induction over the bound. -/
theorem whileLoop_ensures
    (rounds
      : ∀ state, invariant state → guard state = true →
        ∃ flow after, round state = .ok (flow, after)
          ∧ flow.Keeps invariant post measure state after)
    (live : ∀ state, invariant state → guard state = true → 0 < measure state)
    (ends : ∀ state, invariant state → guard state = false → post state)
    {bound : Nat} {state : State} (holds : invariant state) (enough : measure state ≤ bound)
    : ∃ final, whileLoop guard round bound state = some (.ok final) ∧ post final := by
  induction bound generalizing state with
  | zero =>
      cases guarded : guard state with
      | false => exact ⟨state, whileLoop_of_not_guard guarded, ends state holds guarded⟩
      | true => exact absurd (live state holds guarded) (by omega)
  | succ bound ih =>
      cases guarded : guard state with
      | false => exact ⟨state, whileLoop_of_not_guard guarded, ends state holds guarded⟩
      | true =>
          obtain ⟨flow, after, ran, keeps⟩ := rounds state holds guarded
          rw [whileLoop_succ guarded ran]
          cases flow with
          | goOn => exact ih keeps.1 (by have := keeps.2; omega)
          | leave => exact ⟨after, rfl, keeps⟩

/-- A result stays the same under a larger bound, by induction over the bound. -/
theorem whileLoop_mono {bound larger : Nat} {state : State} {result : Except Thrown State}
    (ended : whileLoop guard round bound state = some result) (most : bound ≤ larger)
    : whileLoop guard round larger state = some result := by
  induction bound generalizing state larger with
  | zero =>
      unfold whileLoop at ended
      cases guarded : guard state with
      | false =>
          rw [whileLoop_of_not_guard guarded]
          simpa [guarded] using ended
      | true => simp [guarded] at ended
  | succ bound ih =>
      obtain ⟨rest, rfl⟩ : ∃ rest, larger = rest + 1 := ⟨larger - 1, by omega⟩
      cases guarded : guard state with
      | false =>
          rw [whileLoop_of_not_guard guarded] at ended ⊢
          exact ended
      | true =>
          unfold whileLoop at ended ⊢
          rw [if_pos guarded] at ended ⊢
          cases ran : round state with
          | error thrown =>
              simp only [ran] at ended ⊢
              exact ended
          | ok passed =>
              obtain ⟨flow, after⟩ := passed
              cases flow with
              | goOn =>
                  simp only [ran] at ended ⊢
                  exact ih ended (by omega)
              | leave =>
                  simp only [ran] at ended ⊢
                  exact ended

end Rules

end AiSdlc.Transition
