import AiSdlc.Async.Block

/-! Statements beside other actors, which act before each of the requests. What is known when a
request is made holds for its reply only where the other actors keep it.
-/

namespace AiSdlc.Async

variable {Request State : Type}

/-- The replies to requests that find what other actors have made of the state. -/
def beside {Reply : Request → Type} (others : State → State → Prop)
    (replies : Environment State Request Reply)
    : Environment State Request Reply :=
  fun state request reply after =>
    ∃ between, others state between ∧ replies between request reply after

/-- A condition that other actors keep. -/
def Unaffected (others : State → State → Prop) (invariant : State → Prop) : Prop :=
  ∀ state between, others state between → invariant state → invariant between

theorem Unaffected.and {others : State → State → Prop} {first second : State → Prop}
    (left : Unaffected others first) (right : Unaffected others second)
    : Unaffected others fun state => first state ∧ second state :=
  fun state between acted holds =>
    ⟨left state between acted holds.1, right state between acted holds.2⟩

section Blocks

variable {Answer : Request → Type} {Locals Thrown α β : Type}
  {others : State → State → Prop}
  {replies environment
    : Environment State Request (fun request => Except Thrown (Answer request))}
  {before middle after exit : State → Prop}

/-- A block that returns nothing early, with conditions on the state for its start, its normal
completion and its errors.
-/
abbrev Block.Leads
    (environment : Environment State Request (fun request => Except Thrown (Answer request)))
    (before after exit : State → Prop) (block : Block Answer Locals Thrown Empty α)
    : Prop :=
  block.Triple environment (fun _ _ => True) (fun _ => before) (fun _ => after) fun _ => exit

/-- A call finds the state as the other actors leave it. -/
theorem Block.leads_call {request : Request}
    (unaffected : Unaffected others before)
    (answers : ∀ between next answer, before between →
      replies between request (.ok answer) next → after next)
    (throws : ∀ between next error, before between →
      replies between request (.error error) next → exit next)
    : (Block.call request : Block Answer Locals Thrown Empty _).Leads (beside others replies)
        before after exit := by
  intro locals state holds
  refine Block.ensures_call.mpr ⟨trivial, ?_, ?_⟩
  · rintro answer next ⟨between, acted, replied⟩
    exact answers between next answer (unaffected state between acted holds) replied
  · rintro error next ⟨between, acted, replied⟩
    exact throws between next error (unaffected state between acted holds) replied

theorem Block.leads_call_then {request : Request} (told : Answer request → State → Prop)
    {next : Answer request → Block Answer Locals Thrown Empty α}
    (unaffected : Unaffected others before)
    (answers : ∀ between reached answer, before between →
      replies between request (.ok answer) reached → told answer reached)
    (throws : ∀ between reached error, before between →
      replies between request (.error error) reached → exit reached)
    (rest : ∀ answer, (next answer).Leads (beside others replies) (told answer) after exit)
    : ((Block.call request : Block Answer Locals Thrown Empty _) >>= next).Leads
        (beside others replies) before after exit := by
  have tells : (Block.call request : Block Answer Locals Thrown Empty _).Yields
      (beside others replies) (fun _ _ => True) (fun _ => before) (fun answer _ => told answer)
      fun _ => exit := by
    apply Block.yields_call
    · exact fun _ _ _ => trivial
    · rintro locals state reached answer holds ⟨between, acted, replied⟩
      exact answers between reached answer (unaffected state between acted holds) replied
    · rintro locals state reached error holds ⟨between, acted, replied⟩
      exact throws between reached error (unaffected state between acted holds) replied
  apply Block.Yields.triple
  exact Block.yields_bind tells fun answer => (rest answer).yields

/-- A handler starts with what is known where its `try` block throws. -/
theorem Block.leads_attempt {block : Block Answer Locals Thrown Empty α}
    {recover : Thrown → Block Answer Locals Thrown Empty α}
    (tried : block.Leads environment before after middle)
    (recovered : ∀ error, (recover error).Leads environment middle after exit)
    : (block.attempt recover).Leads environment before after exit := by
  apply Block.Yields.triple
  exact Block.yields_attempt_of_empty tried.yields fun error => (recovered error).yields

/-- The last statements start where the first ones end, which throw nothing. -/
theorem Block.leads_always {block : Block Answer Locals Thrown Empty α}
    {last : Block Answer Locals Thrown Empty Unit}
    (first : block.Leads environment before middle fun _ => False)
    (lasts : last.Leads environment middle after exit)
    : (block.always last).Leads environment before after exit := by
  intro locals state holds
  refine Program.ensures_bind.mpr (Program.Ensures.mono (first locals state holds)
    (fun _ _ permitted => permitted) ?_)
  rintro ⟨completion, locals⟩ state ended
  cases completion with
  | returned result => exact result.elim
  | threw error => exact ended.elim
  | normal value =>
      refine Program.ensures_bind.mpr (Program.Ensures.mono (lasts locals state ended)
        (fun _ _ permitted => permitted) ?_)
      rintro ⟨final, locals⟩ state finished
      cases final with
      | returned result => exact result.elim
      | normal | threw => exact finished

end Blocks

end AiSdlc.Async
