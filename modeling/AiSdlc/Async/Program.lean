import Mathlib.Logic.Basic

/-! Programs that ask their surroundings for replies, and what holds along their executions.
An execution may stop between any two requests, so the states it passes are reached by the
runs that are cut short.
-/

namespace AiSdlc.Async

/-- A program is done with a value, or makes a request and goes on with the reply. -/
inductive Program (Request : Type) (Reply : Request → Type) (α : Type) : Type
  | done (value : α)
  | ask (request : Request) (next : Reply request → Program Request Reply α)

variable {Request : Type} {Reply : Request → Type} {State α β : Type}

def Program.bind (program : Program Request Reply α) (next : α → Program Request Reply β)
    : Program Request Reply β :=
  match program with
  | done value => next value
  | ask request rest => .ask request fun reply => (rest reply).bind next

/-- The replies that a request may get in a state, each with the state after it. -/
abbrev Environment (State Request : Type) (Reply : Request → Type) : Type :=
  State → (request : Request) → Reply request → State → Prop

/-- A complete execution: every request got a reply, and the program is done. -/
inductive Program.Exec (environment : Environment State Request Reply)
    : Program Request Reply α → State → α → State → Prop
  | done {value : α} {state : State} : Exec environment (.done value) state value state
  | ask {request : Request} {next : Reply request → Program Request Reply α}
      {reply : Reply request} {state middle final : State} {value : α}
      (answered : environment state request reply middle)
      (rest : Exec environment (next reply) middle value final)
      : Exec environment (.ask request next) state value final

/-- An execution that is cut short after some of its requests, or after all of them. -/
inductive Program.Cut (environment : Environment State Request Reply)
    : Program Request Reply α → State → State → Prop
  | stop {program : Program Request Reply α} {state : State}
      : Cut environment program state state
  | ask {request : Request} {next : Reply request → Program Request Reply α}
      {reply : Reply request} {state middle final : State}
      (answered : environment state request reply middle)
      (rest : Cut environment (next reply) middle final)
      : Cut environment (.ask request next) state final

/-- Every execution makes only allowed requests, and ends as the postcondition says. -/
def Program.Ensures (environment : Environment State Request Reply)
    (allowed : State → Request → Prop) (post : α → State → Prop)
    : Program Request Reply α → State → Prop
  | .done value, state => post value state
  | .ask request next, state =>
      allowed state request
      ∧ ∀ reply after, environment state request reply after →
          Ensures environment allowed post (next reply) after

variable {environment : Environment State Request Reply}
  {allowed : State → Request → Prop}

@[simp]
theorem Program.ensures_ask {post : α → State → Prop} {request : Request}
    {next : Reply request → Program Request Reply α} {state : State}
    : (Program.ask request next).Ensures environment allowed post state
      ↔ allowed state request
        ∧ ∀ reply after, environment state request reply after →
            (next reply).Ensures environment allowed post after :=
  Iff.rfl

/-- A sequence ensures what its second part ensures wherever the first one ends, by
induction over the first part.
-/
@[simp]
theorem Program.ensures_bind {program : Program Request Reply α}
    {next : α → Program Request Reply β} {post : β → State → Prop} {state : State}
    : (program.bind next).Ensures environment allowed post state
      ↔ program.Ensures environment allowed
          (fun value middle => (next value).Ensures environment allowed post middle)
          state := by
  induction program generalizing state with
  | done value => exact Iff.rfl
  | ask request rest ih =>
      simp only [Program.bind, ensures_ask]
      exact and_congr_right fun _ => forall₃_congr fun reply after _ => ih reply

theorem Program.Ensures.mono {program : Program Request Reply α}
    {weaker : State → Request → Prop} {post other : α → State → Prop} {state : State}
    (ensured : program.Ensures environment allowed post state)
    (permits : ∀ state request, allowed state request → weaker state request)
    (follows : ∀ value state, post value state → other value state)
    : program.Ensures environment weaker other state := by
  induction program generalizing state with
  | done value => exact follows _ _ ensured
  | ask request rest ih =>
      exact ⟨permits _ _ ensured.1,
        fun reply after answered => ih reply (ensured.2 reply after answered)⟩

/-- A complete execution ends as ensured, by induction over the execution. -/
theorem Program.Ensures.of_exec {program : Program Request Reply α}
    {post : α → State → Prop} {state final : State} {value : α}
    (ensured : program.Ensures environment allowed post state)
    (execution : program.Exec environment state value final)
    : post value final := by
  induction execution with
  | done => exact ensured
  | ask answered _ ih => exact ih (ensured.2 _ _ answered)

/-- An invariant that every allowed request keeps holds wherever the program is cut short,
by induction over the execution.
-/
theorem Program.Ensures.invariant_of_cut {program : Program Request Reply α}
    {post : α → State → Prop} {invariant : State → Prop} {state final : State}
    (ensured : program.Ensures environment allowed post state)
    (kept : ∀ state request reply after, invariant state → allowed state request →
      environment state request reply after → invariant after)
    (holds : invariant state) (execution : program.Cut environment state final)
    : invariant final := by
  induction execution with
  | stop => exact holds
  | ask answered _ ih =>
      exact ih (ensured.2 _ _ answered) (kept _ _ _ _ holds ensured.1 answered)

theorem Program.Exec.cut {program : Program Request Reply α} {state final : State}
    {value : α} (execution : program.Exec environment state value final)
    : program.Cut environment state final := by
  induction execution with
  | done => exact .stop
  | ask answered _ ih => exact .ask answered ih

/-- An execution stays one where more replies are possible, by induction over it. -/
theorem Program.Cut.mono {program : Program Request Reply α} {state final : State}
    {other : Environment State Request Reply} (execution : program.Cut environment state final)
    (permits : ∀ state request reply after, environment state request reply after →
      other state request reply after)
    : program.Cut other state final := by
  induction execution with
  | stop => exact .stop
  | ask answered _ ih => exact .ask (permits _ _ _ _ answered) ih

/-- Where every request gets a reply there is a complete execution, by induction over the
program.
-/
theorem Program.exists_exec
    (replies : ∀ state request, ∃ reply after, environment state request reply after)
    (program : Program Request Reply α) (state : State)
    : ∃ value final, program.Exec environment state value final := by
  induction program generalizing state with
  | done value => exact ⟨value, state, .done⟩
  | ask request next ih =>
      obtain ⟨reply, after, answered⟩ := replies state request
      obtain ⟨value, final, rest⟩ := ih reply after
      exact ⟨value, final, .ask answered rest⟩

/-- Runs a program with a handler that answers its requests, while the handler can. -/
def Program.run (handler : State → (request : Request) → Option (Reply request × State))
    : Program Request Reply α → State → Option (α × State)
  | .done value, state => some (value, state)
  | .ask request next, state =>
      match handler state request with
      | some (reply, after) => Program.run handler (next reply) after
      | none => none

/-- Running a program with replies of the surroundings is an execution, by induction over the
program.
-/
theorem Program.exec_of_run
    {handler : State → (request : Request) → Option (Reply request × State)}
    (answers : ∀ state request reply after, handler state request = some (reply, after) →
      environment state request reply after)
    {program : Program Request Reply α} {state final : State} {value : α}
    (ran : program.run handler state = some (value, final))
    : program.Exec environment state value final := by
  induction program generalizing state with
  | done result =>
      obtain ⟨rfl, rfl⟩ := Prod.mk.inj (Option.some.inj ran)
      exact .done
  | ask request next ih =>
      unfold run at ran
      cases handled : handler state request with
      | some replied =>
          obtain ⟨reply, after⟩ := replied
          simp only [handled] at ran
          exact .ask (answers _ _ _ _ handled) (ih reply ran)
      | none => simp [handled] at ran

end AiSdlc.Async
