import AiSdlc.Async.Block

/-! What statements may do. Where some execution of a block completes normally, whatever the
block ensures holds for what follows it; so a later request that is not allowed is found by
leading an execution up to it.
-/

namespace AiSdlc.Async

section Programs

variable {Request : Type} {Reply : Request → Type} {State α β : Type}
  {environment : Environment State Request Reply}

/-- A complete execution stays one where more replies are possible, by induction over it. -/
theorem Program.Exec.mono {program : Program Request Reply α} {state final : State} {value : α}
    {environment other : Environment State Request Reply}
    (execution : program.Exec environment state value final)
    (permits : ∀ state request reply after, environment state request reply after →
      other state request reply after)
    : program.Exec other state value final := by
  induction execution with
  | done => exact .done
  | ask answered _ ih => exact .ask (permits _ _ _ _ answered) ih

/-- An execution of a program goes on with what follows, by induction over the execution. -/
theorem Program.Exec.bind {program : Program Request Reply α}
    {next : α → Program Request Reply β} {value : α} {result : β}
    {state middle final : State} (first : program.Exec environment state value middle)
    (rest : (next value).Exec environment middle result final)
    : (program.bind next).Exec environment state result final := by
  induction first with
  | done => exact rest
  | ask answered _ ih => exact .ask answered (ih rest)

end Programs

section Blocks

variable {Request : Type} {Answer : Request → Type} {Locals Thrown Result State α β : Type}
  {environment : Environment State Request (fun request => Except Thrown (Answer request))}
  {allowed : State → Request → Prop} {locals : Locals} {state : State}

/-- From every start that meets the first condition, some execution completes normally with
what meets the second one.
-/
def Block.Passes
    (environment : Environment State Request (fun request => Except Thrown (Answer request)))
    (before : Locals → State → Prop) (after : α → Locals → State → Prop)
    (block : Block Answer Locals Thrown Result α)
    : Prop :=
  ∀ locals state, before locals state →
    ∃ value left reached, (block locals).Exec environment state (.normal value, left) reached
      ∧ after value left reached

section Rules

variable {before middle : Locals → State → Prop} {after : α → Locals → State → Prop}
  {last : β → Locals → State → Prop} {block : Block Answer Locals Thrown Result α}
  {next : α → Block Answer Locals Thrown Result β}

theorem Block.passes_pure {value : α}
    (holds : ∀ locals state, before locals state → after value locals state)
    : (pure value : Block Answer Locals Thrown Result α).Passes environment before after :=
  fun locals state start => ⟨value, locals, state, .done, holds locals state start⟩

/-- A sequence completes where its parts do, one after the other. -/
theorem Block.passes_bind (first : block.Passes environment before after)
    (second : ∀ value, (next value).Passes environment (after value) last)
    : (block >>= next).Passes environment before last := by
  intro locals state start
  obtain ⟨value, left, reached, execution, holds⟩ := first locals state start
  obtain ⟨result, final, ended, rest, goal⟩ := second value left reached holds
  exact ⟨result, final, ended, execution.bind rest, goal⟩

theorem Block.passes_call {request : Request} {after : Answer request → Locals → State → Prop}
    (answered : ∀ locals state, before locals state →
      ∃ answer reached, environment state request (.ok answer) reached
        ∧ after answer locals reached)
    : (Block.call request : Block Answer Locals Thrown Result _).Passes environment before
        after := by
  intro locals state start
  obtain ⟨answer, reached, replied, holds⟩ := answered locals state start
  exact ⟨answer, locals, reached, .ask replied .done, holds⟩

/-- A `try` block completes where its statements do. -/
theorem Block.passes_attempt {recover : Thrown → Block Answer Locals Thrown Result α}
    (tried : block.Passes environment before after)
    : (block.attempt recover).Passes environment before after := by
  intro locals state start
  obtain ⟨value, left, reached, execution, holds⟩ := tried locals state start
  exact ⟨value, left, reached, execution.bind .done, holds⟩

theorem Block.passes_ite {condition : Prop} [Decidable condition]
    {other : Block Answer Locals Thrown Result α}
    (taken : condition → block.Passes environment before after)
    (skipped : ¬condition → other.Passes environment before after)
    : (if condition then block else other).Passes environment before after := by
  by_cases holds : condition
  · simpa [holds] using taken holds
  · simpa [holds] using skipped holds

/-- What a sequence ensures, its second part does from where the first one completes. -/
theorem Block.Ensures.advance {post : Completion Thrown Result β → Locals → State → Prop}
    (ensured : (block >>= next).Ensures environment allowed post locals state)
    (passes : block.Passes environment before after) (start : before locals state)
    : ∃ value left reached, after value left reached
        ∧ (next value).Ensures environment allowed post left reached := by
  obtain ⟨value, left, reached, execution, holds⟩ := passes locals state start
  have whole := Block.ensures_bind.mp ensured
  unfold Block.Ensures at whole
  exact ⟨value, left, reached, holds, whole.of_exec execution⟩

end Rules

end Blocks

end AiSdlc.Async
