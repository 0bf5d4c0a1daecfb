import AiSdlc.Async.Pool

/-! Programs that run side by side and take turns: a thread gives up its turn only where it
awaits a reply, or is done. Between two such points it has the state for itself, so an invariant
has to hold where turns end, and may be relied on where they begin.
-/

namespace AiSdlc.Async

open AiSdlc.Transition

variable {Request : Type} {Reply : Request → Type} {State Event α : Type}

/-- A program rests where it is done, or awaits a reply. -/
def Program.Rests (awaits : Request → Bool) : Program Request Reply α → Prop
  | .done _ => True
  | .ask request _ => awaits request = true

/-- Every thread rests, but for one that may not. -/
def Pool.RestsBut (awaits : Request → Bool) (thread : Option Nat)
    (pool : Pool State Request Reply α)
    : Prop :=
  ∀ other program, pool.threads[other]? = some program → some other ≠ thread →
    program.Rests awaits

/-- A thread goes on, another one starts, and an event happens, only while the others rest. -/
def takesTurn (awaits : Request → Bool) (pool : Pool State Request Reply α)
    : PoolLabel Event Request Reply α → Prop
  | .act thread _ _ => pool.RestsBut awaits (some thread)
  | .start _ | .event _ => pool.RestsBut awaits none

/-- The pools whose threads take turns. -/
def turnSystem (awaits : Request → Bool) (initial : State → Prop)
    (environment : Environment State Request Reply) (external : State → Event → State → Prop)
    (starts : Program Request Reply α → Prop)
    : System (Pool State Request Reply α) (PoolLabel Event Request Reply α) :=
  (poolSystem initial environment external starts).restrict (takesTurn awaits)

/-- The replies to one of the threads: before the reply to a request that it awaits, the other
ones may have left any state that meets the invariant.
-/
def resumed (awaits : Request → Bool) (invariant : State → Prop)
    (environment : Environment State Request Reply)
    : Environment State Request Reply :=
  fun state request reply after =>
    ∃ resumes, (if awaits request then invariant resumes else resumes = state)
      ∧ environment resumes request reply after

/-- A program that meets the invariant at each of its requests and at its end, whatever the
other ones do meanwhile.
-/
def Program.Cooperates (awaits : Request → Bool) (invariant : State → Prop)
    (environment : Environment State Request Reply) (program : Program Request Reply α)
    (state : State)
    : Prop :=
  program.Ensures (resumed awaits invariant environment) (fun state _ => invariant state)
    (fun _ state => invariant state) state

section Turns

variable {awaits : Request → Bool} {invariant : State → Prop}
  {environment : Environment State Request Reply} {program : Program Request Reply α}
  {state other : State}

theorem Program.Cooperates.holds
    (cooperates : program.Cooperates awaits invariant environment state)
    : invariant state := by
  cases program with
  | done value => exact cooperates
  | ask request next => exact cooperates.1

/-- A program that rests goes on from any state that meets the invariant. -/
theorem Program.Cooperates.of_rests
    (cooperates : program.Cooperates awaits invariant environment state)
    (rests : program.Rests awaits) (holds : invariant other)
    : program.Cooperates awaits invariant environment other := by
  cases program with
  | done value => exact holds
  | ask request next =>
      refine ⟨holds, fun reply after replied => cooperates.2 reply after ?_⟩
      obtain ⟨resumes, left, answered⟩ := replied
      have awaited : awaits request = true := rests
      rw [if_pos awaited] at left
      exact ⟨resumes, by rwa [if_pos awaited], answered⟩

variable {initial : State → Prop} {external : State → Event → State → Prop}
  {starts : Program Request Reply α → Prop} {labels : List (PoolLabel Event Request Reply α)}
  {pool : Pool State Request Reply α}

/-- Where every thread cooperates from any state that meets the invariant, the invariant holds
and every thread goes on from the current state, along every run. A thread that acts gets its
reply in the current state, and the other ones rest.
-/
theorem cooperates_of_run
    (safe : ∀ program state, starts program → invariant state →
      program.Cooperates awaits invariant environment state)
    (begins : ∀ state, initial state → invariant state)
    (keeps : ∀ state event after, invariant state → external state event after →
      invariant after)
    (run : (turnSystem awaits initial environment external starts).Run labels pool)
    : invariant pool.state
      ∧ ∀ (thread : Nat) (program : Program Request Reply α),
        pool.threads[thread]? = some program →
        program.Cooperates awaits invariant environment pool.state := by
  induction run with
  | @start pool initially =>
      refine ⟨begins _ initially.1, fun thread program found => ?_⟩
      rw [initially.2] at found
      contradiction
  | @next labels pool after label earlier taken ih =>
      obtain ⟨holds, cooperate⟩ := ih
      obtain ⟨turn, step⟩ := taken
      cases step with
      | @event state reached threads event happened =>
          have next : invariant reached := keeps _ _ _ holds happened
          refine ⟨next, fun thread program found => ?_⟩
          exact (cooperate thread program found).of_rests (turn thread program found nofun) next
      | @start state threads program permitted =>
          refine ⟨holds, fun thread found there => ?_⟩
          rcases Nat.lt_or_ge thread threads.length with before | beyond
          · rw [List.getElem?_append_left before] at there
            exact cooperate thread found there
          · rw [List.getElem?_append_right beyond] at there
            obtain ⟨_, rfl⟩ := List.getElem?_eq_some_iff.mp there
            simpa using safe program state permitted holds
      | @act state reached threads actor request next reply running answered =>
          have acts := cooperate actor _ running
          have onward : (next reply).Cooperates awaits invariant environment reached := by
            refine acts.2 reply reached ⟨state, ?_, answered⟩
            split
            · exact holds
            · rfl
          refine ⟨onward.holds, fun thread program found => ?_⟩
          by_cases same : actor = thread
          · subst same
            have inside : actor < threads.length := (List.getElem?_eq_some_iff.mp running).1
            rw [List.getElem?_set_self inside] at found
            exact Option.some.inj found ▸ onward
          · rw [List.getElem?_set_ne same] at found
            have apart : some thread ≠ some actor := fun equal => same (Option.some.inj equal).symm
            exact (cooperate thread program found).of_rests (turn thread program found apart)
              onward.holds

end Turns

end AiSdlc.Async
