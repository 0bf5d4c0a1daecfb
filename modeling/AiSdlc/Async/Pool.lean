import AiSdlc.Async.Program
import AiSdlc.Transition.System

/-! Programs that run side by side over one state. Their requests are answered one at a time,
in any order and with other events in between. What a program ensures about its own exchanges,
whatever the replies, it ensures in every interleaving.
-/

namespace AiSdlc.Async

open AiSdlc.Transition

/-- A request with the reply it got. -/
structure Interaction (Request : Type) (Reply : Request → Type) where
  request : Request
  reply : Reply request

variable {Request : Type} {Reply : Request → Type} {State Event α : Type}

/-- The surroundings that reply anything and only keep the log, the latest exchange first. -/
def logged : Environment (List (Interaction Request Reply)) Request Reply :=
  fun log request reply after => after = ⟨request, reply⟩ :: log

/-- The shared state, and what is left of each program that was started. -/
structure Pool (State Request : Type) (Reply : Request → Type) (α : Type) where
  state : State
  threads : List (Program Request Reply α)

inductive PoolLabel (Event Request : Type) (Reply : Request → Type) (α : Type)
  | event (event : Event)
  | start (program : Program Request Reply α)
  | act (thread : Nat) (request : Request) (reply : Reply request)

/-- An event changes the state, a program starts, or a thread has its request answered. -/
inductive Pool.Step (environment : Environment State Request Reply)
    (external : State → Event → State → Prop) (starts : Program Request Reply α → Prop)
    : Pool State Request Reply α → PoolLabel Event Request Reply α
      → Pool State Request Reply α → Prop
  | event {state after : State} {threads : List (Program Request Reply α)} {event : Event}
      (happened : external state event after)
      : Step environment external starts ⟨state, threads⟩ (.event event) ⟨after, threads⟩
  | start {state : State} {threads : List (Program Request Reply α)}
      {program : Program Request Reply α} (permitted : starts program)
      : Step environment external starts ⟨state, threads⟩ (.start program)
          ⟨state, threads ++ [program]⟩
  | act {state after : State} {threads : List (Program Request Reply α)} {thread : Nat}
      {request : Request} {next : Reply request → Program Request Reply α}
      {reply : Reply request} (running : threads[thread]? = some (.ask request next))
      (answered : environment state request reply after)
      : Step environment external starts ⟨state, threads⟩ (.act thread request reply)
          ⟨after, threads.set thread (next reply)⟩

/-- The pools that start without threads. -/
def poolSystem (initial : State → Prop) (environment : Environment State Request Reply)
    (external : State → Event → State → Prop) (starts : Program Request Reply α → Prop)
    : System (Pool State Request Reply α) (PoolLabel Event Request Reply α) :=
  {
    initial := fun pool => initial pool.state ∧ pool.threads = []
    step := Pool.Step environment external starts
  }

/-- What a label adds to the log of a thread. -/
def PoolLabel.interaction? (thread : Nat)
    : PoolLabel Event Request Reply α → Option (Interaction Request Reply)
  | act other request reply => if other = thread then some ⟨request, reply⟩ else none
  | event _ | start _ => none

theorem PoolLabel.eq_act_of_interaction {thread : Nat}
    {label : PoolLabel Event Request Reply α} {exchange : Interaction Request Reply}
    (found : label.interaction? thread = some exchange)
    : label = .act thread exchange.request exchange.reply := by
  cases label with
  | event event => contradiction
  | start program => contradiction
  | act actor request reply =>
      by_cases same : actor = thread
      · simp only [interaction?, if_pos same, Option.some.injEq] at found
        rw [← found, same]
      · simp [interaction?, same] at found

/-- The exchanges of one thread, the latest one first. -/
def ownLog (thread : Nat) (labels : List (PoolLabel Event Request Reply α))
    : List (Interaction Request Reply) :=
  labels.filterMap (PoolLabel.interaction? thread)

@[simp]
theorem ownLog_start {thread : Nat} {program : Program Request Reply α}
    {labels : List (PoolLabel Event Request Reply α)}
    : ownLog thread (.start program :: labels) = ownLog thread labels :=
  rfl

@[simp]
theorem ownLog_act_self {thread : Nat} {request : Request} {reply : Reply request}
    {labels : List (PoolLabel Event Request Reply α)}
    : ownLog thread (.act thread request reply :: labels)
      = ⟨request, reply⟩ :: ownLog thread labels := by
  simp [ownLog, PoolLabel.interaction?]

theorem ownLog_act_other {thread other : Nat} {request : Request} {reply : Reply request}
    {labels : List (PoolLabel Event Request Reply α)} (apart : other ≠ thread)
    : ownLog thread (.act other request reply :: labels) = ownLog thread labels := by
  simp [ownLog, PoolLabel.interaction?, apart]

section Runs

variable {initial : State → Prop} {environment : Environment State Request Reply}
  {external : State → Event → State → Prop} {starts : Program Request Reply α → Prop}
  {labels : List (PoolLabel Event Request Reply α)} {pool next : Pool State Request Reply α}

/-- A thread that was not started has no log, by the run invariant rule. -/
theorem Pool.ownLog_of_absent
    (run : (poolSystem initial environment external starts).Run labels pool)
    : ∀ thread, pool.threads.length ≤ thread → ownLog thread labels = [] := by
  refine run.invariant
    (fun labels pool => ∀ thread, pool.threads.length ≤ thread → ownLog thread labels = [])
    (fun _ _ _ _ => rfl) ?_
  intro labels pool label next absent taken thread beyond
  cases taken with
  | event happened => exact absent thread beyond
  | start permitted =>
      rw [List.length_append] at beyond
      exact absent thread (Nat.le_of_add_right_le beyond)
  | @act _ _ _ actor _ _ _ running answered =>
      rw [List.length_set] at beyond
      have started : actor < _ := (List.getElem?_eq_some_iff.mp running).1
      rw [ownLog_act_other (by omega)]
      exact absent thread beyond

/-- What every program ensures about its own exchanges holds of every thread in every
interleaving, by the run invariant rule.
-/
theorem Pool.ensures_of_run
    {allowed : List (Interaction Request Reply) → Request → Prop}
    {post : α → List (Interaction Request Reply) → Prop}
    (safe : ∀ program, starts program → program.Ensures logged allowed post [])
    (run : (poolSystem initial environment external starts).Run labels pool)
    : ∀ (thread : Nat) (program : Program Request Reply α),
        pool.threads[thread]? = some program →
        program.Ensures logged allowed post (ownLog thread labels) := by
  induction run with
  | start initially => simp [initially.2]
  | @next labels pool after label earlier taken ih =>
      intro thread program found
      cases taken with
      | event happened => exact ih thread program found
      | @start state threads started permitted =>
          rcases Nat.lt_or_ge thread threads.length with before | beyond
          · rw [List.getElem?_append_left before] at found
            exact ih thread program found
          · rw [List.getElem?_append_right beyond] at found
            obtain ⟨_, rfl⟩ := List.getElem?_eq_some_iff.mp found
            rw [ownLog_start, Pool.ownLog_of_absent earlier thread beyond]
            simpa using safe started permitted
      | @act state after threads actor request next reply running answered =>
          by_cases same : actor = thread
          · subst same
            have inside : actor < threads.length := (List.getElem?_eq_some_iff.mp running).1
            rw [List.getElem?_set_self inside] at found
            cases found
            rw [ownLog_act_self]
            exact (ih actor _ running).2 reply _ rfl
          · rw [List.getElem?_set_ne same] at found
            rw [ownLog_act_other same]
            exact ih thread program found

theorem Pool.allowed_of_act
    {allowed : List (Interaction Request Reply) → Request → Prop}
    {post : α → List (Interaction Request Reply) → Prop}
    (safe : ∀ program, starts program → program.Ensures logged allowed post [])
    (run : (poolSystem initial environment external starts).Run labels pool) {thread : Nat}
    {request : Request} {reply : Reply request}
    (taken : (poolSystem initial environment external starts).step pool
      (.act thread request reply) next)
    : allowed (ownLog thread labels) request := by
  cases taken with
  | act running answered => exact (Pool.ensures_of_run safe run thread _ running).1

end Runs

-----------------------------------------------------------------------------------------
-- Playing a schedule
-----------------------------------------------------------------------------------------

/-- What happens next in a schedule. -/
inductive Move (Call Request : Type) (Reply : Request → Type) (α : Type)
  | event (call : Call)
  | start (program : Program Request Reply α)
  | act (thread : Nat)

variable {Call : Type}

/-- Makes a move with a handler that answers requests and one that performs calls. -/
def Pool.move (handler : State → (request : Request) → Option (Reply request × State))
    (perform : Call → State → Option (Event × State)) (pool : Pool State Request Reply α)
    : Move Call Request Reply α
      → Option (PoolLabel Event Request Reply α × Pool State Request Reply α)
  | .event call =>
      match perform call pool.state with
      | some (event, after) => some (.event event, { pool with state := after })
      | none => none
  | .start program => some (.start program, { pool with threads := pool.threads ++ [program] })
  | .act thread =>
      match pool.threads[thread]? with
      | some (.ask request next) =>
          match handler pool.state request with
          | some (reply, after) =>
              some (.act thread request reply,
                { state := after, threads := pool.threads.set thread (next reply) })
          | none => none
      | some (.done _) | none => none

/-- Plays a schedule while the handler can answer, and gives the labels, the latest one first,
with the pool at the end.
-/
def Pool.play (handler : State → (request : Request) → Option (Reply request × State))
    (perform : Call → State → Option (Event × State))
    : List (Move Call Request Reply α) → List (PoolLabel Event Request Reply α)
      → Pool State Request Reply α
      → Option (List (PoolLabel Event Request Reply α) × Pool State Request Reply α)
  | [], labels, pool => some (labels, pool)
  | move :: rest, labels, pool =>
      match pool.move handler perform move with
      | some (label, next) => Pool.play handler perform rest (label :: labels) next
      | none => none

section Play

variable {initial : State → Prop} {environment : Environment State Request Reply}
  {external : State → Event → State → Prop} {starts : Program Request Reply α → Prop}
  {handler : State → (request : Request) → Option (Reply request × State)}
  {perform : Call → State → Option (Event × State)}
  {labels later : List (PoolLabel Event Request Reply α)}
  {pool next : Pool State Request Reply α}

/-- A move is a step of the pool. -/
theorem Pool.step_of_move
    (answers : ∀ state request reply after, handler state request = some (reply, after) →
      environment state request reply after)
    (performs : ∀ call state event after, perform call state = some (event, after) →
      external state event after)
    {move : Move Call Request Reply α} (permitted : ∀ program, move = .start program →
      starts program)
    {label : PoolLabel Event Request Reply α}
    (moved : pool.move handler perform move = some (label, next))
    : Pool.Step environment external starts pool label next := by
  cases move with
  | event call =>
      simp only [Pool.move] at moved
      split at moved
      · rename_i event after performed
        obtain ⟨rfl, rfl⟩ := Prod.mk.inj (Option.some.inj moved)
        exact .event (performs _ _ _ _ performed)
      · contradiction
  | start program =>
      obtain ⟨rfl, rfl⟩ := Prod.mk.inj (Option.some.inj moved)
      exact .start (permitted program rfl)
  | act thread =>
      simp only [Pool.move] at moved
      split at moved
      · rename_i request rest running
        split at moved
        · rename_i reply after handled
          obtain ⟨rfl, rfl⟩ := Prod.mk.inj (Option.some.inj moved)
          exact .act running (answers _ _ _ _ handled)
        · contradiction
      · contradiction
      · contradiction

/-- A schedule that can be played is a run, by induction over its moves. -/
theorem Pool.run_of_play
    (answers : ∀ state request reply after, handler state request = some (reply, after) →
      environment state request reply after)
    (performs : ∀ call state event after, perform call state = some (event, after) →
      external state event after)
    {moves : List (Move Call Request Reply α)}
    (permitted : ∀ program, .start program ∈ moves → starts program)
    (run : (poolSystem initial environment external starts).Run labels pool)
    (played : pool.play handler perform moves labels = some (later, next))
    : (poolSystem initial environment external starts).Run later next := by
  induction moves generalizing labels pool with
  | nil =>
      obtain ⟨rfl, rfl⟩ := Prod.mk.inj (Option.some.inj played)
      exact run
  | cons move rest ih =>
      simp only [Pool.play] at played
      split at played
      · rename_i label reached moved
        have step := Pool.step_of_move answers performs
          (fun program same => permitted program (by simp [same])) moved
        exact ih (fun program member => permitted program (List.mem_cons_of_mem _ member))
          (.next run step) played
      · contradiction

end Play

end AiSdlc.Async
