import AiSdlc.Async.Program

/-! The statements of an asynchronous function: they share its local variables, await the
replies to requests, and may return early or throw. What was assigned before a throw stays
assigned where the error is caught. The rules for three conditions, one for each way of ending, give
those of triples and of the other special cases.
-/

namespace AiSdlc.Async

/-- How a block of statements ends. -/
inductive Completion (Thrown Result α : Type)
  | normal (value : α)
  | returned (result : Result)
  | threw (error : Thrown)

variable {Request : Type}

/-- A block of statements: the program it runs from the local variables it starts with. -/
def Block (Answer : Request → Type) (Locals Thrown Result α : Type) : Type :=
  Locals → Program Request (fun request => Except Thrown (Answer request))
    (Completion Thrown Result α × Locals)

variable {Answer : Request → Type} {Locals Thrown Result State α β : Type}

/-- The statements of a function run one after the other while they complete normally. -/
def Block.bind (block : Block Answer Locals Thrown Result α)
    (next : α → Block Answer Locals Thrown Result β)
    : Block Answer Locals Thrown Result β :=
  fun locals => (block locals).bind fun
    | (.normal value, locals) => next value locals
    | (.returned result, locals) => .done (.returned result, locals)
    | (.threw error, locals) => .done (.threw error, locals)

instance : Monad (Block Answer Locals Thrown Result) where
  pure value := fun locals => .done (.normal value, locals)
  bind := Block.bind

/-- The values of the local variables. -/
def Block.locals : Block Answer Locals Thrown Result Locals :=
  fun locals => .done (.normal locals, locals)

def Block.assign (change : Locals → Locals) : Block Answer Locals Thrown Result Unit :=
  fun locals => .done (.normal (), change locals)

/-- `return`, with a result built from the local variables. -/
def Block.leave (result : Locals → Result) : Block Answer Locals Thrown Result α :=
  fun locals => .done (.returned (result locals), locals)

def Block.throw (error : Thrown) : Block Answer Locals Thrown Result α :=
  fun locals => .done (.threw error, locals)

/-- `await` of a call, which may throw. -/
def Block.call (request : Request) : Block Answer Locals Thrown Result (Answer request) :=
  fun locals => .ask request fun
    | .ok answer => .done (.normal answer, locals)
    | .error error => .done (.threw error, locals)

/-- `try … catch`: early returns pass through. -/
def Block.attempt (block : Block Answer Locals Thrown Result α)
    (recover : Thrown → Block Answer Locals Thrown Result α)
    : Block Answer Locals Thrown Result α :=
  fun locals => (block locals).bind fun
    | (.normal value, locals) => .done (.normal value, locals)
    | (.returned result, locals) => .done (.returned result, locals)
    | (.threw error, locals) => recover error locals

/-- `if (condition) { … }` without an alternative. -/
def Block.ifThen (condition : Bool) (block : Block Answer Locals Thrown Result Unit)
    : Block Answer Locals Thrown Result Unit :=
  if condition then block else pure ()

/-- `for (const item of items) { … }`. -/
def Block.forEach (items : List β) (body : β → Block Answer Locals Thrown Result Unit)
    : Block Answer Locals Thrown Result Unit :=
  match items with
  | [] => pure ()
  | item :: rest => do
      body item
      Block.forEach rest body

/-- `try … finally`: where the last statements complete normally, the first ones decide. -/
def Block.always (block : Block Answer Locals Thrown Result α)
    (last : Block Answer Locals Thrown Result Unit)
    : Block Answer Locals Thrown Result α :=
  fun locals => (block locals).bind fun (completion, locals) =>
    (last locals).bind fun
      | (.normal _, locals) => .done (completion, locals)
      | (.returned result, locals) => .done (.returned result, locals)
      | (.threw error, locals) => .done (.threw error, locals)

/-- What a block ensures: its allowed requests, and where each way of ending leaves the
local variables and the surroundings.
-/
def Block.Ensures
    (environment : Environment State Request (fun request => Except Thrown (Answer request)))
    (allowed : State → Request → Prop) (block : Block Answer Locals Thrown Result α)
    (post : Completion Thrown Result α → Locals → State → Prop) (locals : Locals)
    (state : State)
    : Prop :=
  (block locals).Ensures environment allowed
    (fun ended state => post ended.1 ended.2 state) state

/-- The postcondition of a first block: where it completes normally the second one goes on,
and where it returns or throws the sequence does.
-/
def Completion.andThen (post : Completion Thrown Result β → Locals → State → Prop)
    (next : α → Locals → State → Prop)
    : Completion Thrown Result α → Locals → State → Prop
  | .normal value => next value
  | .returned result => post (.returned result)
  | .threw error => post (.threw error)

/-- The postcondition of a `try` block: where it throws, the handler goes on. -/
def Completion.orElse (post : Completion Thrown Result α → Locals → State → Prop)
    (recover : Thrown → Locals → State → Prop)
    : Completion Thrown Result α → Locals → State → Prop
  | .normal value => post (.normal value)
  | .returned result => post (.returned result)
  | .threw error => recover error

/-- One condition for normal completion, and one for returning or throwing. -/
def Completion.ending (after exit : Locals → State → Prop)
    (completion : Completion Thrown Result α)
    : Locals → State → Prop :=
  match completion with
  | normal _ => after
  | returned _ => exit
  | threw _ => exit

section Ensures

variable
  {environment : Environment State Request (fun request => Except Thrown (Answer request))}
  {allowed : State → Request → Prop} {locals : Locals} {state : State}

@[simp]
theorem Completion.andThen_normal {post : Completion Thrown Result β → Locals → State → Prop}
    {next : α → Locals → State → Prop} {value : α}
    : Completion.andThen post next (.normal value) = next value :=
  rfl

@[simp]
theorem Completion.andThen_threw {post : Completion Thrown Result β → Locals → State → Prop}
    {next : α → Locals → State → Prop} {error : Thrown}
    : Completion.andThen post next (.threw error) = post (.threw error) :=
  rfl

@[simp]
theorem Block.ensures_pure {post : Completion Thrown Result α → Locals → State → Prop}
    {value : α}
    : (pure value : Block Answer Locals Thrown Result α).Ensures environment allowed post
        locals state
      ↔ post (.normal value) locals state :=
  Iff.rfl

@[simp]
theorem Block.ensures_locals {post : Completion Thrown Result Locals → Locals → State → Prop}
    : (Block.locals : Block Answer Locals Thrown Result Locals).Ensures environment allowed
        post locals state
      ↔ post (.normal locals) locals state :=
  Iff.rfl

@[simp]
theorem Block.ensures_assign {post : Completion Thrown Result Unit → Locals → State → Prop}
    {change : Locals → Locals}
    : (Block.assign change : Block Answer Locals Thrown Result Unit).Ensures environment
        allowed post locals state
      ↔ post (.normal ()) (change locals) state :=
  Iff.rfl

@[simp]
theorem Block.ensures_throw {post : Completion Thrown Result α → Locals → State → Prop}
    {error : Thrown}
    : (Block.throw error : Block Answer Locals Thrown Result α).Ensures environment allowed
        post locals state
      ↔ post (.threw error) locals state :=
  Iff.rfl

@[simp]
theorem Block.ensures_call {request : Request}
    {post : Completion Thrown Result (Answer request) → Locals → State → Prop}
    : (Block.call request : Block Answer Locals Thrown Result _).Ensures environment allowed
        post locals state
      ↔ allowed state request
        ∧ (∀ answer after, environment state request (.ok answer) after →
            post (.normal answer) locals after)
        ∧ (∀ error after, environment state request (.error error) after →
            post (.threw error) locals after) := by
  refine and_congr_right fun _ => ⟨fun replies => ?_, fun replies reply after answered => ?_⟩
  · exact ⟨fun answer after answered => replies (.ok answer) after answered,
      fun error after answered => replies (.error error) after answered⟩
  · cases reply with
    | ok answer => exact replies.1 answer after answered
    | error error => exact replies.2 error after answered

@[simp]
theorem Block.ensures_bind {block : Block Answer Locals Thrown Result α}
    {next : α → Block Answer Locals Thrown Result β}
    {post : Completion Thrown Result β → Locals → State → Prop}
    : (block >>= next).Ensures environment allowed post locals state
      ↔ block.Ensures environment allowed
          (Completion.andThen post fun value locals state =>
            (next value).Ensures environment allowed post locals state)
          locals state := by
  refine Program.ensures_bind.trans (iff_of_eq ?_)
  congr 1
  funext ⟨completion, ending⟩ after
  cases completion <;> rfl

@[simp]
theorem Block.ensures_attempt {block : Block Answer Locals Thrown Result α}
    {recover : Thrown → Block Answer Locals Thrown Result α}
    {post : Completion Thrown Result α → Locals → State → Prop}
    : (block.attempt recover).Ensures environment allowed post locals state
      ↔ block.Ensures environment allowed
          (Completion.orElse post fun error locals state =>
            (recover error).Ensures environment allowed post locals state)
          locals state := by
  refine Program.ensures_bind.trans (iff_of_eq ?_)
  congr 1
  funext ⟨completion, ending⟩ after
  cases completion <;> rfl

@[simp]
theorem Block.ensures_ite {condition : Prop} [Decidable condition]
    {first second : Block Answer Locals Thrown Result α}
    {post : Completion Thrown Result α → Locals → State → Prop}
    : (if condition then first else second).Ensures environment allowed post locals state
      ↔ (condition → first.Ensures environment allowed post locals state)
        ∧ (¬condition → second.Ensures environment allowed post locals state) := by
  by_cases holds : condition <;> simp [holds]

@[simp]
theorem Block.ensures_ifThen {condition : Bool}
    {block : Block Answer Locals Thrown Result Unit}
    {post : Completion Thrown Result Unit → Locals → State → Prop}
    : (block.ifThen condition).Ensures environment allowed post locals state
      ↔ (condition = true → block.Ensures environment allowed post locals state)
        ∧ (condition = false → post (.normal ()) locals state) := by
  cases condition <;> simp [Block.ifThen]

theorem Block.Ensures.mono {block : Block Answer Locals Thrown Result α}
    {post other : Completion Thrown Result α → Locals → State → Prop}
    (ensured : block.Ensures environment allowed post locals state)
    (follows : ∀ completion locals state,
      post completion locals state → other completion locals state)
    : block.Ensures environment allowed other locals state :=
  Program.Ensures.mono ensured (fun _ _ permitted => permitted)
    fun _ _ holds => follows _ _ _ holds

-----------------------------------------------------------------------------------------
-- A condition for each way of ending
-----------------------------------------------------------------------------------------

/-- A condition for each way of ending. -/
def Completion.meeting (after : α → Locals → State → Prop)
    (returning : Result → Locals → State → Prop) (failing : Thrown → Locals → State → Prop)
    : Completion Thrown Result α → Locals → State → Prop
  | .normal value => after value
  | .returned result => returning result
  | .threw error => failing error

/-- A block that makes only allowed requests, and ends as one of three conditions says. -/
def Block.Meets
    (environment : Environment State Request (fun request => Except Thrown (Answer request)))
    (allowed : State → Request → Prop) (before : Locals → State → Prop)
    (after : α → Locals → State → Prop) (returning : Result → Locals → State → Prop)
    (failing : Thrown → Locals → State → Prop) (block : Block Answer Locals Thrown Result α)
    : Prop :=
  ∀ locals state, before locals state →
    block.Ensures environment allowed (Completion.meeting after returning failing) locals state

section Meets

variable {before : Locals → State → Prop} {after : α → Locals → State → Prop}
  {returning : Result → Locals → State → Prop} {failing : Thrown → Locals → State → Prop}
  {block : Block Answer Locals Thrown Result α}

/-- Every block ends somehow, by induction over its program. -/
theorem Block.meets_trivially (block : Block Answer Locals Thrown Result α)
    : block.Meets environment (fun _ _ => True) before (fun _ _ _ => True) (fun _ _ _ => True)
        fun _ _ _ => True := by
  intro locals state start
  clear start
  unfold Block.Ensures
  generalize block locals = program
  induction program generalizing state with
  | done ended =>
      obtain ⟨completion, left⟩ := ended
      cases completion with
      | normal | returned | threw => trivial
  | ask request next ih => exact ⟨trivial, fun reply after _ => ih reply after⟩

theorem Block.meets_pure {value : α}
    (holds : ∀ locals state, before locals state → after value locals state)
    : (pure value : Block Answer Locals Thrown Result α).Meets environment allowed before after
        returning failing :=
  holds

theorem Block.meets_assign {change : Locals → Locals} {after : Locals → State → Prop}
    (changed : ∀ locals state, before locals state → after (change locals) state)
    : (Block.assign change : Block Answer Locals Thrown Result Unit).Meets environment allowed
        before (fun _ => after) returning failing :=
  changed

theorem Block.meets_leave {result : Locals → Result}
    (returns : ∀ locals state, before locals state → returning (result locals) locals state)
    : (Block.leave result : Block Answer Locals Thrown Result α).Meets environment allowed
        before after returning failing :=
  returns

theorem Block.meets_throw {error : Thrown}
    (fails : ∀ locals state, before locals state → failing error locals state)
    : (Block.throw error : Block Answer Locals Thrown Result α).Meets environment allowed before
        after returning failing :=
  fails

theorem Block.meets_call {request : Request} {after : Answer request → Locals → State → Prop}
    (permitted : ∀ locals state, before locals state → allowed state request)
    (answers : ∀ locals state next answer, before locals state →
      environment state request (.ok answer) next → after answer locals next)
    (throws : ∀ locals state next error, before locals state →
      environment state request (.error error) next → failing error locals next)
    : (Block.call request : Block Answer Locals Thrown Result _).Meets environment allowed
        before after returning failing := by
  intro locals state holds
  refine Block.ensures_call.mpr ⟨permitted locals state holds, ?_, ?_⟩
  · intro answer next answered
    exact answers locals state next answer holds answered
  · intro error next answered
    exact throws locals state next error holds answered

/-- The second part of a sequence starts where the first one completes normally. -/
theorem Block.meets_bind {middle : β → Locals → State → Prop}
    {first : Block Answer Locals Thrown Result β}
    {next : β → Block Answer Locals Thrown Result α}
    (meets : first.Meets environment allowed before middle returning failing)
    (rest : ∀ value,
      (next value).Meets environment allowed (middle value) after returning failing)
    : (first >>= next).Meets environment allowed before after returning failing := by
  intro locals state holds
  refine Block.ensures_bind.mpr ((meets locals state holds).mono ?_)
  intro completion locals state ended
  cases completion with
  | normal value => exact rest value locals state ended
  | returned result => exact ended
  | threw error => exact ended

theorem Block.meets_locals_then {next : Locals → Block Answer Locals Thrown Result α}
    (rest : ∀ locals, (next locals).Meets environment allowed before after returning failing)
    : (Block.locals >>= next).Meets environment allowed before after returning failing := by
  intro locals state holds
  exact Block.ensures_bind.mpr (rest locals locals state holds)

/-- A handler starts with what is known about the error. -/
theorem Block.meets_attempt {thrown : Thrown → Locals → State → Prop}
    {recover : Thrown → Block Answer Locals Thrown Result α}
    (tried : block.Meets environment allowed before after returning thrown)
    (recovered : ∀ error,
      (recover error).Meets environment allowed (thrown error) after returning failing)
    : (block.attempt recover).Meets environment allowed before after returning failing := by
  intro locals state holds
  refine Block.ensures_attempt.mpr ((tried locals state holds).mono ?_)
  intro completion locals state ended
  cases completion with
  | normal value => exact ended
  | returned result => exact ended
  | threw error => exact recovered error locals state ended

theorem Block.meets_ite {condition : Prop} [Decidable condition]
    {other : Block Answer Locals Thrown Result α}
    (taken : condition → block.Meets environment allowed before after returning failing)
    (skipped : ¬condition → other.Meets environment allowed before after returning failing)
    : (if condition then block else other).Meets environment allowed before after returning
        failing := by
  by_cases holds : condition
  · simpa [holds] using taken holds
  · simpa [holds] using skipped holds

theorem Block.meets_ifThen {after : Locals → State → Prop} {condition : Bool}
    {body : Block Answer Locals Thrown Result Unit}
    (taken : condition = true →
      body.Meets environment allowed before (fun _ => after) returning failing)
    (skipped : condition = false → ∀ locals state, before locals state → after locals state)
    : (Block.ifThen condition body).Meets environment allowed before (fun _ => after) returning
        failing := by
  cases condition with
  | true => exact taken rfl
  | false => exact Block.meets_pure (skipped rfl)

/-- A loop leaves nothing to do where each round leaves the rest, by induction over the items. -/
theorem Block.meets_forEach (pending : List β → Locals → State → Prop) {items : List β}
    {body : β → Block Answer Locals Thrown Result Unit}
    (round : ∀ item rest, (body item).Meets environment allowed (pending (item :: rest))
      (fun _ => pending rest) returning failing)
    : (Block.forEach items body).Meets environment allowed (pending items)
        (fun _ => pending []) returning failing := by
  induction items with
  | nil => exact fun _ _ holds => holds
  | cons item rest ih => exact Block.meets_bind (round item rest) fun _ => ih

/-- Every condition may be told by less. -/
theorem Block.Meets.weaken {stronger : Locals → State → Prop}
    {weaker : α → Locals → State → Prop} {weakerReturning : Result → Locals → State → Prop}
    {weakerFailing : Thrown → Locals → State → Prop}
    (meets : block.Meets environment allowed before after returning failing)
    (starts : ∀ locals state, stronger locals state → before locals state)
    (completes : ∀ value locals state, after value locals state → weaker value locals state)
    (returns
      : ∀ result locals state, returning result locals state → weakerReturning result locals state)
    (fails
      : ∀ error locals state, failing error locals state → weakerFailing error locals state)
    : block.Meets environment allowed stronger weaker weakerReturning weakerFailing := by
  intro locals state holds
  refine Block.Ensures.mono (meets locals state (starts _ _ holds)) ?_
  intro completion locals state ended
  cases completion with
  | normal value => exact completes value locals state ended
  | returned result => exact returns result locals state ended
  | threw error => exact fails error locals state ended

theorem Block.Meets.mono {stronger : Locals → State → Prop}
    {weaker : α → Locals → State → Prop}
    (meets : block.Meets environment allowed before after returning failing)
    (starts : ∀ locals state, stronger locals state → before locals state)
    (completes : ∀ value locals state, after value locals state → weaker value locals state)
    : block.Meets environment allowed stronger weaker returning failing :=
  meets.weaken starts completes (fun _ _ _ ended => ended) fun _ _ _ ended => ended

/-- What is returned may be told by less. -/
theorem Block.Meets.returns {weaker : Result → Locals → State → Prop}
    (meets : block.Meets environment allowed before after returning failing)
    (follows
      : ∀ result locals state, returning result locals state → weaker result locals state)
    : block.Meets environment allowed before after weaker failing :=
  meets.weaken (fun _ _ holds => holds) (fun _ _ _ ended => ended) follows
    fun _ _ _ ended => ended

end Meets

-----------------------------------------------------------------------------------------
-- Triples
-----------------------------------------------------------------------------------------

/-- A block that starts with the first condition makes only allowed requests, completes
normally with the second one, and returns or throws with the exit condition.
-/
def Block.Triple
    (environment : Environment State Request (fun request => Except Thrown (Answer request)))
    (allowed : State → Request → Prop) (before after exit : Locals → State → Prop)
    (block : Block Answer Locals Thrown Result α)
    : Prop :=
  ∀ locals state, before locals state →
    block.Ensures environment allowed (Completion.ending after exit) locals state

/-- One condition for the value of normal completion, and one for returning or throwing. -/
def Completion.yielding (after : α → Locals → State → Prop) (exit : Locals → State → Prop)
    : Completion Thrown Result α → Locals → State → Prop
  | .normal value => after value
  | .returned _ => exit
  | .threw _ => exit

/-- A triple whose second condition speaks about the value of the block. -/
def Block.Yields
    (environment : Environment State Request (fun request => Except Thrown (Answer request)))
    (allowed : State → Request → Prop) (before : Locals → State → Prop)
    (after : α → Locals → State → Prop) (exit : Locals → State → Prop)
    (block : Block Answer Locals Thrown Result α)
    : Prop :=
  ∀ locals state, before locals state →
    block.Ensures environment allowed (Completion.yielding after exit) locals state

theorem Block.triple_iff {before after exit : Locals → State → Prop}
    {block : Block Answer Locals Thrown Result α}
    : block.Triple environment allowed before after exit
      ↔ block.Meets environment allowed before (fun _ => after) (fun _ => exit)
          fun _ => exit := by
  have same : (Completion.ending after exit : Completion Thrown Result α → _)
      = Completion.meeting (fun _ => after) (fun _ => exit) fun _ => exit := by
    funext completion
    cases completion <;> rfl
  rw [Block.Triple, Block.Meets, same]

theorem Block.yields_iff {before exit : Locals → State → Prop}
    {after : α → Locals → State → Prop} {block : Block Answer Locals Thrown Result α}
    : block.Yields environment allowed before after exit
      ↔ block.Meets environment allowed before after (fun _ => exit) fun _ => exit := by
  have same : (Completion.yielding after exit : Completion Thrown Result α → _)
      = Completion.meeting after (fun _ => exit) fun _ => exit := by
    funext completion
    cases completion <;> rfl
  rw [Block.Yields, Block.Meets, same]

/-- A block that keeps an invariant while it completes normally. -/
abbrev Block.Keeps
    (environment : Environment State Request (fun request => Except Thrown (Answer request)))
    (allowed : State → Request → Prop) (invariant exit : Locals → State → Prop)
    (block : Block Answer Locals Thrown Result α)
    : Prop :=
  block.Triple environment allowed invariant invariant exit

/-- A block that never completes normally. -/
abbrev Block.Leaves
    (environment : Environment State Request (fun request => Except Thrown (Answer request)))
    (allowed : State → Request → Prop) (before exit : Locals → State → Prop)
    (block : Block Answer Locals Thrown Result α)
    : Prop :=
  block.Triple environment allowed before (fun _ _ => False) exit

/-- The second part of a sequence starts with what the first one completes with. -/
theorem Block.triple_bind {before middle after exit : Locals → State → Prop}
    {block : Block Answer Locals Thrown Result α}
    {next : α → Block Answer Locals Thrown Result β}
    (first : block.Triple environment allowed before middle exit)
    (second : ∀ value, (next value).Triple environment allowed middle after exit)
    : (block >>= next).Triple environment allowed before after exit :=
  Block.triple_iff.mpr
    (Block.meets_bind (Block.triple_iff.mp first) fun value => Block.triple_iff.mp (second value))

theorem Block.Triple.mono {before after exit stronger weaker weakerExit : Locals → State → Prop}
    {block : Block Answer Locals Thrown Result α}
    (triple : block.Triple environment allowed before after exit)
    (starts : ∀ locals state, stronger locals state → before locals state)
    (completes : ∀ locals state, after locals state → weaker locals state)
    (ends : ∀ locals state, exit locals state → weakerExit locals state)
    : block.Triple environment allowed stronger weaker weakerExit :=
  Block.triple_iff.mpr ((Block.triple_iff.mp triple).weaken starts (fun _ => completes)
    (fun _ => ends) fun _ => ends)

variable {invariant exit : Locals → State → Prop}

theorem Block.keeps_pure {value : α}
    : (pure value : Block Answer Locals Thrown Result α).Keeps environment allowed
        invariant exit :=
  fun _ _ holds => holds

theorem Block.keeps_assign {change : Locals → Locals}
    (kept : ∀ locals state, invariant locals state → invariant (change locals) state)
    : (Block.assign change : Block Answer Locals Thrown Result Unit).Keeps environment
        allowed invariant exit :=
  kept

theorem Block.keeps_locals
    : (Block.locals : Block Answer Locals Thrown Result Locals).Keeps environment allowed
        invariant exit :=
  fun _ _ holds => holds

theorem Block.keeps_leave {result : Locals → Result}
    (ends : ∀ locals state, invariant locals state → exit locals state)
    : (Block.leave result : Block Answer Locals Thrown Result α).Keeps environment allowed
        invariant exit :=
  ends

theorem Block.keeps_throw {error : Thrown}
    (ends : ∀ locals state, invariant locals state → exit locals state)
    : (Block.throw error : Block Answer Locals Thrown Result α).Keeps environment allowed
        invariant exit :=
  ends

theorem Block.keeps_bind {block : Block Answer Locals Thrown Result α}
    {next : α → Block Answer Locals Thrown Result β}
    (first : block.Keeps environment allowed invariant exit)
    (second : ∀ value, (next value).Keeps environment allowed invariant exit)
    : (block >>= next).Keeps environment allowed invariant exit :=
  Block.triple_bind first second

/-- A `try` block has to keep the invariant also where it throws. -/
theorem Block.keeps_attempt {block : Block Answer Locals Thrown Result α}
    {recover : Thrown → Block Answer Locals Thrown Result α}
    (tried : block.Keeps environment allowed invariant invariant)
    (recovered : ∀ error, (recover error).Keeps environment allowed invariant exit)
    (ends : ∀ locals state, invariant locals state → exit locals state)
    : (block.attempt recover).Keeps environment allowed invariant exit :=
  Block.triple_iff.mpr (Block.meets_attempt
    ((Block.triple_iff.mp tried).returns fun _ => ends)
    fun error => Block.triple_iff.mp (recovered error))

theorem Block.keeps_ite {condition : Prop} [Decidable condition]
    {first second : Block Answer Locals Thrown Result α}
    (taken : condition → first.Keeps environment allowed invariant exit)
    (skipped : ¬condition → second.Keeps environment allowed invariant exit)
    : (if condition then first else second).Keeps environment allowed invariant exit :=
  Block.triple_iff.mpr (Block.meets_ite (fun holds => Block.triple_iff.mp (taken holds))
    fun fails => Block.triple_iff.mp (skipped fails))

theorem Block.keeps_ifThen {condition : Bool}
    {block : Block Answer Locals Thrown Result Unit}
    (taken : condition = true → block.Keeps environment allowed invariant exit)
    : (block.ifThen condition).Keeps environment allowed invariant exit := by
  cases condition with
  | true => exact taken rfl
  | false => exact Block.keeps_pure

/-- A loop keeps what its body keeps, by induction over the items. -/
theorem Block.keeps_forEach {items : List β}
    {body : β → Block Answer Locals Thrown Result Unit}
    (kept : ∀ item ∈ items, (body item).Keeps environment allowed invariant exit)
    : (Block.forEach items body).Keeps environment allowed invariant exit := by
  induction items with
  | nil => exact Block.keeps_pure
  | cons item rest ih =>
      exact Block.keeps_bind (kept item (by simp))
        fun _ => ih fun other member => kept other (List.mem_cons_of_mem _ member)

theorem Block.triple_forEach (pending : List β → Locals → State → Prop) {items : List β}
    {body : β → Block Answer Locals Thrown Result Unit}
    (round : ∀ item rest,
      (body item).Triple environment allowed (pending (item :: rest)) (pending rest) exit)
    : (Block.forEach items body).Triple environment allowed (pending items) (pending [])
        exit :=
  Block.triple_iff.mpr
    (Block.meets_forEach pending fun item rest => Block.triple_iff.mp (round item rest))

/-- A loop over mapped items maps each item in its round, by induction over the items. -/
theorem Block.forEach_map {Item : Type} {items : List Item} {change : Item → β}
    {body : β → Block Answer Locals Thrown Result Unit}
    : Block.forEach (items.map change) body
      = Block.forEach items fun item => body (change item) := by
  induction items with
  | nil => rfl
  | cons item rest ih => rw [List.map_cons, Block.forEach, ih, Block.forEach]

/-- A loop collects what its rounds add, by induction over the items. -/
theorem Block.triple_collects {Item : Type} {items : List β} {collected : β → List Item}
    {body : β → Block Answer (List Item) Thrown Result Unit} {state : State}
    {exit : List Item → State → Prop}
    (round : ∀ item ∈ items, ∀ earlier, (body item).Triple environment allowed
      (fun locals after => locals = earlier ∧ after = state)
      (fun locals after => locals = earlier ++ collected item ∧ after = state) exit)
    (earlier : List Item)
    : (Block.forEach items body).Triple environment allowed
        (fun locals after => locals = earlier ∧ after = state)
        (fun locals after => locals = earlier ++ items.flatMap collected ∧ after = state)
        exit := by
  induction items generalizing earlier with
  | nil =>
      rintro locals after ⟨rfl, rfl⟩
      exact ⟨(List.append_nil _).symm, rfl⟩
  | cons item rest ih =>
      have later := ih (fun other member => round other (List.mem_cons_of_mem _ member))
        (earlier ++ collected item)
      rw [List.flatMap_cons, ← List.append_assoc]
      exact Block.triple_bind (round item List.mem_cons_self earlier) fun _ => later

theorem Block.Triple.yields {before after exit : Locals → State → Prop}
    {block : Block Answer Locals Thrown Result α}
    (triple : block.Triple environment allowed before after exit)
    : block.Yields environment allowed before (fun _ => after) exit :=
  Block.yields_iff.mpr (Block.triple_iff.mp triple)

theorem Block.Yields.triple {before after exit : Locals → State → Prop}
    {block : Block Answer Locals Thrown Result α}
    (yields : block.Yields environment allowed before (fun _ => after) exit)
    : block.Triple environment allowed before after exit :=
  Block.triple_iff.mpr (Block.yields_iff.mp yields)

theorem Block.yields_pure {before exit : Locals → State → Prop}
    {after : α → Locals → State → Prop} {value : α}
    (holds : ∀ locals state, before locals state → after value locals state)
    : (pure value : Block Answer Locals Thrown Result α).Yields environment allowed before
        after exit :=
  holds

theorem Block.yields_throw {before exit : Locals → State → Prop}
    {after : α → Locals → State → Prop} {error : Thrown}
    (ends : ∀ locals state, before locals state → exit locals state)
    : (Block.throw error : Block Answer Locals Thrown Result α).Yields environment allowed
        before after exit :=
  ends

theorem Block.yields_call {before exit : Locals → State → Prop} {request : Request}
    {after : Answer request → Locals → State → Prop}
    (permitted : ∀ locals state, before locals state → allowed state request)
    (answers : ∀ locals state next answer, before locals state →
      environment state request (.ok answer) next → after answer locals next)
    (throws : ∀ locals state next error, before locals state →
      environment state request (.error error) next → exit locals next)
    : (Block.call request : Block Answer Locals Thrown Result _).Yields environment allowed
        before after exit :=
  Block.yields_iff.mpr (Block.meets_call permitted answers throws)

theorem Block.yields_bind {before exit : Locals → State → Prop}
    {middle : α → Locals → State → Prop} {after : β → Locals → State → Prop}
    {block : Block Answer Locals Thrown Result α}
    {next : α → Block Answer Locals Thrown Result β}
    (first : block.Yields environment allowed before middle exit)
    (second : ∀ value, (next value).Yields environment allowed (middle value) after exit)
    : (block >>= next).Yields environment allowed before after exit :=
  Block.yields_iff.mpr
    (Block.meets_bind (Block.yields_iff.mp first) fun value => Block.yields_iff.mp (second value))

theorem Block.yields_ite {before exit : Locals → State → Prop}
    {after : α → Locals → State → Prop} {condition : Prop} [Decidable condition]
    {first second : Block Answer Locals Thrown Result α}
    (taken : condition → first.Yields environment allowed before after exit)
    (skipped : ¬condition → second.Yields environment allowed before after exit)
    : (if condition then first else second).Yields environment allowed before after exit :=
  Block.yields_iff.mpr (Block.meets_ite (fun holds => Block.yields_iff.mp (taken holds))
    fun fails => Block.yields_iff.mp (skipped fails))

/-- A handler starts from where its `try` block leaves. -/
theorem Block.yields_attempt {before middle exit : Locals → State → Prop}
    {after : α → Locals → State → Prop} {block : Block Answer Locals Thrown Result α}
    {recover : Thrown → Block Answer Locals Thrown Result α}
    (tried : block.Yields environment allowed before after middle)
    (recovered : ∀ error, (recover error).Yields environment allowed middle after exit)
    (ends : ∀ locals state, middle locals state → exit locals state)
    : (block.attempt recover).Yields environment allowed before after exit :=
  Block.yields_iff.mpr (Block.meets_attempt
    ((Block.yields_iff.mp tried).returns fun _ => ends)
    fun error => Block.yields_iff.mp (recovered error))

/-- Where nothing is returned early, what holds after a `try` block that throws is only known to
the handler.
-/
theorem Block.yields_attempt_of_empty {before middle exit : Locals → State → Prop}
    {after : α → Locals → State → Prop} {block : Block Answer Locals Thrown Empty α}
    {recover : Thrown → Block Answer Locals Thrown Empty α}
    (tried : block.Yields environment allowed before after middle)
    (recovered : ∀ error, (recover error).Yields environment allowed middle after exit)
    : (block.attempt recover).Yields environment allowed before after exit :=
  Block.yields_iff.mpr (Block.meets_attempt
    ((Block.yields_iff.mp tried).returns fun result => result.elim)
    fun error => Block.yields_iff.mp (recovered error))

theorem Block.Yields.mono {before exit stronger weakerExit : Locals → State → Prop}
    {after weaker : α → Locals → State → Prop} {block : Block Answer Locals Thrown Result α}
    (yields : block.Yields environment allowed before after exit)
    (starts : ∀ locals state, stronger locals state → before locals state)
    (completes : ∀ value locals state, after value locals state → weaker value locals state)
    (ends : ∀ locals state, exit locals state → weakerExit locals state)
    : block.Yields environment allowed stronger weaker weakerExit :=
  Block.yields_iff.mpr ((Block.yields_iff.mp yields).weaken starts completes
    (fun _ => ends) fun _ => ends)

/-- What is known beside the state may be used as a hypothesis. -/
theorem Block.yields_of_fact {before exit : Locals → State → Prop}
    {after : α → Locals → State → Prop} {block : Block Answer Locals Thrown Result α}
    {fact : Prop} (yields : fact → block.Yields environment allowed before after exit)
    : block.Yields environment allowed (fun locals state => before locals state ∧ fact) after
        exit :=
  fun locals state holds => yields holds.2 locals state holds.1

theorem Block.leaves_leave {result : Locals → Result}
    (ends : ∀ locals state, invariant locals state → exit locals state)
    : (Block.leave result : Block Answer Locals Thrown Result α).Leaves environment allowed
        invariant exit :=
  ends

theorem Block.Triple.ensures_of_leaves {before : Locals → State → Prop}
    {block : Block Answer Locals Thrown Result α}
    {post : Completion Thrown Result α → Locals → State → Prop}
    (leaves : block.Leaves environment allowed before exit) (holds : before locals state)
    (returned : ∀ result locals state, exit locals state → post (.returned result) locals state)
    (threw : ∀ error locals state, exit locals state → post (.threw error) locals state)
    : block.Ensures environment allowed post locals state := by
  refine (leaves locals state holds).mono ?_
  intro completion locals state ended
  cases completion with
  | normal value => exact ended.elim
  | returned result => exact returned result locals state ended
  | threw error => exact threw error locals state ended

/-- One condition for the value of normal completion, and one for what is thrown, without
early returns.
-/
def Completion.settling (after : α → Locals → State → Prop)
    (failing : Thrown → Locals → State → Prop)
    : Completion Thrown Result α → Locals → State → Prop
  | .normal value => after value
  | .returned _ => fun _ _ => False
  | .threw error => failing error

/-- A block that does not return early, with conditions for its value and for its errors. -/
def Block.Settles
    (environment : Environment State Request (fun request => Except Thrown (Answer request)))
    (allowed : State → Request → Prop) (before : Locals → State → Prop)
    (after : α → Locals → State → Prop) (failing : Thrown → Locals → State → Prop)
    (block : Block Answer Locals Thrown Result α)
    : Prop :=
  ∀ locals state, before locals state →
    block.Ensures environment allowed (Completion.settling after failing) locals state

section Settles

variable {before middle : Locals → State → Prop} {after : α → Locals → State → Prop}
  {failing : Thrown → Locals → State → Prop} {block : Block Answer Locals Thrown Result α}

theorem Block.settles_iff
    : block.Settles environment allowed before after failing
      ↔ block.Meets environment allowed before after (fun _ _ _ => False) failing := by
  have same : (Completion.settling after failing : Completion Thrown Result α → _)
      = Completion.meeting after (fun _ _ _ => False) failing := by
    funext completion
    cases completion <;> rfl
  rw [Block.Settles, Block.Meets, same]

theorem Block.settles_pure {value : α}
    (holds : ∀ locals state, before locals state → after value locals state)
    : (pure value : Block Answer Locals Thrown Result α).Settles environment allowed before
        after failing :=
  holds

theorem Block.settles_assign {after : Unit → Locals → State → Prop} {change : Locals → Locals}
    (holds : ∀ locals state, before locals state → after () (change locals) state)
    : (Block.assign change : Block Answer Locals Thrown Result Unit).Settles environment
        allowed before after failing :=
  holds

theorem Block.settles_locals {after : Locals → Locals → State → Prop}
    (holds : ∀ locals state, before locals state → after locals locals state)
    : (Block.locals : Block Answer Locals Thrown Result Locals).Settles environment allowed
        before after failing :=
  holds

theorem Block.settles_throw {error : Thrown}
    (fails : ∀ locals state, before locals state → failing error locals state)
    : (Block.throw error : Block Answer Locals Thrown Result α).Settles environment allowed
        before after failing :=
  fails

theorem Block.settles_call {request : Request} {after : Answer request → Locals → State → Prop}
    (permitted : ∀ locals state, before locals state → allowed state request)
    (answers : ∀ locals state next answer, before locals state →
      environment state request (.ok answer) next → after answer locals next)
    (throws : ∀ locals state next error, before locals state →
      environment state request (.error error) next → failing error locals next)
    : (Block.call request : Block Answer Locals Thrown Result _).Settles environment allowed
        before after failing :=
  Block.settles_iff.mpr (Block.meets_call permitted answers throws)

/-- The second part of a sequence starts with what the first one settles with. -/
theorem Block.settles_bind {middle : β → Locals → State → Prop}
    {first : Block Answer Locals Thrown Result β}
    {next : β → Block Answer Locals Thrown Result α}
    (settles : first.Settles environment allowed before middle failing)
    (rest : ∀ value, (next value).Settles environment allowed (middle value) after failing)
    : (first >>= next).Settles environment allowed before after failing :=
  Block.settles_iff.mpr
    (Block.meets_bind (Block.settles_iff.mp settles) fun value => Block.settles_iff.mp (rest value))

/-- A handler starts with what is known about the error. -/
theorem Block.settles_attempt {thrown : Thrown → Locals → State → Prop}
    {recover : Thrown → Block Answer Locals Thrown Result α}
    (tried : block.Settles environment allowed before after thrown)
    (recovered
      : ∀ error, (recover error).Settles environment allowed (thrown error) after failing)
    : (block.attempt recover).Settles environment allowed before after failing :=
  Block.settles_iff.mpr (Block.meets_attempt (Block.settles_iff.mp tried)
    fun error => Block.settles_iff.mp (recovered error))

theorem Block.settles_ite {condition : Prop} [Decidable condition]
    {first second : Block Answer Locals Thrown Result α}
    (taken : condition → first.Settles environment allowed before after failing)
    (skipped : ¬condition → second.Settles environment allowed before after failing)
    : (if condition then first else second).Settles environment allowed before after failing :=
  Block.settles_iff.mpr (Block.meets_ite (fun holds => Block.settles_iff.mp (taken holds))
    fun fails => Block.settles_iff.mp (skipped fails))

theorem Block.settles_assign_then (middle : Locals → State → Prop) {change : Locals → Locals}
    {rest : Unit → Block Answer Locals Thrown Result α}
    (holds : ∀ locals state, before locals state → middle (change locals) state)
    (next : (rest ()).Settles environment allowed middle after failing)
    : (Block.assign change >>= rest).Settles environment allowed before after failing := by
  intro locals state begins
  exact next (change locals) state (holds locals state begins)

theorem Block.settles_ifThen {after : Locals → State → Prop} {condition : Bool}
    {body : Block Answer Locals Thrown Result Unit}
    (taken
      : condition = true → body.Settles environment allowed before (fun _ => after) failing)
    (skipped : condition = false → ∀ locals state, before locals state → after locals state)
    : (Block.ifThen condition body).Settles environment allowed before (fun _ => after)
        failing := by
  cases condition with
  | true => exact taken rfl
  | false => exact Block.settles_pure (skipped rfl)

/-- The last statements start wherever the first ones end. -/
theorem Block.settles_always {last : Block Answer Locals Thrown Result Unit}
    {invariant : Locals → State → Prop}
    (settles
      : block.Settles environment allowed before (fun _ => invariant) fun _ => invariant)
    (lasts
      : last.Settles environment allowed invariant (fun _ => invariant) fun _ => invariant)
    : (block.always last).Settles environment allowed before (fun _ => invariant)
        fun _ => invariant := by
  intro locals state holds
  refine Program.ensures_bind.mpr (Program.Ensures.mono (settles locals state holds)
    (fun _ _ permitted => permitted) ?_)
  rintro ⟨completion, locals⟩ state ended
  have holds : invariant locals state := by
    cases completion with
    | normal | threw => exact ended
    | returned => exact ended.elim
  refine Program.ensures_bind.mpr (Program.Ensures.mono (lasts locals state holds)
    (fun _ _ permitted => permitted) ?_)
  rintro ⟨final, locals⟩ state finished
  cases final with
  | normal =>
      cases completion with
      | normal | threw => exact finished
      | returned => exact ended.elim
  | threw => exact finished
  | returned => exact finished.elim

/-- The last statements finish a value, and let every error through. -/
theorem Block.settles_always_finished {last : Block Answer Locals Thrown Result Unit}
    {finished : α → Locals → State → Prop}
    (settles : block.Settles environment allowed before after failing)
    (lasts : ∀ value, last.Settles environment allowed (after value)
      (fun _ => finished value) fun _ _ _ => True)
    (unwinds : ∀ error, last.Settles environment allowed (failing error)
      (fun _ _ _ => True) fun _ _ _ => True)
    : (block.always last).Settles environment allowed before finished fun _ _ _ => True := by
  intro locals state holds
  refine Program.ensures_bind.mpr (Program.Ensures.mono (settles locals state holds)
    (fun _ _ permitted => permitted) ?_)
  rintro ⟨completion, locals⟩ state ended
  cases completion with
  | normal value =>
      refine Program.ensures_bind.mpr (Program.Ensures.mono (lasts value locals state ended)
        (fun _ _ permitted => permitted) ?_)
      rintro ⟨final, locals⟩ state ended
      cases final with
      | normal | threw => exact ended
      | returned => exact ended.elim
  | returned => exact ended.elim
  | threw error =>
      refine Program.ensures_bind.mpr (Program.Ensures.mono (unwinds error locals state ended)
        (fun _ _ permitted => permitted) ?_)
      rintro ⟨final, locals⟩ state ended
      cases final with
      | normal | threw => exact ended
      | returned => exact ended.elim

theorem Block.Settles.mono {stronger : Locals → State → Prop}
    {weaker : α → Locals → State → Prop} {weakerFailing : Thrown → Locals → State → Prop}
    (settles : block.Settles environment allowed before after failing)
    (starts : ∀ locals state, stronger locals state → before locals state)
    (completes : ∀ value locals state, after value locals state → weaker value locals state)
    (fails
      : ∀ error locals state, failing error locals state → weakerFailing error locals state)
    : block.Settles environment allowed stronger weaker weakerFailing :=
  Block.settles_iff.mpr ((Block.settles_iff.mp settles).weaken starts completes
    (fun _ _ _ ended => ended) fails)

end Settles

end Ensures

end AiSdlc.Async
