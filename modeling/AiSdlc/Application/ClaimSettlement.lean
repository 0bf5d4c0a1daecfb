import AiSdlc.Application.ClaimExchanges

/-! What `runClaimedJob` leaves behind when it returns: the job has ended, waits without a claim
or belongs to another claim, the lease is given back, and the worker is not busy. The function
tells errors apart by their class and their text, so this needs ports that do not throw the
errors of the queue and of the grace timer themselves.
-/

namespace AiSdlc.Application

open Relation
open AiSdlc.Js
open AiSdlc.Domain
open AiSdlc.Async
open AiSdlc.Sqlite
open JobQueueRepository
open WorkerLoop

namespace ClaimedJob

/-- The lease that was acquired is given back, unless the recovery needs it. -/
def Freed (job : Job) (owner : JobOwnership) (state : ClaimedJobState) : Prop :=
  ∀ token, state.leaseToken = some token →
    LeaseStands state.store job.repoId owner.workerId job.runId token →
    state.graceExpired = true ∨ state.leaseLost = true

/-- The worker is not busy, unless the grace period expired. -/
def Rested (deps : WorkerLoopDeps) (owner : JobOwnership) (state : ClaimedJobState) : Prop :=
  WorkerRegistryRepository.IsBusy state.store.workers owner.workerId deps.repoId →
    state.graceExpired = true

/-- What a return of `runClaimedJob` leaves behind. -/
structure Settled (deps : WorkerLoopDeps) (job : Job) (owner : JobOwnership)
    (state : ClaimedJobState)
    : Prop where
  claim : ∀ row, state.store.jobs.find owner.jobId = some row →
    row.status.isTerminal = true ∨ row.status = .queued ∧ Unclaimed row
      ∨ ∃ other, other ≠ owner ∧ owns other row = true
  freed : Freed job owner state
  rested : Rested deps owner state

/-- The stores of the jobs and of the leases fail only with their errors about ownership and
about conflicts.
-/
def FailsAsStore : (request : WorkerRequest) → request.Reply → Prop
  | .acquireLease _, .error error => ∃ message, error = .leaseConflict message
  | .releaseLease _, .error error => ∃ message, error = .leaseOwnershipLost message
  | .markJobRunning _ _, .error error | .markJobSucceeded _ _, .error error
  | .markJobCancelled _ _, .error error | .markJobFailed _ _, .error error
  | .resetJobToQueued _, .error error | .releaseClaim _, .error error =>
      ∃ message, error = .jobOwnershipLost message
  | _, _ => True

/-- The error of a lost claim is thrown only where the claim does not stand, and the one of an
expired grace period only where that has expired.
-/
def Raised (owner : JobOwnership) (error : WorkerError) (state : ClaimedJobState) : Prop :=
  (∀ message, error = .jobOwnershipLost message → ¬ClaimStands state.store owner)
  ∧ (error.isGraceExpired = true → state.graceExpired = true)

/-- No reply throws an error that says what is not so; a notification may throw anything. -/
def Genuine (owner : JobOwnership)
    : (request : WorkerRequest) → request.Reply → ClaimedJobState → Prop
  | .notify _, _, _ => True
  | _, .error error, next => Raised owner error next
  | _, .ok _, _ => True

theorem Genuine.raised {owner : JobOwnership} {request : WorkerRequest} {error : WorkerError}
    {next : ClaimedJobState} (genuine : Genuine owner request (.error error) next)
    (quiet : ¬Apart request)
    : Raised owner error next := by
  cases request with
  | notify => exact absurd trivial quiet
  | _ => exact genuine

/-- The surroundings of a worker, where the stores fail as they should. -/
def PromisedAnswers (deps : WorkerLoopDeps) (owner : JobOwnership)
    : Environment ClaimedJobState WorkerRequest WorkerRequest.Reply :=
  fun state request reply next =>
    Answers owner.workerId deps.repoId owner.claimToken state request reply next
    ∧ FailsAsStore request reply

/-- The surroundings of a worker, where also no error says what is not so. -/
def GenuineAnswers (deps : WorkerLoopDeps) (owner : JobOwnership)
    : Environment ClaimedJobState WorkerRequest WorkerRequest.Reply :=
  fun state request reply next =>
    PromisedAnswers deps owner state request reply next ∧ Genuine owner request reply next

/-- What a worker knows all along: its lease is the one that it acquired, and it takes the grace
period for expired only where it is.
-/
structure Known (locals : WorkerLocals) (state : ClaimedJobState) : Prop where
  accounted : state.store.AllAccounted
  lease : locals.acquiredLease.map WorkerLease.leaseToken = state.leaseToken
  grace : locals.graceExpiredDuringShutdown = true → state.graceExpired = true

section Settlement

variable (deps : WorkerLoopDeps) (job : Job) (owner : JobOwnership)

/-- A fact about the state that no exchange takes back. -/
def Lasting (fact : ClaimedJobState → Prop) : Prop :=
  ∀ state next, Follows deps owner state next → fact state → fact next

def Released (state : ClaimedJobState) : Prop :=
  ¬ClaimStands state.store owner

/-- Statements among genuine exchanges. -/
abbrev Finishes {α : Type} (before : WorkerLocals → ClaimedJobState → Prop)
    (after : α → WorkerLocals → ClaimedJobState → Prop)
    (failing : WorkerError → WorkerLocals → ClaimedJobState → Prop)
    (statements : WorkerStatements α)
    : Prop :=
  Block.Settles (GenuineAnswers deps owner) (fun _ _ => True) before after failing statements

/-- What a worker knows, with a fact about the state. -/
def KnownWith (fact : ClaimedJobState → Prop) (locals : WorkerLocals) (state : ClaimedJobState)
    : Prop :=
  Known locals state ∧ fact state

variable {deps job owner}

theorem lasting_true : Lasting deps owner fun _ => True :=
  fun _ _ _ holds => holds

theorem lasting_released : Lasting deps owner (Released owner) :=
  fun _ _ follows released stands => released (follows.stores.claim stands)

theorem lasting_raised {error : WorkerError} : Lasting deps owner (Raised owner error) :=
  fun _ _ follows raised =>
    ⟨fun message same stands => raised.1 message same (follows.stores.claim stands),
      fun expired => follows.graceExpired (raised.2 expired)⟩

theorem lasting_freed : Lasting deps owner (Freed job owner) := by
  intro state next follows freed token drawn stands
  have before : state.leaseToken = some token := follows.leaseToken ▸ drawn
  rcases freed token before (follows.stores.lease before stands) with expired | lost
  · exact .inl (follows.graceExpired expired)
  · exact .inr (follows.leaseLost lost)

theorem Lasting.and {fact other : ClaimedJobState → Prop} (first : Lasting deps owner fact)
    (second : Lasting deps owner other)
    : Lasting deps owner fun state => fact state ∧ other state :=
  fun state next follows holds =>
    ⟨first state next follows holds.1, second state next follows holds.2⟩

theorem Known.follows {locals : WorkerLocals} {state next : ClaimedJobState}
    (known : Known locals state) (follows : Follows deps owner state next)
    : Known locals next :=
  ⟨follows.stores.accounted known.accounted, known.lease.trans follows.leaseToken.symm,
    fun graced => follows.graceExpired (known.grace graced)⟩

section Calls

variable {fact : ClaimedJobState → Prop} {request : WorkerRequest}

/-- An exchange leaves what is known, and replies as the ports do. -/
theorem finishes_call (lasting : Lasting deps owner fact) (quiet : ¬Apart request)
    : Finishes deps owner (KnownWith fact)
        (fun answer locals state => KnownWith fact locals state
          ∧ ∃ before, StoreAnswers before request (.ok answer) state)
        (fun error locals state => KnownWith fact locals state ∧ Raised owner error state
          ∧ FailsAsStore request (.error error)
          ∧ ∃ before, StoreAnswers before request (.error error) state)
        (WorkerLoop.call request) := by
  have kept {locals : WorkerLocals} {state next : ClaimedJobState} {reply : request.Reply}
      (holds : KnownWith fact locals state)
      (answered
        : Answers owner.workerId deps.repoId owner.claimToken state request reply next)
      : KnownWith fact locals next := by
    have follows : Follows deps owner state next := follows_of_answers quiet answered
    exact ⟨holds.1.follows follows, lasting state next follows holds.2⟩
  refine Block.settles_call (by exact fun _ _ _ => trivial) ?_ ?_
  · rintro locals state next answer holds ⟨⟨answered, -⟩, -⟩
    obtain ⟨store, -, replied⟩ := id answered
    exact ⟨kept holds answered, _, replied⟩
  · rintro locals state next error holds ⟨⟨answered, fails⟩, genuine⟩
    obtain ⟨store, -, replied⟩ := id answered
    exact ⟨kept holds answered, genuine.raised quiet, fails, _, replied⟩

/-- What is known is left by an exchange, whatever its reply is. -/
theorem finishes_quiet (lasting : Lasting deps owner fact) (quiet : ¬Apart request)
    : Finishes deps owner (KnownWith fact) (fun _ => KnownWith fact)
        (fun error locals state => KnownWith fact locals state ∧ Raised owner error state)
        (WorkerLoop.call request) :=
  (finishes_call lasting quiet).mono (fun _ _ holds => holds) (fun _ _ _ holds => holds.1)
    fun _ _ _ holds => ⟨holds.1, holds.2.1⟩

/-- The time is always told. -/
theorem finishes_now {failing : WorkerError → WorkerLocals → ClaimedJobState → Prop}
    (lasting : Lasting deps owner fact)
    : Finishes deps owner (KnownWith fact) (fun _ => KnownWith fact) failing
        (WorkerLoop.call .now) :=
  (finishes_call lasting (by exact id)).mono (fun _ _ holds => holds)
    (fun _ _ _ holds => holds.1) fun error _ _ holds => by
      obtain ⟨-, -, -, _, ⟨_, same⟩, -⟩ := holds
      contradiction

end Calls

section Jobs

variable {fact : ClaimedJobState → Prop} {request : WorkerRequest}

/-- A settling operation: where it gets through or its claim is lost, the claim does not stand
afterwards, and it fails otherwise only with an error of another kind.
-/
structure SettlesClaim (owner : JobOwnership) (request : WorkerRequest) : Prop where
  settles {state next : ClaimedJobState} {reply : request.Reply}
    (answered : StoreAnswers state request reply next)
    : (Released owner next
        ∧ ∀ error, reply = .error error → ∃ message, error = .jobOwnershipLost message)
      ∨ ∃ message, reply = .error (.error message)
  fails {error : WorkerError} (fails : FailsAsStore request (.error error))
    : ∃ message, error = .jobOwnershipLost message

theorem settles_of_jobAnswers {queues : Bool} {transition : Job → JobChecked Job}
    {state next : ClaimedJobState} {reply : Except WorkerError Unit}
    (settling : Settling transition) (stating : Stating transition)
    (answered : JobAnswers state queues
      (updateJobWithOwnership state.store.jobs owner transition) reply next)
    : (Released owner next
        ∧ ∀ error, reply = .error error → ∃ message, error = .jobOwnershipLost message)
      ∨ ∃ message, reply = .error (.error message) := by
  unfold JobAnswers at answered
  split at answered
  · rename_i jobs updates
    obtain ⟨rfl, rfl⟩ := answered
    exact .inl ⟨not_claimStands_of_settling settling updates rfl, fun _ same => nomatch same⟩
  · rename_i id refuses
    obtain ⟨⟨message, rfl⟩, rfl⟩ := answered
    have released := not_claimStands_of_lost
      (fun job updated moved => (settling job updated moved).1) stating refuses
    exact .inl ⟨released, fun error same => ⟨message, (Except.error.inj same).symm⟩⟩
  · exact .inr answered.1

theorem settles_markJobSucceeded {now : Date} : SettlesClaim owner (.markJobSucceeded owner now) :=
  ⟨fun answered => settles_of_jobAnswers (settling_terminate rfl) stating_terminate answered, id⟩

theorem settles_markJobCancelled {now : Date} : SettlesClaim owner (.markJobCancelled owner now) :=
  ⟨fun answered => settles_of_jobAnswers (settling_terminate rfl) stating_terminate answered, id⟩

theorem settles_markJobFailed {now : Date} : SettlesClaim owner (.markJobFailed owner now) :=
  ⟨fun answered => settles_of_jobAnswers (settling_terminate rfl) stating_terminate answered, id⟩

theorem settles_resetJobToQueued : SettlesClaim owner (.resetJobToQueued owner) :=
  ⟨fun answered => settles_of_jobAnswers (settling_of_frees frees_reset) stating_reset answered,
    id⟩

theorem settles_releaseClaim : SettlesClaim owner (.releaseClaim owner) :=
  ⟨fun answered => settles_of_jobAnswers (settling_of_frees frees_unclaim) stating_unclaim answered,
    id⟩

theorem SettlesClaim.released (settles : SettlesClaim owner request)
    {state next : ClaimedJobState} {reply : request.Reply}
    (answered : StoreAnswers state request reply next) (fails : FailsAsStore request reply)
    : Released owner next := by
  rcases settles.settles answered with ⟨released, -⟩ | ⟨message, rfl⟩
  · exact released
  · obtain ⟨_, same⟩ := settles.fails fails
    contradiction

/-- What is known when the claim does not stand any more; errors tell nothing else. -/
abbrev Done (owner : JobOwnership) : WorkerLocals → ClaimedJobState → Prop :=
  KnownWith (Released owner)

/-- A settling operation settles the job, even where it throws. -/
theorem finishes_settling (settles : SettlesClaim owner request) (quiet : ¬Apart request)
    : Finishes deps owner (KnownWith fun _ => True) (fun _ => Done owner)
        (fun error locals state => Done owner locals state ∧ Raised owner error state)
        (WorkerLoop.call request) := by
  refine Block.settles_call (by exact fun _ _ _ => trivial) ?_ ?_
  · rintro locals state next answer holds ⟨⟨answered, fails⟩, -⟩
    have follows : Follows deps owner state next := follows_of_answers quiet answered
    obtain ⟨store, -, replied⟩ := answered
    exact ⟨holds.1.follows follows, settles.released replied fails⟩
  · rintro locals state next error holds ⟨⟨answered, fails⟩, genuine⟩
    have follows : Follows deps owner state next := follows_of_answers quiet answered
    obtain ⟨store, -, replied⟩ := answered
    exact ⟨⟨holds.1.follows follows, settles.released replied fails⟩, genuine.raised quiet⟩

/-- An ending of statements in which the claim does not stand any more, however they end. -/
abbrev FinishesDone (deps : WorkerLoopDeps) (owner : JobOwnership)
    (before : WorkerLocals → ClaimedJobState → Prop) (statements : WorkerStatements Unit)
    : Prop :=
  Finishes deps owner before (fun _ => Done owner)
    (fun error locals state => Done owner locals state ∧ Raised owner error state) statements

/-- The error of a lost claim is swallowed, as the claim does not stand. -/
theorem finishes_unlessOwnershipLost {before : WorkerLocals → ClaimedJobState → Prop}
    {statements : WorkerStatements Unit} (tried : FinishesDone deps owner before statements)
    : FinishesDone deps owner before (unlessOwnershipLost statements) := by
  refine Block.settles_attempt tried fun error => ?_
  cases error with
  | jobOwnershipLost message => exact Block.settles_pure fun _ _ holds => holds.1
  | error | leaseConflict | leaseOwnershipLost | repositoryUnavailable | value =>
      exact Block.settles_throw fun _ _ holds => holds

theorem finishes_unlessTerminal {before : WorkerLocals → ClaimedJobState → Prop}
    {statements : WorkerStatements Unit} (tried : FinishesDone deps owner before statements)
    : FinishesDone deps owner before (unlessTerminal statements) :=
  Block.settles_attempt tried fun _ => Block.settles_pure fun _ _ holds => holds.1

theorem finishes_failJob
    : FinishesDone deps owner (KnownWith fun _ => True) (failJob owner) :=
  Block.settles_bind (finishes_now lasting_true)
    fun _ => finishes_settling settles_markJobFailed id

theorem finishes_cancelJob
    : FinishesDone deps owner (KnownWith fun _ => True) (cancelJob owner) :=
  Block.settles_bind (finishes_now lasting_true)
    fun _ => finishes_settling settles_markJobCancelled id

theorem finishes_settleJob {outcome : ExecutionOutcome}
    : FinishesDone deps owner (KnownWith fun _ => True) (settleJob owner outcome) := by
  unfold settleJob
  cases executionOutcomeToJobStatus outcome with
  | succeeded =>
      exact Block.settles_bind (finishes_now lasting_true)
        fun _ => finishes_settling settles_markJobSucceeded id
  | cancelled => exact finishes_cancelJob
  | queued | claimed | running | failed => exact finishes_failJob

end Jobs

section Reasons

variable {fact : ClaimedJobState → Prop}

/-- What is known, and that a lost lease was told if it is the reason. -/
def KnownReason (fact : ClaimedJobState → Prop) (reason : Option AbortReason)
    (locals : WorkerLocals) (state : ClaimedJobState)
    : Prop :=
  KnownWith fact locals state ∧ (reason = some .leaseLost → state.leaseLost = true)

/-- What is left where statements throw. -/
abbrev Failing (owner : JobOwnership) (fact : ClaimedJobState → Prop) (error : WorkerError)
    (locals : WorkerLocals) (state : ClaimedJobState)
    : Prop :=
  KnownWith fact locals state ∧ Raised owner error state

theorem finishes_givenAbortReason (lasting : Lasting deps owner fact)
    : Finishes deps owner (KnownWith fact) (KnownReason fact) (Failing owner fact)
        (givenAbortReason deps) := by
  unfold givenAbortReason
  refine Block.settles_ite (fun _ => ?_) fun _ => ?_
  · refine (finishes_call lasting (by exact id)).mono (fun _ _ holds => holds) ?_
      fun _ _ _ holds => ⟨holds.1, holds.2.1⟩
    rintro reason locals state ⟨known, before, told⟩
    refine ⟨known, ?_⟩
    rintro rfl
    cases told
    simp [toldLeaseLost]
  · exact Block.settles_pure fun _ _ holds => ⟨holds, fun same => nomatch same⟩

theorem finishes_outerSignalAborted (lasting : Lasting deps owner fact)
    : Finishes deps owner (KnownWith fact) (fun _ => KnownWith fact) (Failing owner fact)
        (outerSignalAborted deps) := by
  unfold outerSignalAborted
  refine Block.settles_ite (fun _ => ?_) fun _ => ?_
  · exact finishes_quiet lasting id
  · exact Block.settles_pure fun _ _ holds => holds

/-- The reason is a lost lease only where that was told. -/
theorem finishes_abortReason (lasting : Lasting deps owner fact)
    : Finishes deps owner (KnownWith fact) (KnownReason fact) (Failing owner fact)
        (abortReason deps) := by
  refine Block.settles_bind (finishes_givenAbortReason lasting) fun given => ?_
  cases given with
  | some reason => exact Block.settles_pure fun _ _ holds => holds
  | none =>
      refine Block.settles_bind ((finishes_outerSignalAborted lasting).mono
        (fun _ _ holds => holds.1) (fun _ _ _ holds => holds) fun _ _ _ holds => holds) ?_
      intro aborted
      refine Block.settles_pure fun _ _ holds => ⟨holds, fun same => ?_⟩
      cases aborted <;> contradiction

theorem finishes_onOuterAbort (lasting : Lasting deps owner fact)
    : Finishes deps owner (KnownWith fact) (fun _ => KnownWith fact) (Failing owner fact)
        (onOuterAbort deps) :=
  Block.settles_bind
    ((finishes_givenAbortReason lasting).mono (fun _ _ holds => holds)
      (fun _ _ _ holds => holds.1) fun _ _ _ holds => holds)
    fun _ => finishes_quiet lasting id

end Reasons

section Tried

variable {workerId : WorkerId} {repoId : RepositoryId}

/-- Nothing but what a worker always knows. -/
abbrev Knowing : WorkerLocals → ClaimedJobState → Prop :=
  KnownWith fun _ => True

theorem finishes_markBusy
    : Finishes deps owner Knowing (fun _ => Knowing) (Failing owner fun _ => True)
        (WorkerLoop.call (.markBusy workerId repoId)) := by
  have kept {locals : WorkerLocals} {state next : ClaimedJobState} {reply : Except _ Unit}
      (holds : Knowing locals state)
      (answered : Answers owner.workerId deps.repoId owner.claimToken state
        (.markBusy workerId repoId) reply next)
      : Knowing locals next := by
    obtain ⟨store, others, replied⟩ := answered
    have accounted := (undisturbed_of_interferes others).accounted holds.1.accounted
    rcases RegistryAnswers.marks replied with ⟨workers, -, rfl⟩ | rfl
    · exact ⟨⟨accounted, holds.1.lease, holds.1.grace⟩, trivial⟩
    · exact ⟨⟨accounted, holds.1.lease, holds.1.grace⟩, trivial⟩
  refine Block.settles_call (by exact fun _ _ _ => trivial) ?_ ?_
  · intro locals state next answer holds answered
    exact kept holds answered.1.1
  · intro locals state next error holds answered
    exact ⟨kept holds answered.1.1, answered.2⟩

/-- The lease that an acquisition returns is the one whose token is known from then on. -/
theorem finishes_acquireLease {input : AcquireLeaseInput}
    : Finishes deps owner Knowing
        (fun lease locals state => state.store.AllAccounted
          ∧ state.leaseToken = some lease.leaseToken
          ∧ (locals.graceExpiredDuringShutdown = true → state.graceExpired = true))
        (Failing owner fun _ => True) (WorkerLoop.call (.acquireLease input)) := by
  refine Block.settles_call (by exact fun _ _ _ => trivial) ?_ ?_
  · rintro locals state next lease holds ⟨⟨⟨store, others, token, replied⟩, -⟩, -⟩
    have accounted := (undisturbed_of_interferes others).accounted holds.1.accounted
    unfold AcquireAnswers at replied
    split at replied
    · obtain ⟨same, rfl⟩ := replied
      cases same
      exact ⟨accounted, rfl, holds.1.grace⟩
    · obtain ⟨⟨_, same⟩, -⟩ := replied
      contradiction
    · obtain ⟨⟨_, same⟩, -⟩ := replied
      contradiction
  · rintro locals state next error holds ⟨⟨⟨store, others, token, replied⟩, -⟩, genuine⟩
    have accounted := (undisturbed_of_interferes others).accounted holds.1.accounted
    refine ⟨?_, genuine⟩
    unfold AcquireAnswers at replied
    split at replied
    · obtain ⟨same, -⟩ := replied
      contradiction
    · obtain ⟨-, rfl⟩ := replied
      exact ⟨⟨accounted, holds.1.lease, holds.1.grace⟩, trivial⟩
    · obtain ⟨-, rfl⟩ := replied
      exact ⟨⟨accounted, holds.1.lease, holds.1.grace⟩, trivial⟩

/-- A failed preparation throws its own error, after it may have been recorded. -/
theorem finishes_preparedWorktree
    : Finishes deps owner Knowing (fun _ => Knowing) (Failing owner fun _ => True)
        (preparedWorktree deps job) := by
  refine Block.settles_attempt (finishes_quiet lasting_true id) fun error => ?_
  have raised : Finishes deps owner (Failing owner (fun _ => True) error)
      (fun _ => Failing owner (fun _ => True) error) (Failing owner fun _ => True)
      (Block.ifThen deps.handlePreparationFailure do
        let aborted ← WorkerLoop.call .signalAborted
        Block.ifThen (!aborted)
          (WorkerLoop.call (.handlePreparationFailure job.runId error.asError))) := by
    have same (locals : WorkerLocals) (state : ClaimedJobState)
        : Failing owner (fun _ => True) error locals state
          ↔ KnownWith (Raised owner error) locals state :=
      ⟨fun holds => ⟨holds.1.1, holds.2⟩, fun holds => ⟨⟨holds.1, trivial⟩, holds.2⟩⟩
    have recorded (aborted : Bool)
        : Finishes deps owner (KnownWith (Raised owner error))
            (fun _ => KnownWith (Raised owner error)) (Failing owner (Raised owner error))
            (Block.ifThen (!aborted)
              (WorkerLoop.call (.handlePreparationFailure job.runId error.asError))) :=
      Block.settles_ifThen (fun _ => finishes_quiet lasting_raised id) fun _ _ _ holds => holds
    refine Block.settles_ifThen (fun _ => ?_) fun _ _ _ holds => holds
    refine Block.Settles.mono (Block.settles_bind (finishes_quiet lasting_raised id) recorded)
      (fun locals state => (same locals state).mp) (fun _ locals state => (same locals state).mpr)
      ?_
    exact fun _ _ _ holds => ⟨⟨holds.1.1, trivial⟩, holds.2⟩
  exact Block.settles_bind raised fun _ => Block.settles_throw fun _ _ holds => holds

theorem isGraceExpired_notFound (runId jobId : String)
    : (WorkerError.error s!"run {runId} not found for job {jobId}").isGraceExpired = false := by
  simp only [WorkerError.isGraceExpired, WorkerError.message?, Option.some.injEq,
    decide_eq_false_iff_not]
  intro same
  have first := congrArg (fun text => text.toList.head?) same
  rw [String.append_assoc, String.append_assoc] at first
  simp only [toString, String.toList_append] at first
  exact absurd first (by simp)

/-- Where the tried statements complete, the claim does not stand. -/
theorem finishes_claimedRun
    : Finishes deps owner Knowing (fun _ => Done owner) (Failing owner fun _ => True)
        (claimedRun deps workerId job owner) := by
  refine Block.settles_bind finishes_markBusy fun _ => ?_
  refine Block.settles_bind (finishes_now lasting_true) fun _ => ?_
  refine Block.settles_bind finishes_acquireLease fun lease => ?_
  refine Block.settles_assign_then Knowing
    (fun _ _ holds => ⟨⟨holds.1, holds.2.1.symm, holds.2.2⟩, trivial⟩) ?_
  refine Block.settles_bind (finishes_outerSignalAborted lasting_true) fun aborted => ?_
  refine Block.settles_bind
    (Block.settles_ifThen (fun _ => finishes_onOuterAbort lasting_true) fun _ _ _ holds => holds)
    fun _ => ?_
  refine Block.settles_bind (finishes_now lasting_true) fun now => ?_
  refine Block.settles_bind (finishes_quiet lasting_true id) fun _ => ?_
  refine Block.settles_assign_then Knowing
    (fun _ _ holds => ⟨⟨holds.1.1, holds.1.2, holds.1.3⟩, trivial⟩) ?_
  refine Block.settles_bind finishes_preparedWorktree fun cwd => ?_
  refine Block.settles_bind (finishes_quiet lasting_true id) fun found => ?_
  cases found with
  | none =>
      refine Block.settles_throw fun locals state holds => ⟨holds, ?_, ?_⟩
      · exact fun message same => nomatch same
      · intro expired
        rw [isGraceExpired_notFound] at expired
        contradiction
  | some run =>
      refine Block.settles_bind (finishes_quiet lasting_true id) fun result => ?_
      refine Block.settles_bind (finishes_settleJob.mono (fun _ _ holds => holds)
        (fun _ _ _ holds => holds) fun _ _ _ holds => ⟨⟨holds.1.1, trivial⟩, holds.2⟩) ?_
      exact fun _ => Block.settles_pure fun _ _ holds => holds

end Tried

end Settlement

end ClaimedJob

end AiSdlc.Application
