import AiSdlc.Application.WorkerLoop
import AiSdlc.Async.Pool

/-! What a worker has seen when it changes a run: an error that tells that the repository is
unavailable, or an abort by the user of a job that was marked running. Every statement of
`runClaimedJob` is followed with what its exchanges so far have shown.
-/

namespace AiSdlc.Application

open AiSdlc.Js
open AiSdlc.Domain
open AiSdlc.Async
open AiSdlc.Sqlite

abbrev WorkerExchange : Type :=
  Interaction WorkerRequest WorkerRequest.Reply

abbrev WorkerLog : Type :=
  List WorkerExchange

namespace WorkerLoop

/-- A call threw that the repository is unavailable. -/
def SawUnavailable (cause : String) (log : WorkerLog) : Prop :=
  ∃ exchange ∈ log, ∃ message, exchange.reply = .error (.repositoryUnavailable message cause)

/-- The job was marked running. -/
def MarkedRunning (log : WorkerLog) : Prop :=
  ∃ owner now, (⟨.markJobRunning owner now, .ok ()⟩ : WorkerExchange) ∈ log

/-- The worker was told that the user aborts the job. -/
def UserAborted (log : WorkerLog) : Prop :=
  (⟨.getAbortReason, .ok (some .userCancelled)⟩ : WorkerExchange) ∈ log
  ∨ (⟨.outerAborted, .ok true⟩ : WorkerExchange) ∈ log

/-- A run is changed in two cases only. -/
def UpdatesRun (log : WorkerLog) : WorkerRequest → Prop
  | .updateRun _ patch =>
      (∃ cause, patch = failedUpdate cause ∧ SawUnavailable cause log)
      ∨ patch = cancelledUpdate ∧ MarkedRunning log ∧ UserAborted log
  | _ => True

/-- A job that counts as started was marked running. -/
def Honest (locals : WorkerLocals) (log : WorkerLog) : Prop :=
  locals.started = true → MarkedRunning log

/-- An error tells that the repository is unavailable only where a call did. -/
def Raises (error : WorkerError) (locals : WorkerLocals) (log : WorkerLog) : Prop :=
  Honest locals log
  ∧ ∀ message cause, error = .repositoryUnavailable message cause → SawUnavailable cause log

/-- What a worker knows, and does not forget through further exchanges. -/
structure Lasting (known : WorkerLocals → WorkerLog → Prop) : Prop where
  honest {locals : WorkerLocals} {log : WorkerLog} (holds : known locals log) : Honest locals log
  kept {locals : WorkerLocals} {log : WorkerLog} (exchange : WorkerExchange)
    (holds : known locals log) : known locals (exchange :: log)

/-- Statements that throw only what a call threw. -/
abbrev Settles {α : Type} (before : WorkerLocals → WorkerLog → Prop)
    (after : α → WorkerLocals → WorkerLog → Prop) (statements : WorkerStatements α)
    : Prop :=
  Block.Settles logged UpdatesRun before after Raises statements

/-- Statements after which the worker knows what it knew before. -/
abbrev Remembers {α : Type} (known : WorkerLocals → WorkerLog → Prop)
    (statements : WorkerStatements α)
    : Prop :=
  Settles known (fun _ => known) statements

theorem SawUnavailable.cons {cause : String} {log : WorkerLog} (saw : SawUnavailable cause log)
    (exchange : WorkerExchange)
    : SawUnavailable cause (exchange :: log) := by
  obtain ⟨seen, member, message, threw⟩ := saw
  exact ⟨seen, List.mem_cons_of_mem _ member, message, threw⟩

theorem MarkedRunning.cons {log : WorkerLog} (marked : MarkedRunning log)
    (exchange : WorkerExchange)
    : MarkedRunning (exchange :: log) := by
  obtain ⟨owner, now, member⟩ := marked
  exact ⟨owner, now, List.mem_cons_of_mem _ member⟩

theorem UserAborted.cons {log : WorkerLog} (aborted : UserAborted log)
    (exchange : WorkerExchange)
    : UserAborted (exchange :: log) :=
  aborted.imp (List.mem_cons_of_mem _) (List.mem_cons_of_mem _)

theorem lasting_honest : Lasting Honest where
  honest holds := holds
  kept exchange holds := fun started => (holds started).cons exchange

theorem lasting_raises {error : WorkerError} : Lasting (Raises error) where
  honest holds := holds.1
  kept exchange holds :=
    ⟨lasting_honest.kept exchange holds.1,
      fun message cause same => (holds.2 message cause same).cons exchange⟩

theorem Lasting.and {known : WorkerLocals → WorkerLog → Prop} (lasting : Lasting known)
    {fact : WorkerLocals → WorkerLog → Prop}
    (kept : ∀ locals log exchange, fact locals log → fact locals (exchange :: log))
    : Lasting fun locals log => known locals log ∧ fact locals log where
  honest holds := lasting.honest holds.1
  kept exchange holds := ⟨lasting.kept exchange holds.1, kept _ _ exchange holds.2⟩

section Statements

variable {α β : Type} {known : WorkerLocals → WorkerLog → Prop} {request : WorkerRequest}
  {statements : WorkerStatements α}

theorem settles_call (lasting : Lasting known)
    (permitted : ∀ locals log, known locals log → UpdatesRun log request)
    : Settles known
        (fun answer locals log =>
          known locals log ∧ (⟨request, .ok answer⟩ : WorkerExchange) ∈ log)
        (call request) := by
  refine Block.settles_call permitted ?_ ?_
  · intro locals log _ answer holds answered
    cases answered
    exact ⟨lasting.kept _ holds, List.mem_cons_self⟩
  · intro locals log _ error holds answered
    cases answered
    refine ⟨(lasting_honest.kept _ (lasting.honest holds)), ?_⟩
    intro message cause same
    exact ⟨_, List.mem_cons_self, message, by rw [same]⟩

theorem Settles.weaken {before : WorkerLocals → WorkerLog → Prop}
    {after weaker : α → WorkerLocals → WorkerLog → Prop}
    (settles : Settles before after statements)
    (follows : ∀ value locals log, after value locals log → weaker value locals log)
    : Settles before weaker statements :=
  Block.Settles.mono settles (fun _ _ holds => holds) follows fun _ _ _ holds => holds

theorem Settles.strengthen {before stronger : WorkerLocals → WorkerLog → Prop}
    {after : α → WorkerLocals → WorkerLog → Prop} (settles : Settles before after statements)
    (follows : ∀ locals log, stronger locals log → before locals log)
    : Settles stronger after statements :=
  Block.Settles.mono settles follows (fun _ _ _ holds => holds) fun _ _ _ holds => holds

/-- A sequence, through what is known between its two parts. -/
theorem settles_through {before : WorkerLocals → WorkerLog → Prop}
    {after : β → WorkerLocals → WorkerLog → Prop}
    (middle : α → WorkerLocals → WorkerLog → Prop) {next : α → WorkerStatements β}
    (settles : Settles before middle statements)
    (rest : ∀ value, Settles (middle value) after (next value))
    : Settles before after (statements >>= next) :=
  Block.settles_bind settles rest

theorem remembers_call (lasting : Lasting known)
    (permitted : ∀ locals log, known locals log → UpdatesRun log request)
    : Remembers known (call request) :=
  (settles_call lasting permitted).weaken fun _ _ _ holds => holds.1

theorem remembers_quiet (lasting : Lasting known) (quiet : ∀ log, UpdatesRun log request)
    : Remembers known (call request) :=
  remembers_call lasting fun _ log _ => quiet log

theorem remembers_pure {value : α} : Remembers known (pure value) :=
  Block.settles_pure fun _ _ holds => holds

theorem remembers_ifThen {condition : Bool} {statements : WorkerStatements Unit}
    (taken : condition = true → Remembers known statements)
    : Remembers known (Block.ifThen condition statements) := by
  cases condition with
  | true => exact taken rfl
  | false => exact remembers_pure

/-- A handler that rethrows some errors and swallows the others. -/
theorem remembers_attempt {recover : WorkerError → WorkerStatements α}
    (tried : Remembers Honest statements)
    (recovered : ∀ error, recover error = Block.throw error ∨ ∃ value, recover error = pure value)
    : Remembers Honest (statements.attempt recover) := by
  refine Block.settles_attempt tried fun error => ?_
  rcases recovered error with same | ⟨value, same⟩
  · rw [same]
    exact Block.settles_throw fun _ _ holds => holds
  · rw [same]
    exact Block.settles_pure fun _ _ holds => holds.1

theorem remembers_unlessOwnershipLost {statements : WorkerStatements Unit}
    (tried : Remembers Honest statements)
    : Remembers Honest (unlessOwnershipLost statements) := by
  refine remembers_attempt tried fun error => ?_
  cases error with
  | jobOwnershipLost message => exact .inr ⟨(), rfl⟩
  | error | leaseConflict | leaseOwnershipLost | repositoryUnavailable | value => exact .inl rfl

theorem remembers_unlessTerminal {statements : WorkerStatements Unit}
    (tried : Remembers Honest statements)
    : Remembers Honest (unlessTerminal statements) :=
  remembers_attempt tried fun _ => .inr ⟨(), rfl⟩

theorem remembers_failJob {owner : JobOwnership} : Remembers Honest (failJob owner) :=
  Block.settles_bind (remembers_quiet lasting_honest fun _ => trivial)
    fun _ => remembers_quiet lasting_honest fun _ => trivial

theorem remembers_cancelJob {owner : JobOwnership} : Remembers Honest (cancelJob owner) :=
  Block.settles_bind (remembers_quiet lasting_honest fun _ => trivial)
    fun _ => remembers_quiet lasting_honest fun _ => trivial

theorem remembers_settleJob {owner : JobOwnership} {outcome : ExecutionOutcome}
    : Remembers Honest (settleJob owner outcome) := by
  unfold settleJob
  cases executionOutcomeToJobStatus outcome with
  | succeeded =>
      exact Block.settles_bind (remembers_quiet lasting_honest fun _ => trivial)
        fun _ => remembers_quiet lasting_honest fun _ => trivial
  | cancelled => exact remembers_cancelJob
  | queued | claimed | running | failed => exact remembers_failJob

end Statements

section Reasons

variable {known : WorkerLocals → WorkerLog → Prop} {deps : WorkerLoopDeps}

/-- `known`, and the user aborted the job if the condition holds. -/
def AbortedIf (known : WorkerLocals → WorkerLog → Prop) (condition : Prop)
    (locals : WorkerLocals) (log : WorkerLog)
    : Prop :=
  known locals log ∧ (condition → UserAborted log)

theorem Lasting.abortedIf {condition : Prop} (lasting : Lasting known)
    : Lasting (AbortedIf known condition) :=
  lasting.and fun _ _ exchange aborted holds => (aborted holds).cons exchange

theorem settles_givenAbortReason (lasting : Lasting known)
    : Settles known (fun given => AbortedIf known (given = some .userCancelled))
        (givenAbortReason deps) := by
  unfold givenAbortReason
  refine Block.settles_ite (fun _ => ?_) fun _ => ?_
  · refine (settles_call lasting (by exact fun _ _ _ => trivial)).weaken ?_
    intro given locals log holds
    exact ⟨holds.1, fun same => .inl (same ▸ holds.2)⟩
  · exact Block.settles_pure fun _ _ holds => ⟨holds, fun same => nomatch same⟩

theorem settles_outerSignalAborted (lasting : Lasting known)
    : Settles known (fun aborted => AbortedIf known (aborted = true))
        (outerSignalAborted deps) := by
  unfold outerSignalAborted
  refine Block.settles_ite (fun _ => ?_) fun _ => ?_
  · refine (settles_call lasting (by exact fun _ _ _ => trivial)).weaken ?_
    intro aborted locals log holds
    exact ⟨holds.1, fun same => .inr (same ▸ holds.2)⟩
  · exact Block.settles_pure fun _ _ holds => ⟨holds, fun same => nomatch same⟩

theorem settles_abortReason (lasting : Lasting known)
    : Settles known (fun reason => AbortedIf known (reason = some .userCancelled))
        (abortReason deps) := by
  refine Block.settles_bind (settles_givenAbortReason lasting) fun given => ?_
  cases given with
  | some reason => exact Block.settles_pure fun _ _ holds => holds
  | none =>
      refine Block.settles_bind ((settles_outerSignalAborted lasting).strengthen
        fun _ _ holds => holds.1) fun aborted => ?_
      refine Block.settles_pure fun locals log holds => ⟨holds.1, fun same => holds.2 ?_⟩
      cases aborted with
      | true => rfl
      | false => contradiction

theorem remembers_outerSignalAborted (lasting : Lasting known)
    : Remembers known (outerSignalAborted deps) :=
  (settles_outerSignalAborted lasting).weaken fun _ _ _ holds => holds.1

theorem remembers_onOuterAbort (lasting : Lasting known)
    : Remembers known (onOuterAbort deps) :=
  Block.settles_bind
    ((settles_givenAbortReason lasting).weaken fun _ _ _ holds => holds.1)
    fun _ => remembers_quiet lasting fun _ => trivial

end Reasons

section Claimed

variable {deps : WorkerLoopDeps} {workerId : WorkerId} {job : Job} {owner : JobOwnership}

/-- A failed preparation may be recorded before its error is thrown again. -/
theorem remembers_preparedWorktree : Remembers Honest (preparedWorktree deps job) := by
  refine Block.settles_attempt (remembers_quiet lasting_honest fun _ => trivial) fun error => ?_
  refine settles_through (fun _ => Raises error)
    (remembers_ifThen fun _ => ?_) fun _ => Block.settles_throw fun _ _ holds => holds
  refine Block.settles_bind (remembers_quiet lasting_raises fun _ => trivial) fun aborted => ?_
  exact remembers_ifThen fun _ => remembers_quiet lasting_raises fun _ => trivial

theorem remembers_claimedRun : Remembers Honest (claimedRun deps workerId job owner) := by
  have quiet {request : WorkerRequest} (quiet : ∀ log, UpdatesRun log request)
      : Remembers Honest (call request) :=
    remembers_quiet lasting_honest quiet
  refine Block.settles_bind (quiet fun _ => trivial) fun _ => ?_
  refine Block.settles_bind (quiet fun _ => trivial) fun _ => ?_
  refine Block.settles_bind (quiet fun _ => trivial) fun lease => ?_
  refine settles_through (fun _ => Honest)
    (Block.settles_assign fun _ _ holds => holds) fun _ => ?_
  refine Block.settles_bind (remembers_outerSignalAborted lasting_honest) fun aborted => ?_
  refine Block.settles_bind
    (remembers_ifThen fun _ => remembers_onOuterAbort lasting_honest) fun _ => ?_
  refine Block.settles_bind (quiet fun _ => trivial) fun now => ?_
  -- Only here does the job count as started.
  refine Block.settles_bind (settles_call lasting_honest fun _ _ _ => trivial) fun _ => ?_
  refine settles_through (fun _ => Honest)
    (Block.settles_assign fun _ _ holds _ => ⟨owner, now, holds.2⟩) fun _ => ?_
  refine Block.settles_bind remembers_preparedWorktree fun cwd => ?_
  refine Block.settles_bind (quiet fun _ => trivial) fun found => ?_
  cases found with
  | none => exact Block.settles_throw fun _ _ holds => ⟨holds, fun _ _ same => nomatch same⟩
  | some run =>
      refine Block.settles_bind (quiet fun _ => trivial) fun result => ?_
      exact Block.settles_bind remembers_settleJob fun _ => remembers_pure

/-- The run fails with the cause that a call threw. -/
theorem settles_failUnavailable {cause : String}
    : Settles (fun locals log => Honest locals log ∧ SawUnavailable cause log)
        (fun _ => Honest) (failUnavailable deps job owner cause) := by
  have lasting : Lasting fun locals log => Honest locals log ∧ SawUnavailable cause log :=
    lasting_honest.and fun _ _ exchange saw => saw.cons exchange
  refine Block.settles_bind
    (remembers_ifThen fun _ => remembers_quiet lasting fun _ => trivial) fun _ => ?_
  refine settles_through (fun _ => Honest)
    ((remembers_call lasting (by exact fun _ _ holds => .inl ⟨cause, rfl, holds.2⟩)).weaken
      fun _ _ _ holds => holds.1) fun _ => ?_
  refine Block.settles_bind (remembers_quiet lasting_honest fun _ => trivial) fun run => ?_
  refine Block.settles_bind (remembers_ifThen fun _ => ?_) fun _ => ?_
  · exact remembers_attempt (remembers_quiet lasting_honest fun _ => trivial)
      fun _ => .inr ⟨(), rfl⟩
  refine settles_through (fun _ => Honest)
    (Block.settles_locals fun _ _ holds => holds) fun locals => ?_
  refine Block.settles_bind (remembers_unlessOwnershipLost ?_) fun _ => remembers_pure
  exact Block.settles_ite (fun _ => remembers_failJob)
    fun _ => remembers_quiet lasting_honest fun _ => trivial

theorem settles_failStarted {reason : Option AbortReason}
    : Settles (fun locals log =>
          AbortedIf Honest (reason = some .userCancelled) locals log ∧ MarkedRunning log)
        (fun _ => Honest) (failStarted job owner reason) := by
  have honest {statements : WorkerStatements Unit} (remembers : Remembers Honest statements)
      : Settles (fun locals log =>
            AbortedIf Honest (reason = some .userCancelled) locals log ∧ MarkedRunning log)
          (fun _ => Honest) statements :=
    Settles.strengthen remembers fun _ _ holds => holds.1.1
  unfold failStarted
  split
  · exact honest (remembers_unlessTerminal
      (remembers_quiet lasting_honest fun _ => trivial))
  · have lasting : Lasting fun locals log =>
        AbortedIf Honest (some AbortReason.userCancelled = some .userCancelled) locals log
        ∧ MarkedRunning log :=
      lasting_honest.abortedIf.and fun _ _ exchange marked => marked.cons exchange
    refine settles_through (fun _ => Honest)
      ((remembers_call lasting
        (by exact fun _ _ holds => .inr ⟨rfl, holds.2, holds.1.2 rfl⟩)).weaken
        fun _ _ _ holds => holds.1.1) fun _ => ?_
    exact remembers_unlessTerminal remembers_cancelJob
  · exact honest (remembers_unlessOwnershipLost remembers_failJob)
  · exact honest (remembers_unlessOwnershipLost remembers_failJob)
  · exact honest (remembers_unlessOwnershipLost remembers_failJob)

theorem settles_failClaimed {reason : Option AbortReason} {error : WorkerError}
    : Settles (AbortedIf Honest (reason = some .userCancelled)) (fun _ => Honest)
        (failClaimed job owner reason error) := by
  refine settles_through (fun _ => AbortedIf Honest (reason = some .userCancelled))
    (Block.settles_assign fun _ _ holds => holds) fun _ => ?_
  refine settles_through (fun (seen : WorkerLocals) locals log =>
    AbortedIf Honest (reason = some .userCancelled) locals log
    ∧ (seen.started = true → MarkedRunning log))
    (Block.settles_locals fun _ _ holds => ⟨holds, holds.1⟩) fun seen => ?_
  refine settles_through (fun _ => Honest) ?_ fun _ => remembers_pure
  refine Block.settles_ite (fun started => ?_) fun _ => ?_
  · refine Block.settles_ite (fun _ => ?_) fun _ => ?_
    · exact (remembers_unlessTerminal remembers_failJob).strengthen fun _ _ holds => holds.1.1
    · exact settles_failStarted.strengthen fun _ _ holds => ⟨holds.1, holds.2 started⟩
  · refine (remembers_unlessOwnershipLost
      (remembers_quiet lasting_honest (by exact fun _ => trivial))).strengthen ?_
    exact fun _ _ holds => holds.1.1

theorem settles_recoverClaimed {error : WorkerError}
    : Settles (Raises error) (fun _ => Honest) (recoverClaimed deps job owner error) := by
  refine Block.settles_bind (settles_abortReason lasting_raises) fun reason => ?_
  have claimed : Settles (AbortedIf (Raises error) (reason = some .userCancelled))
      (fun _ => Honest) (failClaimed job owner reason error) :=
    settles_failClaimed.strengthen fun _ _ holds => ⟨holds.1.1, holds.2⟩
  cases error with
  | jobOwnershipLost message => exact Block.settles_pure fun _ _ holds => holds.1.1
  | leaseConflict message =>
      refine settles_through (fun _ => Honest) ?_ fun _ => remembers_pure
      refine (remembers_unlessOwnershipLost
        (remembers_quiet lasting_honest (by exact fun _ => trivial))).strengthen ?_
      exact fun _ _ holds => holds.1.1
  | repositoryUnavailable message cause =>
      exact settles_failUnavailable.strengthen
        fun _ _ holds => ⟨holds.1.1, holds.1.2 message cause rfl⟩
  | error | leaseOwnershipLost | value => exact claimed

theorem remembers_cleanUp : Remembers Honest (cleanUp deps workerId job) := by
  have quiet {request : WorkerRequest} (quiet : ∀ log, UpdatesRun log request)
      : Remembers Honest (call request) :=
    remembers_quiet lasting_honest quiet
  refine Block.settles_bind
    ((settles_abortReason lasting_honest).weaken fun _ _ _ holds => holds.1) fun reason => ?_
  refine settles_through (fun _ => Honest)
    (Block.settles_locals fun _ _ holds => holds) fun locals => ?_
  refine settles_through (fun _ => Honest) ?_ fun _ => ?_
  · cases locals.acquiredLease with
    | none => exact remembers_pure
    | some lease =>
        refine remembers_ifThen fun _ => ?_
        refine remembers_attempt (quiet fun _ => trivial) fun error => ?_
        cases error with
        | leaseOwnershipLost message => exact .inr ⟨(), rfl⟩
        | error | leaseConflict | jobOwnershipLost | repositoryUnavailable | value =>
            exact .inl rfl
  refine Block.settles_bind (quiet fun _ => trivial) fun found => ?_
  refine remembers_ifThen fun _ => Block.settles_ite (fun _ => ?_) fun _ => ?_
  · exact Block.settles_bind (remembers_ifThen fun _ => quiet fun _ => trivial)
      fun _ => quiet fun _ => trivial
  · exact quiet fun _ => trivial

/-- A worker changes a run only where its repository turned out to be unavailable, or where its
user aborted a job that was marked running.
-/
theorem settles_runClaimedJob
    : Block.Settles logged UpdatesRun Honest (fun _ => Honest) (fun _ => Honest)
        (runClaimedJob deps workerId job) := by
  unfold runClaimedJob
  split
  · exact Block.settles_throw fun _ _ holds => holds
  split
  · exact Block.settles_throw fun _ _ holds => holds
  · rename_i owned
    refine Block.settles_always ?_ ?_
    · refine Block.Settles.mono (Block.settles_attempt remembers_claimedRun
        fun error => settles_recoverClaimed) (fun _ _ holds => holds)
        (fun _ _ _ holds => holds) fun _ _ _ holds => holds.1
    · exact Block.Settles.mono remembers_cleanUp (fun _ _ holds => holds)
        (fun _ _ _ holds => holds) fun _ _ _ holds => holds.1

end Claimed

end WorkerLoop

end AiSdlc.Application
