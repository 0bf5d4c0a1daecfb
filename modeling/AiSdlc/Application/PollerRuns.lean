import AiSdlc.Async.Reach
import AiSdlc.Async.Block
import AiSdlc.Application.PrReviewPoller

/-! Every run of the poller ends, whatever the passes, the checks and the clock answer: a round
that does not count waits, and so comes closer to the deadline, and the other rounds use up the
polls. That takes a deadline which is a date: where the sum of the start and the days is none, the
poller never waits, and passes that are limited by rate go on for ever.
-/

namespace AiSdlc.Application

open AiSdlc.Js
open AiSdlc.Domain
open AiSdlc.Async

/-- What the surroundings note of the calls of a poller. -/
inductive PollerEvent
  | passed
  | rateLimited
  | failed
  | waited (ms : Int) (start : Date)
  | asked
  | recorded (state : RecordedState)
  deriving DecidableEq, Repr

/-- The surroundings of a poller: their clock, and what they noted, the latest first. -/
structure Polling where
  clock : Date
  log : List PollerEvent

/-- What is noted of a call, which is made at a time and gets a reply. -/
def noted (time : Date) : (request : PollerRequest) → request.Reply → Option PollerEvent
  | .processOnePass _, .ok (pass, _) => some (if pass.rateLimited then .rateLimited else .passed)
  | .processOnePass _, .error _ => some .failed
  | .sleep ms, _ => some (.waited ms time)
  | .onAllResolved, _ => some .asked
  | .recordTerminalState _ state, _ => some (.recorded state)
  | .now, _ | .listPollAttempts, _ | .listComments, _ | .revertRunStatus, _ | .publish _ _ _, _ =>
      none

/-- What is known of an answer: `now` reads the clock, a sleep lets it advance, and the earlier
attempts are those of the run.
-/
def Truthful (attempts : List PollAttempt) (start finish : Date)
    : (request : PollerRequest) → request.Answer → Prop
  | .now, time => time = finish
  | .listPollAttempts, answer => answer = attempts
  | .sleep ms, _ => start.ms + ms ≤ finish.ms
  | _, _ => True

/-- A call gets any reply that is truthful or an error, and the clock never goes back. -/
structure Replied (attempts : List PollAttempt) (state : Polling) (request : PollerRequest)
    (reply : request.Reply) (after : Polling) : Prop where
  forward : state.clock.ms ≤ after.clock.ms
  log : after.log = (noted state.clock request reply).toList ++ state.log
  truthful : ∀ answer, reply = .ok answer →
    Truthful attempts state.clock after.clock request answer
  genuine : reply ≠ .error .stalled

/-- The surroundings of a poller, with the earlier attempts of its run. -/
def polling (attempts : List PollAttempt)
    : Environment Polling PollerRequest PollerRequest.Reply :=
  Replied attempts

-----------------------------------------------------------------------------------------
-- What holds of every run
-----------------------------------------------------------------------------------------

/-- The passes of the main loop: those before the first check for a reactivation. -/
def mainPasses : List PollerEvent → Nat
  | [] => 0
  | event :: earlier =>
      mainPasses earlier + if event = .passed ∧ .asked ∉ earlier then 1 else 0

/-- The passes of the ready loop. -/
def readyPasses : List PollerEvent → Nat
  | [] => 0
  | event :: earlier =>
      readyPasses earlier + if event = .passed ∧ .asked ∈ earlier then 1 else 0

/-- The latest pass was limited by rate or failed, and no wait has followed it. -/
def OwesWait : List PollerEvent → Prop
  | .rateLimited :: _ | .failed :: _ => True
  | .passed :: _ | .waited _ _ :: _ | [] => False
  | .asked :: earlier | .recorded _ :: earlier => OwesWait earlier

/-- What an event has to meet: where a wait is owed, only that wait may follow, which takes a
minute or the time up to the deadline, or a terminal state, with which the run returns.
-/
def PollerEvent.OnTime (deadline : Option Date) (earlier : List PollerEvent)
    : PollerEvent → Prop
  | .passed | .rateLimited | .failed | .asked | .recorded (.running _) => ¬OwesWait earlier
  | .waited ms start =>
      OwesWait earlier → ∃ date, deadline = some date ∧ ms = min 60000 (date.ms - start.ms)
  | .recorded (.terminal _) => True

/-- Each pass that was limited by rate or failed is followed by a wait or by the return. -/
def Paced (deadline : Option Date) : List PollerEvent → Prop
  | [] => True
  | event :: earlier => event.OnTime deadline earlier ∧ Paced deadline earlier

def PollerEvent.recordedState? : PollerEvent → Option RecordedState
  | .recorded state => some state
  | _ => none

/-- The last recorded state is the terminal one, and those before it are not terminal. -/
def Concluded (terminalState : PollerTerminalState) (log : List PollerEvent) : Prop :=
  ∃ earlier, log.filterMap PollerEvent.recordedState? = .terminal terminalState :: earlier
    ∧ ∀ state ∈ earlier, ∃ nextPollAt, state = .running nextPollAt

/-- The number of earlier attempts that were not limited by rate. -/
def meaningful (attempts : List PollAttempt) : Int :=
  (attempts.filter fun attempt => attempt.status ≠ .rateLimited).length

/-- `Math.max(maxPolls, meaningfulAttempts.length + 1)`. -/
def effectiveMaxPolls (deps : PrReviewPollerDeps) (attempts : List PollAttempt) : Int :=
  max deps.maxPolls (meaningful attempts + 1)

/-- The bounds on the passes, and the waits between them. -/
structure Bounded (deps : PrReviewPollerDeps) (attempts : List PollAttempt)
    (log : List PollerEvent) : Prop where
  main : mainPasses log ≤ effectiveMaxPolls deps attempts - meaningful attempts
  ready : readyPasses log ≤ (deps.maxReactivations.getD 0).toNat
  paced : Paced deps.deadline log

/-- How a run of the poller ends. -/
abbrev PollerCompletion : Type :=
  Completion PollerError PrReviewPollerResult Unit

/-- A complete execution, which starts with nothing noted. -/
def Polled (deps : PrReviewPollerDeps) (attempts : List PollAttempt) (rounds : Nat)
    (start : Date) (completion : PollerCompletion) (final : Polling) : Prop :=
  ∃ locals, (PrReviewPoller.run deps rounds {}).Exec (polling attempts) ⟨start, []⟩
    (completion, locals) final

/-- Some number of rounds is enough, whatever the replies are. -/
def Terminates (deps : PrReviewPollerDeps) (attempts : List PollAttempt) : Prop :=
  ∀ start, ∃ enough, ∀ rounds, enough ≤ rounds → ∀ completion final,
    Polled deps attempts rounds start completion final → completion ≠ .threw .stalled

/-- What the poller promises for its settings and a history of earlier attempts. -/
structure PollsToTheEnd (deps : PrReviewPollerDeps) (attempts : List PollAttempt) : Prop where
  terminates : Terminates deps attempts
  bounded : ∀ rounds start completion final,
    Polled deps attempts rounds start completion final → Bounded deps attempts final.log
  concluded : ∀ rounds start completion final,
    Polled deps attempts rounds start completion final →
      match completion with
      | .returned result => Concluded result.terminalState final.log
      | .threw _ => True
      | .normal () => False

variable {deps : PrReviewPollerDeps} {attempts : List PollAttempt} {deadline : Date}
  {enough : Prop}

-----------------------------------------------------------------------------------------
-- What an event changes
-----------------------------------------------------------------------------------------

theorem mainPasses_cons_of_ne {event : PollerEvent} {log : List PollerEvent}
    (other : event ≠ .passed)
    : mainPasses (event :: log) = mainPasses log := by
  simp [mainPasses, other]

theorem readyPasses_cons_of_ne {event : PollerEvent} {log : List PollerEvent}
    (other : event ≠ .passed)
    : readyPasses (event :: log) = readyPasses log := by
  simp [readyPasses, other]

/-- Before the first check all passes are of the main loop, by induction over the log. -/
theorem readyPasses_of_unasked {log : List PollerEvent} (unasked : .asked ∉ log)
    : readyPasses log = 0 := by
  induction log with
  | nil => rfl
  | cons event earlier ih =>
      rw [List.mem_cons, not_or] at unasked
      simp [readyPasses, ih unasked.2, unasked.2]

/-- Nothing but a pass counts. -/
theorem Bounded.note {event : PollerEvent} {log : List PollerEvent}
    (bounded : Bounded deps attempts log) (other : event ≠ .passed)
    (onTime : event.OnTime deps.deadline log)
    : Bounded deps attempts (event :: log) where
  main := (mainPasses_cons_of_ne other).symm ▸ bounded.main
  ready := (readyPasses_cons_of_ne other).symm ▸ bounded.ready
  paced := ⟨onTime, bounded.paced⟩

namespace PrReviewPoller

/-- The log of a run that has not recorded its end. -/
structure Open (deps : PrReviewPollerDeps) (attempts : List PollAttempt)
    (log : List PollerEvent) : Prop where
  bounded : Bounded deps attempts log
  running : ∀ terminalState, .recorded (.terminal terminalState) ∉ log

theorem Open.concluded {log : List PollerEvent} (running : Open deps attempts log)
    (terminalState : PollerTerminalState)
    : Concluded terminalState (.recorded (.terminal terminalState) :: log) := by
  refine ⟨log.filterMap PollerEvent.recordedState?, rfl, ?_⟩
  intro state member
  obtain ⟨event, logged, recorded⟩ := List.mem_filterMap.mp member
  cases event with
  | recorded noted =>
      obtain rfl : noted = state := Option.some.inj recorded
      cases noted with
      | running nextPollAt => exact ⟨nextPollAt, rfl⟩
      | terminal earlier => exact absurd logged (running.running earlier)
  | passed | rateLimited | failed | waited | asked => nomatch recorded

/-- An event that is neither a pass nor an end leaves the run open. -/
theorem Open.note {event : PollerEvent} {log : List PollerEvent}
    (running : Open deps attempts log) (other : event ≠ .passed)
    (unending : ∀ terminalState, event ≠ .recorded (.terminal terminalState))
    (onTime : event.OnTime deps.deadline log)
    : Open deps attempts (event :: log) := by
  refine ⟨running.bounded.note other onTime, ?_⟩
  intro terminalState logged
  rcases List.mem_cons.mp logged with same | earlier
  · exact unending _ same.symm
  · exact running.running _ earlier

-----------------------------------------------------------------------------------------
-- Statements
-----------------------------------------------------------------------------------------

/-- What holds where the run returns. -/
def Returns (deps : PrReviewPollerDeps) (attempts : List PollAttempt)
    (result : PrReviewPollerResult) (_ : PollerLocals) (state : Polling) : Prop :=
  Bounded deps attempts state.log ∧ Concluded result.terminalState state.log

/-- What holds where the run throws: with enough rounds it does not stall. -/
def Fails (deps : PrReviewPollerDeps) (attempts : List PollAttempt) (enough : Prop)
    (error : PollerError) (_ : PollerLocals) (state : Polling) : Prop :=
  Bounded deps attempts state.log ∧ (enough → error ≠ .stalled)

/-- Statements of the poller between two conditions. -/
abbrev Polls {α : Type} (deps : PrReviewPollerDeps) (attempts : List PollAttempt)
    (enough : Prop) (before : PollerLocals → Polling → Prop)
    (after : α → PollerLocals → Polling → Prop) (block : PollerBlock α) : Prop :=
  block.Meets (polling attempts) (fun _ _ => True) before after (Returns deps attempts)
    (Fails deps attempts enough)

/-- Statements that leave the run. -/
abbrev Ends {α : Type} (deps : PrReviewPollerDeps) (attempts : List PollAttempt)
    (enough : Prop) (before : PollerLocals → Polling → Prop) (block : PollerBlock α) : Prop :=
  Polls deps attempts enough before (fun _ _ _ => False) block

/-- A condition that time does not break, and that tells of an open log. -/
structure Patient (deps : PrReviewPollerDeps) (attempts : List PollAttempt)
    (condition : PollerLocals → Polling → Prop) : Prop where
  enduring : ∀ locals state (after : Polling), condition locals state →
    state.clock.ms ≤ after.clock.ms → after.log = state.log → condition locals after
  openLog : ∀ locals state, condition locals state → Open deps attempts state.log

variable {condition : PollerLocals → Polling → Prop}

theorem polls_unnoted {request : PollerRequest} (patient : Patient deps attempts condition)
    (unnoted : ∀ time reply, noted time request reply = none)
    : Polls deps attempts enough condition
        (fun answer locals state => condition locals state
          ∧ ∃ time, Truthful attempts time state.clock request answer)
        (call request) := by
  refine Block.meets_call (fun _ _ _ => trivial) ?_ ?_
  · intro locals state next answer holds replied
    have same : next.log = state.log := by rw [replied.log, unnoted]; rfl
    exact ⟨patient.enduring _ _ _ holds replied.forward same,
      state.clock, replied.truthful answer rfl⟩
  · intro locals state next error holds replied
    have same : next.log = state.log := by rw [replied.log, unnoted]; rfl
    have bounded := (patient.openLog _ _ holds).bounded
    exact ⟨same.symm ▸ bounded, fun _ stalled => replied.genuine (congrArg _ stalled)⟩

theorem polls_silently {request : PollerRequest} (patient : Patient deps attempts condition)
    (unnoted : ∀ time reply, noted time request reply = none)
    : Polls deps attempts enough condition (fun _ => condition) (call request) :=
  (polls_unnoted patient unnoted).mono (fun _ _ holds => holds) fun _ _ _ holds => holds.1

theorem polls_now (patient : Patient deps attempts condition)
    : Polls deps attempts enough condition
        (fun time locals state => condition locals state ∧ time = state.clock) (call .now) :=
  (polls_unnoted patient fun _ _ => rfl).mono (fun _ _ holds => holds)
    fun _ _ _ ⟨holds, _, truthful⟩ => ⟨holds, truthful⟩

theorem polls_emit {type : String} {level : EventLevel}
    (patient : Patient deps attempts condition)
    : Polls deps attempts enough condition (fun _ => condition) (emit type level) :=
  Block.meets_bind (polls_silently patient fun _ _ => rfl)
    fun _ => polls_silently patient fun _ _ => rfl

theorem polls_noted {request : PollerRequest} {event : Date → PollerEvent}
    {after : request.Answer → PollerLocals → Polling → Prop}
    (notes : ∀ time reply, noted time request reply = some (event time))
    (other : ∀ time, event time ≠ .passed)
    (bounded : ∀ locals state, condition locals state → Bounded deps attempts state.log)
    (onTime : ∀ locals state, condition locals state →
      (event state.clock).OnTime deps.deadline state.log)
    (answers : ∀ locals state (next : Polling) answer, condition locals state →
      state.clock.ms ≤ next.clock.ms → next.log = event state.clock :: state.log →
      Truthful attempts state.clock next.clock request answer → after answer locals next)
    : Polls deps attempts enough condition after (call request) := by
  refine Block.meets_call (fun _ _ _ => trivial) ?_ ?_
  · intro locals state next answer holds replied
    have same : next.log = event state.clock :: state.log := by rw [replied.log, notes]; rfl
    exact answers _ _ _ _ holds replied.forward same (replied.truthful answer rfl)
  · intro locals state next error holds replied
    have same : next.log = event state.clock :: state.log := by rw [replied.log, notes]; rfl
    have later := (bounded _ _ holds).note (other _) (onTime _ _ holds)
    exact ⟨same.symm ▸ later, fun _ stalled => replied.genuine (congrArg _ stalled)⟩

/-- Statements that leave the condition, and others after them. -/
theorem polls_keeping {α β : Type} {after : α → PollerLocals → Polling → Prop}
    {first : PollerBlock β} {next : β → PollerBlock α}
    (keeps : Polls deps attempts enough condition (fun _ => condition) first)
    (rest : ∀ value, Polls deps attempts enough condition after (next value))
    : Polls deps attempts enough condition after (first >>= next) :=
  Block.meets_bind keeps rest

theorem ends_conclude {terminalState : PollerTerminalState}
    (opens : ∀ locals state, condition locals state → Open deps attempts state.log)
    : Ends deps attempts enough condition (conclude terminalState) := by
  refine Block.meets_locals_then fun locals => ?_
  have recorded : Polls deps attempts enough condition
      (fun _ _ state => Bounded deps attempts state.log ∧ Concluded terminalState state.log)
      (call (.recordTerminalState locals.lastAttempt (.terminal terminalState))) := by
    refine polls_noted (fun _ _ => rfl) (fun _ same => nomatch same)
      (fun _ _ holds => (opens _ _ holds).bounded) (fun _ _ _ => trivial) ?_
    intro locals state next _ holds _ same _
    rw [same]
    have opened := opens _ _ holds
    exact ⟨opened.bounded.note (fun same => nomatch same) trivial, opened.concluded terminalState⟩
  exact Block.meets_bind recorded fun _ => Block.meets_leave fun _ _ holds => holds

theorem ends_timeOut (patient : Patient deps attempts condition)
    : Ends deps attempts enough condition timeOut :=
  Block.meets_bind (polls_emit patient) fun _ => ends_conclude patient.openLog

theorem Ends.anything {α : Type} {after : α → PollerLocals → Polling → Prop}
    {block : PollerBlock α} (ends : Ends deps attempts enough condition block)
    : Polls deps attempts enough condition after block :=
  ends.mono (fun _ _ holds => holds) fun _ _ _ never => never.elim

-----------------------------------------------------------------------------------------
-- The ready loop
-----------------------------------------------------------------------------------------

/-- No wait is owed, and the ready loop has made so many passes, once it was entered. -/
structure Settling (deps : PrReviewPollerDeps) (attempts : List PollAttempt) (passes : Nat)
    (log : List PollerEvent) : Prop where
  opened : Open deps attempts log
  free : ¬OwesWait log
  asked : .asked ∈ log
  passes : readyPasses log = passes

/-- No wait is owed before the ready loop. -/
def Unowing (deps : PrReviewPollerDeps) (attempts : List PollAttempt)
    (log : List PollerEvent) : Prop :=
  Open deps attempts log ∧ ¬OwesWait log ∧ readyPasses log = 0

theorem patient_log {condition : List PollerEvent → Prop}
    (opens : ∀ log, condition log → Open deps attempts log)
    : Patient deps attempts fun _ state => condition state.log where
  enduring _ _ _ holds _ same := same.symm ▸ holds
  openLog _ _ holds := opens _ holds

theorem polls_revert (patient : Patient deps attempts condition)
    : Polls deps attempts enough condition (fun _ => condition) (revert deps) :=
  Block.meets_ifThen (fun _ => polls_silently patient fun _ _ => rfl) fun _ _ _ holds => holds

/-- The pass of the ready loop, which is one of the reactivations allowed. -/
theorem polls_readyPass {pollNumber : Int} (some : 1 ≤ deps.maxReactivations.getD 0)
    : (call (.processOnePass pollNumber)).Meets (polling attempts) (fun _ _ => True)
        (fun _ state => Settling deps attempts 0 state.log)
        (fun _ _ state => Open deps attempts state.log)
        (Returns deps attempts)
        (fun _ _ state => Open deps attempts state.log) := by
  have opens (event : PollerEvent) {log : List PollerEvent}
      (settling : Settling deps attempts 0 log)
      (onTime : event.OnTime deps.deadline log) (unending : ∀ state, event ≠ .recorded state)
      : Open deps attempts (event :: log) := by
    refine ⟨⟨?_, ?_, onTime, settling.opened.bounded.paced⟩, ?_⟩
    · simpa [mainPasses, settling.asked] using settling.opened.bounded.main
    · have most : readyPasses (event :: log) ≤ 1 := by
        rw [readyPasses, settling.passes]
        split <;> omega
      omega
    · intro terminalState logged
      rcases List.mem_cons.mp logged with same | earlier
      · exact unending _ same.symm
      · exact settling.opened.running _ earlier
  refine Block.meets_call (fun _ _ _ => trivial) ?_ ?_
  · rintro locals state next ⟨pass, attempt⟩ settling replied
    rw [replied.log]
    cases limited : pass.rateLimited with
    | true =>
        simp only [noted, limited, if_true, Option.toList_some, List.singleton_append]
        exact opens .rateLimited settling settling.free fun _ same => nomatch same
    | false =>
        simp only [noted, limited, Bool.false_eq_true, if_false, Option.toList_some,
          List.singleton_append]
        exact opens .passed settling settling.free fun _ same => nomatch same
  · intro locals state next error settling replied
    rw [replied.log]
    exact opens .failed settling settling.free fun _ same => nomatch same

theorem ends_reactivated (some : 1 ≤ deps.maxReactivations.getD 0)
    : Ends deps attempts enough (fun _ state => Settling deps attempts 0 state.log)
        (reactivated deps) := by
  have patient : Patient deps attempts fun _ state => Open deps attempts state.log :=
    patient_log fun _ opened => opened
  have handled : Ends deps attempts enough (fun _ state => Open deps attempts state.log) (do
      emit "post-pr-review.ready.process_failed" .warn
      revert deps
      conclude .allResolved
      pure (none : Option (PollPassResult × Option PollAttempt))) := by
    refine Block.meets_bind (polls_emit patient) fun _ => ?_
    refine Block.meets_bind (polls_revert patient) fun _ => ?_
    exact Block.meets_bind (ends_conclude patient.openLog) fun _ _ _ never => never.elim
  have tried : Polls deps attempts enough (fun _ state => Settling deps attempts 0 state.log)
      (fun answered _ state => answered.isSome ∧ Open deps attempts state.log)
      (Block.attempt (Option.some <$> call (.processOnePass (deps.maxPolls + 1))) fun _ => do
        emit "post-pr-review.ready.process_failed" .warn
        revert deps
        conclude .allResolved
        pure none) :=
    Block.meets_attempt (Block.meets_bind (polls_readyPass some)
      fun _ => Block.meets_pure fun _ _ holds => ⟨rfl, holds⟩) fun _ => handled.anything
  refine Block.meets_bind tried fun answered => ?_
  cases answered with
  | none => exact fun _ _ never => nomatch never.1
  | some answer =>
      have counts : Polls deps attempts enough
          (fun _ state => (Option.some answer).isSome ∧ Open deps attempts state.log)
          (fun _ _ state => Open deps attempts state.log) (Block.assign fun locals => {
            locals with
            lastAttempt := answer.2.or locals.lastAttempt
            pollsRun := locals.pollsRun + 1
          }) :=
        Block.meets_assign fun _ _ holds => holds.2
      refine Block.meets_bind counts fun _ => ?_
      refine Block.meets_bind (polls_revert patient) fun _ => ?_
      exact Block.meets_ite (fun _ => ends_conclude patient.openLog)
        fun _ => ends_conclude patient.openLog

/-- The ready loop leaves the run, after one check at most. -/
theorem ends_enterReadyLoop
    : Ends deps attempts enough (fun _ state => Unowing deps attempts state.log)
        (enterReadyLoop deps) := by
  refine Block.meets_ite (fun checked => ?_) fun _ => ends_conclude fun _ _ unowing => unowing.1
  have some : 1 ≤ deps.maxReactivations.getD 0 := by
    simpa using (Bool.and_eq_true_iff.mp checked).2
  have asks : Polls deps attempts enough (fun _ state => Unowing deps attempts state.log)
      (fun _ _ state => Settling deps attempts 0 state.log) (call .onAllResolved) := by
    refine polls_noted (fun _ _ => rfl) (fun _ same => nomatch same)
      (fun _ _ unowing => unowing.1.bounded) (fun _ _ unowing => unowing.2.1) ?_
    intro locals state next action unowing _ same _
    rw [same]
    obtain ⟨opened, free, none⟩ := unowing
    have asked : Open deps attempts (.asked :: state.log) :=
      opened.note (fun same => nomatch same) (fun _ same => nomatch same) free
    exact ⟨asked, free, List.mem_cons_self, by simpa [readyPasses] using none⟩
  have patient : Patient deps attempts fun _ state => Settling deps attempts 0 state.log :=
    patient_log fun _ settling => settling.opened
  refine Block.meets_bind asks fun action => ?_
  refine Block.meets_bind (polls_emit patient) fun _ => ?_
  cases action with
  | timeout => exact ends_conclude patient.openLog
  | stayReady => exact ends_conclude patient.openLog
  | reactivate => exact ends_reactivated some

-----------------------------------------------------------------------------------------
-- The main loop
-----------------------------------------------------------------------------------------

/-- The main loop, with a poll that is pending or counted, and bounds on the polls that are left
and on the time with them.
-/
structure InLoop (deps : PrReviewPollerDeps) (attempts : List PollAttempt) (deadline : Date)
    (pending polls time pollNumber : Int) (state : Polling) : Prop where
  opened : Open deps attempts state.log
  unasked : .asked ∉ state.log
  passes : mainPasses state.log + meaningful attempts + pending = pollNumber
  polls : effectiveMaxPolls deps attempts - pollNumber ≤ polls
  time : effectiveMaxPolls deps attempts - pollNumber + (deadline.ms - state.clock.ms) ≤ time

/-- A wait is owed past the deadline only. -/
def Even (deadline : Date) (state : Polling) : Prop :=
  OwesWait state.log → deadline.ms ≤ state.clock.ms

variable {pending polls time pollNumber : Int}

theorem patient_inLoop
    : Patient deps attempts fun locals state =>
        InLoop deps attempts deadline pending polls time locals.pollNumber state where
  enduring locals state after holds forward same := by
    refine ⟨same ▸ holds.opened, same ▸ holds.unasked, same ▸ holds.passes, holds.polls, ?_⟩
    have time := holds.time
    omega
  openLog _ _ holds := holds.opened

/-- Further conditions that time does not break. -/
theorem Patient.and {other : PollerLocals → Polling → Prop}
    (patient : Patient deps attempts condition)
    (kept : ∀ locals state (after : Polling), other locals state →
      state.clock.ms ≤ after.clock.ms → after.log = state.log → other locals after)
    : Patient deps attempts fun locals state => condition locals state ∧ other locals state where
  enduring _ _ _ holds forward same :=
    ⟨patient.enduring _ _ _ holds.1 forward same, kept _ _ _ holds.2 forward same⟩
  openLog _ _ holds := patient.openLog _ _ holds.1

theorem InLoop.unowing {state : Polling}
    (inLoop : InLoop deps attempts deadline pending polls time pollNumber state)
    (free : ¬OwesWait state.log)
    : Unowing deps attempts state.log :=
  ⟨inLoop.opened, free, readyPasses_of_unasked inLoop.unasked⟩

/-- An event of the loop that is neither a pass, nor a check, nor an end. -/
theorem InLoop.note {event : PollerEvent} {state after : Polling}
    (inLoop : InLoop deps attempts deadline pending polls time pollNumber state)
    (forward : state.clock.ms ≤ after.clock.ms) (same : after.log = event :: state.log)
    (other : event ≠ .passed) (unasked : event ≠ .asked)
    (unending : ∀ terminalState, event ≠ .recorded (.terminal terminalState))
    (onTime : event.OnTime deps.deadline state.log)
    : InLoop deps attempts deadline pending polls time pollNumber after where
  opened := same ▸ inLoop.opened.note other unending onTime
  unasked logged := by
    rw [same] at logged
    rcases List.mem_cons.mp logged with now | earlier
    · exact unasked now.symm
    · exact inLoop.unasked earlier
  passes := by rw [same, mainPasses_cons_of_ne other, inLoop.passes]
  polls := inLoop.polls
  time := by
    have time := inLoop.time
    omega

/-- A sleep up to the deadline at most, or none where the deadline has come. -/
theorem polls_cappedSleep {requestedMs : Int} {after : PollerLocals → Polling → Prop}
    (valid : deps.deadline = some deadline) (patient : Patient deps attempts condition)
    (onTime : ∀ locals state, condition locals state →
      0 < min requestedMs (deadline.ms - state.clock.ms) →
      PollerEvent.OnTime deps.deadline state.log
        (.waited (min requestedMs (deadline.ms - state.clock.ms)) state.clock))
    (slept : ∀ locals state (next : Polling), condition locals state →
      0 < min requestedMs (deadline.ms - state.clock.ms) →
      state.clock.ms + min requestedMs (deadline.ms - state.clock.ms) ≤ next.clock.ms →
      next.log = .waited (min requestedMs (deadline.ms - state.clock.ms)) state.clock :: state.log →
      after locals next)
    (skipped : ∀ locals state, condition locals state →
      min requestedMs (deadline.ms - state.clock.ms) ≤ 0 → after locals state)
    : Polls deps attempts enough condition (fun _ => after) (cappedSleep deps requestedMs) := by
  refine Block.meets_bind (polls_now patient) fun now => ?_
  simp only [valid]
  refine Block.meets_ifThen (fun positive => ?_) fun negative locals state holds => ?_
  · have ms : max 0 (min requestedMs (deadline.ms - now.ms))
        = min requestedMs (deadline.ms - now.ms) := by
      have := of_decide_eq_true positive
      omega
    have later : 0 < min requestedMs (deadline.ms - now.ms) := by
      rw [← ms]
      exact of_decide_eq_true positive
    rw [ms]
    refine polls_noted (fun _ _ => rfl) (fun _ same => nomatch same)
      (fun _ _ holds => (patient.openLog _ _ holds.1).bounded) ?_ ?_
    · rintro locals state ⟨holds, rfl⟩
      exact onTime _ _ holds later
    · rintro locals state next answer ⟨holds, rfl⟩ _ same advanced
      exact slept _ _ _ holds later advanced same
  · obtain ⟨holds, rfl⟩ := holds
    have := of_decide_eq_false negative
    exact skipped _ _ holds (by omega)

section Rounds

variable {left : Int}

/-- After a pass that does not count, the wait brings the deadline closer. -/
theorem polls_backoff (valid : deps.deadline = some deadline)
    : Polls deps attempts enough
        (fun locals state =>
          InLoop deps attempts deadline 1 (left - 1) left locals.pollNumber state)
        (fun _ locals state =>
          InLoop deps attempts deadline 1 (left - 1) (left - 1) locals.pollNumber state
            ∧ Even deadline state)
        (cappedSleep deps rateLimitBackoffMs) := by
  refine polls_cappedSleep valid patient_inLoop ?_ ?_ ?_
  · exact fun _ _ _ _ _ => ⟨deadline, valid, rfl⟩
  · intro locals state next inLoop positive advanced same
    have waited := inLoop.note (by omega) same (fun same => nomatch same)
      (fun same => nomatch same) (fun _ same => nomatch same)
      fun _ => ⟨deadline, valid, rfl⟩
    have time := inLoop.time
    refine ⟨⟨waited.opened, waited.unasked, waited.passes, waited.polls, by omega⟩, ?_⟩
    exact fun owes => (same ▸ owes : OwesWait (.waited _ _ :: state.log)).elim
  · intro locals state inLoop isOver
    have polls := inLoop.polls
    have come : deadline.ms ≤ state.clock.ms := by
      unfold rateLimitBackoffMs at isOver
      omega
    exact ⟨⟨inLoop.opened, inLoop.unasked, inLoop.passes, polls, by omega⟩, fun _ => come⟩

/-- The pause after a pass that counts. -/
theorem polls_pause {requestedMs : Int} (valid : deps.deadline = some deadline)
    : Polls deps attempts enough
        (fun locals state =>
          InLoop deps attempts deadline 0 left left locals.pollNumber state
            ∧ ¬OwesWait state.log)
        (fun _ locals state =>
          InLoop deps attempts deadline 0 left left locals.pollNumber state
            ∧ Even deadline state)
        (cappedSleep deps requestedMs) := by
  have patient : Patient deps attempts fun locals state =>
      InLoop deps attempts deadline 0 left left locals.pollNumber state
        ∧ ¬OwesWait state.log :=
    patient_inLoop.and fun _ _ _ free _ same => same ▸ free
  refine polls_cappedSleep valid patient ?_ ?_ ?_
  · exact fun _ _ holds _ owes => absurd owes holds.2
  · intro locals state next holds positive advanced same
    refine ⟨holds.1.note (by omega) same (fun same => nomatch same) (fun same => nomatch same)
      (fun _ same => nomatch same) fun owes => absurd owes holds.2, ?_⟩
    exact fun owes => (same ▸ owes : OwesWait (.waited _ _ :: state.log)).elim
  · exact fun _ _ holds _ => ⟨holds.1, fun owes => absurd owes holds.2⟩

/-- The main loop with a poll that is pending, and time left for it. -/
abbrev Pending (deps : PrReviewPollerDeps) (attempts : List PollAttempt) (deadline : Date)
    (left : Int) (locals : PollerLocals) (state : Polling) : Prop :=
  InLoop deps attempts deadline 1 (left - 1) left locals.pollNumber state

/-- The main loop with a poll that was counted, and no wait owed. -/
abbrev Counted (deps : PrReviewPollerDeps) (attempts : List PollAttempt) (deadline : Date)
    (left : Int) (locals : PollerLocals) (state : Polling) : Prop :=
  InLoop deps attempts deadline 0 left left locals.pollNumber state ∧ ¬OwesWait state.log

/-- The end of a round, before its poll number is advanced. -/
abbrev Rounded (deps : PrReviewPollerDeps) (attempts : List PollAttempt) (deadline : Date)
    (left : Int) (locals : PollerLocals) (state : Polling) : Prop :=
  InLoop deps attempts deadline 0 left left locals.pollNumber state ∧ Even deadline state

theorem patient_pending
    : Patient deps attempts (Pending deps attempts deadline left) :=
  patient_inLoop

theorem patient_counted
    : Patient deps attempts (Counted deps attempts deadline left) :=
  patient_inLoop.and fun _ _ _ free _ same => same ▸ free

/-- A pass of the main loop counts if it is neither limited by rate nor thrown. -/
theorem meets_mainPass {number : Int}
    : (call (.processOnePass number)).Meets (polling attempts) (fun _ _ => True)
        (fun locals state => Pending deps attempts deadline left locals state
          ∧ ¬OwesWait state.log ∧ locals.pollNumber ≤ effectiveMaxPolls deps attempts)
        (fun answer locals state =>
          if answer.1.rateLimited then Pending deps attempts deadline left locals state
          else Counted deps attempts deadline left locals state)
        (Returns deps attempts)
        (fun _ => Pending deps attempts deadline left) := by
  refine Block.meets_call (fun _ _ _ => trivial) ?_ ?_
  · rintro locals state next ⟨pass, attempt⟩ ⟨pending, free, within⟩ replied
    have log := replied.log
    cases limited : pass.rateLimited with
    | true =>
        simp only [noted, limited, if_true] at log
        simp only [if_true]
        exact pending.note replied.forward log (fun same => nomatch same)
          (fun same => nomatch same) (fun _ same => nomatch same) free
    | false =>
        simp only [noted, limited, Bool.false_eq_true, if_false] at log
        simp only [Bool.false_eq_true, if_false]
        have same : next.log = .passed :: state.log := log
        have counts : mainPasses next.log = mainPasses state.log + 1 := by
          simp [same, mainPasses, pending.unasked]
        have none : readyPasses next.log = 0 := by
          simp [same, readyPasses, pending.unasked, readyPasses_of_unasked pending.unasked]
        have passes := pending.passes
        have polls := pending.polls
        have time := pending.time
        have forward := replied.forward
        refine ⟨⟨⟨⟨by omega, by omega, ?_⟩, ?_⟩, ?_, by omega, by omega, by omega⟩, ?_⟩
        · rw [same]
          exact ⟨free, pending.opened.bounded.paced⟩
        · intro terminalState logged
          rw [same] at logged
          exact pending.opened.running _ ((List.mem_cons.mp logged).resolve_left nofun)
        · rw [same, List.mem_cons, not_or]
          exact ⟨nofun, pending.unasked⟩
        · rw [same]
          exact id
  · intro locals state next error ⟨pending, free, within⟩ replied
    exact pending.note replied.forward replied.log (fun same => nomatch same)
      (fun same => nomatch same) (fun _ same => nomatch same) free

theorem polls_goBack (valid : deps.deadline = some deadline)
    : Polls deps attempts enough (Pending deps attempts deadline left)
        (fun _ => Rounded deps attempts deadline left) (do
          cappedSleep deps rateLimitBackoffMs
          Block.assign fun locals => { locals with pollNumber := locals.pollNumber - 1 }) := by
  refine Block.meets_bind (polls_backoff valid) fun _ => Block.meets_assign ?_
  rintro locals state ⟨waited, even⟩
  have passes := waited.passes
  have polls := waited.polls
  have time := waited.time
  refine ⟨⟨waited.opened, waited.unasked, ?_, ?_, ?_⟩, even⟩
  · show _ + _ + 0 = locals.pollNumber - 1
    omega
  · show _ - (locals.pollNumber - 1) ≤ left
    omega
  · show _ - (locals.pollNumber - 1) + _ ≤ left
    omega

theorem polls_rateLimitedPass (valid : deps.deadline = some deadline)
    : Polls deps attempts enough (Pending deps attempts deadline left)
        (fun _ => Rounded deps attempts deadline left) (rateLimitedPass deps) :=
  Block.meets_bind (polls_emit patient_pending) fun _ => polls_goBack valid

theorem polls_failedPass (valid : deps.deadline = some deadline)
    : Polls deps attempts enough (Pending deps attempts deadline left)
        (fun _ => Rounded deps attempts deadline left) (failedPass deps) := by
  have counts : Polls deps attempts enough (Pending deps attempts deadline left)
      (fun _ => Pending deps attempts deadline left) (Block.assign fun locals =>
        { locals with consecutiveFailures := locals.consecutiveFailures + 1 }) :=
    Block.meets_assign fun _ _ holds => holds
  refine Block.meets_bind counts fun _ => ?_
  refine Block.meets_bind (polls_emit patient_pending) fun _ => ?_
  refine Block.meets_locals_then fun locals => ?_
  refine Block.meets_ite (fun _ => ?_) fun _ => polls_goBack valid
  refine Block.meets_bind (polls_emit patient_pending) fun _ => ?_
  refine Block.meets_bind (polls_silently patient_pending fun _ _ => rfl) fun now => ?_
  exact Block.meets_ite (fun _ => (ends_timeOut patient_pending).anything)
    fun _ => (ends_conclude patient_pending.openLog).anything

theorem polls_countQuietPoll {pass : PollPassResult}
    : Polls deps attempts enough (Counted deps attempts deadline left)
        (fun _ => Counted deps attempts deadline left) (countQuietPoll deps pass) := by
  have sets {change : PollerLocals → PollerLocals}
      (same : ∀ locals, (change locals).pollNumber = locals.pollNumber)
      : Polls deps attempts enough (Counted deps attempts deadline left)
          (fun _ => Counted deps attempts deadline left) (Block.assign change) :=
    Block.meets_assign fun locals _ holds => ⟨(same locals).symm ▸ holds.1, holds.2⟩
  have last : Polls deps attempts enough (Counted deps attempts deadline left)
      (fun _ => Counted deps attempts deadline left)
      ((Block.assign fun locals => { locals with consecutiveQuietPolls := 0 }).ifThen
        (0 < pass.processed)) :=
    Block.meets_ifThen (fun _ => sets fun _ => rfl) fun _ _ _ holds => holds
  refine Block.meets_ite (fun _ => ?_) fun _ => polls_keeping (sets fun _ => rfl) fun _ => last
  refine polls_keeping (polls_silently patient_counted fun _ _ => rfl) fun comments => ?_
  refine polls_keeping (polls_silently patient_counted fun _ _ => rfl) fun now => ?_
  refine Block.meets_ite (fun _ => last) fun _ => ?_
  refine Block.meets_locals_then fun locals => ?_
  refine polls_keeping (Block.meets_ifThen (fun _ => ?_) fun _ _ _ holds => holds)
    fun _ => polls_keeping (sets fun _ => rfl) fun _ => last
  exact polls_keeping (sets fun _ => rfl) fun _ => polls_emit patient_counted

theorem ends_readyLoop_of_counted
    : Ends deps attempts enough (Counted deps attempts deadline left) (enterReadyLoop deps) :=
  Block.Meets.mono ends_enterReadyLoop (fun _ _ holds => holds.1.unowing holds.2)
    fun _ _ _ never => never

theorem polls_readyIfBlocked {pass : PollPassResult}
    : Polls deps attempts enough (Counted deps attempts deadline left)
        (fun _ => Counted deps attempts deadline left) (readyIfBlocked deps pass) := by
  refine Block.meets_ite (fun _ => ?_) fun _ => Block.meets_pure fun _ _ holds => holds
  refine Block.meets_bind (polls_silently patient_counted fun _ _ => rfl) fun comments => ?_
  refine Block.meets_ite (fun _ => Block.meets_pure fun _ _ holds => holds) fun _ => ?_
  exact Block.meets_bind (polls_emit patient_counted)
    fun _ => ends_readyLoop_of_counted.anything

/-- The pause is recorded as one of a run that goes on. -/
theorem polls_awaitNextPoll (valid : deps.deadline = some deadline)
    : Polls deps attempts enough (Counted deps attempts deadline left)
        (fun _ => Rounded deps attempts deadline left) (awaitNextPoll deps) := by
  refine Block.meets_bind (polls_silently patient_counted fun _ _ => rfl) fun first => ?_
  refine Block.meets_bind (polls_silently patient_counted fun _ _ => rfl) fun second => ?_
  refine Block.meets_locals_then fun locals => ?_
  have records {attempt : Option PollAttempt} {nextPollAt : Option Date}
      : Polls deps attempts enough (Counted deps attempts deadline left)
          (fun _ => Counted deps attempts deadline left)
          (call (.recordTerminalState attempt (.running nextPollAt))) := by
    refine polls_noted (fun _ _ => rfl) (fun _ same => nomatch same)
      (fun _ _ holds => holds.1.opened.bounded) (fun _ _ holds => holds.2) ?_
    intro locals state next _ ⟨inLoop, free⟩ forward same _
    refine ⟨inLoop.note forward same (fun same => nomatch same) (fun same => nomatch same)
      (fun _ same => nomatch same) free, ?_⟩
    rw [same]
    exact free
  exact Block.meets_bind records fun _ => polls_pause valid

theorem polls_countedPass {most : Int} {pass : PollPassResult}
    (valid : deps.deadline = some deadline)
    : Polls deps attempts enough (Counted deps attempts deadline left)
        (fun _ => Rounded deps attempts deadline left) (countedPass deps most pass) := by
  have counts : Polls deps attempts enough (Counted deps attempts deadline left)
      (fun _ => Counted deps attempts deadline left)
      (Block.assign fun locals => { locals with pollsRun := locals.pollsRun + 1 }) :=
    Block.meets_assign fun _ _ holds => holds
  refine Block.meets_bind counts fun _ => ?_
  refine Block.meets_bind (polls_emit patient_counted) fun _ => ?_
  refine Block.meets_bind polls_countQuietPoll fun _ => ?_
  refine Block.meets_locals_then fun locals => ?_
  refine Block.meets_ite (fun _ => ?_) fun _ => ?_
  · exact Block.meets_bind (polls_emit patient_counted)
      fun _ => ends_readyLoop_of_counted.anything
  · refine Block.meets_bind polls_readyIfBlocked fun _ => ?_
    exact Block.meets_ifThen (fun _ => polls_awaitNextPoll valid)
      fun _ _ _ holds => ⟨holds.1, fun owes => absurd owes holds.2⟩

/-- The main loop before a round. -/
abbrev AtHead (deps : PrReviewPollerDeps) (attempts : List PollAttempt) (deadline : Date)
    (left : Int) (locals : PollerLocals) (state : Polling) : Prop :=
  InLoop deps attempts deadline 1 left left locals.pollNumber state ∧ Even deadline state

theorem patient_atHead : Patient deps attempts (AtHead deps attempts deadline left) :=
  patient_inLoop.and fun _ _ _ even forward same owes =>
    le_trans (even (same ▸ owes)) forward

/-- A round ends with less left, unless it leaves the run. -/
theorem polls_pollOnce {most : Int} (valid : deps.deadline = some deadline)
    : Polls deps attempts enough
        (fun locals state => AtHead deps attempts deadline left locals state
          ∧ locals.pollNumber ≤ effectiveMaxPolls deps attempts)
        (fun _ => Rounded deps attempts deadline left) (pollOnce deps most) := by
  have patient : Patient deps attempts fun locals state =>
      AtHead deps attempts deadline left locals state
        ∧ locals.pollNumber ≤ effectiveMaxPolls deps attempts :=
    patient_atHead.and fun _ _ _ within _ _ => within
  refine Block.meets_bind (polls_now patient) fun now => ?_
  refine Block.meets_ite (fun _ => ?_) fun early => ?_
  · exact (ends_timeOut patient).anything.mono (fun _ _ holds => holds.1) fun _ _ _ holds => holds
  have ahead : Patient deps attempts fun locals state =>
      Pending deps attempts deadline left locals state
        ∧ ¬OwesWait state.log ∧ locals.pollNumber ≤ effectiveMaxPolls deps attempts :=
    patient_pending.and fun _ _ _ rest _ same => same ▸ rest
  have passes {number : Int} : Polls deps attempts enough
      (fun locals state => Pending deps attempts deadline left locals state
        ∧ ¬OwesWait state.log ∧ locals.pollNumber ≤ effectiveMaxPolls deps attempts)
      (fun answered locals state =>
        match answered with
        | none => Rounded deps attempts deadline left locals state
        | some answer =>
            if answer.1.rateLimited then Pending deps attempts deadline left locals state
            else Counted deps attempts deadline left locals state)
      (Block.attempt (Option.some <$> call (.processOnePass number)) fun _ => do
        failedPass deps
        pure none) :=
    Block.meets_attempt
      (Block.meets_bind meets_mainPass fun _ => Block.meets_pure fun _ _ holds => holds)
      fun _ => Block.meets_bind (polls_failedPass valid)
        fun _ => Block.meets_pure fun _ _ holds => holds
  refine Block.Meets.mono (polls_keeping (polls_emit ahead) fun _ =>
    Block.meets_locals_then fun locals => Block.meets_bind passes fun answered => ?_) ?_
    fun _ _ _ holds => holds
  · cases answered with
    | none => exact Block.meets_pure fun _ _ holds => holds
    | some answer =>
        obtain ⟨pass, attempt⟩ := answer
        have sets : Polls deps attempts enough
            (fun locals state =>
              if pass.rateLimited then Pending deps attempts deadline left locals state
              else Counted deps attempts deadline left locals state)
            (fun _ locals state =>
              if pass.rateLimited then Pending deps attempts deadline left locals state
              else Counted deps attempts deadline left locals state)
            (Block.assign fun locals => {
              locals with
              lastAttempt := attempt.or locals.lastAttempt
              consecutiveFailures := 0
            }) :=
          Block.meets_assign fun _ _ holds => holds
        refine Block.meets_bind sets fun _ => ?_
        refine Block.meets_ite (fun limited => ?_) fun limited => ?_
        · exact (polls_rateLimitedPass valid).mono
            (fun _ _ holds => by rwa [if_pos limited] at holds) fun _ _ _ holds => holds
        · exact (polls_countedPass valid).mono (fun _ _ holds => by rwa [if_neg limited] at holds)
            fun _ _ _ holds => holds
  · rintro locals state ⟨⟨⟨inLoop, even⟩, within⟩, rfl⟩
    have remains : state.clock.ms < deadline.ms := by
      simpa [reaches, valid] using early
    have time := inLoop.time
    have free : ¬OwesWait state.log := fun owes => absurd (even owes) (by omega)
    exact ⟨⟨inLoop.opened, inLoop.unasked, inLoop.passes, by omega, time⟩, free, within⟩

end Rounds

/-- The loop ends at its head, or leaves the run: with more rounds than there is left it does not
stall, by induction over the rounds.
-/
theorem polls_pollLoop {rounds : Nat} (valid : deps.deadline = some deadline)
    : Polls deps attempts enough
        (fun locals state => ∃ left, AtHead deps attempts deadline left locals state
          ∧ (enough → left + 1 < rounds))
        (fun _ locals state => ∃ left, AtHead deps attempts deadline left locals state)
        (pollLoop deps (effectiveMaxPolls deps attempts) rounds) := by
  induction rounds with
  | zero =>
      rintro locals state ⟨left, ⟨inLoop, -⟩, spare⟩
      refine ⟨inLoop.opened.bounded, fun sufficient => ?_⟩
      have main := inLoop.opened.bounded.main
      have passes := inLoop.passes
      have polls := inLoop.polls
      have := spare sufficient
      omega
  | succ rounds ih =>
      rintro locals state ⟨left, atHead, spare⟩
      refine Block.ensures_bind.mpr (Block.ensures_locals.mpr ?_)
      refine Block.ensures_ite.mpr ⟨fun within => ?_, fun _ => ⟨left, atHead⟩⟩
      have advances : Polls deps attempts enough (Rounded deps attempts deadline left)
          (fun _ => AtHead deps attempts deadline (left - 1)) (Block.assign fun locals =>
            { locals with pollNumber := locals.pollNumber + 1 }) := by
        refine Block.meets_assign ?_
        rintro locals state ⟨inLoop, even⟩
        have passes := inLoop.passes
        have polls := inLoop.polls
        have time := inLoop.time
        refine ⟨⟨inLoop.opened, inLoop.unasked, ?_, ?_, ?_⟩, even⟩
        · show _ + _ + 1 = locals.pollNumber + 1
          omega
        · show _ - (locals.pollNumber + 1) ≤ left - 1
          omega
        · show _ - (locals.pollNumber + 1) + _ ≤ left - 1
          omega
      refine Block.meets_bind (polls_pollOnce valid)
        (fun _ => Block.meets_bind advances fun _ => ?_) locals state ⟨atHead, within⟩
      refine ih.mono (fun locals state next => ⟨left - 1, next, fun sufficient => ?_⟩)
        fun _ _ _ holds => holds
      have := spare sufficient
      omega

/-- What follows the loop leaves the run. -/
theorem ends_afterPolls (valid : deps.deadline = some deadline)
    : Ends deps attempts enough
        (fun locals state => ∃ left, AtHead deps attempts deadline left locals state)
        (afterPolls deps) := by
  have patient : Patient deps attempts fun locals state =>
      ∃ left, AtHead deps attempts deadline left locals state :=
    ⟨fun _ _ _ ⟨left, atHead⟩ forward same =>
        ⟨left, patient_atHead.enduring _ _ _ atHead forward same⟩,
      fun _ _ ⟨left, atHead⟩ => patient_atHead.openLog _ _ atHead⟩
  have rests : Patient deps attempts fun _ state => Unowing deps attempts state.log :=
    patient_log fun _ unowing => unowing.1
  refine Block.meets_bind (polls_now patient) fun now => ?_
  refine Block.meets_ite (fun _ => ?_) fun early => ?_
  · exact (ends_timeOut patient).mono (fun _ _ holds => holds.1) fun _ _ _ holds => holds
  refine Block.Meets.mono (polls_keeping (polls_silently rests fun _ _ => rfl) fun comments =>
    Block.meets_ite (fun _ => polls_keeping (polls_emit rests) fun _ => ends_enterReadyLoop)
      fun _ => polls_keeping (polls_emit rests) fun _ => ends_conclude rests.openLog)
    ?_ fun _ _ _ holds => holds
  rintro locals state ⟨⟨left, inLoop, even⟩, rfl⟩
  have remains : state.clock.ms < deadline.ms := by
    simpa [reaches, valid] using early
  exact inLoop.unowing fun owes => absurd (even owes) (by omega)

/-- The number of rounds that is enough from a start. -/
def enoughRounds (deps : PrReviewPollerDeps) (attempts : List PollAttempt)
    (deadline start : Date) : Nat :=
  (effectiveMaxPolls deps attempts - meaningful attempts
    + max 0 (deadline.ms - start.ms) + 1).toNat

/-- The whole run, from a start with nothing noted. -/
theorem ends_run {rounds : Nat} {start : Date} (valid : deps.deadline = some deadline)
    : Ends deps attempts (enoughRounds deps attempts deadline start ≤ rounds)
        (fun _ state => state.log = [] ∧ start.ms ≤ state.clock.ms) (run deps rounds) := by
  have least : meaningful attempts + 1 ≤ effectiveMaxPolls deps attempts :=
    le_max_right _ _
  have opened : Open deps attempts [] := by
    refine ⟨⟨?_, Nat.zero_le _, trivial⟩, fun _ logged => nomatch logged⟩
    show (0 : Int) ≤ _
    omega
  have patient : Patient deps attempts fun _ state =>
      state.log = [] ∧ start.ms ≤ state.clock.ms :=
    ⟨fun _ _ _ holds forward same => ⟨same.trans holds.1, le_trans holds.2 forward⟩,
      fun _ _ holds => holds.1.symm ▸ opened⟩
  refine Block.meets_bind (polls_unnoted patient fun _ _ => rfl) fun answer => ?_
  rintro locals state ⟨started, _, truthful⟩
  obtain rfl : answer = attempts := truthful
  obtain ⟨empty, later⟩ := started
  refine Block.ensures_bind.mpr (Block.ensures_assign.mpr ?_)
  refine Block.meets_bind (polls_pollLoop valid) (fun _ => ends_afterPolls valid) _ state ?_
  refine ⟨effectiveMaxPolls deps answer - meaningful answer - 1
    + max 0 (deadline.ms - start.ms), ⟨⟨empty.symm ▸ opened, ?_, ?_, ?_, ?_⟩, ?_⟩, ?_⟩
  · exact empty.symm ▸ List.not_mem_nil
  · rw [empty]
    show (0 : Int) + meaningful answer + 1 = meaningful answer + 1
    omega
  · show _ - (meaningful answer + 1) ≤ _
    omega
  · show _ - (meaningful answer + 1) + _ ≤ _
    omega
  · exact fun owes => (empty ▸ owes : OwesWait []).elim
  · intro sufficient
    unfold enoughRounds at sufficient
    omega

/-- How a run with a valid deadline ends, whatever its surroundings answer. -/
theorem ended_of_polled {rounds : Nat} {start : Date} {completion : PollerCompletion}
    {final : Polling} (valid : deps.deadline = some deadline)
    (polled : Polled deps attempts rounds start completion final)
    : Completion.meeting (fun _ _ _ => False) (Returns deps attempts)
        (Fails deps attempts (enoughRounds deps attempts deadline start ≤ rounds))
        completion {} final := by
  obtain ⟨locals, execution⟩ := polled
  have ends := @ends_run deps attempts deadline rounds start valid {} ⟨start, []⟩ ⟨rfl, le_refl _⟩
  unfold Block.Ensures at ends
  have ended := ends.of_exec execution
  cases completion with
  | normal | returned | threw => exact ended

theorem pollsToTheEnd_of_valid (valid : deps.deadline = some deadline)
    : PollsToTheEnd deps attempts where
  terminates start := by
    refine ⟨enoughRounds deps attempts deadline start, ?_⟩
    rintro rounds sufficient completion final polled rfl
    exact (ended_of_polled valid polled).2 sufficient rfl
  bounded rounds start completion final polled := by
    have ended := ended_of_polled valid polled
    cases completion with
    | normal => exact ended.elim
    | returned | threw => exact ended.1
  concluded rounds start completion final polled := by
    have ended := ended_of_polled valid polled
    cases completion with
    | normal => exact ended
    | returned => exact ended.2
    | threw => trivial

-----------------------------------------------------------------------------------------
-- Without a deadline
-----------------------------------------------------------------------------------------

/-- Each call answers, and each pass is limited by rate; of sleeps nothing is asked. -/
def Limits : (request : PollerRequest) → request.Reply → Prop
  | .processOnePass _, .ok answer => answer.1.rateLimited
  | .sleep _, _ | _, .ok _ => True
  | _, .error _ => False

/-- Surroundings that limit each pass. -/
def limiting (attempts : List PollAttempt)
    : Environment Polling PollerRequest PollerRequest.Reply :=
  fun state request reply after =>
    Replied attempts state request reply after ∧ Limits request reply

/-- There is such a reply to each call, at the time of the call. -/
theorem exists_limiting (state : Polling) (request : PollerRequest)
    : ∃ reply after, limiting attempts state request reply after := by
  have answers (reply : request.Reply) (limits : Limits request reply)
      (truthful : ∀ answer, reply = .ok answer →
        Truthful attempts state.clock state.clock request answer)
      (genuine : reply ≠ .error .stalled)
      : ∃ reply after, limiting attempts state request reply after :=
    ⟨reply, ⟨state.clock, (noted state.clock request reply).toList ++ state.log⟩,
      ⟨le_refl _, rfl, truthful, genuine⟩, limits⟩
  cases request with
  | now => exact answers (.ok state.clock) trivial (fun _ same => (Except.ok.inj same).symm) nofun
  | listPollAttempts =>
      exact answers (.ok attempts) trivial (fun _ same => (Except.ok.inj same).symm) nofun
  | listComments => exact answers (.ok []) trivial (fun _ _ => trivial) nofun
  | processOnePass pollNumber =>
      let pass : PollPassResult :=
        { outcome := "rate_limited", processed := 0, blocked := 0, allResolved := false,
          rateLimited := true }
      exact answers (.ok (pass, none)) rfl (fun _ _ => trivial) nofun
  | sleep ms => exact answers (.error (.thrown "")) trivial (fun _ same => nomatch same) nofun
  | onAllResolved => exact answers (.ok .stayReady) trivial (fun _ _ => trivial) nofun
  | recordTerminalState | revertRunStatus | publish =>
      exact answers (.ok ()) trivial (fun _ _ => trivial) nofun

section Stalling

variable {number : Int}

/-- Statements between two conditions on the local variables, whose passes are limited. -/
abbrev Stalls {α : Type} (attempts : List PollAttempt) (before : PollerLocals → Prop)
    (after : α → PollerLocals → Prop) (block : PollerBlock α) : Prop :=
  block.Meets (limiting attempts) (fun _ _ => True) (fun locals _ => before locals)
    (fun value locals _ => after value locals) (fun _ _ _ => False)
    fun error _ _ => error = .stalled

theorem stalls_call {before : PollerLocals → Prop} {request : PollerRequest}
    {failing : PollerError → PollerLocals → Polling → Prop}
    (answered : ∀ error, ¬Limits request (.error error))
    : (call request).Meets (limiting attempts) (fun _ _ => True) (fun locals _ => before locals)
        (fun answer locals _ => before locals ∧ Limits request (.ok answer))
        (fun _ _ _ => False) failing :=
  Block.meets_call (fun _ _ _ => trivial) (fun _ _ _ _ holds replied => ⟨holds, replied.2⟩)
    fun _ _ _ error _ replied => absurd replied.2 (answered error)

theorem stalls_silently {before : PollerLocals → Prop} {request : PollerRequest}
    (answered : ∀ error, ¬Limits request (.error error))
    : Stalls attempts before (fun _ => before) (call request) :=
  (stalls_call answered).mono (fun _ _ holds => holds) fun _ _ _ holds => holds.1

theorem stalls_emit {before : PollerLocals → Prop} {type : String} {level : EventLevel}
    : Stalls attempts before (fun _ => before) (emit type level) :=
  Block.meets_bind (stalls_silently fun _ => id) fun _ => stalls_silently fun _ => id

/-- Without a deadline nothing is slept. -/
theorem stalls_cappedSleep {before : PollerLocals → Prop} {requestedMs : Int}
    (invalid : deps.deadline = none)
    : Stalls attempts before (fun _ => before) (cappedSleep deps requestedMs) := by
  refine Block.meets_bind (stalls_silently fun _ => id) fun now => ?_
  simp only [invalid]
  exact Block.meets_pure fun _ _ holds => holds

/-- A round without a deadline goes back by one poll. -/
theorem stalls_pollOnce {most : Int} (invalid : deps.deadline = none)
    : Stalls attempts (fun locals => locals.pollNumber = number)
        (fun _ locals => locals.pollNumber = number - 1) (pollOnce deps most) := by
  refine Block.meets_bind (stalls_silently fun _ => id) fun now => ?_
  refine Block.meets_ite (fun reached => ?_) fun _ => ?_
  · simp [reaches, invalid] at reached
  refine Block.meets_bind stalls_emit fun _ => ?_
  refine Block.meets_locals_then fun locals => ?_
  have passes {pollNumber : Int} {recover : PollerError → PollerBlock _}
      : Stalls attempts (fun locals => locals.pollNumber = number)
          (fun answered locals => locals.pollNumber = number
            ∧ ∃ answer, answered = some answer ∧ answer.1.rateLimited)
          (Block.attempt (Option.some <$> call (.processOnePass pollNumber)) recover) :=
    Block.meets_attempt (Block.meets_bind (stalls_call fun _ => id) fun answer =>
        Block.meets_pure fun _ _ holds => ⟨holds.1, answer, rfl, holds.2⟩)
      fun _ _ _ never => False.elim never
  refine Block.meets_bind passes fun answered => ?_
  rintro locals state ⟨same, ⟨pass, attempt⟩, rfl, limited⟩
  have goesBack : Stalls attempts (fun locals => locals.pollNumber = number)
      (fun _ locals => locals.pollNumber = number - 1) (Block.assign fun locals =>
        { locals with pollNumber := locals.pollNumber - 1 }) :=
    Block.meets_assign fun locals _ same => by
      show locals.pollNumber - 1 = number - 1
      omega
  refine Block.ensures_bind.mpr (Block.ensures_assign.mpr ?_)
  refine Block.ensures_ite.mpr ⟨fun _ => ?_, fun other => absurd limited other⟩
  exact Block.meets_bind stalls_emit (fun _ => Block.meets_bind (stalls_cappedSleep invalid)
    fun _ => goesBack) _ state same

/-- Without a deadline each round goes back and is followed by another one, by induction over
the rounds.
-/
theorem stalls_pollLoop {most : Int} {rounds : Nat} (invalid : deps.deadline = none)
    (within : number ≤ most)
    : Stalls attempts (fun locals => locals.pollNumber = number) (fun _ _ => False)
        (pollLoop deps most rounds) := by
  induction rounds with
  | zero => exact Block.meets_throw fun _ _ _ => rfl
  | succ rounds ih =>
      have advances : Stalls attempts (fun locals => locals.pollNumber = number - 1)
          (fun _ locals => locals.pollNumber = number) (Block.assign fun locals =>
            { locals with pollNumber := locals.pollNumber + 1 }) :=
        fun locals _ same => by
          show locals.pollNumber + 1 = number
          omega
      intro locals state same
      refine Block.ensures_bind.mpr (Block.ensures_locals.mpr ?_)
      refine Block.ensures_ite.mpr ⟨fun _ => ?_, fun beyond => absurd (same ▸ within) beyond⟩
      exact Block.meets_bind (stalls_pollOnce invalid)
        (fun _ => Block.meets_bind advances fun _ => ih) locals state same

theorem stalls_run {rounds : Nat} (invalid : deps.deadline = none)
    : Stalls attempts (fun _ => True) (fun _ _ => False) (run deps rounds) := by
  refine Block.meets_bind (stalls_silently fun _ => id) fun answer => ?_
  intro locals state _
  refine Block.ensures_bind.mpr (Block.ensures_assign.mpr ?_)
  exact Block.meets_bind (stalls_pollLoop invalid (le_max_right _ _))
    (fun _ _ _ never => False.elim never) _ state rfl

/-- Without a deadline no number of rounds is enough. -/
theorem not_terminates (invalid : deps.deadline = none) : ¬Terminates deps attempts := by
  intro terminates
  obtain ⟨rounds, enough⟩ := terminates .epoch
  obtain ⟨⟨completion, locals⟩, final, execution⟩ := Program.exists_exec
    (@exists_limiting attempts) (run deps rounds {}) ⟨.epoch, []⟩
  have polled : Polled deps attempts rounds .epoch completion final :=
    ⟨locals, execution.mono fun _ _ _ _ replied => replied.1⟩
  have stalls := @stalls_run deps attempts rounds invalid {} ⟨.epoch, []⟩ trivial
  unfold Block.Ensures at stalls
  have ended := stalls.of_exec execution
  apply enough rounds (le_refl _) completion final polled
  cases completion with
  | normal | returned => exact False.elim ended
  | threw error => exact congrArg _ ended

end Stalling

end PrReviewPoller

/-- The days after the start end at a time that a date can hold. -/
def PrReviewPollerDeps.EndsInTime (deps : PrReviewPollerDeps) : Prop :=
  -8640000000000000 ≤ deps.phaseStartedAt.ms + deps.readyMaxDays * 86400000
    ∧ deps.phaseStartedAt.ms + deps.readyMaxDays * 86400000 ≤ 8640000000000000

instance (deps : PrReviewPollerDeps) : Decidable deps.EndsInTime :=
  inferInstanceAs (Decidable (_ ∧ _))

theorem PrReviewPollerDeps.deadline_isSome_iff (deps : PrReviewPollerDeps)
    : deps.deadline.isSome ↔ deps.EndsInTime := by
  unfold deadline Date.plus? EndsInTime
  split
  · next inRange => exact iff_of_true rfl inRange
  · next beyond => exact iff_of_false Bool.false_ne_true beyond

/-- The poller keeps its promises exactly where its deadline is a date. -/
theorem pollsToTheEnd_iff_endsInTime (deps : PrReviewPollerDeps) (attempts : List PollAttempt)
    : PollsToTheEnd deps attempts ↔ deps.EndsInTime := by
  rw [← deps.deadline_isSome_iff]
  constructor
  · intro polls
    cases deadline : deps.deadline with
    | some date => rfl
    | none => exact absurd polls.terminates (PrReviewPoller.not_terminates deadline)
  · intro some
    obtain ⟨date, deadline⟩ := Option.isSome_iff_exists.mp some
    exact PrReviewPoller.pollsToTheEnd_of_valid deadline

/-- Settings whose days are more than a date can hold. -/
def endlessDeps : PrReviewPollerDeps where
  maxPolls := 60
  pollIntervalMs := 60000
  readyMaxDays := 200000000
  phaseStartedAt := .epoch

theorem endless_polling : ¬PollsToTheEnd endlessDeps [] := by
  intro polls
  exact PrReviewPoller.not_terminates (by decide) polls.terminates

end AiSdlc.Application
