import AiSdlc.Domain.Job
import AiSdlc.Js.Checked
import AiSdlc.Transition.System

/-! Review comments on a pull request: they are replied to, verified, and tried again. What was
verified is shown by a processed comment, and nothing of an earlier attempt by a pending one.
-/

namespace AiSdlc.Domain

open AiSdlc.Js
open AiSdlc.Transition

inductive CommentState
  | pending
  | replied
  | processed
  | blocked
  deriving DecidableEq, Repr

def CommentState.text : CommentState → String
  | pending => "pending"
  | replied => "replied"
  | processed => "processed"
  | blocked => "blocked"

instance : ToString CommentState := ⟨CommentState.text⟩

inductive CommentOutcome
  | fixed
  | noFix
  deriving DecidableEq, Repr

inductive CommentSeverity
  | critical
  | high
  | medium
  | low
  deriving DecidableEq, Repr

structure PrReviewComment where
  runId : RunId
  prNumber : Int
  commentId : Int
  path : String
  line : Int
  reviewer : String
  body : String
  state : CommentState
  severity : Option CommentSeverity
  attempts : Nat
  outcome : Option CommentOutcome := none
  replyId : Option Int := none
  commitSha : Option String := none
  commitVerified : Bool
  replyVerified : Bool
  buildVerified : Bool
  blockedReason : Option String := none
  lastPoll : Int
  createdAt : Date
  updatedAt : Date
  deriving DecidableEq, Repr

structure CreatePrReviewCommentInput where
  runId : RunId
  prNumber : Int
  commentId : Int
  path : String
  line : Int
  reviewer : String
  body : String
  now : Date
  deriving DecidableEq, Repr

/-- A character of `\w`. -/
def isWordCharacter (char : Char) : Bool :=
  char.isAlphanum || char = '_'

/-- `/\b…\b/i` for a word in lower case: the word begins where no other one goes on, and ends with
one.
-/
def matchesWord (word : List Char) : (within : Bool) → List Char → Bool
  | _, [] => false
  | within, char :: rest =>
      let here := (char :: rest).map Char.toLower
      !within && word.isPrefixOf here && !((here.drop word.length).head?.any isWordCharacter)
      || matchesWord word (isWordCharacter char) rest

def parseSeverity (body : String) : Option CommentSeverity :=
  let mentions (word : String) : Bool := matchesWord word.toList false body.toList
  if mentions "p0" || mentions "critical" then some .critical
  else if mentions "p1" || mentions "high" then some .high
  else if mentions "p2" || mentions "medium" then some .medium
  else if mentions "p3" || mentions "low" then some .low
  else none

example : parseSeverity "Highly (P2): below" = some .medium := by
  decide

def createPrReviewComment (input : CreatePrReviewCommentInput) : PrReviewComment :=
  {
    runId := input.runId
    prNumber := input.prNumber
    commentId := input.commentId
    path := input.path
    line := input.line
    reviewer := input.reviewer
    body := input.body
    state := .pending
    severity := parseSeverity input.body
    attempts := 0
    commitVerified := false
    replyVerified := false
    buildVerified := false
    lastPoll := 0
    createdAt := input.now
    updatedAt := input.now
  }

def PrReviewComment.stripOptionalFields (comment : PrReviewComment) : PrReviewComment :=
  {
    runId := comment.runId
    prNumber := comment.prNumber
    commentId := comment.commentId
    path := comment.path
    line := comment.line
    reviewer := comment.reviewer
    body := comment.body
    state := comment.state
    severity := comment.severity
    attempts := comment.attempts
    commitVerified := comment.commitVerified
    replyVerified := comment.replyVerified
    buildVerified := comment.buildVerified
    lastPoll := comment.lastPoll
    createdAt := comment.createdAt
    updatedAt := comment.updatedAt
  }

structure MarkRepliedInput where
  replyId : Int
  outcome : CommentOutcome
  commitSha : Option String := none
  poll : Int
  deriving DecidableEq, Repr

def markReplied (comment : PrReviewComment) (input : MarkRepliedInput) (clock : Date)
    : Except String PrReviewComment :=
  if comment.state ≠ .pending then
    let expected := s!"current state is {comment.state}, expected pending"
    .error s!"cannot mark comment {comment.commentId} replied: {expected}"
  else
    .ok {
      comment.stripOptionalFields with
      state := .replied
      replyId := some input.replyId
      outcome := some input.outcome
      commitSha := input.commitSha
      attempts := comment.attempts + 1
      lastPoll := input.poll
      updatedAt := clock
    }

structure CommentVerification where
  commitVerified : Bool
  replyVerified : Bool
  buildVerified : Bool
  deriving DecidableEq, Repr

def markProcessed (comment : PrReviewComment) (verification : CommentVerification)
    (clock : Date)
    : Except String PrReviewComment :=
  if comment.state ≠ .replied then
    let expected := s!"current state is {comment.state}, expected replied"
    .error s!"cannot mark comment {comment.commentId} processed: {expected}"
  else if comment.outcome = some .noFix ∧ verification.replyVerified = false then
    let missing := "reply not verified for no_fix outcome"
    .error s!"cannot mark comment {comment.commentId} processed: {missing}"
  else if comment.outcome ≠ some .noFix ∧ (verification.commitVerified = false
      ∨ verification.replyVerified = false ∨ verification.buildVerified = false) then
    let commit := s!"commit={verification.commitVerified}"
    let reply := s!"reply={verification.replyVerified}"
    let build := s!"build={verification.buildVerified}"
    let missing := s!"verification incomplete ({commit} {reply} {build})"
    .error s!"cannot mark comment {comment.commentId} processed: {missing}"
  else
    .ok {
      comment with
      state := .processed
      commitVerified := if comment.outcome = some .noFix then comment.commitVerified else true
      replyVerified := true
      buildVerified := if comment.outcome = some .noFix then comment.buildVerified else true
      updatedAt := clock
    }

def resetForRetry (comment : PrReviewComment) (poll : Int) (clock : Date)
    : Except String PrReviewComment :=
  if comment.state ≠ .replied then
    let expected := s!"current state is {comment.state}, expected replied"
    .error s!"cannot reset comment {comment.commentId} for retry: {expected}"
  else
    .ok {
      comment.stripOptionalFields with
      state := .pending
      lastPoll := poll
      commitVerified := false
      replyVerified := false
      buildVerified := false
      updatedAt := clock
    }

def blockComment (comment : PrReviewComment) (reason : String) (clock : Date)
    : Except String PrReviewComment :=
  if comment.state ≠ .pending ∧ comment.state ≠ .replied then
    let expected := s!"current state is {comment.state}, expected pending or replied"
    .error s!"cannot block comment {comment.commentId}: {expected}"
  else
    .ok { comment with state := .blocked, blockedReason := some reason, updatedAt := clock }

/-- An operation on a comment with its arguments and the clock. -/
inductive CommentOperation
  | markReplied (input : MarkRepliedInput) (clock : Date)
  | markProcessed (verification : CommentVerification) (clock : Date)
  | resetForRetry (poll : Int) (clock : Date)
  | blockComment (reason : String) (clock : Date)
  deriving DecidableEq, Repr

def CommentOperation.apply (comment : PrReviewComment)
    : CommentOperation → Except String PrReviewComment
  | .markReplied input clock => Domain.markReplied comment input clock
  | .markProcessed verification clock => Domain.markProcessed comment verification clock
  | .resetForRetry poll clock => Domain.resetForRetry comment poll clock
  | .blockComment reason clock => Domain.blockComment comment reason clock

def CommentOperation.isReply : CommentOperation → Bool
  | .markReplied _ _ => true
  | _ => false

/-- The comments that `createPrReviewComment` makes, and the successful operations on them. -/
def commentSystem : System PrReviewComment CommentOperation :=
  System.ofChecked (fun comment => ∃ input, comment = createPrReviewComment input)
    CommentOperation.apply

/-- The facts of an attempt that has not started. -/
structure PrReviewComment.Unattempted (comment : PrReviewComment) : Prop where
  commitVerified : comment.commitVerified = false
  replyVerified : comment.replyVerified = false
  buildVerified : comment.buildVerified = false
  outcome : comment.outcome = none
  replyId : comment.replyId = none
  commitSha : comment.commitSha = none
  blockedReason : comment.blockedReason = none

/-- A processed comment was verified as its outcome asks for, and a pending one has nothing of an
attempt.
-/
structure PrReviewComment.WellFormed (comment : PrReviewComment) : Prop where
  processed
    : comment.state = .processed →
      comment.replyVerified = true
      ∧ (comment.outcome = some .noFix
        ∨ comment.commitVerified = true ∧ comment.buildVerified = true)
  pending : comment.state = .pending → comment.Unattempted

section Results

variable {comment next : PrReviewComment} {clock : Date}

theorem markReplied_eq_ok {input : MarkRepliedInput}
    : markReplied comment input clock = .ok next
      ↔ comment.state = .pending
        ∧ next = {
          comment.stripOptionalFields with
          state := .replied
          replyId := some input.replyId
          outcome := some input.outcome
          commitSha := input.commitSha
          attempts := comment.attempts + 1
          lastPoll := input.poll
          updatedAt := clock
        } := by
  simp [markReplied, @eq_comm _ next]

/-- What the outcome of a comment asks for. -/
def CommentVerification.Suffices (verification : CommentVerification)
    (outcome : Option CommentOutcome)
    : Prop :=
  verification.replyVerified = true
  ∧ (outcome = some .noFix
    ∨ verification.commitVerified = true ∧ verification.buildVerified = true)

theorem markProcessed_eq_ok {verification : CommentVerification}
    : markProcessed comment verification clock = .ok next
      ↔ comment.state = .replied ∧ verification.Suffices comment.outcome
        ∧ next = {
          comment with
          state := .processed
          commitVerified := if comment.outcome = some .noFix then comment.commitVerified else true
          replyVerified := true
          buildVerified := if comment.outcome = some .noFix then comment.buildVerified else true
          updatedAt := clock
        } := by
  by_cases noFix : comment.outcome = some .noFix
  · simp [markProcessed, CommentVerification.Suffices, noFix, @eq_comm _ next]
  · simp [markProcessed, CommentVerification.Suffices, noFix, @eq_comm _ next, and_assoc,
      and_left_comm]

theorem resetForRetry_eq_ok {poll : Int}
    : resetForRetry comment poll clock = .ok next
      ↔ comment.state = .replied
        ∧ next = {
          comment.stripOptionalFields with
          state := .pending
          lastPoll := poll
          commitVerified := false
          replyVerified := false
          buildVerified := false
          updatedAt := clock
        } := by
  simp [resetForRetry, @eq_comm _ next]

theorem blockComment_eq_ok {reason : String}
    : blockComment comment reason clock = .ok next
      ↔ (comment.state = .pending ∨ comment.state = .replied)
        ∧ next = {
          comment with state := .blocked, blockedReason := some reason, updatedAt := clock
        } := by
  by_cases pending : comment.state = .pending
  · simp [blockComment, pending, @eq_comm _ next]
  · simp [blockComment, pending, @eq_comm _ next]

end Results

section Invariants

variable {comment next : PrReviewComment} {operation : CommentOperation}

/-- Every successful operation leaves a well-formed comment, by cases over the operations; only a
verified comment becomes processed, and only a stripped one pending again.
-/
theorem wellFormed_of_apply (applied : operation.apply comment = .ok next)
    : next.WellFormed := by
  cases operation with
  | markReplied input clock =>
      obtain ⟨pending, rfl⟩ := markReplied_eq_ok.mp applied
      constructor <;> intro state <;> exact nomatch state
  | markProcessed verification clock =>
      obtain ⟨replied, ⟨-, verified⟩, rfl⟩ := markProcessed_eq_ok.mp applied
      constructor
      · intro processed
        refine ⟨rfl, ?_⟩
        by_cases noFix : comment.outcome = some .noFix
        · exact .inl noFix
        · exact .inr ⟨if_neg noFix, if_neg noFix⟩
      · exact fun state => nomatch state
  | resetForRetry poll clock =>
      obtain ⟨replied, rfl⟩ := resetForRetry_eq_ok.mp applied
      constructor
      · exact fun state => nomatch state
      · exact fun _ => ⟨rfl, rfl, rfl, rfl, rfl, rfl, rfl⟩
  | blockComment reason clock =>
      obtain ⟨open', rfl⟩ := blockComment_eq_ok.mp applied
      constructor <;> intro state <;> exact nomatch state

theorem open_of_apply (applied : operation.apply comment = .ok next)
    : comment.state = .pending ∨ comment.state = .replied := by
  cases operation with
  | markReplied input clock => exact .inl (markReplied_eq_ok.mp applied).1
  | markProcessed verification clock => exact .inr (markProcessed_eq_ok.mp applied).1
  | resetForRetry poll clock => exact .inr (resetForRetry_eq_ok.mp applied).1
  | blockComment reason clock => exact (blockComment_eq_ok.mp applied).1

/-- Just the replies count as attempts. -/
theorem attempts_of_apply (applied : operation.apply comment = .ok next)
    : next.attempts = comment.attempts + if operation.isReply then 1 else 0 := by
  cases operation with
  | markReplied input clock =>
      obtain ⟨pending, rfl⟩ := markReplied_eq_ok.mp applied
      rfl
  | markProcessed verification clock =>
      obtain ⟨replied, verified, rfl⟩ := markProcessed_eq_ok.mp applied
      rfl
  | resetForRetry poll clock =>
      obtain ⟨replied, rfl⟩ := resetForRetry_eq_ok.mp applied
      rfl
  | blockComment reason clock =>
      obtain ⟨open', rfl⟩ := blockComment_eq_ok.mp applied
      rfl

/-- The attempts of a comment are the replies to it, by the run invariant rule. -/
theorem attempts_of_run {operations : List CommentOperation}
    (run : commentSystem.Run operations comment)
    : comment.attempts = operations.countP (·.isReply) := by
  refine run.invariant (fun operations comment => comment.attempts = operations.countP (·.isReply))
    ?_ ?_
  · rintro _ ⟨input, rfl⟩
    rfl
  · intro operations comment operation next counted applied
    rw [attempts_of_apply applied, counted, List.countP_cons]

end Invariants

/-- In every run the facts behind a processed comment are verified, a pending one has nothing of
an attempt, processed and blocked ones stay as they are, and the replies are counted.
-/
theorem comment_wellFormed {operations : List CommentOperation} {comment : PrReviewComment}
    (run : commentSystem.Run operations comment)
    : comment.WellFormed
      ∧ (comment.state = .processed ∨ comment.state = .blocked →
          ∀ (operation : CommentOperation) (next : PrReviewComment),
            operation.apply comment ≠ .ok next)
      ∧ comment.attempts = operations.countP (·.isReply) := by
  refine ⟨?_, ?_, attempts_of_run run⟩
  · refine run.invariant (fun _ comment => comment.WellFormed) ?_ ?_
    · rintro _ ⟨input, rfl⟩
      constructor
      · exact fun state => nomatch state
      · exact fun _ => ⟨rfl, rfl, rfl, rfl, rfl, rfl, rfl⟩
    · exact fun _ _ _ _ _ applied => wellFormed_of_apply applied
  · rintro closed operation next applied
    rcases closed with closed | closed <;>
      rcases open_of_apply applied with state | state <;>
      exact nomatch closed.symm.trans state

/-- A comment that is fixed with the second attempt. -/
theorem comment_wellFormed_retried
    : ∃ comment : PrReviewComment, comment.state = .processed ∧ comment.attempts = 2
        ∧ comment.WellFormed
        ∧ ∀ (operation : CommentOperation) (next : PrReviewComment),
            operation.apply comment ≠ .ok next := by
  let comment := createPrReviewComment {
    runId := "run"
    prNumber := 4
    commentId := 11
    path := "src/a.ts"
    line := 3
    reviewer := "reviewer"
    body := "P1: off by one"
    now := Date.epoch
  }
  have fixes : (applyAll CommentOperation.apply (fun _ _ => True) comment
      [
        .markProcessed ⟨true, true, true⟩ Date.epoch,
        .markReplied { replyId := 22, outcome := .fixed, commitSha := some "c0ffee", poll := 2 }
          Date.epoch,
        .resetForRetry 1 Date.epoch,
        .markReplied { replyId := 21, outcome := .noFix, poll := 1 } Date.epoch
      ]).map (fun comment => (comment.state, comment.attempts)) = some (.processed, 2) := by
    decide
  obtain ⟨fixed, applied, told⟩ := Option.map_eq_some_iff.mp fixes
  obtain ⟨state, attempts⟩ := Prod.mk.inj told
  have run : commentSystem.Run _ fixed := (System.run_applyAll ⟨_, rfl⟩ applied).of_restrict
  obtain ⟨wellFormed, absorbed, -⟩ := comment_wellFormed run
  exact ⟨fixed, state, attempts, wellFormed, absorbed (.inl state)⟩

end AiSdlc.Domain
