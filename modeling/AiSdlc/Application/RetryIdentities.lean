import AiSdlc.Async.Turns
import AiSdlc.Application.AgentRuntimeRouter

/-! Semantic retries: an identity is looked up and recorded in one turn, and what is recorded
stays so. So each identity of a run is executed at most once, whatever invocations run side by
side, and a further request for it is suppressed.
-/

namespace AiSdlc.Application

open AiSdlc.Js
open AiSdlc.Domain
open AiSdlc.Async
open AgentRuntimeRouter

/-- The row with the changed fields; the metadata keeps the keys that are not given. -/
def AgentInvocationUpdatePatch.patch (patch : AgentInvocationUpdatePatch)
    (row : AgentInvocation)
    : AgentInvocation :=
  {
    row with
    endedAt := patch.endedAt <|> row.endedAt
    endCommitSha := patch.endCommitSha <|> row.endCommitSha
    exitCode := patch.exitCode <|> row.exitCode
    durationMs := patch.durationMs <|> row.durationMs
    outcome := patch.outcome <|> row.outcome
    contractViolations := patch.contractViolations.getD row.contractViolations
    resultJsonPath := patch.resultJsonPath <|> row.resultJsonPath
    stdoutPath := patch.stdoutPath.getD row.stdoutPath
    stderrPath := patch.stderrPath.getD row.stderrPath
    metadata := (patch.metadata.map (Metadata.merge row.metadata)).getD row.metadata
  }

/-- The stored invocations, the files that can be read, and the retry identities that adapters
were called for, each with its run.
-/
structure RouterStore where
  rows : List AgentInvocation
  files : String → Option String
  executed : List (String × String)

/-- How texts are compared and objects written, by the functions of the language. -/
structure IdentityFormat where
  library : RouterLibrary
  localeCompare : String → String → Int
  stringify : RetryIdentityInput → List (String × String) → String

/-- The retry identity that is generated from the files. -/
def IdentityFormat.generate (format : IdentityFormat) (files : String → Option String)
    (input : RetryIdentityInput)
    : String :=
  generateRetryIdentity format.library format.localeCompare format.stringify files input

/-- The repository and the files answer as they are; the other replies are free. Files change
while the router waits, and where it removes one.
-/
def RouterStore.Answers (format : IdentityFormat)
    : Environment RouterStore RouterRequest RouterRequest.Reply
  | store, .findById id, .ok found, after =>
      found = store.rows.find? (·.id = id) ∧ after = store
  | store, .listByRun runId, .ok prior, after =>
      prior.Perm (store.rows.filter (·.runId = runId)) ∧ after = store
  | store, .insert invocation, .ok (), after =>
      (∀ row ∈ store.rows, row.id ≠ invocation.id)
      ∧ after = { store with rows := store.rows ++ [invocation] }
  | store, .update id patch, .ok (), after =>
      after = {
        store with
        rows := store.rows.map fun row => if row.id = id then patch.patch row else row
      }
  | store, .readPromptContent path, .ok content, after =>
      content = (store.files path).getD "" ∧ after = store
  | store, .generateRetryIdentity input, .ok identity, after =>
      identity = format.generate store.files input ∧ after = store
  | store, .callAdapter identity _ request, _, after =>
      after = {
        store with
        executed := (identity.map fun identity => (request.runId, identity)).toList
          ++ store.executed
      }
  | store, .removeArtifact _, _, after => ∃ files, after = { store with files }
  | store, .awaitAdapter, _, after => ∃ files, after = { store with files }
  | store, .readFile _, _, after => ∃ files, after = { store with files }
  | store, .writeFile _ _, _, after => ∃ files, after = { store with files }
  | store, _, _, after => after = store

/-- A retry identity is recorded for a run. -/
def Recorded (rows : List AgentInvocation) (runId identity : String) : Prop :=
  ∃ row ∈ rows, row.runId = runId ∧ readRetryIdentity row.metadata = some identity

/-- Every executed identity is recorded, and none is executed twice; the ones that were stored
at the start are not executed at all.
-/
structure Unrepeated (stored rows : List AgentInvocation) (executed : List (String × String))
    : Prop where
  recorded : ∀ runId identity, (runId, identity) ∈ executed → Recorded rows runId identity
  once : executed.Nodup
  kept : ∀ runId identity, Recorded stored runId identity → Recorded rows runId identity
  spared : ∀ runId identity, Recorded stored runId identity → (runId, identity) ∉ executed

section Metadata

variable {metadata more : Metadata} {key other : String} {value : MetadataValue}

theorem Metadata.lookup_put_self : (metadata.put key value).lookup key = some value := by
  unfold put
  induction metadata with
  | nil => simp
  | cons entry rest ih =>
      obtain ⟨name, stored⟩ := entry
      by_cases same : name = key
      · simpa [same] using ih
      · simpa [same, List.lookup_cons, beq_eq_false_iff_ne.mpr (Ne.symm same)] using ih

theorem Metadata.lookup_put_other (apart : other ≠ key)
    : (metadata.put key value).lookup other = metadata.lookup other := by
  unfold put
  induction metadata with
  | nil => simp [List.lookup_cons, beq_eq_false_iff_ne.mpr apart]
  | cons entry rest ih =>
      obtain ⟨name, stored⟩ := entry
      by_cases same : name = key
      · simpa [same, List.lookup_cons, beq_eq_false_iff_ne.mpr apart] using ih
      · cases here : other == name with
        | true => simp [same, List.lookup_cons, here]
        | false => simpa [same, List.lookup_cons, here] using ih

theorem readRetryIdentity_put {identity : String} (nonempty : identity ≠ "")
    : readRetryIdentity ((metadata.put "retryIdentity" (.text identity)).put "retry_identity"
        (.text identity))
      = some identity := by
  have camel : ((metadata.put "retryIdentity" (.text identity)).put "retry_identity"
      (.text identity)).lookup "retryIdentity" = some (.text identity) := by
    rw [Metadata.lookup_put_other (by decide), Metadata.lookup_put_self]
  simp [readRetryIdentity, camel, truthy, nonempty]

theorem readRetryIdentity_put_other (camel : key ≠ "retryIdentity")
    (snake : key ≠ "retry_identity")
    : readRetryIdentity (metadata.put key value) = readRetryIdentity metadata := by
  simp only [readRetryIdentity, Metadata.lookup_put_other (Ne.symm camel),
    Metadata.lookup_put_other (Ne.symm snake)]

end Metadata

section Store

variable {stored rows : List AgentInvocation} {executed : List (String × String)}
  {runId identity : String}

theorem Recorded.append {invocation : AgentInvocation} (recorded : Recorded rows runId identity)
    : Recorded (rows ++ [invocation]) runId identity := by
  obtain ⟨row, member, told⟩ := recorded
  exact ⟨row, List.mem_append_left _ member, told⟩

/-- A patch that does not touch the retry identity. -/
def AgentInvocationUpdatePatch.keepsIdentity (patch : AgentInvocationUpdatePatch) : Prop :=
  ∀ row, readRetryIdentity (patch.patch row).metadata = readRetryIdentity row.metadata

theorem Recorded.update {id : String} {patch : AgentInvocationUpdatePatch}
    (keeps : patch.keepsIdentity) (recorded : Recorded rows runId identity)
    : Recorded (rows.map fun row => if row.id = id then patch.patch row else row) runId
        identity := by
  obtain ⟨row, member, run, told⟩ := recorded
  refine ⟨_, List.mem_map_of_mem member, ?_⟩
  split
  · exact ⟨run, (keeps row).trans told⟩
  · exact ⟨run, told⟩

theorem keepsIdentity_of_none {patch : AgentInvocationUpdatePatch} (none : patch.metadata = none)
    : patch.keepsIdentity := by
  intro row
  simp [AgentInvocationUpdatePatch.patch, none]

/-- A result sets no other metadata than the usage source paths. -/
theorem keepsIdentity_resultPatch {result : AgentInvocationResult} {endedAt : Date}
    : (resultPatch result endedAt).keepsIdentity := by
  intro row
  unfold AgentInvocationUpdatePatch.patch resultPatch
  cases result.usageSourcePaths with
  | none => rfl
  | some paths =>
      have camel : "usageSourcePaths" ≠ "retryIdentity" := by decide
      have snake : "usageSourcePaths" ≠ "retry_identity" := by decide
      exact readRetryIdentity_put_other camel snake

theorem Unrepeated.of_kept {next : List AgentInvocation}
    (unrepeated : Unrepeated stored rows executed)
    (keeps : ∀ runId identity, Recorded rows runId identity → Recorded next runId identity)
    : Unrepeated stored next executed :=
  {
    recorded := fun runId identity member =>
      keeps runId identity (unrepeated.recorded runId identity member)
    once := unrepeated.once
    kept := fun runId identity there => keeps runId identity (unrepeated.kept runId identity there)
    spared := unrepeated.spared
  }

/-- The identity of an invocation, if it has one, is not recorded for its run. -/
def Free (stored : List AgentInvocation) (runId : String) (identity : Option String)
    (rows : List AgentInvocation) (executed : List (String × String))
    : Prop :=
  Unrepeated stored rows executed ∧ ∀ free ∈ identity, ¬Recorded rows runId free

/-- The identity of an invocation is recorded, and was not executed. -/
def Claimed (stored : List AgentInvocation) (runId : String) (identity : Option String)
    (rows : List AgentInvocation) (executed : List (String × String))
    : Prop :=
  Unrepeated stored rows executed
  ∧ ∀ claimed ∈ identity, Recorded rows runId claimed ∧ ¬Recorded stored runId claimed
    ∧ (runId, claimed) ∉ executed

theorem Free.insert {invocation : AgentInvocation} {identity : Option String}
    (free : Free stored invocation.runId identity rows executed)
    (told : ∀ own ∈ identity, readRetryIdentity invocation.metadata = some own)
    : Claimed stored invocation.runId identity (rows ++ [invocation]) executed := by
  refine ⟨free.1.of_kept fun _ _ => Recorded.append, fun own has => ⟨?_, ?_, ?_⟩⟩
  · exact ⟨invocation, by simp, rfl, told own has⟩
  · exact fun before => free.2 own has (free.1.kept _ _ before)
  · exact fun before => free.2 own has (free.1.recorded _ _ before)

theorem Claimed.execute {identity : Option String}
    (claimed : Claimed stored runId identity rows executed)
    : Unrepeated stored rows
        ((identity.map fun identity => (runId, identity)).toList ++ executed) := by
  obtain ⟨unrepeated, owns⟩ := claimed
  cases identity with
  | none => exact unrepeated
  | some own =>
      obtain ⟨here, fresh, first⟩ := owns own rfl
      constructor
      · intro other identity member
        rcases List.mem_cons.mp member with same | before
        · obtain ⟨rfl, rfl⟩ := Prod.mk.inj same
          exact here
        · exact unrepeated.recorded other identity before
      · exact List.nodup_cons.mpr ⟨first, unrepeated.once⟩
      · exact unrepeated.kept
      · intro other identity there member
        rcases List.mem_cons.mp member with same | before
        · obtain ⟨rfl, rfl⟩ := Prod.mk.inj same
          exact fresh there
        · exact unrepeated.spared other identity there before

end Store

/-- A call that answers at once, and changes neither the rows nor what was executed. -/
def RouterRequest.reads : RouterRequest → Bool
  | insert _ | update _ _ | callAdapter _ _ _ | awaitAdapter | readFile _ | writeFile _ _ => false
  | _ => true

section Turns

variable {format : IdentityFormat} {stored : List AgentInvocation}
  {opts : AgentRuntimeRouterOptions} {request : AgentInvocationRequest}
  {holds middle : List AgentInvocation → List (String × String) → Prop}

/-- Statements of a router that repeats no identity, beside others. -/
abbrev Turning {α : Type} (format : IdentityFormat) (stored : List AgentInvocation)
    (before : List AgentInvocation → List (String × String) → Prop)
    (after : α → List AgentInvocation → List (String × String) → Prop)
    (statements : RouterStatements α)
    : Prop :=
  statements.Yields
    (resumed RouterRequest.awaits (fun store => Unrepeated stored store.rows store.executed)
      (RouterStore.Answers format))
    (fun store _ => Unrepeated stored store.rows store.executed)
    (fun _ store => before store.rows store.executed)
    (fun value _ store => after value store.rows store.executed)
    fun _ store => Unrepeated stored store.rows store.executed

theorem RouterStore.Answers.of_reads {store after : RouterStore} {asked : RouterRequest}
    {reply : asked.Reply} (reads : asked.reads = true)
    (answered : RouterStore.Answers format store asked reply after)
    : after.rows = store.rows ∧ after.executed = store.executed := by
  cases asked with
  | insert | update | callAdapter | awaitAdapter | readFile | writeFile => contradiction
  | removeArtifact =>
      cases reply <;> obtain ⟨files, rfl⟩ := answered <;> exact ⟨rfl, rfl⟩
  | findById | listByRun | readPromptContent | generateRetryIdentity =>
      cases reply with
      | error error => exact answered ▸ ⟨rfl, rfl⟩
      | ok answer => exact answered.2 ▸ ⟨rfl, rfl⟩
  | now | newId | countConsecutiveProviderFailures | insertUsage | publish | emitWarning
  | callerAborted | profileTimedOut | readStderr =>
      cases reply <;> exact answered ▸ ⟨rfl, rfl⟩

theorem turning_read {asked : RouterRequest} (reads : asked.reads = true)
    (safe : ∀ rows executed, holds rows executed → Unrepeated stored rows executed)
    : Turning format stored holds (fun _ => holds) (AgentRuntimeRouter.call asked) := by
  have keeps {store after : RouterStore} {reply : asked.Reply}
      (before : holds store.rows store.executed)
      (replied : resumed RouterRequest.awaits
        (fun store => Unrepeated stored store.rows store.executed) (RouterStore.Answers format)
        store asked reply after)
      : holds after.rows after.executed := by
    obtain ⟨resumes, left, answered⟩ := replied
    have atOnce : asked.awaits = false := by cases asked <;> first | rfl | contradiction
    rw [atOnce] at left
    obtain ⟨rows, executed⟩ := answered.of_reads reads
    cases left
    rwa [rows, executed]
  refine Block.yields_call (fun _ store before => safe _ _ before) ?_ ?_
  · exact fun _ _ _ _ before replied => keeps before replied
  · exact fun _ _ _ _ before replied => safe _ _ (keeps before replied)

theorem turning_await {asked : RouterRequest} (awaits : asked.awaits = true)
    : Turning format stored (Unrepeated stored) (fun _ => Unrepeated stored)
        (AgentRuntimeRouter.call asked) := by
  have keeps {store after : RouterStore} {reply : asked.Reply}
      (replied : resumed RouterRequest.awaits
        (fun store => Unrepeated stored store.rows store.executed) (RouterStore.Answers format)
        store asked reply after)
      : Unrepeated stored after.rows after.executed := by
    obtain ⟨resumes, left, answered⟩ := replied
    rw [if_pos awaits] at left
    cases asked with
    | awaitAdapter | readFile | writeFile =>
        cases reply <;> obtain ⟨files, rfl⟩ := answered <;> exact left
    | _ => contradiction
  exact Block.yields_call (fun _ _ before => before) (fun _ _ _ _ _ replied => keeps replied)
    fun _ _ _ _ _ replied => keeps replied

theorem turning_insert {invocation : AgentInvocation}
    (safe : ∀ rows executed, holds rows executed → Unrepeated stored rows executed)
    (adds : ∀ rows executed, holds rows executed → middle (rows ++ [invocation]) executed)
    : Turning format stored holds (fun _ => middle)
        (AgentRuntimeRouter.call (.insert invocation)) := by
  refine Block.yields_call (fun _ store before => safe _ _ before) ?_ ?_
  · rintro _ store after answer before ⟨resumes, rfl, answered⟩
    rw [answered.2]
    exact adds _ _ before
  · rintro _ store after error before ⟨resumes, rfl, rfl⟩
    exact safe _ _ before

theorem turning_update {id : String} {patch : AgentInvocationUpdatePatch}
    (keeps : patch.keepsIdentity)
    : Turning format stored (Unrepeated stored) (fun _ => Unrepeated stored)
        (AgentRuntimeRouter.call (.update id patch)) := by
  refine Block.yields_call (fun _ store before => before) ?_ ?_
  · rintro _ store after answer before ⟨resumes, rfl, rfl⟩
    exact before.of_kept fun _ _ => Recorded.update keeps
  · rintro _ store after error before ⟨resumes, rfl, rfl⟩
    exact before

theorem turning_callAdapter {runId : String} {identity : Option String}
    {runtime : AgentRuntimeKind} {sent : AgentInvocationRequest} (run : sent.runId = runId)
    : Turning format stored (Claimed stored runId identity) (fun _ => Unrepeated stored)
        (AgentRuntimeRouter.call (.callAdapter identity runtime sent)) := by
  subst run
  refine Block.yields_call (fun _ store before => before.1) ?_ ?_
  · rintro _ store after answer before ⟨resumes, rfl, rfl⟩
    exact before.execute
  · rintro _ store after error before ⟨resumes, rfl, rfl⟩
    exact before.execute

/-- What is known about the store after an invocation has been prepared: its row tells the
identity that it executes.
-/
structure Identifies (request : AgentInvocationRequest) (started : Started) : Prop where
  runId : started.invocation.runId = request.runId
  told : ∀ own ∈ started.retryIdentity, readRetryIdentity started.invocation.metadata = some own

/-- Statements that keep what is known about the store. -/
abbrev Steady {α : Type} (format : IdentityFormat) (stored : List AgentInvocation)
    (holds : List AgentInvocation → List (String × String) → Prop)
    (statements : RouterStatements α)
    : Prop :=
  Turning format stored holds (fun _ => holds) statements

theorem steady_ifThen {condition : Bool} {statements : RouterStatements Unit}
    (steady : Steady format stored holds statements)
    : Steady format stored holds (Block.ifThen condition statements) := by
  cases condition with
  | true => exact steady
  | false => exact Block.yields_pure fun _ _ before => before

theorem steady_attempt {α : Type} {statements : RouterStatements α}
    {recover : RouterError → RouterStatements α}
    (tried : Steady format stored (Unrepeated stored) statements)
    (recovered : ∀ error, Steady format stored (Unrepeated stored) (recover error))
    : Steady format stored (Unrepeated stored) (Block.attempt statements recover) :=
  Block.yields_attempt tried recovered fun _ _ before => before

theorem steady_contained {statements : RouterStatements Unit}
    (steady : Steady format stored (Unrepeated stored) statements)
    : Steady format stored (Unrepeated stored) (contained statements) :=
  steady_attempt steady fun _ => Block.yields_pure fun _ _ before => before

section Reading

variable (safe : ∀ rows executed, holds rows executed → Unrepeated stored rows executed)
include safe

theorem steady_announce {runId type message : String} {level : EventLevel}
    : Steady format stored holds (do
        let publishedAt ← AgentRuntimeRouter.call .now
        publish runId level type message publishedAt) :=
  Block.yields_bind (turning_read rfl safe) fun _ => turning_read rfl safe

theorem steady_emitFallbackEvent {runId fromProfile toProfile owner : String}
    {trigger : TriggerClassification}
    : Steady format stored holds
        (emitFallbackEvent opts runId fromProfile toProfile trigger owner) :=
  steady_ifThen (steady_announce safe)

theorem steady_generateIdentity {promptContent : String}
    : Steady format stored holds
        (generateIdentity format.library request promptContent) := by
  unfold generateIdentity
  cases semanticRetry request with
  | none => exact Block.yields_pure fun _ _ before => before
  | some intent =>
      exact Block.yields_bind (turning_read rfl safe) fun _ =>
        Block.yields_pure fun _ _ before => before

theorem turning_prepare
    : Turning format stored holds
        (fun started rows executed => holds rows executed ∧ Identifies request started)
        (prepare format.library opts request) := by
  unfold prepare
  cases opts.agent.profiles.lookup request.profile with
  | none => exact Block.yields_throw fun _ _ before => safe _ _ before
  | some profile =>
      refine Block.yields_ite (fun _ => ?_) fun _ =>
        Block.yields_throw fun _ _ before => safe _ _ before
      refine Block.yields_bind (?id : Steady format stored holds _) fun id => ?_
      case id =>
        cases request.id with
        | some id => exact Block.yields_pure fun _ _ before => before
        | none => exact turning_read rfl safe
      refine Block.yields_bind (turning_read rfl safe) fun startedAt => ?_
      refine Block.yields_bind (turning_read rfl safe) fun promptContent => ?_
      refine Block.yields_bind (steady_generateIdentity safe) fun retryIdentity => ?_
      refine Block.yields_pure fun _ _ before => ⟨before, rfl, fun own has => ?_⟩
      obtain ⟨generated, nonempty⟩ := truthy_eq_some.mp has
      rw [generated]
      exact readRetryIdentity_put nonempty

/-- An identity that is not found among the run's invocations is not recorded. -/
theorem turning_isDuplicate {started : Started}
    : Turning format stored holds
        (fun hasDuplicate rows executed => holds rows executed
          ∧ (hasDuplicate = false →
            ∀ own ∈ started.retryIdentity, ¬Recorded rows request.runId own))
        (isDuplicate opts request started) := by
  unfold isDuplicate
  cases started.retryIdentity with
  | none => exact Block.yields_pure fun _ _ before => ⟨before, fun _ own has => nomatch has⟩
  | some identity =>
      have listed : Turning format stored holds
          (fun prior rows executed => holds rows executed
            ∧ prior.Perm (rows.filter (·.runId = request.runId)))
          (AgentRuntimeRouter.call (.listByRun request.runId)) := by
        refine Block.yields_call (fun _ store before => safe _ _ before) ?_ ?_
        · rintro _ store after prior before ⟨resumes, rfl, listed, rfl⟩
          exact ⟨before, listed⟩
        · rintro _ store after error before ⟨resumes, rfl, rfl⟩
          exact safe _ _ before
      refine Block.yields_bind listed fun prior => ?_
      refine Block.yields_ite (fun _ => ?_) fun unrecorded => ?_
      · exact Block.yields_pure fun _ _ before => ⟨before.1, nofun⟩
      · have free (rows : List AgentInvocation) (executed : List (String × String))
            (before : holds rows executed ∧ prior.Perm (rows.filter (·.runId = request.runId)))
            : holds rows executed ∧ ∀ own ∈ some identity, ¬Recorded rows request.runId own := by
          refine ⟨before.1, fun own has recorded => unrecorded ?_⟩
          cases has
          obtain ⟨row, member, run, told⟩ := recorded
          refine List.any_eq_true.mpr ⟨row, before.2.mem_iff.mpr ?_, by simpa using told⟩
          exact List.mem_filter.mpr ⟨member, by simpa using run⟩
        have stillSafe (rows : List AgentInvocation) (executed : List (String × String))
            (before : holds rows executed ∧ ∀ own ∈ some identity, ¬Recorded rows request.runId own)
            : Unrepeated stored rows executed :=
          safe rows executed before.1
        refine Block.yields_bind (Block.Yields.mono (steady_ifThen (steady_announce stillSafe))
          (fun _ store before => free store.rows store.executed before)
          (fun _ _ _ before => before) fun _ _ ends => ends) fun _ => ?_
        exact Block.yields_pure fun _ _ before => ⟨before.1, fun _ => before.2⟩

end Reading

theorem unrepeated_self (rows : List AgentInvocation) (executed : List (String × String))
    (before : Unrepeated stored rows executed)
    : Unrepeated stored rows executed :=
  before

theorem steady_suppress {started : Started}
    : Steady format stored (Unrepeated stored) (suppress started) := by
  refine Block.yields_bind (turning_insert unrepeated_self fun _ _ before =>
    before.of_kept fun _ _ => Recorded.append) fun _ => ?_
  refine Block.yields_bind (turning_read rfl unrepeated_self) fun _ => ?_
  refine Block.yields_bind (turning_update (keepsIdentity_of_none rfl)) fun _ => ?_
  exact Block.yields_pure fun _ _ before => before

theorem steady_clearArtifacts
    (safe : ∀ rows executed, holds rows executed → Unrepeated stored rows executed)
    : Steady format stored holds (clearArtifacts format.library request) := by
  unfold clearArtifacts
  induction request.expectedArtifacts with
  | nil => exact Block.yields_pure fun _ _ before => before
  | cons artifact rest ih =>
      refine Block.yields_bind (Block.yields_ite (fun _ => ?_) fun _ => ?_) fun _ => ih
      · exact Block.yields_throw fun _ _ before => safe _ _ before
      · exact Block.yields_ite (fun _ => Block.yields_pure fun _ _ before => before)
          fun _ => turning_read rfl safe

theorem turning_runAdapter {started : Started}
    : Turning format stored (Claimed stored request.runId started.retryIdentity)
        (fun _ => Unrepeated stored) (runAdapter request started) := by
  refine Block.yields_attempt ?_ (fun error => ?_) fun _ _ before => before
  · exact Block.yields_bind (turning_callAdapter rfl) fun _ => turning_await rfl
  · refine Block.yields_bind (turning_read rfl unrepeated_self) fun _ => ?_
    refine Block.yields_bind (turning_update (keepsIdentity_of_none rfl)) fun _ => ?_
    exact Block.yields_throw fun _ _ before => before

theorem steady_timedOut {started : Started}
    : Steady format stored (Unrepeated stored)
        (AgentRuntimeRouter.timedOut request started) := by
  refine Block.yields_bind (?caller : Steady format stored (Unrepeated stored) _) fun _ => ?_
  case caller =>
    cases request.abortSignal with
    | none => exact Block.yields_pure fun _ _ before => before
    | some signal =>
        exact Block.yields_bind (turning_read rfl unrepeated_self) fun _ =>
          Block.yields_pure fun _ _ before => before
  refine Block.yields_bind (Block.yields_ite (fun _ => turning_read rfl unrepeated_self) fun _ =>
    Block.yields_pure fun _ _ before => before) fun _ => ?_
  exact Block.yields_pure fun _ _ before => before

theorem steady_noteProviderFailures {result : AgentInvocationResult}
    : Steady format stored (Unrepeated stored) (noteProviderFailures request result) := by
  refine steady_ifThen (steady_contained ?_)
  refine Block.yields_bind (turning_read rfl unrepeated_self) fun _ => steady_ifThen ?_
  exact Block.yields_bind (turning_await rfl) fun _ => turning_await rfl

theorem steady_warn {runId type message : String} {warnedAt : Date}
    : Steady format stored (Unrepeated stored) (warn opts runId type message warnedAt) :=
  Block.yields_ite (fun _ => turning_read rfl unrepeated_self)
    fun _ => turning_read rfl unrepeated_self

theorem steady_publishUsage {started : Started} {result : AgentInvocationResult}
    {endedAt : Date}
    : Steady format stored (Unrepeated stored)
        (publishUsage opts request started result endedAt) := by
  unfold publishUsage
  cases result.usage with
  | some usage => exact steady_contained (steady_ifThen (turning_read rfl unrepeated_self))
  | none => exact steady_contained steady_warn

theorem steady_recordResult {started : Started} {answered : AgentInvocationResult}
    : Steady format stored (Unrepeated stored)
        (recordResult opts request started answered) := by
  refine Block.yields_bind steady_timedOut fun timedOut => ?_
  refine Block.yields_bind steady_noteProviderFailures fun _ => ?_
  refine Block.yields_bind (turning_read rfl unrepeated_self) fun endedAt => ?_
  refine Block.yields_bind (turning_update keepsIdentity_resultPatch) fun _ => ?_
  refine Block.yields_bind (steady_ifThen (steady_attempt (turning_read rfl unrepeated_self)
    fun _ => steady_contained steady_warn)) fun _ => ?_
  refine Block.yields_bind steady_publishUsage fun _ => ?_
  exact Block.yields_pure fun _ _ before => before

/-- Between the lookup of an identity and the call of the adapter nothing is awaited, so an
identity that was not found is claimed and executed for the first time.
-/
theorem steady_dispatchThen
    {settle : Started → AgentInvocationResult → RouterStatements AgentInvocationResult}
    (settles : ∀ started result, Steady format stored (Unrepeated stored) (settle started result))
    : Steady format stored (Unrepeated stored)
        (dispatchThen format.library opts request settle) := by
  refine Block.yields_bind (turning_prepare unrepeated_self) fun started => ?_
  refine Block.yields_of_fact fun identifies => ?_
  refine Block.yields_bind (turning_isDuplicate unrepeated_self) fun hasDuplicate => ?_
  refine Block.yields_ite (fun _ => ?_) fun unrecorded => ?_
  · exact steady_suppress.mono (fun _ _ before => before.1) (fun _ _ _ before => before)
      fun _ _ ends => ends
  have free (rows : List AgentInvocation) (executed : List (String × String))
      (before : Unrepeated stored rows executed ∧ (hasDuplicate = false →
        ∀ own ∈ started.retryIdentity, ¬Recorded rows request.runId own))
      : Free stored started.invocation.runId started.retryIdentity rows executed := by
    rw [identifies.runId]
    exact ⟨before.1, before.2 (Bool.eq_false_iff.mpr unrecorded)⟩
  have inserted : Turning format stored
      (Free stored started.invocation.runId started.retryIdentity)
      (fun _ => Claimed stored request.runId started.retryIdentity)
      (AgentRuntimeRouter.call (.insert started.invocation)) :=
    turning_insert (fun _ _ before => before.1) fun _ _ before =>
      identifies.runId ▸ before.insert identifies.told
  refine Block.yields_bind (inserted.mono (fun _ store before => free _ _ before)
    (fun _ _ _ claimed => claimed) fun _ _ ends => ends) fun _ => ?_
  refine Block.yields_bind (steady_clearArtifacts fun _ _ claimed => claimed.1) fun _ => ?_
  refine Block.yields_bind turning_runAdapter fun answered => ?_
  exact Block.yields_bind steady_recordResult fun result => settles started result

end Turns

end AiSdlc.Application
