import AiSdlc.Transition.Fencing
import AiSdlc.Sqlite.WorkerLeaseRepository

/-! Leases over any order of `acquire`, `heartbeat` and `release`: who may take one, and that
a token no longer works once another one was issued.
-/

namespace AiSdlc.Sqlite

open AiSdlc.Js
open AiSdlc.Domain
open AiSdlc.Transition
open WorkerLeaseRepository

/-- A call on the leases, with the token that an acquisition draws. -/
inductive LeaseCall
  | acquire (input : AcquireLeaseInput) (leaseToken : LeaseToken)
  | heartbeat (input : HeartbeatLeaseInput)
  | release (input : ReleaseLeaseInput)
  deriving DecidableEq

def LeaseCall.perform (leases : LeaseTable)
    : LeaseCall → Except LeaseError (Option WorkerLease × LeaseTable)
  | acquire input leaseToken => do
      let (lease, next) ← WorkerLeaseRepository.acquire leases input leaseToken
      .ok (some lease, next)
  | heartbeat input => do
      let next ← WorkerLeaseRepository.heartbeat leases input
      .ok (none, next)
  | release input => do
      let next ← WorkerLeaseRepository.release leases input
      .ok (none, next)

/-- A call that was made, with the lease that it returned. -/
structure LeaseStep where
  call : LeaseCall
  outcome : Except LeaseError (Option WorkerLease)

/-- A call that throws changes no row. -/
def LeaseCall.step (call : LeaseCall) (leases : LeaseTable) : LeaseStep × LeaseTable :=
  match call.perform leases with
  | .ok (lease, next) => ({ call, outcome := .ok lease }, next)
  | .error error => ({ call, outcome := .error error }, leases)

theorem LeaseCall.call_step (call : LeaseCall) (leases : LeaseTable)
    : (call.step leases).1.call = call := by
  unfold step
  split <;> rfl

/-- The calls in any order, from any leases. -/
def leaseSystem : System LeaseTable LeaseStep :=
  .ofCalls (fun _ => True) LeaseCall.step

/-- What a step does to the token of a repository's lease. -/
def LeaseStep.tokenChange (step : LeaseStep) (repoId : RepositoryId) : Change LeaseToken :=
  match step.call, step.outcome with
  | .acquire input _, .ok (some lease) =>
      if input.repoId = repoId then .issue lease.leaseToken else .keep
  | .release input, .ok _ => if input.repoId = repoId then .revoke else .keep
  | _, _ => .keep

/-- The token of the lease that a repository has. -/
def tokenHolder (leases : LeaseTable) (repoId : RepositoryId) : Option LeaseToken :=
  (current leases repoId).map WorkerLease.leaseToken

/-- Every step changes the token of a repository's lease as its label tells, by cases on the
call.
-/
theorem leaseSystem_follows : leaseSystem.Follows tokenHolder LeaseStep.tokenChange := by
  rintro leases step next ⟨call, taken⟩ repoId
  unfold LeaseCall.step at taken
  cases performed : call.perform leases with
  | error error =>
      rw [performed] at taken
      obtain ⟨rfl, rfl⟩ := Prod.mk.inj taken
      cases call <;> rfl
  | ok done =>
      obtain ⟨lease, after⟩ := done
      rw [performed] at taken
      obtain ⟨rfl, rfl⟩ := Prod.mk.inj taken
      cases call with
      | acquire input leaseToken =>
          obtain ⟨⟨acquired, table⟩, acquires, rest⟩ := checked_bind_eq_ok.mp performed
          obtain ⟨rfl, rfl⟩ := Prod.mk.inj (Except.ok.inj rest)
          obtain ⟨_, _, rows⟩ := acquire_eq_ok acquires
          simp only [LeaseStep.tokenChange, tokenHolder, rows repoId]
          by_cases here : input.repoId = repoId
          · simp [here, Change.apply]
          · simp [here, Ne.symm here, Change.apply]
      | heartbeat input =>
          obtain ⟨table, beats, rest⟩ := checked_bind_eq_ok.mp performed
          obtain ⟨rfl, rfl⟩ := Prod.mk.inj (Except.ok.inj rest)
          obtain ⟨held, stored, _, rows⟩ := heartbeat_eq_ok beats
          simp only [LeaseStep.tokenChange, tokenHolder, rows repoId, Change.apply]
          by_cases here : repoId = input.repoId
          · simp [here, stored, extend]
          · simp [here]
      | release input =>
          obtain ⟨table, releases, rest⟩ := checked_bind_eq_ok.mp performed
          obtain ⟨rfl, rfl⟩ := Prod.mk.inj (Except.ok.inj rest)
          obtain ⟨held, stored, _, rows⟩ := release_eq_ok releases
          simp only [LeaseStep.tokenChange, tokenHolder, rows repoId]
          by_cases here : input.repoId = repoId
          · simp [here, Change.apply]
          · simp [here, Ne.symm here, Change.apply]

/-- A call under a token that does not hold the lease throws, and so changes no row. -/
def Refused (leases : LeaseTable) (repoId : RepositoryId) (leaseToken : LeaseToken) : Prop :=
  (∀ input : HeartbeatLeaseInput, input.repoId = repoId → input.leaseToken = leaseToken →
    heartbeat leases input = .error (.ownershipLost repoId leaseToken)
      ∧ ((LeaseCall.heartbeat input).step leases).2 = leases)
  ∧ ∀ input : ReleaseLeaseInput, input.repoId = repoId → input.leaseToken = leaseToken →
    release leases input = .error (.ownershipLost repoId leaseToken)
      ∧ ((LeaseCall.release input).step leases).2 = leases

theorem refused_of_holder {leases : LeaseTable} {repoId : RepositoryId}
    {leaseToken : LeaseToken} (foreign : tokenHolder leases repoId ≠ some leaseToken)
    : Refused leases repoId leaseToken := by
  have missed {workerId : WorkerId} {runId : RunId}
      : leases.rows.any (fenced repoId workerId runId leaseToken) = false := by
    rw [Bool.eq_false_iff]
    intro passes
    obtain ⟨held, stored, fence⟩ := current_of_fenced passes
    exact foreign (by simp [tokenHolder, stored, (fenced_iff.mp fence).2.2.2])
  refine ⟨?_, ?_⟩
  · rintro input rfl rfl
    have throws : heartbeat leases input
        = .error (.ownershipLost input.repoId input.leaseToken) := by
      simp [heartbeat, missed]
    exact ⟨throws, by simp [LeaseCall.step, LeaseCall.perform, throws, bind, Except.bind]⟩
  · rintro input rfl rfl
    have throws : release leases input
        = .error (.ownershipLost input.repoId input.leaseToken) := by
      simp [release, missed]
    exact ⟨throws, by simp [LeaseCall.step, LeaseCall.perform, throws, bind, Except.bind]⟩

/-- A repository has at most one lease, by its primary key. -/
theorem length_leases_le_one (leases : LeaseTable) (repoId : RepositoryId)
    : (leases.rows.filter (·.repoId = repoId)).length ≤ 1 := by
  match found : leases.rows.filter (·.repoId = repoId) with
  | [] => simp [found]
  | [_] => simp [found]
  | first :: second :: rest =>
      have apart := leases.unique.filter (·.repoId = repoId)
      rw [found] at apart
      have free := (List.pairwise_cons.mp apart).1 second (by simp)
      have here (lease : WorkerLease) (member : lease ∈ first :: second :: rest)
          : lease.repoId = repoId := by
        rw [← found] at member
        simpa using (List.mem_filter.mp member).2
      have same : first.repoId = second.repoId :=
        (here first (by simp)).trans (here second (by simp)).symm
      rw [leaseSchema_keyed.conflict_of_same same] at free
      contradiction

/-- After any calls, each repository has at most one lease; a lease is acquired only where
there is none, the lease has expired or the same worker and run hold it; and no heartbeat or
release gets through under a token other than the one issued last. With fresh tokens, that is
under no token that was followed by another acquisition or a release.
-/
theorem leases_exclude_and_fence {history : List LeaseStep} {leases : LeaseTable}
    (run : leaseSystem.Run history leases)
    : (∀ repoId, (leases.rows.filter (·.repoId = repoId)).length ≤ 1)
      ∧ (∀ input leaseToken lease next,
        acquire leases input leaseToken = .ok (lease, next) →
          current leases input.repoId = none
          ∨ ∃ held, current leases input.repoId = some held
            ∧ (held.expiresAt.ms ≤ input.now.ms
              ∨ held.workerId = input.workerId ∧ held.runId = input.runId))
      ∧ (∀ repoId latest leaseToken,
        lastChange LeaseStep.tokenChange history repoId = some (some latest) →
          leaseToken ≠ latest → Refused leases repoId leaseToken)
      ∧ ∀ repoId later acquired earlier leaseToken,
        history = later ++ acquired :: earlier →
          acquired.tokenChange repoId = .issue leaseToken →
          (issued LeaseStep.tokenChange history repoId).Nodup →
          (∃ other ∈ later, other.tokenChange repoId ≠ .keep) →
          Refused leases repoId leaseToken := by
  refine ⟨length_leases_le_one leases, ?_, ?_, ?_⟩
  · intro input leaseToken lease next acquires
    obtain ⟨_, allowed, _⟩ := acquire_eq_ok acquires
    rcases allowed with absent | ⟨held, stored, overwritable⟩
    · exact .inl absent
    · exact .inr ⟨held, stored, by simpa [mayOverwrite] using overwritable⟩
  · intro repoId latest leaseToken left other
    refine refused_of_holder ?_
    rw [run.holder_of_lastChange leaseSystem_follows left]
    exact fun same => other (Option.some.inj same).symm
  · rintro repoId later acquired earlier leaseToken rfl issues fresh superseded
    exact refused_of_holder
      (run.holder_ne_of_superseded leaseSystem_follows issues fresh superseded)

/-- A second worker takes the lease that the first one let expire. -/
def takenOver : List LeaseCall :=
  let first : AcquireLeaseInput :=
    { repoId := "repo", workerId := "first", runId := "run", now := Date.epoch, ttlMs := 1000 }
  [
    .acquire { first with workerId := "second", now := .fiveSeconds } "later",
    .acquire first "earlier"
  ]

/-- The first worker neither extends nor releases the lease that the second one took. -/
theorem leases_exclude_and_fence_takenOver
    : Refused (performAll LeaseCall.step .empty takenOver).2 "repo" "earlier" := by
  have run : leaseSystem.Run (performAll LeaseCall.step .empty takenOver).1
      (performAll LeaseCall.step .empty takenOver).2 :=
    System.run_performAll trivial takenOver
  exact (leases_exclude_and_fence run).2.2.1 "repo" "later" "earlier" rfl (by decide)

end AiSdlc.Sqlite
