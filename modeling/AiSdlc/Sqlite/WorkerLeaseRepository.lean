import AiSdlc.Domain.Worker
import AiSdlc.Sqlite.Table

/-! The store of worker leases: one row for each repository, which `acquire` overwrites in
place. The texts of valid times compare as the times do, so rows hold the times themselves.
-/

namespace AiSdlc.Sqlite

open AiSdlc.Js
open AiSdlc.Domain

/-- `worker_leases`; its second unique index has `repo_id` among its columns. -/
def leaseSchema : Schema WorkerLease :=
  ⟨[fun lease => some [.text lease.repoId]]⟩

theorem leaseSchema_keyed : leaseSchema.KeyedBy WorkerLease.repoId := List.mem_cons_self

abbrev LeaseTable := Table leaseSchema

structure AcquireLeaseInput where
  repoId : RepositoryId
  workerId : WorkerId
  runId : RunId
  now : Date
  ttlMs : Int
  deriving DecidableEq, Repr

structure HeartbeatLeaseInput where
  repoId : RepositoryId
  workerId : WorkerId
  runId : RunId
  now : Date
  newExpiresAt : Date
  leaseToken : LeaseToken
  deriving DecidableEq, Repr

structure ReleaseLeaseInput where
  repoId : RepositoryId
  workerId : WorkerId
  runId : RunId
  leaseToken : LeaseToken
  deriving DecidableEq, Repr

namespace WorkerLeaseRepository

/-- `SELECT * FROM worker_leases WHERE repo_id = ?`. -/
def current (leases : LeaseTable) (repoId : RepositoryId) : Option WorkerLease :=
  leases.findKey WorkerLease.repoId repoId

/-- `expires_at > now`. -/
def isLive (lease : WorkerLease) (now : Date) : Bool :=
  now.ms < lease.expiresAt.ms

def checkActiveLease (leases : LeaseTable) (repoId : RepositoryId) (now : Date) : Bool :=
  (current leases repoId).any (isLive · now)

/-- The lease that `acquire` writes, with the token that `makeLeaseToken` draws. -/
def leaseOf (input : AcquireLeaseInput) (expiresAt : Date) (leaseToken : LeaseToken)
    : WorkerLease :=
  {
    repoId := input.repoId
    workerId := input.workerId
    runId := input.runId
    acquiredAt := input.now
    heartbeatAt := input.now
    expiresAt
    leaseToken
  }

/-- The `WHERE` of the conflict clause: the lease has expired, or the same worker and run
hold it.
-/
def mayOverwrite (input : AcquireLeaseInput) (lease : WorkerLease) : Bool :=
  lease.expiresAt.ms ≤ input.now.ms
    || (lease.workerId = input.workerId && lease.runId = input.runId)

/-- The columns that the conflict clause sets. -/
def overwrite (excluded lease : WorkerLease) : WorkerLease :=
  {
    lease with
    workerId := excluded.workerId
    runId := excluded.runId
    acquiredAt := excluded.acquiredAt
    heartbeatAt := excluded.heartbeatAt
    expiresAt := excluded.expiresAt
    leaseToken := excluded.leaseToken
  }

theorem overwrite_keepsKeys (excluded : WorkerLease)
    : leaseSchema.KeepsKeys (overwrite excluded) := by
  simp [Schema.KeepsKeys, leaseSchema, overwrite]

/-- `INSERT … ON CONFLICT(repo_id) DO UPDATE`, which changes no row when the repository has a
lease that may not be overwritten.
-/
def acquire (leases : LeaseTable) (input : AcquireLeaseInput) (leaseToken : LeaseToken)
    : Except LeaseError (WorkerLease × LeaseTable) :=
  match input.now.plus? input.ttlMs with
  | none => .error .invalidTime
  | some expiresAt =>
      let lease := leaseOf input expiresAt leaseToken
      let overwritten (other : WorkerLease) : Bool :=
        other.repoId = input.repoId && mayOverwrite input other
      match leases.insert lease with
      | some inserted => .ok (lease, inserted)
      | none =>
          if leases.rows.any overwritten then
            .ok (lease, leases.revise overwritten (overwrite lease) (overwrite_keepsKeys lease))
          else
            .error (.conflict input.repoId
              (((current leases input.repoId).map (·.workerId)).getD input.workerId))

/-- The fence of `heartbeat` and `release`: repository, worker, run and token. -/
def fenced (repoId : RepositoryId) (workerId : WorkerId) (runId : RunId)
    (leaseToken : LeaseToken) (lease : WorkerLease)
    : Bool :=
  lease.repoId = repoId && lease.workerId = workerId && lease.runId = runId
    && lease.leaseToken = leaseToken

/-- The columns that `heartbeat` sets. -/
def extend (input : HeartbeatLeaseInput) (lease : WorkerLease) : WorkerLease :=
  { lease with heartbeatAt := input.now, expiresAt := input.newExpiresAt }

theorem extend_keepsKeys (input : HeartbeatLeaseInput)
    : leaseSchema.KeepsKeys (extend input) := by
  simp [Schema.KeepsKeys, leaseSchema, extend]

def heartbeat (leases : LeaseTable) (input : HeartbeatLeaseInput)
    : Except LeaseError LeaseTable :=
  let held := fenced input.repoId input.workerId input.runId input.leaseToken
  if leases.rows.any held then
    .ok (leases.revise held (extend input) (extend_keepsKeys input))
  else
    .error (.ownershipLost input.repoId input.leaseToken)

def release (leases : LeaseTable) (input : ReleaseLeaseInput) : Except LeaseError LeaseTable :=
  let held := fenced input.repoId input.workerId input.runId input.leaseToken
  if leases.rows.any held then
    .ok (leases.delete held)
  else
    .error (.ownershipLost input.repoId input.leaseToken)

theorem fenced_iff {repoId : RepositoryId} {workerId : WorkerId} {runId : RunId}
    {leaseToken : LeaseToken} {lease : WorkerLease}
    : fenced repoId workerId runId leaseToken lease = true
      ↔ lease.repoId = repoId ∧ lease.workerId = workerId ∧ lease.runId = runId
        ∧ lease.leaseToken = leaseToken := by
  simp [fenced, and_assoc]

theorem current_of_fenced {leases : LeaseTable} {repoId : RepositoryId} {workerId : WorkerId}
    {runId : RunId} {leaseToken : LeaseToken}
    (passes : leases.rows.any (fenced repoId workerId runId leaseToken) = true)
    : ∃ held, current leases repoId = some held
        ∧ fenced repoId workerId runId leaseToken held = true := by
  obtain ⟨held, member, fence⟩ := List.any_eq_true.mp passes
  have stored := Table.findKey_of_mem leaseSchema_keyed member
  rw [(fenced_iff.mp fence).1] at stored
  exact ⟨held, stored, fence⟩

/-- A lease is acquired when the repository has none or its lease may be overwritten, and then
the repository has the new lease.
-/
theorem acquire_eq_ok {leases next : LeaseTable} {input : AcquireLeaseInput}
    {leaseToken : LeaseToken} {lease : WorkerLease}
    (acquires : acquire leases input leaseToken = .ok (lease, next))
    : (∃ expiresAt, input.now.plus? input.ttlMs = some expiresAt
        ∧ lease = leaseOf input expiresAt leaseToken)
      ∧ (current leases input.repoId = none
        ∨ ∃ held, current leases input.repoId = some held ∧ mayOverwrite input held = true)
      ∧ ∀ repoId, current next repoId
        = if repoId = input.repoId then some lease else current leases repoId := by
  unfold acquire at acquires
  split at acquires
  · contradiction
  rename_i expiresAt expiry
  simp only at acquires
  split at acquires
  · rename_i inserted
    obtain ⟨rfl, rfl⟩ := Prod.mk.inj (Except.ok.inj acquires)
    obtain ⟨absent, rows⟩ := Table.findKey_insert leaseSchema_keyed inserted
    exact ⟨⟨expiresAt, expiry, rfl⟩, .inl absent, rows⟩
  · split at acquires
    · rename_i overwrites
      obtain ⟨rfl, rfl⟩ := Prod.mk.inj (Except.ok.inj acquires)
      obtain ⟨held, member, chosen⟩ := List.any_eq_true.mp overwrites
      have stored := Table.findKey_of_mem leaseSchema_keyed member
      have fits := chosen
      simp only [Bool.and_eq_true, decide_eq_true_eq] at fits
      rw [fits.1] at stored
      refine ⟨⟨expiresAt, expiry, rfl⟩, .inr ⟨held, stored, fits.2⟩, fun repoId => ?_⟩
      have written : overwrite (leaseOf input expiresAt leaseToken) held
          = leaseOf input expiresAt leaseToken := by
        simp [overwrite, leaseOf, fits.1]
      rw [← written]
      refine Table.findKey_revise leaseSchema_keyed stored ?_ chosen repoId
      intro other selected
      simp only [Bool.and_eq_true, decide_eq_true_eq] at selected
      exact selected.1
    · contradiction

/-- A heartbeat finds the lease that it is for, and moves its expiry only. -/
theorem heartbeat_eq_ok {leases next : LeaseTable} {input : HeartbeatLeaseInput}
    (beats : heartbeat leases input = .ok next)
    : ∃ held, current leases input.repoId = some held
        ∧ fenced input.repoId input.workerId input.runId input.leaseToken held = true
        ∧ ∀ repoId, current next repoId
          = if repoId = input.repoId then some (extend input held)
            else current leases repoId := by
  unfold heartbeat at beats
  simp only at beats
  split at beats
  · rename_i passes
    cases beats
    obtain ⟨held, stored, fence⟩ := current_of_fenced passes
    refine ⟨held, stored, fence, fun repoId => ?_⟩
    exact Table.findKey_revise leaseSchema_keyed stored
      (fun _ selected => (fenced_iff.mp selected).1) fence repoId
  · contradiction

theorem release_eq_ok {leases next : LeaseTable} {input : ReleaseLeaseInput}
    (releases : release leases input = .ok next)
    : ∃ held, current leases input.repoId = some held
        ∧ fenced input.repoId input.workerId input.runId input.leaseToken held = true
        ∧ ∀ repoId, current next repoId
          = if repoId = input.repoId then none else current leases repoId := by
  unfold release at releases
  simp only at releases
  split at releases
  · rename_i passes
    cases releases
    obtain ⟨held, stored, fence⟩ := current_of_fenced passes
    refine ⟨held, stored, fence, fun repoId => ?_⟩
    exact Table.findKey_delete leaseSchema_keyed stored
      (fun _ selected => (fenced_iff.mp selected).1) fence repoId
  · contradiction

end WorkerLeaseRepository

end AiSdlc.Sqlite
