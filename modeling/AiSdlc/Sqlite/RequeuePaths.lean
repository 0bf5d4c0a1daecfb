import AiSdlc.Sqlite.OperationalRecoveryRepository

/-! Three operations queue a claimed or running job again. `resetToQueued` writes what the
domain's reset computes, while the two that take a claim back write columns of their own.
-/

namespace AiSdlc.Sqlite

open AiSdlc.Js
open AiSdlc.Domain
open JobQueueRepository
open OperationalRecoveryRepository

/-- Each of the three operations that gets through leaves the row as this queued job. -/
structure RequeuesAgree (row requeued : Job) : Prop where
  reset : ∀ (jobs : JobTable) owner next, jobs.find row.id = some row →
    owner.jobId = row.id → resetToQueued jobs owner = .ok next →
    next.find row.id = some requeued
  reclaim : ∀ store input recorded next, store.jobs.find row.id = some row →
    input.runId = row.runId →
    reclaimExpiredClaim store input recorded = .ok ({ committed := true }, next) →
    next.jobs.find row.id = some requeued
  commit : ∀ store input owner recorded next, store.jobs.find row.id = some row →
    input.expectedJobOwnership = some owner → owner.jobId = row.id →
    commitLeaseReclamation store input recorded = .ok ({ committed := true }, next) →
    next.jobs.find row.id = some requeued

variable {row requeued : Job}

theorem requeued_of_reset (resets : resetJobToQueued row = .ok requeued)
    : requeued = {
        row with
        status := .queued
        claimedBy := none
        claimedAt := none
        startedAt := none
        claimToken := none
      } := by
  unfold resetJobToQueued at resets
  split at resets
  · contradiction
  · exact (Except.ok.inj resets).symm

theorem unclaimedRow_of_reset (resets : resetJobToQueued row = .ok requeued)
    (expiry : row.claimExpiresAt = none) (start : row.startedAt = none)
    : unclaimedRow row = requeued := by
  rw [requeued_of_reset resets, unclaimedRow]
  simp [expiry, start]

/-- The owner's reset writes every column that the domain's reset changes. -/
theorem find_of_resetToQueued {jobs next : JobTable} {owner : JobOwnership}
    (resets : resetJobToQueued row = .ok requeued) (found : jobs.find row.id = some row)
    (named : owner.jobId = row.id) (written : resetToQueued jobs owner = .ok next)
    : next.find row.id = some requeued := by
  have keepsId (job updated : Job) (moved : resetJobToQueued job = .ok updated)
      : updated.id = job.id :=
    (resetJobToQueued_eq_ok moved).2.1
  obtain ⟨old, updated, stored, _, moved, rows⟩ := updateJobWithOwnership_eq_ok keepsId written
  rw [named] at stored
  obtain rfl : row = old := Option.some.inj (found.symm.trans stored)
  obtain rfl : requeued = updated := Except.ok.inj (resets.symm.trans moved)
  rw [rows row.id, if_pos named.symm, requeued_of_reset resets]
  rfl

theorem find_of_reclaim {store next : OperationalStore} {input : ReclaimExpiredClaimInput}
    {recorded : JobChecked Unit} (held : isHeld row = true)
    (found : store.jobs.find row.id = some row) (run : input.runId = row.runId)
    (reclaims : reclaimExpiredClaim store input recorded = .ok ({ committed := true }, next))
    : next.jobs.find row.id = some (unclaimedRow row) := by
  rcases reclaimExpiredClaim_eq_ok reclaims with ⟨refused, _⟩ | ⟨_, _, rows⟩
  · contradiction
  · rw [rows row.id, found, Option.map_some, if_pos ⟨run.symm, held⟩]

/-- A commit takes back the job whose claim it names. -/
theorem find_of_commit {store next : OperationalStore} {input : CommitLeaseReclamationInput}
    {owner : JobOwnership} {recorded : JobChecked Unit}
    (found : store.jobs.find row.id = some row)
    (named : input.expectedJobOwnership = some owner) (of : owner.jobId = row.id)
    (commits : commitLeaseReclamation store input recorded = .ok ({ committed := true }, next))
    : next.jobs.find row.id = some (unclaimedRow row) := by
  rcases commitLeaseReclamation_eq_ok commits with
    ⟨refused, _⟩ | ⟨lease, jobs, worker, _, _, _, _, _, requeues, rfl⟩
  · contradiction
  · rcases requeueOwned_eq_ok requeues with
      ⟨unnamed, _⟩ | ⟨other, old, requeued, given, stored, _, reset, rows⟩
    · exact nomatch named.symm.trans unnamed
    · obtain rfl : owner = other := Option.some.inj (named.symm.trans given)
      rw [of] at stored
      obtain rfl : row = old := Option.some.inj (found.symm.trans stored)
      have written : jobs.find row.id = some (requeueRow requeued row) := by
        rw [rows row.id, if_pos of.symm]
      rw [← requeueRow_of_reset reset]
      exact written

/-- A store with this job only. -/
def onlyJob (row : Job) : OperationalStore :=
  { jobs := ⟨[row], List.pairwise_singleton _ _⟩, leases := .empty, workers := .empty }

theorem find_onlyJob : (onlyJob row).jobs.find row.id = some row :=
  Table.findKey_of_mem jobSchema_keyed List.mem_cons_self

theorem reclaim_onlyJob (held : isHeld row = true)
    : ∃ now next, reclaimExpiredClaim (onlyJob row)
        { repoId := row.repoId, runId := row.runId, now } (.ok ())
      = .ok ({ committed := true }, next) := by
  have waiting : ¬row.status = .queued := by
    intro queued
    rw [isHeld, queued] at held
    contradiction
  let now := row.claimExpiresAt.getD .epoch
  have expired : isNonExpired now row = false := by
    cases expiry : row.claimExpiresAt <;> simp [isNonExpired, waiting, now, expiry]
  have unblocked : reclamationBlocked (onlyJob row) row.repoId now = false :=
    Bool.or_eq_false_iff.mpr ⟨rfl, by simp [onlyJob, expired]⟩
  exact ⟨now, reclaimExpiredClaim_commits unblocked ⟨row, List.mem_cons_self, rfl, held⟩⟩

/-- Where the operations agree, taking a claim back resets the job. -/
theorem RequeuesAgree.unclaimedRow_eq (held : isHeld row = true)
    (agree : RequeuesAgree row requeued)
    : unclaimedRow row = requeued := by
  obtain ⟨now, next, reclaims⟩ := reclaim_onlyJob held
  have left := agree.reclaim _ _ _ _ find_onlyJob rfl reclaims
  have taken := find_of_reclaim held find_onlyJob rfl reclaims
  exact Option.some.inj (taken.symm.trans left)

/-- The three operations leave a claimed or running job as the domain resets it exactly when
its row has neither an expiry of its claim nor a start.
-/
theorem requeues_agree_iff (held : isHeld row = true)
    : (∃ requeued, resetJobToQueued row = .ok requeued ∧ RequeuesAgree row requeued)
      ↔ row.claimExpiresAt = none ∧ row.startedAt = none := by
  constructor
  · intro ⟨requeued, resets, agree⟩
    have same := agree.unclaimedRow_eq held
    rw [requeued_of_reset resets] at same
    exact ⟨(congrArg Job.claimExpiresAt same).symm, congrArg Job.startedAt same⟩
  · intro ⟨expiry, start⟩
    obtain ⟨requeued, resets⟩ := reset_of_isHeld held
    have same := unclaimedRow_of_reset resets expiry start
    refine ⟨requeued, resets, fun jobs owner next found named written => ?_, ?_, ?_⟩
    · exact find_of_resetToQueued resets found named written
    · intro store input recorded next found run reclaims
      exact same ▸ find_of_reclaim held found run reclaims
    · intro store input owner recorded next found named of commits
      exact same ▸ find_of_commit found named of commits

/-- A job that a worker has claimed for good. -/
def claimedForGood : Job :=
  {
    createJob { id := "job", runId := "run", repoId := "repo", issueNumber := 1,
                createdAt := .epoch } with
    status := .claimed
    attempts := 1
    claimedBy := some "worker"
    claimToken := some "token"
    claimedAt := some .epoch
  }

theorem requeues_agree_iff_claimedForGood
    : (∃ requeued, resetJobToQueued claimedForGood = .ok requeued
          ∧ RequeuesAgree claimedForGood requeued)
        ↔ claimedForGood.claimExpiresAt = none ∧ claimedForGood.startedAt = none :=
  requeues_agree_iff rfl

/-- A job that has started under a claim with an expiry. -/
def expiringJob : Job :=
  {
    claimedForGood with
    status := .running
    startedAt := some .epoch
    claimExpiresAt := some .oneSecond
  }

/-- It is reset with the expiry of its claim, and taken back with its start. -/
theorem requeues_disagree
    : ¬∀ row, isHeld row = true →
        ∃ requeued, resetJobToQueued row = .ok requeued ∧ RequeuesAgree row requeued := by
  intro agree
  obtain ⟨requeued, resets, agrees⟩ := agree expiringJob rfl
  have same := agrees.unclaimedRow_eq rfl
  rw [requeued_of_reset resets] at same
  exact nomatch congrArg Job.startedAt same

end AiSdlc.Sqlite
