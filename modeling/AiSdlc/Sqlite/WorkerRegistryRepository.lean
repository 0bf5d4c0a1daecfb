import AiSdlc.Sqlite.OperationalRecoveryRepository

/-! The registry of workers. A worker is marked by reading its row, which must exist, and by
writing the status that the domain gives to it.
-/

namespace AiSdlc.Sqlite

open AiSdlc.Js
open AiSdlc.Domain

namespace WorkerRegistryRepository

/-- `id = ? AND repo_id = ?`. -/
def isWorker (id : WorkerId) (repoId : RepositoryId) (row : Worker) : Bool :=
  row.id = id && row.repoId = repoId

def findById (workers : WorkerTable) (id : WorkerId) (repoId : RepositoryId)
    : Option Worker :=
  workers.rows.find? (isWorker id repoId)

/-- `updateStatus`; the error is the text of what `requireWorker` throws. -/
def updateStatus (workers : WorkerTable) (id : WorkerId) (repoId : RepositoryId)
    (mark : Worker → Worker)
    : Except String WorkerTable :=
  match findById workers id repoId with
  | none => .error s!"unknown worker {id}"
  | some worker =>
      .ok (workers.revise (isWorker id repoId)
        (OperationalRecoveryRepository.setStatus (mark worker))
        (OperationalRecoveryRepository.setStatus_keepsKeys _))

def markBusy (workers : WorkerTable) (id : WorkerId) (repoId : RepositoryId)
    : Except String WorkerTable :=
  updateStatus workers id repoId markWorkerBusy

def markIdle (workers : WorkerTable) (id : WorkerId) (repoId : RepositoryId)
    : Except String WorkerTable :=
  updateStatus workers id repoId markWorkerIdle

def markStopping (workers : WorkerTable) (id : WorkerId) (repoId : RepositoryId)
    : Except String WorkerTable :=
  updateStatus workers id repoId markWorkerStopping

/-- The registry says that the worker is busy. -/
def IsBusy (workers : WorkerTable) (id : WorkerId) (repoId : RepositoryId) : Prop :=
  ∃ row ∈ workers.rows, isWorker id repoId row = true ∧ row.status = .busy

theorem isBusy_iff {workers : WorkerTable} {id : WorkerId} {repoId : RepositoryId}
    : IsBusy workers id repoId
      ↔ ∃ worker, findById workers id repoId = some worker ∧ worker.status = .busy := by
  constructor
  · rintro ⟨row, member, same, busy⟩
    cases found : findById workers id repoId with
    | none => exact absurd same (by simpa using List.find?_eq_none.mp found row member)
    | some worker =>
        -- Two rows of one worker have the same id, so they are one row.
        have here : isWorker id repoId worker = true := List.find?_some found
        simp only [isWorker, Bool.and_eq_true, decide_eq_true_eq] at same here
        have stored {other : Worker} (within : other ∈ workers.rows)
            : workers.findKey Worker.id other.id = some other :=
          Table.findKey_of_mem List.mem_cons_self within
        have one := stored member
        rw [same.1, ← here.1, stored (List.mem_of_find?_eq_some found)] at one
        exact ⟨worker, rfl, (Option.some.inj one) ▸ busy⟩
  · rintro ⟨worker, found, busy⟩
    exact ⟨worker, List.mem_of_find?_eq_some found, List.find?_some found, busy⟩

theorem not_isBusy_of_updateStatus {workers next : WorkerTable} {id : WorkerId}
    {repoId : RepositoryId} {mark : Worker → Worker}
    (idle : ∀ worker, findById workers id repoId = some worker → (mark worker).status ≠ .busy)
    (marked : updateStatus workers id repoId mark = .ok next)
    : ¬IsBusy next id repoId := by
  unfold updateStatus at marked
  cases found : findById workers id repoId with
  | none =>
      rw [found] at marked
      contradiction
  | some worker =>
      rw [found] at marked
      cases marked
      rintro ⟨row, member, here, busy⟩
      obtain ⟨old, -, same⟩ := Table.mem_revise.mp member
      subst same
      split at busy
      · exact idle worker found busy
      · rename_i other
        rw [if_neg other] at here
        exact other here

theorem isBusy_of_updateStatus {workers next : WorkerTable} {id other : WorkerId}
    {repoId otherRepoId : RepositoryId} {mark : Worker → Worker}
    (idle : ∀ worker, findById workers id repoId = some worker → (mark worker).status ≠ .busy)
    (marked : updateStatus workers id repoId mark = .ok next)
    (busy : IsBusy next other otherRepoId)
    : IsBusy workers other otherRepoId := by
  unfold updateStatus at marked
  cases found : findById workers id repoId with
  | none =>
      rw [found] at marked
      contradiction
  | some worker =>
      rw [found] at marked
      cases marked
      obtain ⟨row, member, here, busy⟩ := busy
      obtain ⟨old, within, same⟩ := Table.mem_revise.mp member
      subst same
      split at busy
      · exact absurd busy (idle worker found)
      · rename_i missed
        rw [if_neg missed] at here
        exact ⟨old, within, here, busy⟩

theorem markWorkerIdle_status {worker : Worker} : (markWorkerIdle worker).status ≠ .busy := by
  unfold markWorkerIdle
  split
  · rename_i retired
    rcases retired with same | same <;> simp [same]
  · simp

end WorkerRegistryRepository

end AiSdlc.Sqlite
