import AlsaqiBackend.Db.LockSafety

/-!
# What readers wait for

The documentation of `ReadWriteLock` lets a reader wait only for a writer: readers share the lock,
and new ones queue behind a writer that holds it or waits for it. A writer can also leave its queue
through its timer, and the timer callback does not process the queues.
`readers_wait_for_writer_iff` says that this is the only way a run can break the policy.
-/

namespace AlsaqiBackend.Db

open AlsaqiBackend.Lib

/-- The documented policy: a reader is queued only while a writer holds the lock or waits for it. -/
def LockState.ReadersWaitForWriter (s : LockState) : Prop :=
  s.lock.readQueue ≠ [] → s.lock.writing = true ∨ s.lock.writeQueue ≠ []

/-- The step is not the timer of the last queued writer, with readers queued behind it and no writer
holding the lock. The timer callback removes the writer and does not process the queues. -/
def KeepsLastWriter (s : LockState) (a : LockAction) : Prop :=
  ∀ id, a = .expire .write id → s.lock.writeQueue = [id] → s.lock.readQueue ≠ [] →
    s.lock.writing = true

/-- After `_processQueue`, readers that still wait do so because of a writer. -/
theorem ReadWriteLock.processQueue_policy (l : ReadWriteLock) :
    l.processQueue.1.readQueue ≠ [] →
      l.processQueue.1.writing = true ∨ l.processQueue.1.writeQueue ≠ [] := by
  unfold processQueue
  split
  · rename_i next rest hq
    split_ifs
    · simp
    · simp [hq]
  · rename_i hq
    split_ifs with hdrain
    · simp
    · simp only
      intro hread
      left
      by_contra hw
      exact hdrain (by simp [hw, List.length_pos_iff.2 hread])

/-- From a state that follows the policy, a step keeps it exactly when it is not the timer of the
last queued writer before queued readers. -/
theorem lockStep_policy {s t : LockState} {a : LockAction} (h : s.ReadersWaitForWriter)
    (hst : lockStep s a = some t) : t.ReadersWaitForWriter ↔ KeepsLastWriter s a := by
  cases a with
  | acquireRead id =>
    refine iff_of_true ?_ (by simp [KeepsLastWriter])
    obtain ⟨-, rfl⟩ := lockStep_acquireRead_iff.1 hst
    simp only [LockState.ReadersWaitForWriter, LockState.settle, ReadWriteLock.acquireRead,
      Bool.false_eq_true, if_false]
    split_ifs with hfree
    · exact h
    · intro _
      simp only [ReadWriteLock.enqueueWithTimeout, ReadWriteLock.setQueue]
      by_cases hw : s.lock.writing = true
      · exact Or.inl hw
      · exact Or.inr fun hq => hfree (by simp [hw, hq])
  | acquireWrite id =>
    refine iff_of_true ?_ (by simp [KeepsLastWriter])
    obtain ⟨-, rfl⟩ := lockStep_acquireWrite_iff.1 hst
    simp only [LockState.ReadersWaitForWriter, LockState.settle, ReadWriteLock.acquireWrite,
      Bool.false_eq_true, if_false]
    split_ifs
    · simp
    · simp [ReadWriteLock.enqueueWithTimeout, ReadWriteLock.setQueue]
  | release id type =>
    refine iff_of_true ?_ (by simp [KeepsLastWriter])
    obtain ⟨-, rfl⟩ := lockStep_release_iff.1 hst
    exact ReadWriteLock.processQueue_policy _
  | expire type id =>
    obtain rfl := lockStep_expire_iff.1 hst
    simp only [LockState.ReadersWaitForWriter, LockState.settle, ReadWriteLock.expire]
    split_ifs with hq
    · cases type with
      | read =>
        refine iff_of_true (fun hread => h fun hnil => hread ?_) (by simp [KeepsLastWriter])
        simp [ReadWriteLock.setQueue, ReadWriteLock.queue, hnil]
      | write =>
        simp only [ReadWriteLock.setQueue, ReadWriteLock.queue, KeepsLastWriter,
          LockAction.expire.injEq, true_and, forall_eq', List.erase_eq_nil_iff, ne_eq, not_or]
        have hne : s.lock.writeQueue ≠ [] := List.ne_nil_of_mem hq
        -- The policy is lost exactly when the queue held this writer alone.
        by_cases hlast : s.lock.writeQueue = [id]
        · simp [hlast]
        · simp [hlast, hne]
    · refine iff_of_true h ?_
      intro id' ha hlast
      obtain ⟨rfl, rfl⟩ := LockAction.expire.inj ha
      exact absurd (by simp [ReadWriteLock.queue, hlast]) hq

/-- The readers' policy holds in every state of a run exactly when no step of the run is the timer
of the last queued writer, with readers queued behind it and no writer holding the lock. -/
theorem readers_wait_for_writer_iff (acts : List LockAction) :
    Along lockStep LockState.ReadersWaitForWriter LockState.init acts ↔
      Guarded lockStep KeepsLastWriter LockState.init acts :=
  along_iff_guarded (fun _ _ _ => lockStep_inv) (fun _ _ _ _ => lockStep_policy) acts
    LockState.init_inv (by simp [LockState.ReadersWaitForWriter, LockState.init])

/-- A reader holds the lock, a writer queues behind it and a second reader behind the writer. When
the writer's timer fires, the second reader still waits, though only a reader holds the lock and no
writer waits. -/
theorem reader_waits_without_writer :
    ∃ s, run lockStep LockState.init
        [.acquireRead 0, .acquireWrite 1, .acquireRead 2, .expire .write 1] = some s ∧
      s.held = [(0, .read)] ∧ s.lock.readQueue = [2] ∧ ¬ s.ReadersWaitForWriter := by
  refine ⟨_, rfl, rfl, rfl, ?_⟩
  simp [LockState.ReadersWaitForWriter, LockState.settle, ReadWriteLock.expire,
    ReadWriteLock.acquireRead, ReadWriteLock.acquireWrite, ReadWriteLock.enqueueWithTimeout,
    ReadWriteLock.setQueue, ReadWriteLock.queue, LockState.init]

end AlsaqiBackend.Db
