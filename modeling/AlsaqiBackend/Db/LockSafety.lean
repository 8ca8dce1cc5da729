import AlsaqiBackend.Lib.Run
import AlsaqiBackend.Db.ReadWriteLock
import Mathlib.Data.List.Nodup
import Mathlib.Data.List.Perm.Basic

/-!
# The lock keeps its promises

`LockState.Inv` says that the counters of the lock count the handles its callers have, that every
request is settled or in one queue, and that a request waits only while somebody holds the lock.
Every step keeps it (`lockStep_inv`): an immediate grant, the grants of a release, a request that
queues and a timer each have a lemma of their own. `readWriteLock_safe` reads the promises off it.
-/

namespace AlsaqiBackend.Db

open AlsaqiBackend.Lib

/-! ## The invariant -/

/-- The accounts of the lock and its callers agree: the counters count the handles, a writer has the
lock alone, and every request is in exactly one place, settled or in one of the queues. -/
structure LockState.Accounted (s : LockState) : Prop where
  readers_eq : s.lock.readers = (s.held.countP fun h => h.2 = .read : ℕ)
  writing_iff : s.lock.writing = true ↔ ∃ id, (id, .write) ∈ s.held
  exclusive : ∀ id, (id, .write) ∈ s.held → s.held = [(id, .write)]
  placed : (s.settled.map Prod.fst ++ (s.lock.writeQueue ++ s.lock.readQueue)).Perm s.requested
  nodup : s.requested.Nodup
  held_granted : ∀ h ∈ s.held, (h.1, .granted h.2) ∈ s.settled
  held_nodup : s.held.Nodup

/-- The lock's invariant: the accounts agree, and a request waits only while somebody holds the
lock. -/
structure LockState.Inv (s : LockState) : Prop extends s.Accounted where
  queue_held : s.lock.writeQueue ≠ [] ∨ s.lock.readQueue ≠ [] → s.held ≠ []

/-- A new lock satisfies the invariant. -/
theorem LockState.init_inv : LockState.init.Inv where
  readers_eq := rfl
  writing_iff := by simp [init]
  exclusive := by simp [init]
  placed := List.Perm.refl _
  nodup := List.nodup_nil
  held_granted := by simp [init]
  held_nodup := List.nodup_nil
  queue_held := by simp [init]

/-- Nobody holds the lock exactly when it has no reader and no writer. -/
theorem LockState.Accounted.held_eq_nil_iff {s : LockState} (h : s.Accounted) :
    s.held = [] ↔ s.lock.readers = 0 ∧ s.lock.writing = false := by
  constructor
  · intro hnil
    refine ⟨by rw [h.readers_eq, hnil]; rfl, ?_⟩
    rw [Bool.eq_false_iff, ne_eq, h.writing_iff, hnil]
    simp
  · rintro ⟨hr, hw⟩
    rw [h.readers_eq, Int.natCast_eq_zero, List.countP_eq_zero] at hr
    rw [List.eq_nil_iff_forall_not_mem]
    rintro ⟨id, type⟩ hmem
    cases type with
    | read => exact hr _ hmem (by simp)
    | write => rw [h.writing_iff.2 ⟨id, hmem⟩] at hw; simp at hw

/-- A request that waits has not been settled. -/
theorem LockState.Accounted.not_settled_of_queued {s : LockState} (h : s.Accounted) {id : RequestId}
    (hq : id ∈ s.lock.writeQueue ++ s.lock.readQueue) : id ∉ s.settled.map Prod.fst := by
  have hnd := h.placed.nodup_iff.2 h.nodup
  intro hmem
  exact List.disjoint_of_nodup_append hnd hmem hq

/-- A grant to a request that is in the accounts as neither settled nor queued, where the lock
admits it: the common part of every grant. `l` is the lock with the grant counted. -/
theorem LockState.Accounted.grant {s : LockState} (h : s.Accounted) (type : LockType)
    (l : ReadWriteLock) (id : RequestId) (hnew : id ∉ s.settled.map Prod.fst)
    (hfree : (type = .read ∧ s.lock.writing = false ∧ l.writing = false ∧
        l.readers = s.lock.readers + 1) ∨
      (type = .write ∧ s.held = [] ∧ l.writing = true ∧ l.readers = s.lock.readers))
    {requested : List RequestId}
    (hplaced : (s.settled.map Prod.fst ++ id :: (l.writeQueue ++ l.readQueue)).Perm requested)
    (hnd : requested.Nodup) :
    ({ s with requested := requested }.settle (l, [(id, .granted type)])).Accounted := by
  -- A request that has not been answered holds nothing yet.
  have hid : ∀ t, (id, t) ∉ s.held := by
    intro t hmem
    exact hnew (List.mem_map.2 ⟨_, h.held_granted _ hmem, rfl⟩)
  have hplaced' : ((s.settled ++ [(id, Reply.granted type)]).map Prod.fst ++
      (l.writeQueue ++ l.readQueue)).Perm requested := by
    simpa [List.append_assoc] using hplaced
  have hgranted : ∀ g ∈ s.held ++ [(id, type)],
      (g.1, Reply.granted g.2) ∈ s.settled ++ [(id, Reply.granted type)] := by
    intro g hg
    rcases List.mem_append.1 hg with hg | hg
    · exact List.mem_append_left _ (h.held_granted g hg)
    · rw [List.mem_singleton] at hg
      subst hg
      simp
  have hnodup : (s.held ++ [(id, type)]).Nodup := by
    rw [List.nodup_append]
    refine ⟨h.held_nodup, by simp, ?_⟩
    rintro g hg g' hg' rfl
    rw [List.mem_singleton] at hg'
    exact hid type (hg' ▸ hg)
  rcases hfree with ⟨rfl, hw, hlw, hlr⟩ | ⟨rfl, hnil, hlw, hlr⟩
  -- A read is granted besides other reads, and a write alone.
  · have hnw : ∀ w, (w, LockType.write) ∉ s.held := by
      intro w hmem
      rw [h.writing_iff.2 ⟨w, hmem⟩] at hw
      simp at hw
    refine ⟨?_, ?_, ?_, hplaced', hnd, hgranted, hnodup⟩
    · show l.readers = ((s.held ++ [(id, LockType.read)]).countP fun g => g.2 = .read : ℕ)
      simp [hlr, h.readers_eq, List.countP_append]
    · show l.writing = true ↔ ∃ w, (w, .write) ∈ s.held ++ [(id, LockType.read)]
      simp [hlw, hnw]
    · show ∀ w, (w, .write) ∈ s.held ++ [(id, .read)] →
        s.held ++ [(id, .read)] = [(w, LockType.write)]
      simp [hnw]
  · refine ⟨?_, ?_, ?_, hplaced', hnd, hgranted, hnodup⟩
    · show l.readers = ((s.held ++ [(id, LockType.write)]).countP fun g => g.2 = .read : ℕ)
      simp [hlr, h.readers_eq, hnil]
    · show l.writing = true ↔ ∃ w, (w, .write) ∈ s.held ++ [(id, LockType.write)]
      simp [hlw, hnil]
    · show ∀ w, (w, .write) ∈ s.held ++ [(id, .write)] →
        s.held ++ [(id, .write)] = [(w, LockType.write)]
      simp [hnil]

/-- The drain of the read queue, one grant for each queued reader. -/
theorem LockState.Accounted.drain {s : LockState} (h : s.Accounted) (hw : s.lock.writing = false) :
    (s.settle ({ s.lock with readers := s.lock.readers + s.lock.readQueue.length, readQueue := [] },
      s.lock.readQueue.map fun id => (id, .granted .read))).Accounted := by
  generalize hq : s.lock.readQueue = q
  induction q generalizing s with
  | nil =>
    have hsame : { s.lock with readQueue := [] } = s.lock := by rw [← hq]
    simpa only [settle, List.map_nil, List.filterMap_nil, List.append_nil, List.length_nil,
      Nat.cast_zero, add_zero, hsame] using h
  | cons next rest ih =>
    -- The first grant leaves a lock with the rest of the queue, to which the induction applies.
    have hone := h.grant .read { s.lock with readers := s.lock.readers + 1, readQueue := rest } next
      (h.not_settled_of_queued (by simp [hq])) (Or.inl ⟨rfl, hw, hw, rfl⟩)
      ((List.Perm.append_left _ (by simpa [hq] using List.perm_middle.symm)).trans h.placed) h.nodup
    have hrest := ih hone hw rfl
    have hsame : (s.lock.readers + 1 + rest.length : ℤ) = s.lock.readers + (next :: rest).length := by
      push_cast [List.length_cons]
      ring
    simp only [settle, List.append_assoc, List.filterMap_cons, handle?, List.filterMap_nil,
      List.cons_append, List.nil_append, hsame] at hrest
    simp only [settle, List.map_cons, List.filterMap_cons, handle?]
    exact hrest

/-- `_processQueue` keeps the accounts and leaves nobody waiting for a lock that nobody holds. -/
theorem LockState.Accounted.processQueue_inv {s : LockState} (h : s.Accounted) :
    (s.settle s.lock.processQueue).Inv := by
  have hidle : s.settle (s.lock, []) = s := by simp [settle]
  unfold ReadWriteLock.processQueue
  split
  · rename_i next rest hq
    split_ifs with hfree
    · -- The writer at the head of the queue gets the lock.
      simp only [Bool.and_eq_true, beq_iff_eq, Bool.not_eq_true'] at hfree
      have hone := h.grant .write { s.lock with writing := true, writeQueue := rest } next
        (h.not_settled_of_queued (by simp [hq]))
        (Or.inr ⟨rfl, h.held_eq_nil_iff.2 hfree, rfl, rfl⟩)
        (by simpa [hq] using h.placed) h.nodup
      exact ⟨hone, by simp [settle, handle?]⟩
    · refine ⟨hidle.symm ▸ h, fun _ hnil => hfree ?_⟩
      rw [hidle, h.held_eq_nil_iff] at hnil
      simp [hnil.1, hnil.2]
  · rename_i hq
    split_ifs with hdrain
    · simp only [Bool.and_eq_true, Bool.not_eq_true', gt_iff_lt, decide_eq_true_eq] at hdrain
      rw [ReadWriteLock.drainReadQueue_eq]
      exact ⟨h.drain hdrain.1, by simp [settle, hq]⟩
    · refine ⟨hidle.symm ▸ h, fun hwait hnil => ?_⟩
      rw [hidle] at hwait hnil
      obtain ⟨-, hw⟩ := h.held_eq_nil_iff.1 hnil
      rw [hq] at hwait
      have hr : s.lock.readQueue ≠ [] := by simpa using hwait
      exact hdrain (by simp [hw, List.length_pos_iff.2 hr])

/-- A step that changes only the queues and grants nothing keeps the accounts, where every request
still has its place. -/
theorem LockState.Accounted.requeue {s : LockState} (h : s.Accounted) {l : ReadWriteLock}
    {r : Settlements} (hgrant : r.filterMap handle? = []) (hr : l.readers = s.lock.readers)
    (hw : l.writing = s.lock.writing) {requested : List RequestId}
    (hplaced : ((s.settled ++ r).map Prod.fst ++ (l.writeQueue ++ l.readQueue)).Perm requested)
    (hnd : requested.Nodup) : ({ s with requested := requested }.settle (l, r)).Accounted := by
  refine ⟨?_, ?_, ?_, hplaced, hnd, ?_, ?_⟩
  · simpa [settle, hgrant, hr] using h.readers_eq
  · simpa [settle, hgrant, hw] using h.writing_iff
  · simpa [settle, hgrant] using h.exclusive
  · intro g hg
    rw [settle, hgrant, List.append_nil] at hg
    exact List.mem_append_left _ (h.held_granted g hg)
  · simpa [settle, hgrant] using h.held_nodup

/-- A released handle leaves the accounts in agreement, before the queues are processed. -/
theorem LockState.Accounted.relinquish {s : LockState} (h : s.Accounted) {id : RequestId}
    {type : LockType} (hheld : (id, type) ∈ s.held) :
    { s with lock := s.lock.relinquish type, held := s.held.erase (id, type) }.Accounted := by
  have hgranted : ∀ g ∈ s.held.erase (id, type), (g.1, Reply.granted g.2) ∈ s.settled :=
    fun g hg => h.held_granted g (List.mem_of_mem_erase hg)
  have hnodup : (s.held.erase (id, type)).Nodup := h.held_nodup.erase _
  cases type with
  | read =>
    -- No writer holds the lock beside the reader.
    have hnw : ∀ w, (w, LockType.write) ∉ s.held := by
      intro w hmem
      rw [h.exclusive w hmem] at hheld
      simp at hheld
    have hcount := (List.perm_cons_erase hheld).countP_eq fun g => g.2 = LockType.read
    rw [List.countP_cons_of_pos (by simp)] at hcount
    refine ⟨?_, ?_, ?_, h.placed, h.nodup, hgranted, hnodup⟩
    · simp only [ReadWriteLock.relinquish, h.readers_eq, hcount]
      omega
    · have hnw' : ∀ w, (w, LockType.write) ∉ s.held.erase (id, .read) :=
        fun w hmem => hnw w (List.mem_of_mem_erase hmem)
      simpa [ReadWriteLock.relinquish, hnw', hnw] using h.writing_iff
    · intro w hmem
      exact absurd (List.mem_of_mem_erase hmem) (hnw w)
  | write =>
    have hnil : s.held.erase (id, .write) = [] := by rw [h.exclusive id hheld]; simp
    have hr := h.readers_eq
    rw [h.exclusive id hheld] at hr
    refine ⟨?_, ?_, ?_, h.placed, h.nodup, hgranted, hnodup⟩
    · simpa [ReadWriteLock.relinquish, hnil] using hr
    · simp [ReadWriteLock.relinquish, hnil]
    · simp [hnil]

/-- A new request has its place when it is put at the end of a queue. -/
theorem LockState.Accounted.placed_enqueue {s : LockState} (h : s.Accounted) (type : LockType)
    (id : RequestId) :
    (s.settled.map Prod.fst ++ ((s.lock.enqueueWithTimeout type id).writeQueue ++
      (s.lock.enqueueWithTimeout type id).readQueue)).Perm (id :: s.requested) := by
  cases type with
  | read =>
    simp only [ReadWriteLock.enqueueWithTimeout, ReadWriteLock.setQueue, ReadWriteLock.queue,
      ← List.append_assoc]
    refine (List.perm_append_singleton _ _).trans (List.Perm.cons _ ?_)
    simpa [List.append_assoc] using h.placed
  | write =>
    simp only [ReadWriteLock.enqueueWithTimeout, ReadWriteLock.setQueue, ReadWriteLock.queue,
      List.append_assoc, List.cons_append, List.nil_append]
    rw [← List.append_assoc]
    refine List.perm_middle.trans (List.Perm.cons _ ?_)
    simpa [List.append_assoc] using h.placed

/-- A request that waits keeps a place when its timer settles it. -/
theorem LockState.Accounted.placed_expire {s : LockState} (h : s.Accounted) {type : LockType}
    {id : RequestId} (hq : id ∈ s.lock.queue type) :
    ((s.settled.map Prod.fst ++ [id]) ++
      ((s.lock.setQueue ((s.lock.queue type).erase id) type).writeQueue ++
        (s.lock.setQueue ((s.lock.queue type).erase id) type).readQueue)).Perm s.requested := by
  have hback := (List.perm_cons_erase hq).symm
  rw [List.append_assoc]
  refine (List.Perm.append_left _ ?_).trans h.placed
  cases type with
  | read =>
    simp only [ReadWriteLock.setQueue, ReadWriteLock.queue] at hback ⊢
    have hmove : (id :: (s.lock.writeQueue ++ s.lock.readQueue.erase id)).Perm
        (s.lock.writeQueue ++ id :: s.lock.readQueue.erase id) := List.perm_middle.symm
    exact hmove.trans (List.Perm.append_left _ hback)
  | write =>
    simp only [ReadWriteLock.setQueue, ReadWriteLock.queue] at hback ⊢
    simpa using List.Perm.append_right s.lock.readQueue hback

/-- A request put in a queue while somebody holds the lock. -/
theorem LockState.Inv.enqueue {s : LockState} (h : s.Inv) {type : LockType} {id : RequestId}
    (hnew : id ∉ s.requested) (hheld : s.held ≠ []) :
    ({ s with requested := id :: s.requested }.settle
      (s.lock.enqueueWithTimeout type id, [])).Inv := by
  have hacc : ({ s with requested := id :: s.requested }.settle
      (s.lock.enqueueWithTimeout type id, [])).Accounted := by
    refine h.requeue rfl ?_ ?_ ?_ (List.nodup_cons.2 ⟨hnew, h.nodup⟩)
    · cases type <;> rfl
    · cases type <;> rfl
    · simpa using h.placed_enqueue type id
  exact ⟨hacc, fun _ => by simpa [settle] using hheld⟩

/-- The place of a new request that is granted at once. -/
theorem LockState.Accounted.placed_grant {s : LockState} (h : s.Accounted) (id : RequestId) :
    (s.settled.map Prod.fst ++ id :: (s.lock.writeQueue ++ s.lock.readQueue)).Perm
      (id :: s.requested) :=
  List.perm_middle.trans (h.placed.cons _)

/-- Every step keeps the invariant. -/
theorem lockStep_inv {s t : LockState} {a : LockAction} (h : s.Inv) (hst : lockStep s a = some t) :
    t.Inv := by
  cases a with
  | acquireRead id =>
    obtain ⟨hnew, rfl⟩ := lockStep_acquireRead_iff.1 hst
    have hnew' : id ∉ s.settled.map Prod.fst :=
      fun hmem => hnew (h.placed.mem_iff.1 (List.mem_append_left _ hmem))
    simp only [ReadWriteLock.acquireRead, Bool.false_eq_true, if_false]
    split_ifs with hfree
    · simp only [Bool.and_eq_true, Bool.not_eq_true', beq_iff_eq] at hfree
      refine ⟨h.grant .read { s.lock with readers := s.lock.readers + 1 } id hnew'
        (Or.inl ⟨rfl, hfree.1, hfree.1, rfl⟩) (h.placed_grant id)
        (List.nodup_cons.2 ⟨hnew, h.nodup⟩), by simp [LockState.settle, handle?]⟩
    · -- A writer holds the lock, or waits and so somebody else holds it.
      refine h.enqueue hnew fun hnil => hfree ?_
      have hw := (h.held_eq_nil_iff.1 hnil).2
      have hq : s.lock.writeQueue = [] := by
        by_contra hq
        exact h.queue_held (Or.inl hq) hnil
      simp [hw, hq]
  | acquireWrite id =>
    obtain ⟨hnew, rfl⟩ := lockStep_acquireWrite_iff.1 hst
    have hnew' : id ∉ s.settled.map Prod.fst :=
      fun hmem => hnew (h.placed.mem_iff.1 (List.mem_append_left _ hmem))
    simp only [ReadWriteLock.acquireWrite, Bool.false_eq_true, if_false]
    split_ifs with hfree
    · simp only [Bool.and_eq_true, Bool.not_eq_true', beq_iff_eq] at hfree
      refine ⟨h.grant .write { s.lock with writing := true } id hnew'
        (Or.inr ⟨rfl, h.held_eq_nil_iff.2 hfree.symm, rfl, rfl⟩) (h.placed_grant id)
        (List.nodup_cons.2 ⟨hnew, h.nodup⟩), by simp [LockState.settle, handle?]⟩
    · refine h.enqueue hnew fun hnil => hfree ?_
      obtain ⟨hr, hw⟩ := h.held_eq_nil_iff.1 hnil
      simp [hr, hw]
  | release id type =>
    obtain ⟨hheld, rfl⟩ := lockStep_release_iff.1 hst
    exact (h.relinquish hheld).processQueue_inv
  | expire type id =>
    obtain rfl := lockStep_expire_iff.1 hst
    unfold ReadWriteLock.expire
    split_ifs with hq
    · have hacc : (s.settle (s.lock.setQueue ((s.lock.queue type).erase id) type,
          [(id, .rejected (ReadWriteLock.timeoutError type))])).Accounted := by
        refine h.requeue (by simp [handle?]) ?_ ?_ ?_ h.nodup
        · cases type <;> rfl
        · cases type <;> rfl
        · simpa using h.placed_expire hq
      refine ⟨hacc, fun _ => ?_⟩
      -- The request was waiting, so the lock was held; a timer takes no handle away.
      have hheld : s.held ≠ [] := by
        refine h.queue_held ?_
        cases type with
        | read => exact Or.inr (List.ne_nil_of_mem hq)
        | write => exact Or.inl (List.ne_nil_of_mem hq)
      simpa [LockState.settle, handle?] using hheld
    · simpa [LockState.settle] using h

/-- Every reachable state of the lock satisfies the invariant. -/
theorem lock_reachable_inv {s : LockState} (h : Reachable lockStep LockState.init s) : s.Inv :=
  h.invariant (fun _ _ _ => lockStep_inv) LockState.init_inv

/-! ## Safety and wake-up -/

/-- What the lock promises its callers in a state. -/
structure LockState.Safe (s : LockState) : Prop where
  /-- A writer never holds together with a reader or another writer. -/
  exclusive : ∀ id, (id, .write) ∈ s.held → s.held = [(id, .write)]
  /-- `_readers` counts the read handles that are granted and not released. -/
  readers_eq : s.lock.readers = (s.held.countP fun h => h.2 = .read : ℕ)
  /-- `_writing` says whether a write handle is granted and not released. -/
  writing_iff : s.lock.writing = true ↔ ∃ id, (id, .write) ∈ s.held
  /-- Every request either waits, in one queue and at one place, or has been settled once. -/
  settled_once : ∀ id ∈ s.requested, (s.settled.map Prod.fst).count id +
    (s.lock.writeQueue.count id + s.lock.readQueue.count id) = 1
  /-- A settled request was granted or rejected. -/
  settled_reply : ∀ r ∈ s.settled, (∃ type, r.2 = .granted type) ∨ ∃ error, r.2 = .rejected error
  /-- The timer of a request that waits rejects it. -/
  timer_settles : ∀ type id, id ∈ s.lock.queue type → ∃ t, lockStep s (.expire type id) = some t ∧
    (id, .rejected (ReadWriteLock.timeoutError type)) ∈ t.settled
  /-- A rejected request does not hold the lock. -/
  rejected_not_held : ∀ id error type, (id, .rejected error) ∈ s.settled → (id, type) ∉ s.held
  /-- While a request waits, somebody holds the lock. -/
  queue_held : s.lock.writeQueue ≠ [] ∨ s.lock.readQueue ≠ [] → s.held ≠ []
  /-- When the last handle is released, a request that waited gets the lock. -/
  wakes_up : ∀ id type t, s.held = [(id, type)] →
    s.lock.writeQueue ≠ [] ∨ s.lock.readQueue ≠ [] → lockStep s (.release id type) = some t →
    ∃ h ∈ t.held, h.1 ∈ s.lock.writeQueue ++ s.lock.readQueue

/-- Every promise that `_processQueue` settles is a grant to a request that waited. -/
theorem ReadWriteLock.processQueue_granted {l : ReadWriteLock} {r : RequestId × Reply}
    (h : r ∈ l.processQueue.2) :
    r.1 ∈ l.writeQueue ++ l.readQueue ∧ ∃ type, r.2 = .granted type := by
  unfold processQueue at h
  split at h
  · rename_i next rest hq
    split_ifs at h
    · rw [List.mem_singleton] at h
      subst h
      exact ⟨by simp [hq], _, rfl⟩
    · simp at h
  · split_ifs at h
    · rw [drainReadQueue_eq] at h
      obtain ⟨id, hid, rfl⟩ := List.mem_map.1 h
      exact ⟨List.mem_append_right _ hid, _, rfl⟩
    · simp at h

/-- When nobody holds the lock, `_processQueue` grants a request if one waits. -/
theorem ReadWriteLock.processQueue_ne_nil {l : ReadWriteLock} (hr : l.readers = 0)
    (hw : l.writing = false) (hq : l.writeQueue ≠ [] ∨ l.readQueue ≠ []) :
    l.processQueue.2 ≠ [] := by
  unfold processQueue
  split
  · simp [hr, hw]
  · rename_i hnil
    have hread : l.readQueue ≠ [] := by simpa [hnil] using hq
    rw [if_pos (by simp [hw, List.length_pos_iff.2 hread]), drainReadQueue_eq]
    simpa using hread

/-- Steps settle promises only with a grant or a rejection: no caller is inside a transaction. -/
theorem lockStep_settled_reply {s t : LockState} {a : LockAction}
    (h : ∀ r ∈ s.settled, (∃ type, r.2 = .granted type) ∨ ∃ error, r.2 = .rejected error)
    (hst : lockStep s a = some t) :
    ∀ r ∈ t.settled, (∃ type, r.2 = .granted type) ∨ ∃ error, r.2 = .rejected error := by
  have hsettle : ∀ (u : LockState) (q : ReadWriteLock × Settlements), u.settled = s.settled →
      (∀ r ∈ q.2, (∃ type, r.2 = .granted type) ∨ ∃ error, r.2 = .rejected error) →
      ∀ r ∈ (u.settle q).settled,
        (∃ type, r.2 = .granted type) ∨ ∃ error, r.2 = .rejected error := by
    intro u q hu hq r hr
    rcases List.mem_append.1 hr with hr | hr
    · exact h r (hu ▸ hr)
    · exact hq r hr
  cases a with
  | acquireRead id =>
    obtain ⟨-, rfl⟩ := lockStep_acquireRead_iff.1 hst
    refine hsettle _ _ rfl fun r hr => ?_
    simp only [ReadWriteLock.acquireRead, Bool.false_eq_true, if_false] at hr
    split_ifs at hr
    · exact Or.inl ⟨.read, by rw [List.mem_singleton.1 hr]⟩
    · exact absurd hr List.not_mem_nil
  | acquireWrite id =>
    obtain ⟨-, rfl⟩ := lockStep_acquireWrite_iff.1 hst
    refine hsettle _ _ rfl fun r hr => ?_
    simp only [ReadWriteLock.acquireWrite, Bool.false_eq_true, if_false] at hr
    split_ifs at hr
    · exact Or.inl ⟨.write, by rw [List.mem_singleton.1 hr]⟩
    · exact absurd hr List.not_mem_nil
  | release id type =>
    obtain ⟨-, rfl⟩ := lockStep_release_iff.1 hst
    exact hsettle _ _ rfl fun r hr => Or.inl (ReadWriteLock.processQueue_granted hr).2
  | expire type id =>
    obtain rfl := lockStep_expire_iff.1 hst
    refine hsettle _ _ rfl fun r hr => ?_
    unfold ReadWriteLock.expire at hr
    split_ifs at hr
    · exact Or.inr ⟨ReadWriteLock.timeoutError type, by rw [List.mem_singleton.1 hr]⟩
    · exact absurd hr List.not_mem_nil

/-- In every state that some interleaving of calls, releases and timers reaches, the lock keeps its
promises. -/
theorem readWriteLock_safe (s : LockState) (h : Reachable lockStep LockState.init s) : s.Safe := by
  have hinv := lock_reachable_inv h
  have hnd := hinv.placed.nodup_iff.2 hinv.nodup
  refine ⟨hinv.exclusive, hinv.readers_eq, hinv.writing_iff, ?_, ?_, ?_, ?_, hinv.queue_held, ?_⟩
  · intro id hid
    rw [← List.count_append, ← List.count_append]
    exact List.count_eq_one_of_mem hnd (hinv.placed.mem_iff.2 hid)
  · exact h.invariant (fun _ _ _ => lockStep_settled_reply) (by simp [LockState.init])
  · intro type id hid
    refine ⟨_, rfl, ?_⟩
    simp [LockState.settle, ReadWriteLock.expire, hid]
  · intro id error type hrej hheld
    have hgr := hinv.held_granted _ hheld
    have hndS : (s.settled.map Prod.fst).Nodup := hnd.of_append_left
    have := List.inj_on_of_nodup_map hndS hrej hgr rfl
    simp at this
  · intro id type t hlast hq hst
    obtain ⟨hheld, rfl⟩ := lockStep_release_iff.1 hst
    -- Nobody holds the lock between the release and the hand-off.
    have hfree := (hinv.relinquish hheld).held_eq_nil_iff.1 (by rw [hlast]; simp)
    have hq' : (s.lock.relinquish type).writeQueue = s.lock.writeQueue ∧
        (s.lock.relinquish type).readQueue = s.lock.readQueue := by cases type <;> exact ⟨rfl, rfl⟩
    have hne := ReadWriteLock.processQueue_ne_nil hfree.1 hfree.2 (by rw [hq'.1, hq'.2]; exact hq)
    obtain ⟨⟨rid, reply⟩, hr⟩ := List.exists_mem_of_ne_nil _ hne
    obtain ⟨hmem, gtype, hgr⟩ := ReadWriteLock.processQueue_granted hr
    simp only at hmem hgr
    subst hgr
    rw [hq'.1, hq'.2] at hmem
    refine ⟨(rid, gtype), List.mem_append_right _ ?_, hmem⟩
    exact List.mem_filterMap.2 ⟨_, hr, rfl⟩

/-- A reader, a writer queued behind it and a reader queued behind the writer, all released in turn:
the run ends with the lock free. -/
theorem readWriteLock_safe_handoff :
    LockState.Safe ⟨⟨0, false, [], []⟩, [],
      [(0, .granted .read), (1, .granted .write), (2, .granted .read)], [2, 1, 0]⟩ :=
  readWriteLock_safe _ ⟨[.acquireRead 0, .acquireWrite 1, .acquireRead 2, .release 0 .read,
    .release 1 .write, .release 2 .read], by decide⟩

end AlsaqiBackend.Db
