import Mathlib.Data.List.Basic
import Mathlib.Tactic.Ring

/-!
# The lock of the embedded database

`ReadWriteLock` of `src/db/index.ts` serialises the statements of the embedded PGlite engine: readers
share it, a writer has it alone, and a request that cannot be granted waits in one of two queues
until a release grants it or its timer rejects it. JavaScript runs each of its methods and each
timer callback without interruption, so these are the steps of the system, in any order.

A method returns the new fields and the promises that it settled. `LockState` adds to the fields
what its callers see of it: the handles granted and not yet released, and every settlement so far.
`LockSafety.lean` has the invariant that ties the two together, and `LockPolicy.lean` the order in
which the lock makes its callers wait.
-/

namespace AlsaqiBackend.Db

/-- A call of `acquireRead` or `acquireWrite`. It names the queue entry of the call and the promise
that the call returned. -/
abbrev RequestId := ℕ

/-- The type of lock that a request asks for. -/
inductive LockType
  | read
  | write
  deriving DecidableEq, Repr

/-- The word for the type in the error message. -/
def LockType.name : LockType → String
  | .read => "read"
  | .write => "write"

/-- The error that a request is rejected with. -/
structure LockError where
  message : String
  statusCode : ℕ
  deriving DecidableEq, Repr

/-- What a promise of the lock settles with. -/
inductive Reply
  /-- The handle that releases the lock. -/
  | granted (type : LockType)
  /-- The handle that does nothing, for a caller inside a transaction. -/
  | skipped
  /-- The timeout error. -/
  | rejected (error : LockError)
  deriving DecidableEq, Repr

/-- The fields of the class. -/
structure ReadWriteLock where
  readers : ℤ
  writing : Bool
  writeQueue : List RequestId
  readQueue : List RequestId
  deriving DecidableEq, Repr

/-- The promises that a step settled, in order. -/
abbrev Settlements := List (RequestId × Reply)

namespace ReadWriteLock

def LOCK_TIMEOUT_MS : ℕ := 5000

/-- The error of a request whose timer fired while it was queued. -/
def timeoutError (type : LockType) : LockError where
  message := "Lock acquisition timeout: could not acquire " ++ type.name ++ " lock within " ++
    toString LOCK_TIMEOUT_MS ++ "ms"
  statusCode := 503

/-- The queue that requests of a type wait in. -/
def queue (l : ReadWriteLock) : LockType → List RequestId
  | .read => l.readQueue
  | .write => l.writeQueue

/-- The lock with another queue for a type. -/
def setQueue (l : ReadWriteLock) (q : List RequestId) : LockType → ReadWriteLock
  | .read => { l with readQueue := q }
  | .write => { l with writeQueue := q }

/-- `_enqueueWithTimeout`: the entry goes to the end of its queue, and its timer starts. -/
def enqueueWithTimeout (l : ReadWriteLock) (type : LockType) (id : RequestId) : ReadWriteLock :=
  l.setQueue (l.queue type ++ [id]) type

/-- The timer callback of `_enqueueWithTimeout`: a request that still waits leaves its queue and is
rejected. -/
def expire (l : ReadWriteLock) (type : LockType) (id : RequestId) : ReadWriteLock × Settlements :=
  if id ∈ l.queue type then
    (l.setQueue ((l.queue type).erase id) type, [(id, .rejected (timeoutError type))])
  else (l, [])

/-- `acquireRead`. `inTransaction` says that the caller has a connection in its async context. -/
def acquireRead (l : ReadWriteLock) (inTransaction : Bool) (id : RequestId) :
    ReadWriteLock × Settlements :=
  if inTransaction then (l, [(id, .skipped)])
  else if !l.writing && l.writeQueue.length == 0 then
    ({ l with readers := l.readers + 1 }, [(id, .granted .read)])
  else (l.enqueueWithTimeout .read id, [])

/-- `acquireWrite`. -/
def acquireWrite (l : ReadWriteLock) (inTransaction : Bool) (id : RequestId) :
    ReadWriteLock × Settlements :=
  if inTransaction then (l, [(id, .skipped)])
  else if !l.writing && l.readers == 0 then
    ({ l with writing := true }, [(id, .granted .write)])
  else (l.enqueueWithTimeout .write id, [])

/-- The `while` loop of `_processQueue`: every queued reader is granted. -/
def drainReadQueue : ℤ → List RequestId → ℤ × Settlements
  | readers, [] => (readers, [])
  | readers, next :: rest =>
    let (readers', granted) := drainReadQueue (readers + 1) rest
    (readers', (next, .granted .read) :: granted)

/-- `_processQueue`: the first queued writer when nobody holds the lock, or else all the queued
readers when no writer holds it or waits. -/
def processQueue (l : ReadWriteLock) : ReadWriteLock × Settlements :=
  match l.writeQueue with
  | next :: rest =>
    if l.readers == 0 && !l.writing then
      ({ l with writing := true, writeQueue := rest }, [(next, .granted .write)])
    else (l, [])
  | [] =>
    if !l.writing && l.readQueue.length > 0 then
      let (readers, granted) := drainReadQueue l.readers l.readQueue
      ({ l with readers := readers, readQueue := [] }, granted)
    else (l, [])

/-- `_releaseRead` and `_releaseWrite` before they process the queues. -/
def relinquish (l : ReadWriteLock) : LockType → ReadWriteLock
  | .read => { l with readers := l.readers - 1 }
  | .write => { l with writing := false }

/-- `_releaseRead` and `_releaseWrite`. -/
def release (l : ReadWriteLock) (type : LockType) : ReadWriteLock × Settlements :=
  (l.relinquish type).processQueue

/-- A drain of the read queue counts every reader of it and grants each. -/
theorem drainReadQueue_eq (readers : ℤ) (q : List RequestId) :
    drainReadQueue readers q = (readers + q.length, q.map fun id => (id, .granted .read)) := by
  induction q generalizing readers with
  | nil => simp [drainReadQueue]
  | cons next rest ih =>
    simp only [drainReadQueue, ih, List.length_cons, List.map_cons, Prod.mk.injEq, and_true]
    push_cast
    ring

end ReadWriteLock

/-! ## The lock and its callers -/

/-- The lock together with what its callers have of it. -/
structure LockState where
  lock : ReadWriteLock
  /-- The handles that were granted and not yet released. -/
  held : List (RequestId × LockType)
  /-- Every promise settled so far. -/
  settled : Settlements
  /-- Every request made so far. -/
  requested : List RequestId
  deriving DecidableEq, Repr

/-- A new lock. -/
def LockState.init : LockState := ⟨⟨0, false, [], []⟩, [], [], []⟩

/-- The handle that a settlement hands to its caller. -/
def handle? : RequestId × Reply → Option (RequestId × LockType)
  | (id, .granted type) => some (id, type)
  | _ => none

/-- The state after a method that changed the lock and settled some promises. -/
def LockState.settle (s : LockState) (r : ReadWriteLock × Settlements) : LockState :=
  { s with lock := r.1, settled := s.settled ++ r.2, held := s.held ++ r.2.filterMap handle? }

/-- What can happen to the lock: a call from outside every transaction, the release of a granted
handle, the timer of a request. -/
inductive LockAction
  | acquireRead (id : RequestId)
  | acquireWrite (id : RequestId)
  | release (id : RequestId) (type : LockType)
  | expire (type : LockType) (id : RequestId)
  deriving DecidableEq, Repr

/-- One step. Each call is a new request, and a handle is released at most once. -/
def lockStep (s : LockState) : LockAction → Option LockState
  | .acquireRead id =>
    if id ∈ s.requested then none
    else some ({ s with requested := id :: s.requested }.settle (s.lock.acquireRead false id))
  | .acquireWrite id =>
    if id ∈ s.requested then none
    else some ({ s with requested := id :: s.requested }.settle (s.lock.acquireWrite false id))
  | .release id type =>
    if (id, type) ∈ s.held then
      some ({ s with held := s.held.erase (id, type) }.settle (s.lock.release type))
    else none
  | .expire type id => some (s.settle (s.lock.expire type id))

section Steps

variable {s t : LockState} {id : RequestId} {type : LockType}

theorem lockStep_acquireRead_iff : lockStep s (.acquireRead id) = some t ↔ id ∉ s.requested ∧
    t = { s with requested := id :: s.requested }.settle (s.lock.acquireRead false id) := by
  rw [eq_comm (a := t)]
  simp only [lockStep, Option.ite_none_left_eq_some, Option.some.injEq]

theorem lockStep_acquireWrite_iff : lockStep s (.acquireWrite id) = some t ↔ id ∉ s.requested ∧
    t = { s with requested := id :: s.requested }.settle (s.lock.acquireWrite false id) := by
  rw [eq_comm (a := t)]
  simp only [lockStep, Option.ite_none_left_eq_some, Option.some.injEq]

theorem lockStep_release_iff : lockStep s (.release id type) = some t ↔ (id, type) ∈ s.held ∧
    t = { s with held := s.held.erase (id, type) }.settle (s.lock.release type) := by
  rw [eq_comm (a := t)]
  simp only [lockStep, Option.ite_none_right_eq_some, Option.some.injEq]

theorem lockStep_expire_iff :
    lockStep s (.expire type id) = some t ↔ t = s.settle (s.lock.expire type id) := by
  rw [eq_comm (a := t)]
  simp only [lockStep, Option.some.injEq]

end Steps

end AlsaqiBackend.Db
