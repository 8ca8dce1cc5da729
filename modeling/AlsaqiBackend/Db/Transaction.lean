import Mathlib.Data.List.Nodup

/-!
# Nested transactions

`DBWrapper.transaction` of `src/db/index.ts` issues `BEGIN`, runs its body and issues `COMMIT`, or
`ROLLBACK` when something throws. A body can call it again. On the embedded database the inner call
runs on the same connection; on an external one it takes another connection from the pool. Both share
the buffer of events of `src/services/transactionalEvents.ts`, which every call flushes when it
commits and clears when it rolls back.

A `Body` is what the body of a call does: writes, events, inner calls whose failure it catches or
not, and how it ends. `exec` runs a body and `transaction` a call, on a state with the committed
writes, the connection of the context, the buffer of the context and a log of what was committed and
dispatched.

A statement that fails, or a `BEGIN` or `COMMIT` that does, throws. A call that fails before its
`BEGIN` leaves everything as it is, so it is a throw of its caller, or nothing when the caller catches
it.
-/

namespace AlsaqiBackend.Db

/-- How a body ends. -/
inductive Outcome
  | returned
  | threw
  deriving DecidableEq, Repr

/-- A failure that the caller does not catch. -/
def Outcome.propagates : Outcome → Bool → Bool
  | .threw, false => true
  | _, _ => false

@[simp]
theorem Outcome.propagates_returned (caught : Bool) : Outcome.returned.propagates caught = false := by
  cases caught <;> rfl

@[simp]
theorem Outcome.propagates_threw (caught : Bool) : Outcome.threw.propagates caught = !caught := by
  cases caught <;> rfl

/-- The rest of the body of a transaction, with `ω` for the writes and `ε` for the events. -/
inductive Body (ω ε : Type)
  | done
  | throw
  | write (w : ω) (rest : Body ω ε)
  | enqueue (e : ε) (rest : Body ω ε)
  /-- An inner call, and what follows when it returns, or when it throws and is `caught`. -/
  | transaction (caught : Bool) (inner rest : Body ω ε)
  deriving DecidableEq, Repr

/-- A connection: no transaction is open, or one with its uncommitted writes. -/
inductive Connection (ω : Type)
  | idle
  | «open» (pending : List ω)
  deriving DecidableEq, Repr

/-- What happens to transactions and events, in its order. -/
inductive LogEntry (ε : Type)
  | commit (outermost : Bool)
  | rollback (outermost : Bool)
  | dispatch (e : ε)
  deriving DecidableEq, Repr

/-- The committed writes, the connection and the event buffer of the current context, and the log. -/
structure DbState (ω ε : Type) where
  committed : List ω
  connection : Connection ω
  buffer : Option (List ε)
  log : List (LogEntry ε)
  deriving DecidableEq, Repr

variable {ω ε : Type}

/-! ## The connection -/

/-- The uncommitted writes. -/
def Connection.pending : Connection ω → List ω
  | .idle => []
  | .open pending => pending

namespace DbState

/-- Nothing is committed, and there is no transaction. -/
def init : DbState ω ε := ⟨[], .idle, none, []⟩

/-- `BEGIN`, which does nothing in an open transaction. -/
def begin (s : DbState ω ε) : DbState ω ε :=
  match s.connection with
  | .idle => { s with connection := .open [] }
  | .open _ => s

/-- A write, which is committed at once when no transaction is open. -/
def write (s : DbState ω ε) (w : ω) : DbState ω ε :=
  match s.connection with
  | .idle => { s with committed := s.committed ++ [w] }
  | .open pending => { s with connection := .open (pending ++ [w]) }

/-- `COMMIT`, which does nothing when no transaction is open. -/
def commit (s : DbState ω ε) (outermost : Bool) : DbState ω ε :=
  match s.connection with
  | .idle => { s with log := s.log ++ [.commit outermost] }
  | .open pending =>
    { s with
      committed := s.committed ++ pending
      connection := .idle
      log := s.log ++ [.commit outermost] }

/-- `ROLLBACK`, which does nothing when no transaction is open. -/
def rollback (s : DbState ω ε) (outermost : Bool) : DbState ω ε :=
  { s with connection := .idle, log := s.log ++ [.rollback outermost] }

end DbState

/-! ## The event buffer -/

/-- The time in milliseconds for all the dispatches of one flush. -/
def FLUSH_DEADLINE_MS : ℕ := 5000

/-- The loop of `flushOnCommit`, after `elapsed` milliseconds: the events that it hands to the
dispatcher, where `dispatchMs` says how long each dispatch takes. -/
def flushLoop (dispatchMs : ε → ℕ) : ℕ → List ε → List ε
  | _, [] => []
  | elapsed, event :: pending =>
    let remaining := FLUSH_DEADLINE_MS - elapsed
    -- When the deadline is over, the rest is abandoned.
    if remaining = 0 then []
    -- A dispatch that takes longer than what remains is handed over, but no longer waited for.
    else event :: flushLoop dispatchMs (elapsed + min (dispatchMs event) remaining) pending

namespace DbState

/-- `enqueueEvent`: without a buffer, the event is dispatched at once. -/
def enqueueEvent (s : DbState ω ε) (event : ε) : DbState ω ε :=
  match s.buffer with
  | none => { s with log := s.log ++ [.dispatch event] }
  | some events => { s with buffer := some (events ++ [event]) }

/-- `flushOnCommit`. -/
def flushOnCommit (dispatchMs : ε → ℕ) (s : DbState ω ε) : DbState ω ε :=
  match s.buffer with
  | none => s
  | some events =>
    -- The buffer is emptied first, whatever becomes of the dispatches.
    { s with
      buffer := some []
      log := s.log ++ (flushLoop dispatchMs 0 events).map .dispatch }

/-- `discardOnRollback`. -/
def discardOnRollback (s : DbState ω ε) : DbState ω ε :=
  match s.buffer with
  | none => s
  | some _ => { s with buffer := some [] }

/-- The events that were handed to the dispatcher, in their order. -/
def dispatched (s : DbState ω ε) : List ε :=
  s.log.filterMap fun entry => match entry with
    | .dispatch e => some e
    | _ => none

end DbState

/-! ## Calls -/

/-- The context in which the body of a call runs: a connection of the pool on an external database,
and the buffer of the caller, or a new one. -/
def enterContext (isExternal : Bool) (s : DbState ω ε) : DbState ω ε :=
  { s with
    connection := if isExternal then .idle else s.connection
    buffer := some (s.buffer.getD []) }

/-- The context of the caller, as the call leaves it. -/
def leaveContext (isExternal : Bool) (caller s : DbState ω ε) : DbState ω ε :=
  { s with
    connection := if isExternal then caller.connection else s.connection
    buffer := if caller.buffer.isSome then s.buffer else none }

/-- `DBWrapper.transaction` with the body `fn`. -/
def transaction (isExternal : Bool) (dispatchMs : ε → ℕ)
    (fn : DbState ω ε → DbState ω ε × Outcome) (s : DbState ω ε) : DbState ω ε × Outcome :=
  -- The outermost call is the one that finds no buffer in its context.
  let outermost := s.buffer.isNone
  match fn (enterContext isExternal s).begin with
  | (t, .returned) =>
    (leaveContext isExternal s ((t.commit outermost).flushOnCommit dispatchMs), .returned)
  | (t, .threw) =>
    (leaveContext isExternal s ((t.rollback outermost).discardOnRollback), .threw)

/-- Run a body. -/
def exec (isExternal : Bool) (dispatchMs : ε → ℕ) :
    Body ω ε → DbState ω ε → DbState ω ε × Outcome
  | .done, s => (s, .returned)
  | .throw, s => (s, .threw)
  | .write w rest, s => exec isExternal dispatchMs rest (s.write w)
  | .enqueue e rest, s => exec isExternal dispatchMs rest (s.enqueueEvent e)
  | .transaction caught inner rest, s =>
    match transaction isExternal dispatchMs (exec isExternal dispatchMs inner) s with
    | (t, .returned) => exec isExternal dispatchMs rest t
    -- The call has rolled back already when its caller sees the exception.
    | (t, .threw) => if caught then exec isExternal dispatchMs rest t else (t, .threw)

/-- Run an outermost call. -/
def runOutermost (isExternal : Bool) (dispatchMs : ε → ℕ) (body : Body ω ε) :
    DbState ω ε × Outcome :=
  transaction isExternal dispatchMs (exec isExternal dispatchMs body) .init

/-! ## What a body executes -/

namespace Body

/-- How the body ends. -/
def outcome : Body ω ε → Outcome
  | done => .returned
  | throw => .threw
  | write _ rest => rest.outcome
  | enqueue _ rest => rest.outcome
  | transaction caught inner rest =>
    if inner.outcome.propagates caught then .threw else rest.outcome

/-- The bodies of the calls that are executed inside the body, at any depth. -/
def inners : Body ω ε → List (Body ω ε)
  | done => []
  | throw => []
  | write _ rest => rest.inners
  | enqueue _ rest => rest.inners
  | transaction caught inner rest =>
    inner :: inner.inners ++
      if inner.outcome.propagates caught then [] else rest.inners

/-- The bodies that are executed: the body and those inside it. -/
def extent (body : Body ω ε) : List (Body ω ε) := body :: body.inners

/-- The writes that the body itself executes. -/
def directWrites : Body ω ε → List ω
  | done => []
  | throw => []
  | write w rest => w :: rest.directWrites
  | enqueue _ rest => rest.directWrites
  | transaction caught inner rest =>
    if inner.outcome.propagates caught then [] else rest.directWrites

/-- The events that the body itself enqueues. -/
def directEvents : Body ω ε → List ε
  | done => []
  | throw => []
  | write _ rest => rest.directEvents
  | enqueue e rest => e :: rest.directEvents
  | transaction caught inner rest =>
    if inner.outcome.propagates caught then [] else rest.directEvents

/-- The events that are enqueued in the body and inside it, in their order. -/
def enqueued : Body ω ε → List ε
  | done => []
  | throw => []
  | write _ rest => rest.enqueued
  | enqueue e rest => e :: rest.enqueued
  | transaction caught inner rest =>
    inner.enqueued ++ if inner.outcome.propagates caught then [] else rest.enqueued

end Body

/-- A tree of nested calls in which every executed write and event has a label of its own, so that a
label names one statement. -/
structure Tree (ω ε : Type) where
  body : Body ω ε
  writes_nodup : (body.extent.flatMap Body.directWrites).Nodup
  events_nodup : body.enqueued.Nodup

/-! ## What the operations change -/

namespace DbState

variable (s : DbState ω ε) (dispatchMs : ε → ℕ) (outermost : Bool)

@[simp]
theorem begin_connection : s.begin.connection = .open s.connection.pending := by
  unfold begin
  cases h : s.connection <;> simp [Connection.pending, h]

@[simp]
theorem begin_committed : s.begin.committed = s.committed := by
  unfold begin
  cases s.connection <;> rfl

@[simp]
theorem begin_buffer : s.begin.buffer = s.buffer := by
  unfold begin
  cases s.connection <;> rfl

@[simp]
theorem begin_log : s.begin.log = s.log := by
  unfold begin
  cases s.connection <;> rfl

@[simp]
theorem write_buffer (w : ω) : (s.write w).buffer = s.buffer := by
  unfold write
  cases s.connection <;> rfl

@[simp]
theorem write_log (w : ω) : (s.write w).log = s.log := by
  unfold write
  cases s.connection <;> rfl

@[simp]
theorem commit_connection : (s.commit outermost).connection = .idle := by
  unfold commit
  cases s.connection <;> rfl

@[simp]
theorem commit_committed : (s.commit outermost).committed = s.committed ++ s.connection.pending := by
  unfold commit
  cases s.connection <;> simp [Connection.pending]

@[simp]
theorem commit_buffer : (s.commit outermost).buffer = s.buffer := by
  unfold commit
  cases s.connection <;> rfl

@[simp]
theorem commit_log : (s.commit outermost).log = s.log ++ [.commit outermost] := by
  unfold commit
  cases s.connection <;> rfl

@[simp]
theorem enqueueEvent_connection (e : ε) : (s.enqueueEvent e).connection = s.connection := by
  unfold enqueueEvent
  cases s.buffer <;> rfl

@[simp]
theorem enqueueEvent_committed (e : ε) : (s.enqueueEvent e).committed = s.committed := by
  unfold enqueueEvent
  cases s.buffer <;> rfl

@[simp]
theorem flushOnCommit_connection : (s.flushOnCommit dispatchMs).connection = s.connection := by
  unfold flushOnCommit
  cases s.buffer <;> rfl

@[simp]
theorem flushOnCommit_committed : (s.flushOnCommit dispatchMs).committed = s.committed := by
  unfold flushOnCommit
  cases s.buffer <;> rfl

@[simp]
theorem discardOnRollback_connection : s.discardOnRollback.connection = s.connection := by
  unfold discardOnRollback
  cases s.buffer <;> rfl

@[simp]
theorem discardOnRollback_committed : s.discardOnRollback.committed = s.committed := by
  unfold discardOnRollback
  cases s.buffer <;> rfl

@[simp]
theorem discardOnRollback_log : s.discardOnRollback.log = s.log := by
  unfold discardOnRollback
  cases s.buffer <;> rfl

end DbState

@[simp]
theorem enterContext_buffer (isExternal : Bool) (s : DbState ω ε) :
    (enterContext isExternal s).buffer = some (s.buffer.getD []) := rfl

@[simp]
theorem enterContext_log (isExternal : Bool) (s : DbState ω ε) :
    (enterContext isExternal s).log = s.log := rfl

@[simp]
theorem enterContext_committed (isExternal : Bool) (s : DbState ω ε) :
    (enterContext isExternal s).committed = s.committed := rfl

/-! ## Runs -/

/-- A call ends as its body does. -/
theorem transaction_outcome (isExternal : Bool) (dispatchMs : ε → ℕ)
    (fn : DbState ω ε → DbState ω ε × Outcome) (s : DbState ω ε) :
    (transaction isExternal dispatchMs fn s).2 = (fn (enterContext isExternal s).begin).2 := by
  unfold transaction
  rcases fn (enterContext isExternal s).begin with ⟨t, _ | _⟩ <;> rfl

/-- The state behind an inner call. -/
def afterCall (isExternal : Bool) (dispatchMs : ε → ℕ) (inner : Body ω ε) (s : DbState ω ε) :
    DbState ω ε :=
  (transaction isExternal dispatchMs (exec isExternal dispatchMs inner) s).1

/-- Behind an inner call the body goes on, unless the failure of the call propagates. -/
theorem exec_call (isExternal : Bool) (dispatchMs : ε → ℕ) (caught : Bool) (inner rest : Body ω ε)
    (s : DbState ω ε) :
    exec isExternal dispatchMs (.transaction caught inner rest) s =
      if (transaction isExternal dispatchMs (exec isExternal dispatchMs inner) s).2.propagates caught
      then (afterCall isExternal dispatchMs inner s, .threw)
      else exec isExternal dispatchMs rest (afterCall isExternal dispatchMs inner s) := by
  rw [exec, afterCall]
  rcases transaction isExternal dispatchMs (exec isExternal dispatchMs inner) s with ⟨t, _ | _⟩
  · simp
  · cases caught <;> rfl

/-- A run ends as the body says. -/
theorem exec_outcome (isExternal : Bool) (dispatchMs : ε → ℕ) (body : Body ω ε)
    (s : DbState ω ε) : (exec isExternal dispatchMs body s).2 = body.outcome := by
  induction body generalizing s with
  | done => rfl
  | throw => rfl
  | write w rest ih => exact ih _
  | enqueue e rest ih => exact ih _
  | transaction caught inner rest ihinner ihrest =>
    rw [exec_call, transaction_outcome, ihinner, Body.outcome]
    split_ifs
    · rfl
    · exact ihrest _

/-- `exec_call` in terms of the body of the call. -/
theorem exec_transaction (isExternal : Bool) (dispatchMs : ε → ℕ) (caught : Bool)
    (inner rest : Body ω ε) (s : DbState ω ε) :
    (exec isExternal dispatchMs (.transaction caught inner rest) s).1 =
      if inner.outcome.propagates caught then afterCall isExternal dispatchMs inner s
      else (exec isExternal dispatchMs rest (afterCall isExternal dispatchMs inner s)).1 := by
  rw [exec_call, transaction_outcome, exec_outcome]
  split_ifs <;> rfl

/-- A call in terms of its body: it ends with `COMMIT` and a flush, or with `ROLLBACK` and the events
discarded. -/
theorem afterCall_eq (isExternal : Bool) (dispatchMs : ε → ℕ) (inner : Body ω ε)
    (s : DbState ω ε) :
    afterCall isExternal dispatchMs inner s =
      let t := (exec isExternal dispatchMs inner (enterContext isExternal s).begin).1
      leaveContext isExternal s <| match inner.outcome with
        | .returned => (t.commit s.buffer.isNone).flushOnCommit dispatchMs
        | .threw => (t.rollback s.buffer.isNone).discardOnRollback := by
  have hinner := exec_outcome isExternal dispatchMs inner (enterContext isExternal s).begin
  unfold afterCall transaction
  rw [← hinner]
  rcases exec isExternal dispatchMs inner (enterContext isExternal s).begin with ⟨t, _ | _⟩ <;> rfl

end AlsaqiBackend.Db
