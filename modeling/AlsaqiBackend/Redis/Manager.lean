import AlsaqiBackend.Lib.Modify
import AlsaqiBackend.Lib.Run
import Mathlib.Algebra.Group.Nat.Defs

/-!
# The Redis connection manager

`RedisManager` as a step system. A step is a callback that runs to its end: an event of a client, a timer,
the settling of a promise, or a call of `connect` or `disconnect`. Each `createConnection` is a
`Connection`, with its client, its timeout and its promise; what awaits the promise runs in a step of its
own (`resume`), before any event or timer.
-/

namespace AlsaqiBackend.Redis

open Lib

inductive RedisConnectionStatus
  | disconnected
  | connecting
  | connected
  | degraded
  deriving DecidableEq, Repr

structure RedisManagerOptions where
  url : String
  isProduction : Bool
  /-- Milliseconds, as those of the backoff. -/
  reconnectInterval : ℕ
  maxReconnectAttempts : ℕ
  maxBackoffMs : ℕ

inductive PromiseState
  | pending
  | resolved
  | rejected
  deriving DecidableEq, Repr

/-- A promise that is settled once. -/
def PromiseState.settle (promise outcome : PromiseState) : PromiseState :=
  if promise = .pending then outcome else promise

/-- One `createConnection`. -/
structure Connection where
  /-- The client has been neither disconnected nor quit. -/
  emits : Bool
  /-- The last event of the client is `connect`. -/
  live : Bool
  /-- The client has emitted `connect`. -/
  greeted : Bool
  /-- `client.connect()` has not settled. -/
  settling : Bool
  /-- `connectionTimeout` is set. -/
  timeout : Bool
  promise : PromiseState
  /-- What awaits the promise has run. -/
  resumed : Bool
  deriving DecidableEq, Repr

namespace Connection

/-- A connection that has just been created. -/
def new : Connection := ⟨true, false, false, true, true, .pending, false⟩

/-- `client.disconnect()`. -/
def disconnect (c : Connection) : Connection := { c with emits := false, live := false }

/-- The promise has been settled, and what awaits it has not run. -/
def queued (c : Connection) : Bool := c.promise ≠ .pending && !c.resumed

end Connection

/-- A `disconnect()` that awaits `quit()`: the place of its client, and whether that has emitted `close`
since. -/
structure PendingQuit where
  client : ℕ
  closed : Bool
  deriving DecidableEq, Repr

structure RedisState where
  status : RedisConnectionStatus
  /-- The place of the connection of the client. -/
  client : Option ℕ
  reconnectAttempts : ℕ
  /-- The delay of the reconnect timer that is set. -/
  reconnectTimer : Option ℕ
  connections : List Connection
  quitting : List PendingQuit
  /-- A `disconnect()` has resolved, and `connect()` has not been called since. -/
  down : Bool
  deriving DecidableEq, Repr

/-- `new RedisManager()`. -/
def RedisState.init : RedisState := ⟨.disconnected, none, 0, none, [], [], false⟩

inductive RedisAction
  | callConnect
  | callDisconnect
  | emitConnect (i : ℕ)
  | emitError (i : ℕ)
  | emitClose (i : ℕ)
  /-- `client.connect()` resolves, when the client is ready. -/
  | connectResolves (i : ℕ)
  | connectRejects (i : ℕ)
  | timeoutFires (i : ℕ)
  /-- What awaits the promise of a connection runs. -/
  | resume (i : ℕ)
  | reconnectTimerFires
  | quitResolves (k : ℕ)
  | quitRejects (k : ℕ)
  deriving DecidableEq, Repr

variable (options : RedisManagerOptions)

/-- The delay before a reconnection: the interval, and a backoff when the attempts are exhausted. -/
def backoffMs (reconnectAttempts : ℕ) : ℕ :=
  if options.maxReconnectAttempts ≤ reconnectAttempts then
    min options.maxBackoffMs
      (options.reconnectInterval * 2 ^ (reconnectAttempts - options.maxReconnectAttempts + 1))
  else options.reconnectInterval

namespace RedisState

/-- `scheduleReconnect`. -/
def scheduleReconnect (s : RedisState) : RedisState :=
  match s.reconnectTimer with
  | some _ => s
  | none => { s with reconnectTimer := some (backoffMs options s.reconnectAttempts) }

/-- What `scheduleReconnect` leaves alone, and the timer that is set then. -/
theorem scheduleReconnect_eq (s : RedisState) :
    ∃ delay, s.scheduleReconnect options = { s with reconnectTimer := some delay } := by
  unfold scheduleReconnect
  cases htimer : s.reconnectTimer with
  | some delay =>
    refine ⟨delay, ?_⟩
    simp only
    rw [← htimer]
  | none => exact ⟨_, rfl⟩

/-- The client of the manager is disconnected, where there is one. -/
def disconnectClient (s : RedisState) : RedisState :=
  match s.client with
  | some i => { s with connections := s.connections.modify i Connection.disconnect }
  | none => s

/-- `createConnection`, up to its promise. -/
def createConnection (s : RedisState) : RedisState :=
  { s.disconnectClient with
    connections := s.disconnectClient.connections ++ [Connection.new]
    client := some s.connections.length }

/-- Nothing is queued, so that an event or a timer can run. -/
def idle (s : RedisState) : Bool := s.connections.all fun c => !c.queued

/-- The connection at a place is changed. -/
def change (s : RedisState) (i : ℕ) (f : Connection → Connection) : RedisState :=
  { s with connections := s.connections.modify i f }

/-- The client that is disconnected is changed alone. -/
theorem disconnectClient_of_some {s : RedisState} {i : ℕ} (h : s.client = some i) :
    s.disconnectClient = s.change i Connection.disconnect := by
  unfold disconnectClient
  split
  · rename_i j hj
    obtain rfl := Option.some.inj (h.symm.trans hj)
    rfl
  · rename_i hnone
    exact absurd (h.symm.trans hnone) (by simp)

/-- A new connection beside a client, which is disconnected. -/
theorem createConnection_of_some {s : RedisState} {i : ℕ} (h : s.client = some i) :
    s.createConnection = { s with
      connections := s.connections.modify i Connection.disconnect ++ [Connection.new]
      client := some s.connections.length } := by
  unfold createConnection
  rw [disconnectClient_of_some h]
  rfl

/-- The handler of `connect`. -/
def onConnect (s : RedisState) (i : ℕ) : RedisState :=
  { s.change i fun c => { c with
      live := true
      greeted := true
      timeout := false
      promise := c.promise.settle .resolved } with
    status := .connected
    reconnectAttempts := 0
    reconnectTimer := none }

/-- The handlers of `error` and `close`: a connected manager is degraded. -/
def onLoss (s : RedisState) (i : ℕ) : RedisState :=
  let s' := s.change i fun c => { c with live := false }
  if s.status = .connected then { s' with status := .degraded }.scheduleReconnect options else s'

/-- The calls that await a client have seen its `close`. -/
def markClosed (s : RedisState) (i : ℕ) : RedisState :=
  { s with quitting := s.quitting.map fun q => if q.client = i then { q with closed := true } else q }

/-- The timeout of a connection. -/
def onTimeout (s : RedisState) (i : ℕ) : RedisState :=
  if s.status = .connecting then
    s.disconnectClient.change i fun c =>
      { c with timeout := false, promise := c.promise.settle .rejected }
  else s.change i fun c => { c with timeout := false }

/-- What awaits the promise of a connection: a failure degrades the manager. -/
def onResume (s : RedisState) (i : ℕ) (promise : PromiseState) : RedisState :=
  let s' := s.change i fun c => { c with resumed := true }
  if promise = .rejected then { s' with status := .degraded }.scheduleReconnect options else s'

/-- The end of `disconnect()`. -/
def finishDisconnect (s : RedisState) : RedisState :=
  { s with client := none, status := .disconnected, down := true }

/-- `connect()`; without a URL it ends the process in production. -/
def callConnect (s : RedisState) : Option RedisState :=
  if options.url = "" then
    if options.isProduction then none else some { s with status := .degraded, down := false }
  else some { s with status := .connecting, down := false }.createConnection

/-- `disconnect()`, up to its `await`. -/
def callDisconnect (s : RedisState) : RedisState :=
  let s' := { s with reconnectTimer := none }
  match s.client with
  | some i => { s' with quitting := s.quitting ++ [⟨i, false⟩] }
  | none => s'.finishDisconnect

/-- `quit()` rejects. Without a client any more, `disconnect()` rejects too. -/
def onQuitRejected (s : RedisState) : RedisState :=
  match s.client with
  | some _ => s.disconnectClient.finishDisconnect
  | none => s

end RedisState

open RedisState in
/-- One callback. -/
def redisStep (s : RedisState) : RedisAction → Option RedisState
  | .callConnect => s.callConnect options
  | .callDisconnect => some s.callDisconnect
  | .emitConnect i => do
    let c ← s.connections[i]?
    if c.emits ∧ s.idle then return s.onConnect i else none
  | .emitError i => do
    let c ← s.connections[i]?
    if c.emits ∧ s.idle then return s.onLoss options i else none
  | .emitClose i => do
    let c ← s.connections[i]?
    if c.emits ∧ s.idle then return (s.onLoss options i).markClosed i else none
  | .connectResolves i => do
    let c ← s.connections[i]?
    if c.settling ∧ c.greeted then return s.change i fun c => { c with settling := false } else none
  | .connectRejects i => do
    let c ← s.connections[i]?
    if c.settling then
      return s.change i fun c => { c with
        settling := false
        timeout := false
        promise := c.promise.settle .rejected }
    else none
  | .timeoutFires i => do
    let c ← s.connections[i]?
    if c.timeout ∧ s.idle then return s.onTimeout i else none
  | .resume i => do
    let c ← s.connections[i]?
    if c.queued then return s.onResume options i c.promise else none
  | .reconnectTimerFires =>
    if s.reconnectTimer.isSome ∧ s.idle then
      some { s with
        reconnectTimer := none
        reconnectAttempts := s.reconnectAttempts + 1 }.createConnection
    else none
  | .quitResolves k => do
    let q ← s.quitting[k]?
    if q.closed then
      return { s.change q.client Connection.disconnect with
        quitting := s.quitting.eraseIdx k }.finishDisconnect
    else none
  | .quitRejects k => do
    let _ ← s.quitting[k]?
    return { s with quitting := s.quitting.eraseIdx k }.onQuitRejected

end AlsaqiBackend.Redis
