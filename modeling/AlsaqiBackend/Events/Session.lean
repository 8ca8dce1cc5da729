import AlsaqiBackend.Db.Transaction
import AlsaqiBackend.Lib.PgTransaction

/-!
# Events of a transaction

An operation writes to the database in a call of `DBWrapper.transaction`, and tells an external service of
it: it hands an event to `N8nService.sendEvent`, or to `enqueueEvent`, whose buffer is flushed behind the
`COMMIT`. A `Session` is what the database connection and the buffer of one request go through. It keeps
the changes that an event can describe, and with each event that reaches the service the changes that are
committed at that moment.

The environment answers the statements: a statement fails, or finds rows or none. So the database may hold
anything, and others may change it between two statements.
-/

namespace AlsaqiBackend.Events

open AlsaqiBackend.Lib AlsaqiBackend.Db TxM

/-! ## The environment -/

inductive Answer
  | fails (error : String)
  | rows (found : Bool)
  deriving DecidableEq, Repr

/-- Which call of `transaction`: that of the operation, or one in its body. -/
inductive Level
  | outer
  | inner
  deriving DecidableEq, Repr

/-- What `transaction` does with its connection. -/
inductive Command
  | connect
  | begin
  | commit
  deriving DecidableEq, Repr

/-- How the statements `σ` are answered, and the external service. -/
structure Environment (σ : Type) where
  answer : σ → Answer
  /-- The error of a command, when it fails. -/
  command : Level → Command → Option String
  /-- The service receives the events. -/
  delivers : Bool
  /-- The circuit breaker stores the events in `dead_letter_queue`, with this answer. -/
  stores : Bool
  deadLetter : Answer
  /-- How long a dispatch takes. -/
  dispatchMs : ℕ

namespace Environment

variable {σ : Type} (env : Environment σ)

/-- The statement does not fail. -/
def succeeds (st : σ) : Bool :=
  match env.answer st with
  | .fails _ => false
  | .rows _ => true

/-- The statement finds rows. -/
def finds (st : σ) : Bool := env.answer st = .rows true

end Environment

/-! ## Statements of a transaction

The state of a transaction is the list of the changes that it has made. -/

section

variable {σ ε : Type} (env : Environment σ)

/-- A statement whose changes no event describes; it returns whether it has found rows. -/
def ask (st : σ) : TxM (List ε) Bool := query fun changes =>
  match env.answer st with
  | .fails e => .error e
  | .rows found => .ok (changes, found)

/-- An `UPDATE` or a `DELETE`, which makes the change that the event describes when it finds a row. -/
def change (st : σ) (event : ε) : TxM (List ε) Bool := query fun changes =>
  match env.answer st with
  | .fails e => .error e
  | .rows found => .ok (if found then changes ++ [event] else changes, found)

/-- An `INSERT`, which makes the change. -/
def insert (st : σ) (event : ε) : TxM (List ε) Unit := query fun changes =>
  match env.answer st with
  | .fails e => .error e
  | .rows _ => .ok (changes ++ [event], ())

variable {env} {st : σ} {event : ε} {changes : List ε} {found : Bool} {tx tx' : Tx (List ε)} {α : Type} {a : α}

theorem succeeds_iff : env.succeeds st = true ↔ ∃ found, env.answer st = .rows found := by
  unfold Environment.succeeds
  cases env.answer st with
  | fails e => simp
  | rows found => simp

theorem finds_iff : env.finds st = true ↔ env.answer st = .rows true := decide_eq_true_iff

theorem endsWell_ask : EndsWell (ask env st) tx found tx' ↔
    tx.aborted = false ∧ env.answer st = .rows found ∧ tx' = ⟨tx.db, false⟩ := by
  unfold ask
  rw [endsWell_query]
  cases env.answer st with
  | fails e => simp
  | rows other =>
    simp only [Except.ok.injEq, Prod.mk.injEq, Answer.rows.injEq]
    constructor
    · rintro ⟨haborted, db, ⟨rfl, hfound⟩, rfl⟩
      exact ⟨haborted, hfound, rfl⟩
    · rintro ⟨haborted, hfound, rfl⟩
      exact ⟨haborted, tx.db, ⟨rfl, hfound⟩, rfl⟩

/-- A block that begins with a statement that the environment answers. -/
theorem endsWell_answer_bind {next : List ε → Bool → List ε} {f : Bool → TxM (List ε) α} :
    EndsWell (query (fun changes =>
        match env.answer st with
        | .fails e => .error e
        | .rows found => .ok (next changes found, found)) >>= f) ⟨changes, false⟩ a tx' ↔
      ∃ found, env.answer st = .rows found ∧ EndsWell (f found) ⟨next changes found, false⟩ a tx' := by
  rw [endsWell_query_bind]
  cases env.answer st with
  | fails e => simp
  | rows found =>
    constructor
    · rintro ⟨-, db, other, hok, hrest⟩
      obtain ⟨rfl, rfl⟩ := Prod.mk.inj (Except.ok.inj hok)
      exact ⟨found, rfl, hrest⟩
    · rintro ⟨other, hanswer, hrest⟩
      obtain rfl := Answer.rows.inj hanswer
      exact ⟨rfl, _, _, rfl, hrest⟩

theorem endsWell_ask_bind {f : Bool → TxM (List ε) α} :
    EndsWell (ask env st >>= f) ⟨changes, false⟩ a tx' ↔
      ∃ found, env.answer st = .rows found ∧ EndsWell (f found) ⟨changes, false⟩ a tx' :=
  endsWell_answer_bind

theorem endsWell_change_bind {f : Bool → TxM (List ε) α} :
    EndsWell (change env st event >>= f) ⟨changes, false⟩ a tx' ↔ ∃ found, env.answer st = .rows found ∧
      EndsWell (f found) ⟨if found then changes ++ [event] else changes, false⟩ a tx' :=
  endsWell_answer_bind

/-- A change whose result is not looked at. -/
theorem endsWell_change_any_bind {m : TxM (List ε) α} :
    EndsWell (change env st event >>= fun _ => m) ⟨changes, false⟩ a tx' ↔ env.succeeds st = true ∧
      EndsWell m ⟨if env.finds st then changes ++ [event] else changes, false⟩ a tx' := by
  have hfinds : ∀ found, env.answer st = .rows found → env.finds st = found := by
    intro found hanswer
    unfold Environment.finds
    rw [hanswer]
    cases found <;> rfl
  rw [endsWell_change_bind, succeeds_iff]
  constructor
  · rintro ⟨found, hanswer, hrest⟩
    rw [hfinds found hanswer]
    exact ⟨⟨found, hanswer⟩, hrest⟩
  · rintro ⟨⟨found, hanswer⟩, hrest⟩
    rw [hfinds found hanswer] at hrest
    exact ⟨found, hanswer, hrest⟩

theorem endsWell_pure_unit {u : Unit} :
    EndsWell (pure () : TxM (List ε) Unit) ⟨changes, false⟩ u tx' ↔ tx' = ⟨changes, false⟩ := by
  rw [endsWell_pure]
  exact ⟨fun h => h.2.2, fun h => ⟨rfl, rfl, h⟩⟩

/-- What is asked for is required. -/
theorem endsWell_ask_require_bind {error : String} {f : Unit → TxM (List ε) α} :
    EndsWell (ask env st >>= fun found => require found error >>= f) ⟨changes, false⟩ a tx' ↔
      env.finds st = true ∧ EndsWell (f ()) ⟨changes, false⟩ a tx' := by
  rw [endsWell_ask_bind, finds_iff]
  simp only [endsWell_require_bind]
  constructor
  · rintro ⟨found, hanswer, rfl, hrest⟩
    exact ⟨hanswer, hrest⟩
  · rintro ⟨hanswer, hrest⟩
    exact ⟨true, hanswer, rfl, hrest⟩

/-- Whether it has found rows does not matter. -/
theorem endsWell_ask_any_bind {m : TxM (List ε) α} :
    EndsWell (ask env st >>= fun _ => m) ⟨changes, false⟩ a tx' ↔
      env.succeeds st = true ∧ EndsWell m ⟨changes, false⟩ a tx' := by
  rw [endsWell_ask_bind, succeeds_iff]
  exact exists_and_right

theorem abortsOnThrow_ask : AbortsOnThrow (ask env st : TxM (List ε) Bool) := .query _

theorem ensures_ask : Ensures (ask env st : TxM (List ε) Bool) fun tx => tx.aborted = false :=
  Ensures.query fun _ _ _ _ => rfl

theorem ensures_change : Ensures (change env st event) fun tx => tx.aborted = false :=
  Ensures.query fun _ _ _ _ => rfl

/-- An `INSERT` that returns has made its change. -/
theorem ensures_insert : Ensures (insert env st event) fun tx => tx.aborted = false ∧ event ∈ tx.db := by
  refine Ensures.query fun db db' _ hok => ⟨rfl, ?_⟩
  cases hanswer : env.answer st with
  | fails e =>
    rw [hanswer] at hok
    cases hok
  | rows found =>
    rw [hanswer] at hok
    rw [← (Prod.mk.inj (Except.ok.inj hok)).1]
    exact List.mem_append_right _ List.mem_cons_self

/-- An `UPDATE` that has to find a row makes its change. -/
theorem ensures_change_require {error : String} :
    Ensures (change env st event >>= fun found => require found error)
      fun tx => tx.aborted = false ∧ event ∈ tx.db := by
  have hwell : Ensures (change env st event >>= fun found => require found error)
      fun tx => tx.aborted = false := by
    refine Ensures.bind_of ensures_change fun found tx b tx' hwell hrest => ?_
    cases found with
    | true => rwa [← (Prod.mk.inj hrest).2]
    | false => cases congrArg Prod.fst hrest
  intro tx a tx' h
  refine ⟨hwell tx a tx' h, ?_⟩
  have hends := hwell.endsWell_iff.2 h
  unfold change at hends
  rw [endsWell_query_bind] at hends
  obtain ⟨-, changes, found, hanswer, hrest⟩ := hends
  cases found with
  | false => exact absurd hrest not_endsWell_throw
  | true =>
    cases hst : env.answer st with
    | fails e => simp [hst] at hanswer
    | rows found =>
      simp only [hst, Except.ok.injEq, Prod.mk.injEq] at hanswer
      obtain ⟨rfl, rfl⟩ := hanswer
      rw [(endsWell_pure.1 hrest).2.2]
      exact List.mem_append_right _ List.mem_cons_self

end

/-! ## The session -/

/-- An event that the service has received, and what was committed then. -/
structure Delivery (ε : Type) where
  event : ε
  committed : List ε
  deriving DecidableEq, Repr

/-- The changes that are committed, the transaction that is open on the connection, the buffer of the
context, and the deliveries, since the operation began. -/
structure Session (ε : Type) where
  committed : List ε
  tx : Option (Tx (List ε))
  buffer : Option (List ε)
  delivered : List (Delivery ε)

/-- What may throw, and keeps what it has done then. -/
abbrev SessionM (ε α : Type) := EStateM String (Session ε) α

/-- The session that a computation leaves, when it returns and when it throws. -/
def after {ε α : Type} (m : SessionM ε α) (s : Session ε) : Session ε :=
  match m s with
  | .ok _ t => t
  | .error _ t => t

variable {σ ε α : Type}

namespace Session

variable (s : Session ε)

/-- The connection is in a transaction that PostgreSQL has aborted. -/
def isAborted : Bool := s.tx.any Tx.aborted

/-- A statement that fails. -/
def abort : Session ε := { s with tx := s.tx.map fun tx => { tx with aborted := true } }

/-- `COMMIT`, which rolls back when the transaction is aborted, and does nothing without one. -/
def commit : Session ε :=
  match s.tx with
  | none => s
  | some tx =>
    { s with committed := if tx.aborted then s.committed else s.committed ++ tx.db, tx := none }

/-- `ROLLBACK`, and `discardOnRollback`. -/
def rollback : Session ε := { s with tx := none, buffer := s.buffer.map fun _ => [] }

/-- The context in which the body of a call runs: a connection of the pool on an external database, and
the buffer of the caller, or a new one. -/
def enter (isExternal : Bool) : Session ε :=
  { s with tx := if isExternal then none else s.tx, buffer := some (s.buffer.getD []) }

/-- The context of the caller, as the call leaves it. -/
def leave (isExternal : Bool) (caller : Session ε) : Session ε :=
  { s with
    tx := if isExternal then caller.tx else s.tx
    buffer := if caller.buffer.isSome then s.buffer else none }

end Session

/-! ## Events -/

variable (env : Environment σ)

/-- `storeInDeadLetterQueue`, whose errors are caught. -/
def storeInDeadLetterQueue (s : Session ε) : Session ε :=
  if s.isAborted then s
  else
    match env.deadLetter with
    | .fails _ => s.abort
    | .rows _ => s

/-- `N8nService.sendEvent`, which never throws. -/
def sendEvent (event : ε) (s : Session ε) : Session ε :=
  let s := if env.delivers then { s with delivered := s.delivered ++ [⟨event, s.committed⟩] } else s
  if env.stores then storeInDeadLetterQueue env s else s

/-- `enqueueEvent`: without a buffer, the event is dispatched at once. -/
def enqueueEvent (event : ε) (s : Session ε) : Session ε :=
  match s.buffer with
  | none => sendEvent env event s
  | some events => { s with buffer := some (events ++ [event]) }

/-- `flushOnCommit`. -/
def flushOnCommit (s : Session ε) : Session ε :=
  match s.buffer with
  | none => s
  | some events =>
    (flushLoop (fun _ => env.dispatchMs) 0 events).foldl (fun s event => sendEvent env event s)
      { s with buffer := some [] }

/-! ## Calls -/

/-- Statements on the connection: in its transaction, or one in a transaction of its own. -/
def onConnection (m : TxM (List ε) α) : SessionM ε α := fun s =>
  let (result, s) :=
    match s.tx with
    | some tx => ((m tx).1, { s with tx := some (m tx).2 })
    | none =>
      let (result, changes) := TxM.transaction m []
      (result, { s with committed := s.committed ++ changes })
  match result with
  | .ok a => .ok a s
  | .error e => .error e s

/-- `if (!condition) throw error;`, before there is a transaction. -/
def check (condition : Bool) (error : String) : SessionM ε Unit :=
  if condition then pure () else throw error

/-- `BEGIN`, which does nothing in an open transaction, and fails in an aborted one. -/
def beginTx (level : Level) : SessionM ε Unit := fun s =>
  match env.command level .begin with
  | some e => .error e s
  | none =>
    if s.isAborted then .error abortedError s else .ok () { s with tx := some (s.tx.getD ⟨[], false⟩) }

/-- `COMMIT` and `flushOnCommit`. -/
def commitTx (level : Level) : SessionM ε Unit := fun s =>
  match env.command level .commit with
  | some e => .error e s
  | none => .ok () (flushOnCommit env s.commit)

/-- `DBWrapper.transaction`. -/
def transaction (isExternal : Bool) (level : Level) (fn : SessionM ε α) : SessionM ε α := fun s =>
  match env.command level .connect with
  | some e => .error e s
  | none =>
    match (do beginTx env level; let result ← fn; commitTx env level; pure result : SessionM ε α)
        (s.enter isExternal) with
    | .ok result t => .ok result (t.leave isExternal s)
    | .error e t => .error e (t.rollback.leave isExternal s)

variable {env : Environment σ} {isExternal : Bool} {level : Level} {fn : SessionM ε α} {s t : Session ε}

theorem onConnection_of_tx {m : TxM (List ε) α} {tx : Tx (List ε)} (h : s.tx = some tx) :
    onConnection m s =
      match m tx with
      | (.ok a, tx) => .ok a { s with tx := some tx }
      | (.error e, tx) => .error e { s with tx := some tx } := by
  unfold onConnection
  rw [h]
  dsimp only
  cases m tx with
  | mk result tx => cases result <;> rfl

/-- What a call does with its body. -/
theorem transaction_of_begins (hconnect : env.command level .connect = none)
    (hbegins : beginTx env level (s.enter isExternal) = .ok () t) :
    transaction env isExternal level fn s =
      match fn t with
      | .ok a u =>
        match env.command level .commit with
        | none => .ok a ((flushOnCommit env u.commit).leave isExternal s)
        | some e => .error e (u.rollback.leave isExternal s)
      | .error e u => .error e (u.rollback.leave isExternal s) := by
  unfold transaction
  rw [hconnect]
  dsimp only [bind, EStateM.bind, pure, EStateM.pure]
  rw [hbegins]
  dsimp only
  cases fn t with
  | error e u => rfl
  | ok a u =>
    dsimp only [commitTx]
    cases env.command level .commit <;> rfl

end AlsaqiBackend.Events
