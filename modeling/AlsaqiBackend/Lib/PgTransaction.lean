import Mathlib.Data.List.Basic

/-!
# Transactions of PostgreSQL

A statement that fails aborts the transaction that it is in: every later statement of it fails as well,
whatever the program does with the error, and `COMMIT` then rolls back without an error. A program that
catches the error of a statement and carries on ends with a result, and without what it wrote.

`TxM` is a computation inside of a transaction, `transaction` runs one and ends it, and `EndsWell` says
that it returns a value in a transaction that is not aborted. The lemmas named `endsWell` take a
computation apart: a block ends well exactly when each of its statements does.
-/

namespace AlsaqiBackend.Lib

/-- A transaction: the database as it sees it, and whether one of its statements has failed. -/
structure Tx (δ : Type) where
  db : δ
  aborted : Bool

/-- A computation inside of a transaction. What it has done so far stays when it throws. -/
def TxM (δ α : Type) : Type := Tx δ → Except String α × Tx δ

namespace TxM

variable {δ α β : Type}

instance : Monad (TxM δ) where
  pure a := fun tx => (.ok a, tx)
  bind m f := fun tx =>
    match m tx with
    | (.ok a, tx) => f a tx
    | (.error e, tx) => (.error e, tx)

instance : MonadExceptOf String (TxM δ) where
  throw e := fun tx => (.error e, tx)
  tryCatch m handler := fun tx =>
    match m tx with
    | (.ok a, tx) => (.ok a, tx)
    | (.error e, tx) => handler e tx

/-- A statement; `f` is what it does to the database, and `none` when it does not succeed there. `fails`
is any other failure. -/
def statement (fails : Bool) (f : δ → Option (δ × α)) : TxM δ α := fun tx =>
  if tx.aborted then
    (.error "current transaction is aborted, commands ignored until end of transaction block", tx)
  else if fails then (.error "statement failed", { tx with aborted := true })
  else
    match f tx.db with
    | none => (.error "statement failed", { tx with aborted := true })
    | some (db, a) => (.ok a, { tx with db })

/-- What PostgreSQL answers in an aborted transaction. -/
def abortedError : String :=
  "current transaction is aborted, commands ignored until end of transaction block"

/-- A statement that the database may reject, with the text of its error. -/
def query (f : δ → Except String (δ × α)) : TxM δ α := fun tx =>
  if tx.aborted then (.error abortedError, tx)
  else
    match f tx.db with
    | .error e => (.error e, { tx with aborted := true })
    | .ok (db, a) => (.ok a, { tx with db })

/-- A statement that reads. -/
def select (f : δ → α) : TxM δ α := query fun db => .ok (db, f db)

/-- `try { … } catch { … }`, with a value for the case that something throws. -/
def attempt (m : TxM δ α) (fallback : α) : TxM δ α := tryCatch m fun _ => pure fallback

/-- `if (!condition) throw error;`. -/
def require (condition : Bool) (error : String) : TxM δ Unit := if condition then pure () else throw error

/-- `BEGIN`, the computation, and then `COMMIT`, or `ROLLBACK` when it throws. -/
def transaction (m : TxM δ α) (db : δ) : Except String α × δ :=
  match m ⟨db, false⟩ with
  | (.ok a, tx) => (.ok a, if tx.aborted then db else tx.db)
  | (.error e, _) => (.error e, db)

/-- How a `COMMIT` ends. -/
inductive CommitAnswer where
  | committed
  /-- It fails, and the transaction is rolled back. -/
  | failed
  /-- The database has committed, and its answer does not arrive. -/
  | lost
  deriving DecidableEq, Repr

/-- A transaction whose `COMMIT` can fail as well. -/
def transactionWith (commit : CommitAnswer) (m : TxM δ α) (db : δ) : Except String α × δ :=
  match m ⟨db, false⟩ with
  | (.ok a, tx) =>
    match commit with
    | .committed => (.ok a, if tx.aborted then db else tx.db)
    | .failed => (.error "COMMIT failed", db)
    | .lost => (.error "Connection terminated", if tx.aborted then db else tx.db)
  | (.error e, _) => (.error e, db)

/-! ## Ending well -/

/-- The computation returns `a`, and the transaction is `tx'` then, and not aborted. -/
def EndsWell (m : TxM δ α) (tx : Tx δ) (a : α) (tx' : Tx δ) : Prop :=
  m tx = (.ok a, tx') ∧ tx'.aborted = false

/-- In an aborted transaction, the computation leaves it aborted. -/
def StaysAborted (m : TxM δ α) : Prop := ∀ tx, tx.aborted = true → (m tx).2.aborted = true

/-- When the computation throws, the transaction is aborted. -/
def AbortsOnThrow (m : TxM δ α) : Prop := ∀ tx e, (m tx).1 = .error e → (m tx).2.aborted = true

variable {m : TxM δ α} {f : α → TxM δ β} {tx tx' : Tx δ} {a : α}

theorem pure_apply : (pure a : TxM δ α) tx = (.ok a, tx) := rfl

theorem bind_apply : (m >>= f) tx =
    match m tx with
    | (.ok a, tx) => f a tx
    | (.error e, tx) => (.error e, tx) := rfl

instance : LawfulMonad (TxM δ) := by
  refine LawfulMonad.mk' _ (fun x => ?_) (fun _ _ => rfl) (fun x f g => ?_)
  · funext tx
    change (match x tx with
      | (.ok a, tx) => (Except.ok a, tx)
      | (.error e, tx) => (.error e, tx)) = x tx
    match x tx with
    | (.ok a, tx) => rfl
    | (.error e, tx) => rfl
  · funext tx
    rw [bind_apply, bind_apply, bind_apply]
    match x tx with
    | (.ok a, tx) => rfl
    | (.error e, tx) => rfl

theorem attempt_apply : attempt m a tx =
    match m tx with
    | (.ok b, tx) => (.ok b, tx)
    | (.error _, tx) => (.ok a, tx) := rfl

theorem throw_apply {e : String} : (throw e : TxM δ α) tx = (.error e, tx) := rfl

theorem tryCatch_apply {handler : String → TxM δ α} : tryCatch m handler tx =
    match m tx with
    | (.ok a, tx) => (.ok a, tx)
    | (.error e, tx) => handler e tx := rfl

theorem query_aborted {g : δ → Except String (δ × α)} {db : δ} :
    query g ⟨db, true⟩ = (.error abortedError, ⟨db, true⟩) := rfl

theorem query_apply {g : δ → Except String (δ × α)} {db : δ} : query g ⟨db, false⟩ =
    match g db with
    | .error e => (.error e, ⟨db, true⟩)
    | .ok (db, a) => (.ok a, ⟨db, false⟩) := rfl

/-- A block that begins with a statement that reads. -/
theorem select_bind_apply {g : δ → α} {db : δ} : (select g >>= f) ⟨db, false⟩ = f (g db) ⟨db, false⟩ := rfl

theorem StaysAborted.pure : StaysAborted (pure a : TxM δ α) := fun _ h => h

theorem StaysAborted.throw (e : String) : StaysAborted (throw e : TxM δ α) := fun _ h => h

theorem StaysAborted.statement (fails : Bool) (g : δ → Option (δ × α)) :
    StaysAborted (statement fails g) := by
  intro tx h
  unfold TxM.statement
  rw [if_pos h]
  exact h

theorem StaysAborted.query (g : δ → Except String (δ × α)) : StaysAborted (query g) := by
  intro tx h
  unfold TxM.query
  rw [if_pos h]
  exact h

theorem StaysAborted.ofExcept (result : Except String α) :
    StaysAborted (MonadExcept.ofExcept result : TxM δ α) := by
  cases result with
  | ok a => exact .pure
  | error e => exact .throw e

theorem StaysAborted.bind (hm : StaysAborted m) (hf : ∀ a, StaysAborted (f a)) :
    StaysAborted (m >>= f) := by
  intro tx h
  have hm' := hm tx h
  rw [bind_apply]
  generalize m tx = r at hm'
  match r with
  | (.ok a, tx) => exact hf a tx hm'
  | (.error e, tx) => exact hm'

theorem StaysAborted.attempt (hm : StaysAborted m) : StaysAborted (attempt m a) := by
  intro tx h
  have hm' := hm tx h
  rw [attempt_apply]
  generalize m tx = r at hm'
  match r with
  | (.ok b, tx) => exact hm'
  | (.error e, tx) => exact hm'

theorem AbortsOnThrow.statement (fails : Bool) (g : δ → Option (δ × α)) :
    AbortsOnThrow (statement fails g) := by
  intro tx e h
  unfold TxM.statement at h ⊢
  split_ifs at h ⊢ with haborted
  · exact haborted
  · rfl
  · split at h
    · rfl
    · cases h

theorem AbortsOnThrow.query (g : δ → Except String (δ × α)) : AbortsOnThrow (query g) := by
  intro tx e h
  unfold TxM.query at h ⊢
  split_ifs at h ⊢ with haborted
  · exact haborted
  · split at h
    · rfl
    · cases h

/-- When the computation returns, the transaction is as `P` says. -/
def Ensures (m : TxM δ α) (P : Tx δ → Prop) : Prop := ∀ tx a tx', m tx = (.ok a, tx') → P tx'

section Ensures

variable {P Q : Tx δ → Prop}

theorem Ensures.query {g : δ → Except String (δ × α)}
    (hg : ∀ db db' a, g db = .ok (db', a) → P ⟨db', false⟩) : Ensures (query g) P := by
  intro tx a tx' h
  unfold TxM.query at h
  split_ifs at h with haborted
  · cases h
  · split at h
    · cases h
    · next db b hok =>
      rw [← (Prod.mk.inj h).2, Bool.eq_false_iff.2 haborted]
      exact hg tx.db db b hok

theorem Ensures.throw (e : String) : Ensures (throw e : TxM δ α) P :=
  fun _ _ _ h => nomatch congrArg Prod.fst h

/-- The last part decides. -/
theorem Ensures.bind (hf : ∀ a, Ensures (f a) P) : Ensures (m >>= f) P := by
  intro tx b tx'' h
  rw [bind_apply] at h
  match hm : m tx with
  | (.ok a, tx') =>
    rw [hm] at h
    exact hf a tx' b tx'' h
  | (.error e, tx') =>
    rw [hm] at h
    cases congrArg Prod.fst h

/-- What the first part ensures, the rest may need. -/
theorem Ensures.bind_of (hm : Ensures m Q)
    (hf : ∀ a tx b tx', Q tx → f a tx = (.ok b, tx') → P tx') : Ensures (m >>= f) P := by
  intro tx b tx'' h
  rw [bind_apply] at h
  match hresult : m tx with
  | (.ok a, tx') =>
    rw [hresult] at h
    exact hf a tx' b tx'' (hm tx a tx' hresult) h
  | (.error e, tx') =>
    rw [hresult] at h
    cases congrArg Prod.fst h

theorem Ensures.tryCatch {handler : String → TxM δ α} (hm : Ensures m P)
    (hhandler : ∀ e, Ensures (handler e) P) : Ensures (tryCatch m handler) P := by
  intro tx a tx' h
  rw [tryCatch_apply] at h
  match hresult : m tx with
  | (.ok b, tx₁) =>
    rw [hresult] at h
    refine hm tx b tx' ?_
    rw [hresult, (Prod.mk.inj h).2]
  | (.error e, tx₁) =>
    rw [hresult] at h
    exact hhandler e tx₁ a tx' h

theorem Ensures.mono (hm : Ensures m P) (h : ∀ tx, P tx → Q tx) : Ensures m Q :=
  fun tx a tx' hok => h tx' (hm tx a tx' hok)

/-- Returning and ending well is the same then. -/
theorem Ensures.endsWell_iff (h : Ensures m fun tx => tx.aborted = false) :
    EndsWell m tx a tx' ↔ m tx = (.ok a, tx') :=
  ⟨fun hends => hends.1, fun hok => ⟨hok, h tx a tx' hok⟩⟩

end Ensures

/-- The computation does not write, whether it returns or throws. -/
def Keeps (m : TxM δ α) : Prop := ∀ tx, (m tx).2.db = tx.db

theorem Keeps.pure : Keeps (pure a : TxM δ α) := fun _ => rfl

theorem Keeps.query {g : δ → Except String (δ × α)} (hg : ∀ db db' a, g db = .ok (db', a) → db' = db) :
    Keeps (query g) := by
  intro tx
  unfold TxM.query
  split_ifs
  · rfl
  · cases hok : g tx.db with
    | error e => rfl
    | ok result => exact hg tx.db result.1 result.2 hok

theorem Keeps.bind (hm : Keeps m) (hf : ∀ a, Keeps (f a)) : Keeps (m >>= f) := by
  intro tx
  have hdb := hm tx
  rw [bind_apply]
  match hresult : m tx with
  | (.ok a, tx') =>
    rw [hresult] at hdb
    exact (hf a tx').trans hdb
  | (.error e, tx') =>
    rw [hresult] at hdb
    exact hdb

/-- It commits nothing new. -/
theorem Keeps.transaction (hm : Keeps m) (db : δ) : (transaction m db).2 = db := by
  have hdb := hm ⟨db, false⟩
  unfold TxM.transaction
  match hresult : m ⟨db, false⟩ with
  | (.error e, tx) => rfl
  | (.ok a, tx) =>
    rw [hresult] at hdb
    dsimp only
    rw [hdb, ite_self]

theorem endsWell_pure {b : α} :
    EndsWell (pure a : TxM δ α) tx b tx' ↔ tx.aborted = false ∧ b = a ∧ tx' = ⟨tx.db, false⟩ := by
  unfold EndsWell
  rw [pure_apply, Prod.mk.injEq, Except.ok.injEq]
  constructor
  · rintro ⟨⟨rfl, rfl⟩, h⟩
    exact ⟨h, rfl, by rw [← h]⟩
  · rintro ⟨h, rfl, rfl⟩
    exact ⟨⟨rfl, by rw [← h]⟩, rfl⟩

theorem not_endsWell_throw {e : String} : ¬ EndsWell (throw e : TxM δ α) tx a tx' :=
  fun h => nomatch congrArg Prod.fst h.1

theorem endsWell_ofExcept {result : Except String α} :
    EndsWell (MonadExcept.ofExcept result : TxM δ α) tx a tx' ↔
      tx.aborted = false ∧ result = .ok a ∧ tx' = ⟨tx.db, false⟩ := by
  cases result with
  | ok b =>
    refine endsWell_pure.trans (and_congr_right fun _ => and_congr_left fun _ => ?_)
    rw [Except.ok.injEq, eq_comm]
  | error e => exact iff_of_false not_endsWell_throw fun h => nomatch h.2.1

theorem endsWell_statement {fails : Bool} {g : δ → Option (δ × α)} :
    EndsWell (statement fails g) tx a tx' ↔
      tx.aborted = false ∧ fails = false ∧ ∃ db, g tx.db = some (db, a) ∧ tx' = ⟨db, false⟩ := by
  unfold EndsWell statement
  cases haborted : tx.aborted with
  | true => simp
  | false =>
    cases fails with
    | true => simp
    | false =>
      cases hg : g tx.db with
      | none => simp
      | some result =>
        simp only [Bool.false_eq_true, if_false, Prod.mk.injEq, Except.ok.injEq,
          Option.some.injEq, true_and]
        constructor
        · rintro ⟨⟨rfl, rfl⟩, -⟩
          exact ⟨result.1, rfl, rfl⟩
        · rintro ⟨db, rfl, rfl⟩
          exact ⟨⟨rfl, rfl⟩, rfl⟩

theorem endsWell_query {g : δ → Except String (δ × α)} :
    EndsWell (query g) tx a tx' ↔
      tx.aborted = false ∧ ∃ db, g tx.db = .ok (db, a) ∧ tx' = ⟨db, false⟩ := by
  unfold EndsWell query
  cases haborted : tx.aborted with
  | true => simp
  | false =>
    cases hg : g tx.db with
    | error e => simp
    | ok result =>
      simp only [Bool.false_eq_true, if_false, Prod.mk.injEq, Except.ok.injEq, true_and]
      constructor
      · rintro ⟨⟨rfl, rfl⟩, -⟩
        exact ⟨result.1, rfl, by rw [← haborted]⟩
      · rintro ⟨db, rfl, rfl⟩
        exact ⟨⟨rfl, by rw [← haborted]⟩, rfl⟩

/-- A statement whose error is caught ends well exactly when it succeeds. -/
theorem endsWell_attempt {b : α} (hm : AbortsOnThrow m) :
    EndsWell (attempt m a) tx b tx' ↔ EndsWell m tx b tx' := by
  unfold EndsWell
  rw [attempt_apply]
  have hthrow := hm tx
  generalize m tx = r at hthrow
  match r with
  | (.ok c, tx) => exact Iff.rfl
  | (.error e, tx) =>
    have haborted : tx.aborted = true := hthrow e rfl
    simp only [Prod.mk.injEq, reduceCtorEq, false_and, iff_false]
    rintro ⟨⟨-, rfl⟩, h⟩
    rw [haborted] at h
    cases h

/-- A statement that succeeds on every database, with its error caught. -/
theorem endsWell_attempt_statement {fails : Bool} {g : δ → δ} {c : δ → α} {b : α} :
    EndsWell (attempt (statement fails fun db => some (g db, c db)) b) tx a tx' ↔
      tx.aborted = false ∧ fails = false ∧ a = c tx.db ∧ tx' = ⟨g tx.db, false⟩ := by
  rw [endsWell_attempt (.statement _ _), endsWell_statement]
  refine and_congr_right fun _ => and_congr_right fun _ => ?_
  constructor
  · rintro ⟨db, heq, rfl⟩
    rw [Option.some.injEq, Prod.mk.injEq] at heq
    exact ⟨heq.2.symm, by rw [heq.1]⟩
  · rintro ⟨rfl, rfl⟩
    exact ⟨_, rfl, rfl⟩

/-- A block ends well exactly when its first part does, and then the rest. -/
theorem endsWell_bind {b : β} {tx'' : Tx δ} (hf : ∀ a, StaysAborted (f a)) :
    EndsWell (m >>= f) tx b tx'' ↔ ∃ a tx', EndsWell m tx a tx' ∧ EndsWell (f a) tx' b tx'' := by
  unfold EndsWell
  rw [bind_apply]
  match m tx with
  | (.error e, tx) => simp
  | (.ok a, tx₁) =>
    constructor
    · rintro ⟨hrest, hwell⟩
      dsimp only at hrest
      -- If the first part had aborted the transaction, the rest would have left it so.
      refine ⟨a, tx₁, ⟨rfl, ?_⟩, hrest, hwell⟩
      rw [Bool.eq_false_iff]
      intro haborted
      have hstays := hf a tx₁ haborted
      rw [hrest, hwell] at hstays
      cases hstays
    · rintro ⟨a', tx', ⟨heq, -⟩, hrest⟩
      rw [Prod.mk.injEq, Except.ok.injEq] at heq
      obtain ⟨rfl, rfl⟩ := heq
      exact hrest

theorem EndsWell.bind (hm : EndsWell m tx a tx') (hf : ∃ b tx'', EndsWell (f a) tx' b tx'') :
    ∃ b tx'', EndsWell (m >>= f) tx b tx'' := by
  obtain ⟨b, tx'', hrest⟩ := hf
  refine ⟨b, tx'', ?_, hrest.2⟩
  rw [bind_apply, hm.1]
  exact hrest.1

/-- A block that begins with a statement. -/
theorem endsWell_statement_bind {fails : Bool} {g : δ → Option (δ × α)} {b : β} :
    EndsWell (statement fails g >>= f) tx b tx' ↔ tx.aborted = false ∧ fails = false ∧
      ∃ db a, g tx.db = some (db, a) ∧ EndsWell (f a) ⟨db, false⟩ b tx' := by
  unfold EndsWell
  rw [bind_apply]
  unfold statement
  cases haborted : tx.aborted with
  | true => simp
  | false =>
    cases fails with
    | true => simp
    | false =>
      cases hg : g tx.db with
      | none => simp
      | some result =>
        simp only [Bool.false_eq_true, if_false, true_and, Option.some.injEq]
        constructor
        · intro hrest
          exact ⟨_, _, rfl, hrest⟩
        · rintro ⟨db, a, rfl, hrest⟩
          exact hrest

/-- A block that begins with a statement that the database may reject. -/
theorem endsWell_query_bind {g : δ → Except String (δ × α)} {b : β} :
    EndsWell (query g >>= f) tx b tx' ↔ tx.aborted = false ∧
      ∃ db a, g tx.db = .ok (db, a) ∧ EndsWell (f a) ⟨db, false⟩ b tx' := by
  unfold EndsWell
  rw [bind_apply]
  unfold query
  cases haborted : tx.aborted with
  | true => simp
  | false =>
    cases hg : g tx.db with
    | error e => simp
    | ok result =>
      simp only [Bool.false_eq_true, if_false, true_and, Except.ok.injEq]
      constructor
      · intro hrest
        exact ⟨_, _, rfl, hrest⟩
      · rintro ⟨db, a, rfl, hrest⟩
        exact hrest

/-- A block that begins with a check. -/
theorem endsWell_require_bind {condition : Bool} {e : String} {g : Unit → TxM δ β} {b : β} :
    EndsWell (require condition e >>= g) tx b tx' ↔ condition = true ∧ EndsWell (g ()) tx b tx' := by
  cases condition with
  | true => exact (and_iff_right rfl).symm
  | false => exact iff_of_false (fun h => nomatch congrArg Prod.fst h.1) fun h => nomatch h.1

/-- The same with a statement that succeeds on every database. -/
theorem endsWell_total_bind {fails : Bool} {g : δ → δ} {c : δ → α} {b : β} :
    EndsWell (statement fails (fun db => some (g db, c db)) >>= f) tx b tx' ↔
      tx.aborted = false ∧ fails = false ∧ EndsWell (f (c tx.db)) ⟨g tx.db, false⟩ b tx' := by
  rw [endsWell_statement_bind]
  refine and_congr_right fun _ => and_congr_right fun _ => ?_
  constructor
  · rintro ⟨db, b, heq, hrest⟩
    rw [Option.some.injEq, Prod.mk.injEq] at heq
    obtain ⟨rfl, rfl⟩ := heq
    exact hrest
  · intro hrest
    exact ⟨_, _, rfl, hrest⟩

/-- The same with the error of the statement caught. -/
theorem endsWell_attempt_bind {fails : Bool} {g : δ → δ} {c : δ → α} {b : β}
    (hf : ∀ a, StaysAborted (f a)) :
    EndsWell (attempt (statement fails fun db => some (g db, c db)) a >>= f) tx b tx' ↔
      tx.aborted = false ∧ fails = false ∧ EndsWell (f (c tx.db)) ⟨g tx.db, false⟩ b tx' := by
  rw [endsWell_bind hf, ← endsWell_total_bind, endsWell_bind hf]
  simp only [endsWell_attempt (.statement _ _)]

/-- What a computation that ends well wrote is committed. -/
theorem transaction_of_endsWell {db : δ} (h : EndsWell m ⟨db, false⟩ a tx') :
    transaction m db = (.ok a, tx'.db) := by
  unfold transaction
  rw [h.1]
  simp [h.2]

/-- Of any other nothing is. -/
theorem transaction_of_not_endsWell {db : δ} (h : ∀ a tx', ¬ EndsWell m ⟨db, false⟩ a tx') :
    (transaction m db).2 = db := by
  unfold transaction
  have hnot := h
  unfold EndsWell at hnot
  generalize m ⟨db, false⟩ = r at hnot
  match r with
  | (.error e, tx) => rfl
  | (.ok a, tx) =>
    have haborted : tx.aborted = true := by
      rw [← Bool.not_eq_false]
      exact fun hfalse => hnot a tx ⟨rfl, hfalse⟩
    simp [haborted]

/-- What a computation that ends well wrote stays, unless its `COMMIT` fails. -/
theorem transactionWith_of_endsWell {db : δ} {commit : CommitAnswer} (h : EndsWell m ⟨db, false⟩ a tx') :
    (transactionWith commit m db).2 = (if commit = .failed then db else tx'.db) ∧
      ((transactionWith commit m db).1.isOk = true ↔ commit = .committed) := by
  unfold transactionWith
  rw [h.1]
  cases commit <;> simp [h.2, Except.isOk, Except.toBool]

/-- A computation that throws changes nothing, and the caller sees the error. -/
theorem transactionWith_of_throw {db : δ} {commit : CommitAnswer} {e : String}
    (h : (m ⟨db, false⟩).1 = .error e) :
    (transactionWith commit m db).2 = db ∧ (transactionWith commit m db).1.isOk = false := by
  unfold transactionWith
  generalize m ⟨db, false⟩ = r at h
  match r, h with
  | (.error e, tx), rfl => exact ⟨rfl, rfl⟩

end TxM

end AlsaqiBackend.Lib
