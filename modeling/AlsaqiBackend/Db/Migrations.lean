import AlsaqiBackend.Lib.Modify
import AlsaqiBackend.Lib.Run
import Mathlib.Data.List.Sort

/-!
# Migrations

`MigrationRunner` as a step system: any number of `run` and `rollback` calls, each split at its awaits.
Every migration has a transaction of its own, in which `up()` or `down()` runs and a row of
`schema_migrations` is inserted or deleted. A statement sees what other calls have committed; one that
meets a row which another transaction has inserted or deleted waits for its end. On the embedded database a
lock lets one transaction run at a time, so that its runs are among these.

`AppliedOnce` and `StoppedAtFailure` say what the runner promises in every state.
-/

namespace AlsaqiBackend.Migrations

open Lib

inductive MigrationType
  | schema
  | seed
  deriving DecidableEq, Repr

/-- A migration, of which `up()` and `down()` are what its transaction runs. -/
structure Migration where
  version : String
  name : String
  type : MigrationType
  /-- There is a `down()`. -/
  hasDown : Bool
  deriving DecidableEq, Repr

/-- A row of `schema_migrations`. No two rows ever written share a `ctid`. -/
structure MigrationRecord where
  version : String
  name : String
  type : MigrationType
  ctid : ℕ
  deriving DecidableEq, Repr

/-- Where a `run` is. -/
inductive RunPhase
  /-- `getPending` awaits its rows. -/
  | reading
  | beginning
  /-- `up()` runs. -/
  | executing
  | inserting
  /-- The row has been inserted. -/
  | committing (row : MigrationRecord)
  | returned
  | threw
  deriving DecidableEq, Repr

/-- A call of `run`, with the number of the pending migrations that it has applied. -/
structure RunCall where
  available : List Migration
  pending : List Migration
  done : ℕ
  phase : RunPhase
  deriving DecidableEq, Repr

/-- Where a `rollback` is. -/
inductive RollbackPhase
  | beginning
  /-- `down()` runs. -/
  | executing
  | recording
  /-- The `DELETE` has its snapshot, with the row that it sees. -/
  | deleting (seen : Option ℕ)
  /-- The row that has been deleted. -/
  | committing (removed : Option ℕ)
  | returned
  | threw
  deriving DecidableEq, Repr

inductive Call
  | run (call : RunCall)
  | rollback (migration : Migration) (phase : RollbackPhase)
  /-- A `rollback` that has thrown before its transaction. -/
  | rejected (message : String)
  deriving DecidableEq, Repr

inductive Direction
  | up
  | down
  deriving DecidableEq, Repr

/-- A transaction that has been committed. -/
structure Commit where
  call : ℕ
  version : String
  direction : Direction
  deriving DecidableEq, Repr

structure MigrationState where
  records : List MigrationRecord
  nextCtid : ℕ
  calls : List Call
  commits : List Commit
  deriving DecidableEq, Repr

/-- No call, and no row. -/
def MigrationState.init : MigrationState := ⟨[], 0, [], []⟩

inductive MigrationAction
  | callRun (available : List Migration)
  | callRollback (version : String) (available : List Migration)
  /-- `getPending` has its rows. -/
  | read (i : ℕ)
  | begin (i : ℕ)
  /-- `up()` or `down()` returns. -/
  | execute (i : ℕ)
  | insert (i : ℕ)
  /-- The `DELETE` takes its snapshot. -/
  | startDelete (i : ℕ)
  | delete (i : ℕ)
  | commit (i : ℕ)
  /-- What the call awaits fails, and it throws after its `ROLLBACK`. -/
  | fail (i : ℕ)
  deriving DecidableEq, Repr

variable (localeCompare : String → String → Ordering)

/-- `getPending`, of the rows that it has read. -/
def getPending (records : List MigrationRecord) (available : List Migration) : List Migration :=
  (available.filter fun m => m.version ∉ records.map MigrationRecord.version).insertionSort
    fun a b => (localeCompare a.version b.version).isLE

/-- What `rollback` tests before its transaction. -/
def checkRollback (version : String) (available : List Migration) : Except String Migration :=
  match available.find? fun m => m.version = version with
  | none => .error s!"Migration version \"{version}\" not found in available migrations"
  | some migration =>
    if migration.hasDown then .ok migration
    else .error (s!"Rollback is not supported for migration {migration.version}: " ++
      s!"\"{migration.name}\" — no down() function defined")

/-- The row that the open transaction of a call has inserted. -/
def Call.inserted : Call → Option MigrationRecord
  | .run ⟨_, _, _, .committing row⟩ => some row
  | _ => none

/-- The row that the open transaction of a call has deleted. -/
def Call.removed : Call → Option ℕ
  | .rollback _ (.committing removed) => removed
  | _ => none

namespace MigrationState

/-- The row of a version. -/
def record (s : MigrationState) (version : String) : Option MigrationRecord :=
  s.records.find? fun row => row.version = version

/-- Another transaction has inserted a row of the version, or deleted it. -/
def insertWaits (s : MigrationState) (version : String) : Bool :=
  s.calls.any fun call =>
    call.inserted.any (fun row => row.version = version) ||
      call.removed.any fun ctid => (s.record version).any fun row => row.ctid = ctid

/-- Another transaction has deleted the row. -/
def deleteWaits (s : MigrationState) (ctid : ℕ) : Bool :=
  s.calls.any fun call => call.removed = some ctid

def setCall (s : MigrationState) (i : ℕ) (call : Call) : MigrationState :=
  { s with calls := s.calls.set i call }

/-- A run goes on with its next migration, or returns. -/
def nextPhase (pending : List Migration) (done : ℕ) : RunPhase :=
  if done < pending.length then .beginning else .returned

/-- The `INSERT` of a run: the primary key rejects a version that is recorded. -/
def insertRecord (s : MigrationState) (i : ℕ) (call : RunCall) (migration : Migration) :
    MigrationState :=
  match s.record migration.version with
  | some _ => s.setCall i (.run { call with phase := .threw })
  | none =>
    { s.setCall i (.run { call with
        phase := .committing ⟨migration.version, migration.name, migration.type, s.nextCtid⟩ }) with
      nextCtid := s.nextCtid + 1 }

/-- The `DELETE` of a rollback: the row that it sees, unless that has gone since. -/
def deleteRecord (s : MigrationState) (i : ℕ) (migration : Migration) (seen : Option ℕ) :
    MigrationState :=
  s.setCall i (.rollback migration (.committing
    (seen.filter fun ctid => s.records.any fun row => row.ctid = ctid)))

/-- The `COMMIT` of a run. -/
def commitRun (s : MigrationState) (i : ℕ) (call : RunCall) (row : MigrationRecord) :
    MigrationState :=
  { s.setCall i (.run { call with
      done := call.done + 1
      phase := nextPhase call.pending (call.done + 1) }) with
    records := s.records ++ [row]
    commits := s.commits ++ [⟨i, row.version, .up⟩] }

/-- The `COMMIT` of a rollback. -/
def commitRollback (s : MigrationState) (i : ℕ) (migration : Migration) (removed : Option ℕ) :
    MigrationState :=
  { s.setCall i (.rollback migration .returned) with
    records := s.records.filter fun row => removed ≠ some row.ctid
    commits := s.commits ++ [⟨i, migration.version, .down⟩] }

end MigrationState

/-- A call has returned or thrown. -/
def Call.ended : Call → Bool
  | .run call => call.phase = .returned ∨ call.phase = .threw
  | .rollback _ phase => phase = .returned ∨ phase = .threw
  | .rejected _ => true

/-- The call throws. -/
def Call.failed : Call → Call
  | .run call => .run { call with phase := .threw }
  | .rollback migration _ => .rollback migration .threw
  | .rejected message => .rejected message

/-- One step of a call, or a new call. -/
def migrationStep (s : MigrationState) : MigrationAction → Option MigrationState
  | .callRun available => some { s with calls := s.calls ++ [.run ⟨available, [], 0, .reading⟩] }
  | .callRollback version available =>
    match checkRollback version available with
    | .ok migration => some { s with calls := s.calls ++ [.rollback migration .beginning] }
    | .error message => some { s with calls := s.calls ++ [.rejected message] }
  | .read i =>
    match s.calls[i]? with
    | some (.run ⟨available, _, _, .reading⟩) =>
      let pending := getPending localeCompare s.records available
      some (s.setCall i (.run ⟨available, pending, 0, MigrationState.nextPhase pending 0⟩))
    | _ => none
  | .begin i =>
    match s.calls[i]? with
    | some (.run ⟨available, pending, done, .beginning⟩) =>
      some (s.setCall i (.run ⟨available, pending, done, .executing⟩))
    | some (.rollback migration .beginning) => some (s.setCall i (.rollback migration .executing))
    | _ => none
  | .execute i =>
    match s.calls[i]? with
    | some (.run ⟨available, pending, done, .executing⟩) =>
      some (s.setCall i (.run ⟨available, pending, done, .inserting⟩))
    | some (.rollback migration .executing) => some (s.setCall i (.rollback migration .recording))
    | _ => none
  | .insert i =>
    match s.calls[i]? with
    | some (.run ⟨available, pending, done, .inserting⟩) => do
      let migration ← pending[done]?
      if s.insertWaits migration.version then none
      else s.insertRecord i ⟨available, pending, done, .inserting⟩ migration
    | _ => none
  | .startDelete i =>
    match s.calls[i]? with
    | some (.rollback migration .recording) =>
      let seen := (s.record migration.version).map MigrationRecord.ctid
      some (s.setCall i (.rollback migration (.deleting seen)))
    | _ => none
  | .delete i =>
    match s.calls[i]? with
    | some (.rollback migration (.deleting seen)) =>
      if seen.any s.deleteWaits then none else some (s.deleteRecord i migration seen)
    | _ => none
  | .commit i =>
    match s.calls[i]? with
    | some (.run ⟨available, pending, done, .committing row⟩) =>
      some (s.commitRun i ⟨available, pending, done, .committing row⟩ row)
    | some (.rollback migration (.committing removed)) => some (s.commitRollback i migration removed)
    | _ => none
  | .fail i =>
    match s.calls[i]? with
    | some call => if call.ended then none else some (s.setCall i call.failed)
    | none => none

/-! ## The property -/

namespace MigrationState

/-- The committed `up()` of a version, less the committed `down()`. -/
def timesApplied (s : MigrationState) (version : String) : ℤ :=
  s.commits.countP (fun c => c.version = version ∧ c.direction = .up) -
    s.commits.countP (fun c => c.version = version ∧ c.direction = .down)

/-- The version is recorded. -/
def IsRecorded (s : MigrationState) (version : String) : Prop :=
  version ∈ s.records.map MigrationRecord.version

instance (s : MigrationState) (version : String) : Decidable (s.IsRecorded version) :=
  inferInstanceAs (Decidable (version ∈ _))

/-- Every version has been applied once or not at all, and once exactly when it is recorded. -/
def AppliedOnce (s : MigrationState) : Prop :=
  ∀ version, (s.timesApplied version = 0 ∨ s.timesApplied version = 1) ∧
    (s.timesApplied version = 1 ↔ s.IsRecorded version)

/-- The transactions that a call has committed. -/
def commitsOf (s : MigrationState) (i : ℕ) : List Commit := s.commits.filter fun c => c.call = i

/-- A run that has thrown has applied the pending migrations before the one that failed; without any when
it could not read them. -/
def StoppedAtFailure (s : MigrationState) : Prop :=
  ∀ i call, s.calls[i]? = some (.run call) → call.phase = .threw →
    (call.pending = [] ∧ s.commitsOf i = []) ∨
      ∃ before failing after, call.pending = before ++ failing :: after ∧
        s.commitsOf i = before.map fun m => ⟨i, m.version, .up⟩

end MigrationState

/-- A rollback that commits has deleted the record of its version. -/
def DeletesRecord (s : MigrationState) : MigrationAction → Prop
  | .commit i => ∀ migration, s.calls[i]? ≠ some (.rollback migration (.committing none))
  | _ => True

end AlsaqiBackend.Migrations
