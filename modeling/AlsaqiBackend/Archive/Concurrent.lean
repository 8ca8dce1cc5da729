import AlsaqiBackend.Archive.Completeness
import AlsaqiBackend.Lib.Run

/-!
# Archiving next to other writers

The statements of `archivePlan` at `READ COMMITTED`, with the commits of other transactions between
them: each one sees what is committed when it runs. `createFinding` reads its plan and commits a finding
some statements later, `attachEvidence` reads its finding and inserts a row later, a task is created in
one statement, and rows are updated in place. A row that the archive has deleted and not yet committed
can neither be updated nor be referred to by a new row: such a statement waits.

`committed` is a ghost: the last committed content of each row that there has ever been.
-/

namespace AlsaqiBackend.Archive

open AlsaqiBackend.Lib

variable {Id : Type}

/-! ## The system -/

/-- A writer that has read and not written yet. -/
inductive Writer (Id : Type)
  /-- `createFinding` has found the plan, and it was not archived. -/
  | createFinding (planId : Id)
  /-- `attachEvidence` has found the finding, with this `audit_id`. -/
  | attachEvidence (findingId : Id) (auditId : Value Id)

structure World (Id : Type) where
  db : ArchiveDb Id
  /-- The open transaction of `archivePlan`, with the statements that are left. -/
  tx : Option (ArchiveTx Id × List Statement)
  writers : List (Writer Id)
  committed : Detail → Keyed (@Row.id Id)

/-- Nothing is going on yet. -/
def World.start (db : ArchiveDb Id) : World Id := ⟨db, none, [], db.tables⟩

inductive Action (Id : Type)
  | beginArchive (planId userId : Id) (userRole : String)
  /-- The next statement of the archive; when it throws, the transaction is rolled back. -/
  | advance
  | rollback
  | commitArchive
  | createTask (row : Row Id)
  | beginFinding (planId : Id)
  | commitFinding (i : ℕ) (finding recommendation : Row Id)
  | beginEvidence (findingId : Id)
  | commitEvidence (i : ℕ) (row : Row Id)
  /-- An `UPDATE` of a row, with the columns that it has after it. -/
  | update (d : Detail) (id : Id) (columns : String → Value Id)

variable [DecidableEq Id]

namespace World

variable (w : World Id)

/-- The archive has deleted the row and not committed this. -/
def locked (d : Detail) (id : Id) : Bool :=
  match w.tx with
  | some (tx, _) => id ∈ tx.deleted d
  | none => false

/-- A foreign key to `audit_plans`. -/
def planExists : Value Id → Bool
  | .null => true
  | .uuid planId => w.db.plans.rows.any fun plan => plan.id = planId
  | _ => false

/-- A foreign key to `audit_findings`. -/
def findingExists : Value Id → Bool
  | .null => true
  | .uuid findingId =>
    ((w.db.tables .findings).rows.any fun finding => finding.id = findingId) &&
      !w.locked .findings findingId
  | _ => false

/-- The foreign keys of a row. -/
def referencesExist : Detail → Row Id → Bool
  | .tasks, row => w.planExists (row.columns "plan_id")
  | .findings, row => w.planExists (row.columns "audit_id")
  | .recommendations, row =>
    w.findingExists (row.columns "finding_id") && w.planExists (row.columns "plan_id")
  | .evidence, row => w.planExists (row.columns "audit_id") && w.findingExists (row.columns "finding_id")

/-- The rows of a table, and their last committed contents, become others. -/
def setTable (d : Detail) (live committed : Keyed (@Row.id Id)) : World Id :=
  { w with
    db := { w.db with tables := Function.update w.db.tables d live }
    committed := Function.update w.committed d committed }

/-- `INSERT`; the id of a new row is one that has never been. -/
def insert (d : Detail) (row : Row Id) : Option (World Id) :=
  if hlive : row.id ∉ (w.db.tables d).rows.map Row.id then
    if hcommitted : row.id ∉ (w.committed d).rows.map Row.id then
      if w.referencesExist d row then
        some (w.setTable d ((w.db.tables d).insert row hlive) ((w.committed d).insert row hcommitted))
      else none
    else none
  else none

/-- The columns of the row with an id. -/
def setColumns (id : Id) (columns : String → Value Id) (table : Keyed (@Row.id Id)) : Keyed (@Row.id Id) :=
  table.update (fun row => row.id = id) (fun row => { row with columns }) fun _ => rfl

/-- `UPDATE` of one row. -/
def updateRow (d : Detail) (id : Id) (columns : String → Value Id) : Option (World Id) :=
  if ((w.db.tables d).rows.any fun row => row.id = id) && !w.locked d id &&
      w.referencesExist d ⟨id, columns⟩ then
    some (w.setTable d (setColumns id columns (w.db.tables d)) (setColumns id columns (w.committed d)))
  else none

end World

namespace Postgres

/-- A copy of a row, with the content that it has. -/
def IsCopy (pg : Postgres) (copy : Copy Id) (row : Row Id) : Prop :=
  copy.originalId = row.id ∧ pg.Equals copy.data row

end Postgres

/-- The plan that a task or a finding refers to. -/
def planColumn : Detail → Option String
  | .tasks => some "plan_id"
  | .findings => some "audit_id"
  | _ => none

/-- A task or a finding that refers to the plan. -/
def RefersTo (d : Detail) (row : Row Id) (planId : Id) : Prop :=
  ∃ column ∈ planColumn d, row.columns column = .uuid planId

/-- A task or a finding that refers to an archived plan. -/
def ArchiveDb.RefersToArchived (db : ArchiveDb Id) (d : Detail) (row : Row Id) : Prop :=
  ∃ plan ∈ db.plans.rows, plan.columns "is_archived" = .bool true ∧ RefersTo d row plan.id

/-- Every row that was ever committed is in its table, or in the archive with its last content, and no
task and no finding refers to an archived plan. -/
structure Safe (pg : Postgres) (w : World Id) : Prop where
  kept : ∀ d, ∀ row ∈ (w.committed d).rows,
    row ∈ (w.db.tables d).rows ∨ ∃ copy ∈ w.db.archived d, pg.IsCopy copy row
  attached : ∀ d, ∀ row ∈ (w.db.tables d).rows, ¬ w.db.RefersToArchived d row

/-- The archive can be committed: each row that its `DELETE`s have taken was read by its `SELECT`s as it
is now, or is in the archive so from before, and no task or finding of the plan has come that they did
not take. -/
structure Commitable (pg : Postgres) (db : ArchiveDb Id) (tx : ArchiveTx Id) : Prop where
  read : ∀ d, ∀ row ∈ (db.tables d).rows, row.id ∈ tx.deleted d →
    (∃ copy ∈ db.archived d, pg.IsCopy copy row) ∨
      ∃ readRow ∈ tx.read d, readRow.id = row.id ∧ pg.Equals (pg.stringify readRow) row
  taken : ∀ d, ∀ row ∈ (db.tables d).rows, RefersTo d row tx.planId → row.id ∈ tx.deleted d

/-- What the steps of a run have to keep to: the archive is committed when it can be, and no writer
commits a task or a finding of an archived plan. -/
def Orderly (pg : Postgres) (w : World Id) : Action Id → Prop
  | .commitArchive => ∀ tx sts, w.tx = some (tx, sts) → Commitable pg w.db tx
  | .createTask row => ¬ w.db.RefersToArchived .tasks row
  | .commitFinding _ finding _ => ¬ w.db.RefersToArchived .findings finding
  | .update d id columns => ¬ w.db.RefersToArchived d ⟨id, columns⟩
  | _ => True

/-! ## What a step does -/

variable {pg : Postgres} {w w' : World Id} {d : Detail} {row : Row Id}

/-- One row is written, and its new content is committed. -/
structure Writes (w w' : World Id) (d : Detail) (row : Row Id) : Prop where
  live : ∀ d' other, other ∈ (w'.db.tables d').rows ↔
    (d' = d ∧ other = row) ∨ (other ∈ (w.db.tables d').rows ∧ ¬ (d' = d ∧ other.id = row.id))
  committed : ∀ d' other, other ∈ (w'.committed d').rows ↔
    (d' = d ∧ other = row) ∨ (other ∈ (w.committed d').rows ∧ ¬ (d' = d ∧ other.id = row.id))
  plans : w'.db.plans = w.db.plans
  archived : w'.db.archived = w.db.archived
  tx : w'.tx = w.tx

/-- What holds of every state of a run: a row of a table has its last committed content, and an open
archive has its plan and still marks it. -/
structure Inv (w : World Id) : Prop where
  live : ∀ d, ∀ row ∈ (w.db.tables d).rows, row ∈ (w.committed d).rows
  plan : ∀ tx sts, w.tx = some (tx, sts) →
    (∃ plan ∈ w.db.plans.rows, plan.id = tx.planId) ∧ (tx.marked = true ∨ .markArchived ∈ sts)

omit [DecidableEq Id] in
/-- The writers that are left do not matter to what is written. -/
theorem Writes.writers (h : Writes w w' d row) (writers : List (Writer Id)) :
    Writes w { w' with writers } d row :=
  ⟨h.live, h.committed, h.plans, h.archived, h.tx⟩

omit [DecidableEq Id] in
/-- A row that is written has its last committed content. -/
theorem Writes.inv (h : Writes w w' d row) (hw : Inv w) : Inv w' := by
  constructor
  · intro d' other hother
    rw [h.committed]
    rcases (h.live d' other).1 hother with hnew | ⟨hold, hne⟩
    · exact Or.inl hnew
    · exact Or.inr ⟨hw.live d' other hold, hne⟩
  · intro tx sts htx
    rw [h.plans]
    exact hw.plan tx sts (h.tx ▸ htx)

omit [DecidableEq Id] in
/-- A state whose tables are those of a state before it, with an archive that has its plan. -/
theorem Inv.of_eq (hw : Inv w) (hdb : w'.db = w.db) (hcommitted : w'.committed = w.committed)
    (hplan : ∀ tx sts, w'.tx = some (tx, sts) →
      (∃ plan ∈ w.db.plans.rows, plan.id = tx.planId) ∧ (tx.marked = true ∨ .markArchived ∈ sts)) :
    Inv w' := by
  refine ⟨?_, ?_⟩
  · rw [hdb, hcommitted]
    exact hw.live
  · rw [hdb]
    exact hplan

omit [DecidableEq Id] in
/-- A row that is written refers to the same archived plans after it. -/
theorem Writes.refersToArchived_iff (h : Writes w w' d row) {d' : Detail} {other : Row Id} :
    w'.db.RefersToArchived d' other ↔ w.db.RefersToArchived d' other := by
  rw [ArchiveDb.RefersToArchived, ArchiveDb.RefersToArchived, h.plans]

omit [DecidableEq Id] in
/-- The row that is written is there. -/
theorem Writes.mem (h : Writes w w' d row) : row ∈ (w'.db.tables d).rows :=
  (h.live d row).2 (Or.inl ⟨rfl, rfl⟩)

omit [DecidableEq Id] in
/-- A row that is written keeps the others, and is as it should be when it refers to no archived plan.
-/
theorem Writes.safe (h : Writes w w' d row) (hs : Safe pg w) (hrow : ¬ w.db.RefersToArchived d row) :
    Safe pg w' := by
  constructor
  · intro d' other hother
    rcases (h.committed d' other).1 hother with ⟨rfl, rfl⟩ | ⟨hold, hne⟩
    · exact Or.inl h.mem
    · rw [h.live, h.archived]
      rcases hs.kept d' other hold with hlive | hcopied
      · exact Or.inl (Or.inr ⟨hlive, hne⟩)
      · exact Or.inr hcopied
  · intro d' other hother
    rw [h.refersToArchived_iff]
    rcases (h.live d' other).1 hother with ⟨rfl, rfl⟩ | ⟨hold, -⟩
    · exact hrow
    · exact hs.attached d' other hold

end AlsaqiBackend.Archive
