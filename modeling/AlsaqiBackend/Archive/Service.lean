import AlsaqiBackend.Lib.Checks
import AlsaqiBackend.Lib.Table
import Mathlib.Algebra.Order.Ring.Int
import Mathlib.Logic.Function.Basic

/-!
# ArchiveService

`archivePlan` copies the rows of a plan to the archive as JSON, deletes them, and marks the plan, in one
transaction. The transaction is given statement by statement (`Statement.exec`), on the rows that are
committed and on what the transaction itself has done so far (`ArchiveTx`), so that the same statements
can be run one after the other, or with the commits of others between them.

A database has one of two definitions of the tables (`Schema`): the one of `database/schema.sql`, whose
`CHECK` on `audit_plans.status` has no `'Archived'`, or the one that the server's own migrations create.
-/

namespace AlsaqiBackend.Archive

open AlsaqiBackend.Lib

/-! ## Tables -/

/-- What has created the tables. -/
inductive Schema
  | schemaSql
  | migrations
  deriving DecidableEq, Repr

inductive OnDelete
  | cascade
  | noAction
  deriving DecidableEq, Repr

/-- The tables of a plan's details. -/
inductive Detail
  | tasks
  | findings
  | recommendations
  | evidence
  deriving DecidableEq, Repr

def Detail.all : List Detail := [tasks, findings, recommendations, evidence]

theorem Detail.mem_all (d : Detail) : d ∈ Detail.all := by
  cases d <;> decide

/-- The tables whose rows refer to a task or a finding, and that `archivePlan` does not mention. -/
inductive LinkTable
  | taskAssignments
  | findingRisks
  | findingCompliance
  deriving DecidableEq, Repr

/-- The table that the rows of a link table refer to. -/
def LinkTable.owner : LinkTable → Detail
  | taskAssignments => .tasks
  | findingRisks => .findings
  | findingCompliance => .findings

def LinkTable.all : List LinkTable := [taskAssignments, findingRisks, findingCompliance]

theorem LinkTable.mem_all (link : LinkTable) : link ∈ LinkTable.all := by
  cases link <;> decide

/-- What a foreign key of a link table says of a row that is deleted. -/
def Schema.onDelete : Schema → LinkTable → OnDelete
  | .schemaSql, .taskAssignments => .cascade
  | .schemaSql, .findingRisks => .cascade
  | .schemaSql, .findingCompliance => .cascade
  | .migrations, .taskAssignments => .cascade
  | .migrations, .findingRisks => .noAction
  | .migrations, .findingCompliance => .cascade

/-- The `CHECK` of `audit_plans.status`, where there is one. -/
def Schema.planStatuses : Schema → Option (List String)
  | .schemaSql => some ["Planned", "Fieldwork", "Reporting", "Closed"]
  | .migrations => none

/-- Whether a plan can have the status. -/
def Schema.allowsStatus (schema : Schema) (status : String) : Bool :=
  schema.planStatuses.all fun statuses => status ∈ statuses

/-- A value of a column; a timestamp is counted in microseconds. -/
inductive Value (Id : Type)
  | null
  | bool (b : Bool)
  | int (n : ℤ)
  | text (t : String)
  | uuid (id : Id)
  | date (day : ℤ)
  | timestamp (micros : ℤ)
  deriving DecidableEq, Repr

structure Row (Id : Type) where
  id : Id
  columns : String → Value Id

/-- A row of a link table. -/
structure Link (Id : Type) where
  owner : Id
  columns : String → Value Id

/-- A value of a JSON object; an instant is written with its milliseconds. -/
inductive Json (Id : Type)
  | null
  | bool (b : Bool)
  | int (n : ℤ)
  | text (t : String)
  | uuid (id : Id)
  | iso (millis : ℤ)
  deriving DecidableEq, Repr

/-- The object of a row. -/
structure Data (Id : Type) where
  id : Id
  columns : String → Json Id

/-- A row of one of the tables `archived_tasks`, `archived_findings`, `archived_recommendations` and
`archived_evidence`. -/
structure Copy (Id : Type) where
  originalId : Id
  planId : Id
  data : Data Id

/-- A row of `archived_plans`. -/
structure PlanCopy (Id : Type) where
  originalPlanId : Id
  planData : Data Id
  year : ℤ
  archivedBy : Id

structure ArchiveDb (Id : Type) where
  plans : Keyed (@Row.id Id)
  tables : Detail → Keyed (@Row.id Id)
  links : LinkTable → List (Link Id)
  archivedPlans : List (PlanCopy Id)
  archived : Detail → List (Copy Id)

/-- What PostgreSQL and its driver decide: the definition of the tables, the time, and the instants that
the driver makes of a `DATE` and of a timestamp, in milliseconds. -/
structure Postgres where
  schema : Schema
  now : ℤ
  midnight : ℤ → ℤ
  millis : ℤ → ℤ

variable {Id : Type}

namespace Postgres

/-- A value of a row that was read, as `JSON.stringify` writes it. -/
def toJson (pg : Postgres) : Value Id → Json Id
  | .null => .null
  | .bool b => .bool b
  | .int n => .int n
  | .text t => .text t
  | .uuid id => .uuid id
  | .date day => .iso (pg.midnight day)
  | .timestamp micros => .iso (pg.millis micros)

/-- `JSON.stringify` of a row. -/
def stringify (pg : Postgres) (row : Row Id) : Data Id :=
  ⟨row.id, fun column => pg.toJson (row.columns column)⟩

/-- A JSON value says what the value of the column is. -/
def Denotes (pg : Postgres) : Json Id → Value Id → Prop
  | .iso m, .timestamp micros => m * 1000 = micros
  | .iso m, .date day => m = pg.midnight day
  | .null, .null => True
  | .bool b, .bool b' => b = b'
  | .int n, .int n' => n = n'
  | .text t, .text t' => t = t'
  | .uuid id, .uuid id' => id = id'
  | _, _ => False

/-- The data of a copy equals the row. -/
def Equals (pg : Postgres) (data : Data Id) (row : Row Id) : Prop :=
  data.id = row.id ∧ ∀ column, pg.Denotes (data.columns column) (row.columns column)

/-- The driver keeps a value: a timestamp has no fraction of a millisecond that it drops. -/
def Keeps (pg : Postgres) : Value Id → Prop
  | .timestamp micros => pg.millis micros * 1000 = micros
  | _ => True

theorem denotes_toJson_iff (pg : Postgres) (value : Value Id) :
    pg.Denotes (pg.toJson value) value ↔ pg.Keeps value := by
  cases value with
  | timestamp micros => exact Iff.rfl
  | date day => exact iff_of_true rfl trivial
  | null => exact iff_of_true trivial trivial
  | bool b => exact iff_of_true rfl trivial
  | int n => exact iff_of_true rfl trivial
  | text t => exact iff_of_true rfl trivial
  | uuid id => exact iff_of_true rfl trivial

/-- The JSON of a row equals it exactly when the driver keeps its values. -/
theorem equals_stringify_iff (pg : Postgres) (row : Row Id) :
    pg.Equals (pg.stringify row) row ↔ ∀ column, pg.Keeps (row.columns column) := by
  have hid : (pg.stringify row).id = row.id := rfl
  rw [Equals, and_iff_right hid]
  exact forall_congr' fun column => pg.denotes_toJson_iff (row.columns column)

/-- The copy that the archive gets of a row. -/
def copy (pg : Postgres) (planId : Id) (row : Row Id) : Copy Id := ⟨row.id, planId, pg.stringify row⟩

end Postgres

/-! ## Errors -/

inductive ArchiveError
  | forbidden (message : String)
  | notFound (message : String)
  | validation (message : String) (openCount : ℕ) (details : List (String × ℕ))
  /-- Any other `Error`. -/
  | failure (message : String)
  /-- A statement fails, with a text of the database. -/
  | database (message : String)
  deriving DecidableEq, Repr

/-- The word of the messages for all rows of a table, and for one. -/
def Detail.words : Detail → String × String
  | tasks => ("المهام", "مهمة")
  | findings => ("الملاحظات", "ملاحظة")
  | recommendations => ("التوصيات", "توصية")
  | evidence => ("الأدلة", "دليل")

/-- The statuses of a row that needs no more work. -/
def Detail.closedStatuses : Detail → List String
  | tasks => ["completed"]
  | findings => ["Closed"]
  | recommendations => ["Implemented", "Closed"]
  | evidence => []

/-- The status is another one; a status that is `NULL` is none. -/
def isOpen (d : Detail) (row : Row Id) : Bool :=
  match row.columns "status" with
  | .text status => status ∉ d.closedStatuses
  | _ => false

/-- The text of a status. -/
def statusText (row : Row Id) : String :=
  match row.columns "status" with
  | .text status => status
  | _ => "null"

/-- `GROUP BY status`; SQL leaves the order of the groups open. -/
def groupByStatus (rows : List (Row Id)) : List (String × ℕ) :=
  (rows.map statusText).dedup.map fun status => (status, (rows.map statusText).count status)

/-- The error for rows that still need work. -/
def openError (d : Detail) (rows : List (Row Id)) : ArchiveError :=
  let details := groupByStatus rows
  let parts := details.map fun (status, count) => s!"{count} {d.words.2} بحالة \"{status}\""
  let detailStr := "، ".intercalate parts
  .validation s!"يجب إغلاق جميع {d.words.1} قبل الأرشفة. توجد عناصر مفتوحة: {detailStr}" rows.length details

/-- The error for copies that are missing. -/
def incompleteError (d : Detail) : ArchiveError :=
  .failure s!"فشل التحقق من اكتمال نسخ {d.words.1} إلى الأرشيف"

/-! ## The transaction -/

/-- What the transaction of `archivePlan` knows and has done: the plan and the rows that its `SELECT`s
gave, for each of which a copy is inserted, the rows that each `DELETE` has found, and the ids of those
it has deleted. -/
structure ArchiveTx (Id : Type) where
  planId : Id
  userId : Id
  plan : Row Id
  planCopies : List (PlanCopy Id)
  read : Detail → List (Row Id)
  scanned : Detail → List (Row Id)
  deleted : Detail → List Id
  marked : Bool

variable [DecidableEq Id]

/-- The condition of the statements on a table: a recommendation is selected by its finding. -/
def belongs (planId : Id) (findings : List (Row Id)) : Detail → Row Id → Bool
  | .tasks, row => row.columns "plan_id" = .uuid planId
  | .findings, row => row.columns "audit_id" = .uuid planId
  | .recommendations, row => findings.any fun finding =>
      finding.columns "audit_id" = .uuid planId && row.columns "finding_id" = .uuid finding.id
  | .evidence, row => row.columns "audit_id" = .uuid planId

/-- A row that a `DELETE` has found and that has changed since is looked at again, a recommendation with
the finding that it was found by. -/
def stillMatches (planId : Id) (d : Detail) (found row : Row Id) : Bool :=
  match d with
  | .recommendations => row.columns "finding_id" = found.columns "finding_id"
  | _ => belongs planId [] d row

namespace ArchiveTx

variable (tx : ArchiveTx Id) (db : ArchiveDb Id)

/-- The rows that the transaction sees. -/
def rows (d : Detail) : List (Row Id) := (db.tables d).rows.filter fun row => row.id ∉ tx.deleted d

/-- The rows of the plan, as the transaction sees them. -/
def selected (d : Detail) : List (Row Id) :=
  (tx.rows db d).filter (belongs tx.planId (tx.rows db .findings) d)

/-- The rows that a `DELETE` deletes of those it has found. -/
def targets (d : Detail) : List (Row Id) :=
  (tx.rows db d).filter fun row =>
    (tx.scanned d).any fun found => found.id = row.id && stillMatches tx.planId d found row

/-- A foreign key does not let the rows be deleted. -/
def restricted (schema : Schema) (d : Detail) (ids : List Id) : Bool :=
  (d = .findings && ([.recommendations, .evidence] : List Detail).any fun d' =>
    (tx.rows db d').any fun row => ids.any fun id => row.columns "finding_id" = .uuid id) ||
  LinkTable.all.any fun link => link.owner = d && schema.onDelete link = .noAction &&
    (db.links link).any fun row => row.owner ∈ ids

end ArchiveTx

/-- The statements of the transaction after the one that reads the plan. A `DELETE` finds its rows in a
snapshot of its own, and then waits for each of them. -/
inductive Statement
  | checkOpen (d : Detail)
  | copyPlan
  /-- `SELECT`, and an `INSERT` for each row. -/
  | copy (d : Detail)
  | verify (d : Detail)
  | scan (d : Detail)
  | delete (d : Detail)
  | markArchived
  deriving DecidableEq, Repr

/-- The tables whose rows have to be closed. -/
def checkedDetails : List Detail := [.tasks, .findings, .recommendations]

def deleteStatements : List Statement :=
  [.scan .evidence, .delete .evidence, .scan .recommendations, .delete .recommendations,
    .scan .findings, .delete .findings, .scan .tasks, .delete .tasks]

/-- The statements of `archivePlan`. -/
def archiveStatements : List Statement :=
  checkedDetails.map .checkOpen ++ .copyPlan :: (Detail.all.map .copy ++ (Detail.all.map .verify ++
    (deleteStatements ++ [.markArchived])))

/-- A statement, where the rows of `db` are committed. -/
def Statement.exec (pg : Postgres) (db : ArchiveDb Id) (tx : ArchiveTx Id) :
    Statement → Except ArchiveError (ArchiveTx Id)
  | .checkOpen d =>
    if (tx.selected db d).filter (isOpen d) = [] then .ok tx
    else .error (openError d ((tx.selected db d).filter (isOpen d)))
  | .copyPlan =>
    match tx.plan.columns "year" with
    | .int year => .ok { tx with planCopies := [⟨tx.planId, pg.stringify tx.plan, year, tx.userId⟩] }
    | _ => .error (.database "null value in column \"year\" of relation \"archived_plans\"")
  | .copy d => .ok { tx with read := Function.update tx.read d (tx.selected db d) }
  | .verify d =>
    let copies := db.archived d ++ (tx.read d).map (pg.copy tx.planId)
    if (copies.filter fun copy => copy.planId = tx.planId).length = (tx.read d).length then .ok tx
    else .error (incompleteError d)
  | .scan d => .ok { tx with scanned := Function.update tx.scanned d (tx.selected db d) }
  | .delete d =>
    let ids := (tx.targets db d).map Row.id
    let tx := { tx with deleted := Function.update tx.deleted d (tx.deleted d ++ ids) }
    if tx.restricted db pg.schema d ids then
      .error (.database "update or delete violates foreign key constraint")
    else .ok tx
  | .markArchived =>
    if pg.schema.allowsStatus "Archived" then .ok { tx with marked := true }
    else .error (.database "new row for relation \"audit_plans\" violates check constraint")

/-- The transaction has read its plan. -/
def ArchiveTx.start (planId userId : Id) (plan : Row Id) : ArchiveTx Id :=
  ⟨planId, userId, plan, [], fun _ => [], fun _ => [], fun _ => [], false⟩

/-- The `SELECT` of the plan, and the one that looks for the reason when it gives nothing. -/
def beginArchive (db : ArchiveDb Id) (planId userId : Id) : Except ArchiveError (ArchiveTx Id) :=
  match db.plans.rows.find? fun plan => plan.id = planId && plan.columns "is_archived" = .bool false with
  | some plan => .ok (ArchiveTx.start planId userId plan)
  | none =>
    if db.plans.rows.any fun plan => plan.id = planId && plan.columns "is_archived" = .bool true then
      .error (.notFound "الخطة مؤرشفة مسبقاً")
    else .error (.notFound "الخطة غير موجودة أو مؤرشفة مسبقاً")

/-- The columns that `UPDATE audit_plans` sets. -/
def markColumns (pg : Postgres) (userId : Id) (columns : String → Value Id) (column : String) : Value Id :=
  if column = "is_archived" then .bool true
  else if column = "archived_at" then .timestamp pg.now
  else if column = "archived_by" then .uuid userId
  else if column = "status" then .text "Archived"
  else columns column

theorem markColumns_isArchived (pg : Postgres) (userId : Id) (columns : String → Value Id) :
    markColumns pg userId columns "is_archived" = .bool true := if_pos rfl

/-- The transaction is committed. -/
def ArchiveTx.commit (pg : Postgres) (tx : ArchiveTx Id) (db : ArchiveDb Id) : ArchiveDb Id where
  plans := db.plans.update (fun plan => tx.marked && plan.id = tx.planId)
    (fun plan => { plan with columns := markColumns pg tx.userId plan.columns }) fun _ => rfl
  tables d := (db.tables d).delete fun row => row.id ∈ tx.deleted d
  links link := (db.links link).filter fun row => row.owner ∉ tx.deleted link.owner
  archivedPlans := db.archivedPlans ++ tx.planCopies
  archived d := db.archived d ++ (tx.read d).map (pg.copy tx.planId)

/-! ## archivePlan -/

/-- The points where the database can fail for another reason. -/
inductive Point
  | readPlan
  | statement (st : Statement)
  | commit
  /-- The `SELECT` of the year, after the transaction. -/
  | readYear
  deriving DecidableEq, Repr

/-- What the database answers at a point. -/
def reach (fails : Point → Option String) (point : Point) : Except ArchiveError Unit :=
  match fails point with
  | some message => .error (.database message)
  | none => .ok ()

/-- The statements, with no other transaction between them. -/
def runStatements (pg : Postgres) (fails : Point → Option String) (db : ArchiveDb Id) :
    List Statement → ArchiveTx Id → Except ArchiveError (ArchiveTx Id)
  | [], tx => .ok tx
  | st :: sts, tx => do
    reach fails (.statement st)
    let tx ← st.exec pg db tx
    runStatements pg fails db sts tx

/-- The transaction of `archivePlan`. -/
def archiveTransaction (pg : Postgres) (fails : Point → Option String) (planId userId : Id)
    (db : ArchiveDb Id) : Except ArchiveError (ArchiveDb Id) := do
  reach fails .readPlan
  let tx ← beginArchive db planId userId
  let tx ← runStatements pg fails db archiveStatements tx
  reach fails .commit
  return tx.commit pg db

def allowedRoles : List String := ["Manager", "Admin"]

/-- The result, and the database after it. What `sendArchiveEventWithRetry` sends changes neither. -/
def archivePlan (pg : Postgres) (fails : Point → Option String) (planId userId : Id) (userRole : String)
    (db : ArchiveDb Id) : Except ArchiveError Unit × ArchiveDb Id :=
  if userRole ∉ allowedRoles then
    (.error (.forbidden "ليس لديك صلاحية الأرشفة. يجب أن تكون مديراً أو مسؤولاً."), db)
  else
    match archiveTransaction pg fails planId userId db with
    | .error e => (.error e, db)
    | .ok archived => (reach fails .readYear, archived)

end AlsaqiBackend.Archive
