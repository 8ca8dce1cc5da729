import AlsaqiBackend.Audit.Append
import AlsaqiBackend.Events.Operations
import AlsaqiBackend.Lib.OrderedMap
import AlsaqiBackend.Lib.Table

/-!
# Rows that are written by name

`BaseService` and `BulkOperationsService` over tables that are given by their name. What PostgreSQL
decides is a parameter: the ids that a value is read as, the defaults of the columns, the id of a new
row, and which statements fail.
-/

namespace AlsaqiBackend.Records

open AlsaqiBackend.Lib AlsaqiBackend.Audit
open AlsaqiBackend.Events (SOFT_DELETE_TABLES codeColumns isIdentifier)

/-! ## Values and rows -/

/-- A value of a body or of a column. -/
inductive Value
  | null
  | bool (b : Bool)
  /-- A number, by the text that JavaScript writes for it. -/
  | num (text : String)
  | text (t : String)
  /-- An object or an array, by its JSON text and the one that a template makes of it. -/
  | json (json template : String)
  deriving DecidableEq, Repr

namespace Value

/-- Whether the value counts as true. -/
def truthy : Value → Bool
  | null => false
  | bool b => b
  | num t => t ≠ "0"
  | text t => t ≠ ""
  | json _ _ => true

/-- The value in a template. -/
def template : Value → String
  | null => "null"
  | bool b => if b then "true" else "false"
  | num t => t
  | text t => t
  | json _ t => t

end Value

/-- The fields of an object, in their order. -/
abbrev Body := OrderedMap String Value

/-- A row; the timestamps are columns. -/
structure Row (Id : Type) where
  id : Id
  columns : String → Value

/-- `deleted_at IS NULL`. -/
def Row.isLive {Id : Type} (row : Row Id) : Bool := row.columns "deleted_at" = .null

/-- The rows of a table, without a repeated primary key. -/
structure Table (Id : Type) where
  rows : List (Row Id)
  nodup : (rows.map Row.id).Nodup

/-- The tables by their names. -/
abbrev Tables (Id : Type) := String → Table Id

/-- What PostgreSQL makes of values: the id that one is read as, and the default of a column. -/
structure Postgres (Id : Type) where
  parseId : Value → Option Id
  default : String → String → Value

/-- What PostgreSQL adds to a statement: the id of a new row, the time, and the text with which it
fails. -/
structure Slot (Id : Type) where
  id : Id
  now : String
  fails : Option String

inductive ServiceError
  | validation (message : String) (rejectedKeys : List String)
  | itemErrors (errors : List (ℕ × List String))
  | notFound (message : String)
  /-- Any other `Error`. -/
  | failure (message : String)
  /-- A statement fails, with a text of the database. -/
  | database (message : String)
  /-- An item of a batch fails. -/
  | processing (index : ℕ) (cause : ServiceError)
  deriving DecidableEq, Repr

/-- The text of an error. -/
def ServiceError.message : ServiceError → String
  | .validation message _ => message
  | .itemErrors _ => "Batch validation failed: one or more items have errors"
  | .notFound message => message
  | .failure message => message
  | .database message => message
  | .processing index cause =>
    let message := if cause.message = "" then "Unknown error" else cause.message
    s!"Processing failed at item index {index}: {message}"

namespace Table

variable {Id : Type}

/-- `UPDATE` of the columns of the rows that a condition selects. -/
def update (p : Row Id → Bool) (f : (String → Value) → String → Value) (table : Table Id) : Table Id where
  rows := updateWhere p (fun row => { row with columns := f row.columns }) table.rows
  nodup := by
    have hids : (updateWhere p (fun row => { row with columns := f row.columns }) table.rows).map Row.id =
        table.rows.map Row.id := map_key_updateWhere fun _ => rfl
    exact hids ▸ table.nodup

/-- `DELETE` of the rows that a condition selects. -/
def delete (p : Row Id → Bool) (table : Table Id) : Table Id where
  rows := table.rows.filter fun row => !p row
  nodup := table.nodup.sublist (List.filter_sublist.map Row.id)

variable [DecidableEq Id]

/-- `INSERT`; a primary key that is taken fails. -/
def insert (row : Row Id) (table : Table Id) : Option (Table Id) :=
  if h : row.id ∈ table.rows.map Row.id then none
  else some ⟨table.rows ++ [row], by
    rw [List.map_append, List.map_singleton, ← List.concat_eq_append]
    exact table.nodup.concat h⟩

end Table

/-! ## Columns -/

/-- The columns of each table that a body may write. -/
def TABLE_WRITE_SCHEMAS : List (String × List String) :=
  [("audit_programs", ["program_code", "program_title", "audit_area", "department", "audit_type",
      "audit_objective", "audit_scope", "key_risks", "control_objectives", "reference_standard",
      "status", "version_number"]),
    ("audit_plans", ["plan_code", "program_id", "title", "department", "type", "risk_rating",
      "planned_start_date", "planned_end_date", "status", "lead_auditor", "team_members",
      "objectives", "scope", "notes", "year", "quarter", "is_archived"]),
    ("audit_tasks", ["task_number", "title", "plan_id", "program_id", "task_type", "audit_type",
      "status", "assigned_to", "audited_unit_id", "planned_hours", "actual_hours", "period_from",
      "period_to", "due_date"]),
    ("audit_findings", ["audit_id", "finding_number", "title", "finding_type", "description",
      "criteria", "condition", "cause", "consequence", "impact", "root_cause", "recommendation",
      "risk_level", "status", "responsible_unit_id", "risk_id"]),
    ("recommendations", ["finding_id", "plan_id", "rec_number", "department", "responsible",
      "responsible_person_id", "action_plan", "due_date", "follow_up_date", "status", "risk_level",
      "priority", "closure_evidence_path"]),
    ("risk_register", ["risk_id", "description", "owner", "source", "early_warning", "type",
      "likelihood", "impact", "score", "rating", "controls", "control_assessment", "mitigation",
      "treatment_option", "residual_likelihood", "residual_impact", "residual_score",
      "residual_rating", "status", "target_date", "review_date", "notes", "entry_date",
      "entered_by", "likelihood_num", "impact_num"]),
    ("compliance_items", ["ref_number", "title", "source_type", "issuing_authority", "category",
      "issue_date", "effective_date", "review_date", "compliance_status", "maturity_score",
      "gap_notes", "responsible_person_id", "department_id", "description", "keywords", "version",
      "attachment_path"]),
    ("central_bank_instructions", ["title", "issue_date", "reference_number", "category",
      "description", "related_department", "attachment", "status", "related_instruction_id"]),
    ("law_bank", ["title", "type", "authority", "issue_date", "keywords", "bookmarked",
      "file_url"]),
    ("departments", ["name", "description"])]

/-- `getColumnWhitelist`. -/
def getColumnWhitelist (tableName : String) : List String :=
  (TABLE_WRITE_SCHEMAS.lookup tableName).getD []

/-- `checkWhitelist`: the keys that are rejected. -/
def checkWhitelist (tableName : String) (body : Body) : List String :=
  body.keys.filter fun key => key ∉ getColumnWhitelist tableName

/-- A key of an id, by its name. -/
def isIdKey (key : String) : Bool :=
  "_id".toList.isSuffixOf key.toList || key = "id" ||
    key.toList.tails.any fun rest => "uuid".toList.isPrefixOf rest

/-- `sanitizeBody`. -/
def sanitizeBody (body : Body) : Body :=
  body.mapValues fun key value => if value = .text "" && isIdKey key then .null else value

/-- `validateIdentifier` of each of the names. -/
def validateIdentifiers (names : List String) : Except ServiceError Unit :=
  match names.find? fun name => !isIdentifier name with
  | some name => .error (.failure s!"Invalid database identifier: {name}")
  | none => .ok ()

/-- Identifiers alone pass. -/
theorem validateIdentifiers_eq_ok {names : List String} :
    validateIdentifiers names = .ok () ↔ ∀ name ∈ names, Events.isIdentifier name = true := by
  rw [validateIdentifiers]
  cases hfind : names.find? fun name => !Events.isIdentifier name with
  | none => simpa using List.find?_eq_none.1 hfind
  | some name =>
    have hname := List.find?_some hfind
    refine iff_of_false (by simp) fun hall => ?_
    rw [hall name (List.mem_of_find?_eq_some hfind)] at hname
    exact absurd hname (by simp)

/-- The columns of a new row. -/
def newColumns {Id : Type} (pg : Postgres Id) (tableName : String) (body : Body) (now : String)
    (column : String) : Value :=
  match body.get column with
  | some value => value
  | none =>
    if column = "deleted_at" then .null
    else if column = "created_at" ∨ column = "updated_at" then .text now
    else pg.default tableName column

/-- `SET` of the fields, with `updated_at`. -/
def setColumns (body : Body) (now : String) (columns : String → Value) (column : String) : Value :=
  if column = "updated_at" then .text now else (body.get column).getD (columns column)

/-- `SET deleted_at`. -/
def setDeletedAt (now : String) (columns : String → Value) : String → Value :=
  Function.update columns "deleted_at" (.text now)

/-! ## Statements -/

section Statements

variable {Id : Type} [DecidableEq Id]

/-- The tables that have the column `deleted_at`. -/
def hasDeletedAt (tableName : String) : Bool :=
  tableName ∈ SOFT_DELETE_TABLES || tableName = "outgoing_correspondence"

/-- `INSERT … RETURNING id`. -/
def insertRow (pg : Postgres Id) (tables : Tables Id) (tableName : String) (body : Body)
    (slot : Slot Id) : Except ServiceError (Tables Id) :=
  match slot.fails with
  | some message => .error (.database message)
  | none =>
    match (tables tableName).insert ⟨slot.id, newColumns pg tableName body slot.now⟩ with
    | none => .error (.database "duplicate key value violates unique constraint")
    | some table => .ok (Function.update tables tableName table)

/-- The row of an id that a value is read as, where it has the property besides. -/
def selects (rowId : Id) (p : Row Id → Bool) (row : Row Id) : Bool := row.id = rowId && p row

/-- `UPDATE … WHERE id = ? … RETURNING id`, with the error where no row is returned. -/
def updateRow (pg : Postgres Id) (tables : Tables Id) (tableName : String) (id : Value)
    (p : Row Id → Bool) (f : (String → Value) → String → Value) (fails : Option String)
    (missing : ServiceError) : Except ServiceError (Tables Id) :=
  match fails, pg.parseId id with
  | some message, _ => .error (.database message)
  | none, none => .error (.database "invalid input syntax")
  | none, some rowId =>
    if (tables tableName).rows.any (selects rowId p) then
      .ok (Function.update tables tableName ((tables tableName).update (selects rowId p) f))
    else .error missing

/-- The same with `AND deleted_at IS NULL`, which fails without the column. -/
def updateLiveRow (pg : Postgres Id) (tables : Tables Id) (tableName : String) (id : Value)
    (f : (String → Value) → String → Value) (fails : Option String) (missing : ServiceError) :
    Except ServiceError (Tables Id) :=
  if hasDeletedAt tableName then updateRow pg tables tableName id Row.isLive f fails missing
  else .error (.database "column does not exist")

end Statements

/-! ## BaseService -/

namespace BaseService

variable {Id : Type} [DecidableEq Id]

/-- `findById`. -/
def findById (pg : Postgres Id) (tables : Tables Id) (tableName : String) (id : Value) :
    Except ServiceError (Row Id) := do
  validateIdentifiers [tableName]
  if !hasDeletedAt tableName then throw (.database "column does not exist")
  match pg.parseId id with
  | none => throw (.database "invalid input syntax")
  | some rowId =>
    match (tables tableName).rows.find? (selects rowId Row.isLive) with
    | none => throw (.notFound s!"{tableName} item with ID {id.template} not found")
    | some row => return row

/-- `KEYSET_TABLES`. -/
def isKeysetTable (tableName : String) : Bool :=
  tableName ∈ ["audit_findings", "audit_tasks", "audit_trail", "recommendations", "risk_register",
    "incoming_correspondence", "outgoing_correspondence", "correspondence_status_history",
    "file_access_logs", "request_logs"]

/-- `DEFAULT_KEYSET_PAGE_SIZE` and `DEFAULT_PAGE_SIZE`. -/
def defaultPageSize (tableName : String) : ℕ := if isKeysetTable tableName then 25 else 20

/-- The `data` that `findAll` returns by default; `before` is the order of the query. -/
def findAll (before : Row Id → Row Id → Bool) (tables : Tables Id) (tableName : String) :
    Except ServiceError (List (Row Id)) := do
  validateIdentifiers [tableName]
  if !hasDeletedAt tableName then throw (.database "column does not exist")
  return (((tables tableName).rows.filter Row.isLive).mergeSort before).take
    (defaultPageSize tableName)

/-- The fields of `create`, with the code that is generated for a table of codes. -/
def withCode (tableName : String) (code : Option String) (body : Body) : Body :=
  match codeColumns.lookup tableName, orElse code none with
  | some codeCol, some code =>
    if (body.get codeCol).any Value.truthy then body else body.set codeCol (.text code)
  | _, _ => body

/-- The whitelist of a table rejects keys of the body. -/
def checkKeys (tableName : String) (data : Body) : Except ServiceError Unit :=
  let rejectedKeys := checkWhitelist tableName data
  let keys := ", ".intercalate rejectedKeys
  if rejectedKeys = [] then .ok ()
  else .error
    (.validation s!"The following fields are not permitted for {tableName}: {keys}" rejectedKeys)

/-- The names of a statement: identifiers, and one column at least. -/
def checkNames (tableName : String) (body : Body) (empty : String) : Except ServiceError Unit := do
  validateIdentifiers body.keys
  if body.keys = [] then throw (.validation empty [])
  validateIdentifiers [tableName]

/-- `create`; `code` is what `AppCodeGenerator` generates. -/
def create (pg : Postgres Id) (tables : Tables Id) (tableName : String) (data : Body)
    (code : Option String) (slot : Slot Id) : Except ServiceError (Tables Id) := do
  checkKeys tableName data
  let body := withCode tableName code (sanitizeBody data)
  checkNames tableName body "No data provided for creation"
  insertRow pg tables tableName body slot

/-- The checks of `update`, and its fields. -/
def checkUpdate (tableName : String) (data : Body) : Except ServiceError Body := do
  checkKeys tableName data
  let body := sanitizeBody data
  checkNames tableName body "No data provided for update"
  return body

/-- There is no row of the id. -/
def missing (tableName : String) (id : Value) : ServiceError :=
  .notFound s!"{tableName} item with ID {id.template} not found"

/-- `update`: its statement does not look at `deleted_at`. -/
def update (pg : Postgres Id) (tables : Tables Id) (tableName : String) (id : Value) (data : Body)
    (now : String) (fails : Option String) : Except ServiceError (Tables Id) := do
  let body ← checkUpdate tableName data
  updateRow pg tables tableName id (fun _ => true) (setColumns body now) fails (missing tableName id)

/-- `delete`; a table that has no soft deletion loses the row. -/
def delete (pg : Postgres Id) (tables : Tables Id) (tableName : String) (id : Value) (now : String)
    (fails : Option String) : Except ServiceError (Tables Id) := do
  validateIdentifiers [tableName]
  if tableName ∈ SOFT_DELETE_TABLES then
    updateLiveRow pg tables tableName id (setDeletedAt now) fails (missing tableName id)
  else
    match fails, pg.parseId id with
    | some message, _ => throw (.database message)
    | none, none => throw (.database "invalid input syntax")
    | none, some rowId =>
      return Function.update tables tableName ((tables tableName).delete (selects rowId fun _ => true))

end BaseService

/-! ## BulkOperationsService -/

inductive BulkOperation
  | create
  | update
  | delete
  /-- A text that is none of them. -/
  | other (name : String)
  deriving DecidableEq, Repr

/-- The operation in a text. -/
def BulkOperation.name : BulkOperation → String
  | create => "create"
  | update => "update"
  | delete => "delete"
  | other name => name

/-- An item of a batch: an object, or anything else. -/
inductive BulkItem
  | object (fields : Body)
  | nonObject

/-- The fields of an item. -/
def BulkItem.fields : BulkItem → Body
  | object fields => fields
  | nonObject => .empty

/-- `item.id`. -/
def BulkItem.id (item : BulkItem) : Option Value := item.fields.get "id"

/-- The fields of an item besides its id. -/
def BulkItem.data (item : BulkItem) : Body := item.fields.filterKeys (· ≠ "id")

/-- The id in a result: a new one, or that of the item. -/
inductive ResultId (Id : Type)
  | new (id : Id)
  | given (value : Value)
  deriving DecidableEq, Repr

structure BulkItemResult (Id : Type) where
  index : ℕ
  id : ResultId Id
  success : Bool
  deriving DecidableEq, Repr

structure BulkOperationResponse (Id : Type) where
  processed : ℕ
  success : ℕ
  failed : ℕ
  details : List (BulkItemResult Id)
  deriving DecidableEq, Repr

/-- The rows of `audit_trail`, and the next value of its sequence. -/
structure Trail where
  table : List StoredRow
  nextSeq : ℤ
  deriving DecidableEq, Repr

/-- An append: its time, the id of its row, and the step before which it fails. -/
structure AppendEnv where
  now : ℤ
  rowId : String
  stop : Option (Fin 5)
  deriving DecidableEq, Repr

/-- The steps of an append without another one. -/
def appendSteps (entry : AuditEntryInput) (env : AppendEnv) : List AppendAction :=
  [.call 0 entry, .lock 0, .readTail env.now, .insert env.rowId, .commit]

/-- `AuditChainService.append`: whether it resolves, and the trail then. -/
def Trail.append (trail : Trail) (entry : AuditEntryInput) (env : AppendEnv) : Bool × Trail :=
  let idle : AppendState := ⟨trail.table, trail.nextSeq, [], none⟩
  match env.stop with
  | some k =>
    match run appendStep idle ((appendSteps entry env).take k ++ [.fail 0]) with
    | some s => (false, ⟨s.table, s.nextSeq⟩)
    | none => (false, trail)
  | none =>
    match run appendStep idle (appendSteps entry env) with
    | some s => (true, ⟨s.table, s.nextSeq⟩)
    | none => (false, trail)

/-- What a batch writes. -/
structure Store (Id : Type) where
  tables : Tables Id
  trail : Trail

/-- What happens outside of the services in a batch: whether its `BEGIN` or its `COMMIT` fails, what
PostgreSQL adds to the statement of each item, and the append. -/
structure BatchEnv (Id : Type) where
  beginFails : Option String
  slot : ℕ → Slot Id
  commitFails : Option String
  append : AppendEnv

namespace BulkOperationsService

def BULK_ALLOWED_RESOURCES : List (String × String) :=
  [("audit-plans", "audit_plans"), ("audit-tasks", "audit_tasks"),
    ("audit-programs", "audit_programs"), ("audit-procedures", "audit_procedures"),
    ("audit-evidence", "audit_evidence"), ("risk-register", "risk_register"),
    ("fraud-log", "fraud_log"), ("central-bank-instructions", "central_bank_instructions"),
    ("law-bank", "law_bank"), ("audit-reports", "audit_reports"),
    ("audit-findings", "audit_findings"), ("recommendations", "recommendations"),
    ("compliance-items", "compliance_items")]

def MIN_BATCH_SIZE : ℕ := 1

def MAX_BATCH_SIZE : ℕ := 100

/-- `validateBatchSize`. -/
def validateBatchSize (items : List BulkItem) : Except ServiceError Unit :=
  if items.length < MIN_BATCH_SIZE ∨ MAX_BATCH_SIZE < items.length then
    .error (.validation s!"Batch size must be between {MIN_BATCH_SIZE} and {MAX_BATCH_SIZE} items" [])
  else .ok ()

/-- The functions that every object inherits. -/
def inheritedFunctions : List String :=
  ["hasOwnProperty", "isPrototypeOf", "propertyIsEnumerable", "toLocaleString", "toString", "valueOf",
    "__defineGetter__", "__defineSetter__", "__lookupGetter__", "__lookupSetter__"]

/-- The text of a property that every object inherits. -/
def inheritedProperty (name : String) : Option String :=
  if name = "__proto__" then some "[object Object]"
  else if name = "constructor" then some "function Object() \x7b [native code] \x7d"
  else if name ∈ inheritedFunctions then some s!"function {name}() \x7b [native code] \x7d"
  else none

/-- `resolveTable`. An inherited property passes it, and is no identifier later. -/
def resolveTable (resource : String) : Except ServiceError String :=
  match (BULK_ALLOWED_RESOURCES.lookup resource).or (inheritedProperty resource) with
  | some tableName => .ok tableName
  | none => .error (.validation s!"Resource '{resource}' is not supported for bulk operations" [])

/-- The errors of an item. -/
def itemErrors (operation : BulkOperation) (item : BulkItem) : List String :=
  match item with
  | .nonObject => ["Item must be a non-null object"]
  | .object _ =>
    let noId := !(item.id.any Value.truthy)
    match operation with
    | .create =>
      if item.data.keys = [] then ["Item must have at least one field for creation"] else []
    | .update =>
      (if noId then ["Item must have an \"id\" field for update operations"] else []) ++
        if item.data.keys = [] then ["Item must have at least one field to update besides \"id\""]
        else []
    | .delete => if noId then ["Item must have an \"id\" field for delete operations"] else []
    | .other name => [s!"Unsupported operation: {name}"]

/-- `validateItems`: the items that have errors. -/
def validateItems (operation : BulkOperation) (items : List BulkItem) : List (ℕ × List String) :=
  (items.zipIdx.map fun item => (item.2, itemErrors operation item.1)).filter fun e => e.2 ≠ []

variable {Id : Type} [DecidableEq Id]

/-- The whitelist of a table rejects keys of an item. -/
def checkKeys (tableName : String) (body : Body) : Except ServiceError Unit :=
  let rejectedKeys := checkWhitelist tableName body
  if rejectedKeys = [] then .ok ()
  else .error (.validation s!"Restricted columns are not permitted for '{tableName}'" rejectedKeys)

/-- The columns that a create ignores. -/
def restrictedColumns : List String := ["id", "created_at", "updated_at"]

/-- The columns that an update ignores. -/
def immutableFields : List String :=
  ["id", "created_at", "updated_at", "plan_code", "program_code", "task_number", "finding_number",
    "rec_number", "risk_id", "employee_id"]

/-- The fields of an item that a create writes. -/
def createBody (data : Body) : Body := (sanitizeBody data).filterKeys (· ∉ restrictedColumns)

/-- The fields of an item that an update writes. -/
def updateBody (data : Body) : Body := (sanitizeBody data).filterKeys (· ∉ immutableFields)

/-- `processCreate`. -/
def processCreate (pg : Postgres Id) (tables : Tables Id) (tableName : String) (data : Body)
    (slot : Slot Id) : Except ServiceError (Tables Id) := do
  let body := createBody data
  checkKeys tableName body
  BaseService.checkNames tableName body "No data provided for creation"
  insertRow pg tables tableName body slot

/-- The checks of `processUpdate`. -/
def checkUpdate (tableName : String) (body : Body) : Except ServiceError Unit := do
  checkKeys tableName body
  BaseService.checkNames tableName body "No data provided for update"

/-- `processUpdate`. -/
def processUpdate (pg : Postgres Id) (tables : Tables Id) (tableName : String) (id : Value)
    (data : Body) (slot : Slot Id) : Except ServiceError (Tables Id) := do
  let body := updateBody data
  checkUpdate tableName body
  updateLiveRow pg tables tableName id (setColumns body slot.now) slot.fails
    (.failure s!"Record with ID {id.template} not found or is deleted")

/-- `processDelete`. -/
def processDelete (pg : Postgres Id) (tables : Tables Id) (tableName : String) (id : Value)
    (slot : Slot Id) : Except ServiceError (Tables Id) := do
  validateIdentifiers [tableName]
  updateLiveRow pg tables tableName id (setDeletedAt slot.now) slot.fails
    (.failure s!"Record with ID {id.template} not found or already deleted")

/-- One item, with its result. -/
def processItem (pg : Postgres Id) (operation : BulkOperation) (tableName : String)
    (tables : Tables Id) (i : ℕ) (item : BulkItem) (slot : Slot Id) :
    Except ServiceError (List (BulkItemResult Id) × Tables Id) :=
  let id := item.id.getD .null
  match operation with
  | .create => do
    let tables ← processCreate pg tables tableName item.fields slot
    return ([⟨i, .new slot.id, true⟩], tables)
  | .update => do
    let tables ← processUpdate pg tables tableName id item.data slot
    return ([⟨i, .given id, true⟩], tables)
  | .delete => do
    let tables ← processDelete pg tables tableName id slot
    return ([⟨i, .given id, true⟩], tables)
  | .other _ => return ([], tables)

/-- The items in turn, from an index on; the first one that fails ends it. -/
def processItems (pg : Postgres Id) (operation : BulkOperation) (tableName : String)
    (slot : ℕ → Slot Id) :
    ℕ → List BulkItem → Tables Id → Except ServiceError (List (BulkItemResult Id) × Tables Id)
  | _, [], tables => .ok ([], tables)
  | i, item :: items, tables =>
    match processItem pg operation tableName tables i item (slot i) with
    | .error cause => .error (.processing i cause)
    | .ok (result, tables) => do
      let (results, tables) ← processItems pg operation tableName slot (i + 1) items tables
      return (result ++ results, tables)

/-- The transaction of a batch. -/
def transaction (pg : Postgres Id) (operation : BulkOperation) (tableName : String)
    (items : List BulkItem) (tables : Tables Id) (env : BatchEnv Id) :
    Except ServiceError (List (BulkItemResult Id) × Tables Id) := do
  if let some message := env.beginFails then throw (.database message)
  let done ← processItems pg operation tableName env.slot 0 items tables
  if let some message := env.commitFails then throw (.database message)
  return done

/-- `execute` up to its commit, with the name of the table. -/
def executeBatch (pg : Postgres Id) (tables : Tables Id) (resource : String)
    (operation : BulkOperation) (items : List BulkItem) (env : BatchEnv Id) :
    Except ServiceError (String × List (BulkItemResult Id) × Tables Id) := do
  validateBatchSize items
  let tableName ← resolveTable resource
  let errors := validateItems operation items
  if errors ≠ [] then throw (.itemErrors errors)
  let done ← transaction pg operation tableName items tables env
  return (tableName, done)

/-- The entry of a batch. -/
def auditEntry (resource tableName username : String) (operation : BulkOperation) (count : ℕ) :
    AuditEntryInput where
  user := username
  action := s!"Bulk {operation.name}"
  module := resource
  details := s!"Bulk {operation.name} on {tableName}: {count} items processed"

/-- The response of a batch. -/
def response (details : List (BulkItemResult Id)) : BulkOperationResponse Id :=
  let successCount := (details.filter BulkItemResult.success).length
  ⟨details.length, successCount, details.length - successCount, details⟩

/-- `execute`: the entry is appended after the commit. -/
def execute (pg : Postgres Id) (store : Store Id) (resource : String) (operation : BulkOperation)
    (items : List BulkItem) (username : String) (env : BatchEnv Id) :
    Except ServiceError (BulkOperationResponse Id) × Store Id :=
  match executeBatch pg store.tables resource operation items env with
  | .error error => (.error error, store)
  | .ok (tableName, details, tables) =>
    match store.trail.append (auditEntry resource tableName username operation items.length)
        env.append with
    | (true, trail) => (.ok (response details), ⟨tables, trail⟩)
    | (false, trail) => (.error (.database "audit append failed"), ⟨tables, trail⟩)

end BulkOperationsService

end AlsaqiBackend.Records
