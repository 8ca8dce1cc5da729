import AlsaqiBackend.Lib.Run
import AlsaqiBackend.Permissions.Service
import AlsaqiBackend.Records.RouteFields

/-!
# Audit programs

The operations that write the status of an audit program: `createProgram`, `duplicate` and `approveProgram` of
`AuditProgramService`, and the routes `POST /audit-programs` and `PUT /audit-programs/:id`, whose bodies go to
`BaseService`. A call is cut where another one can change what it has read: a copy is inserted after its
original has been read, and an approval reads the permissions of the user in three queries and the status of
the program in another one before its `UPDATE`.
-/

namespace AlsaqiBackend.Programs

open AlsaqiBackend.Lib AlsaqiBackend.Permissions AlsaqiBackend.Records
open AlsaqiBackend.Users (Employee)

def TABLE_NAME : String := "audit_programs"

/-- `MODULES.AUDIT_PROGRAM_LIBRARY`. -/
def AUDIT_PROGRAM_LIBRARY : String := "AuditProgramLibrary"

/-- `ALLOWED_FIELDS` of the routes. -/
def ALLOWED_FIELDS : List String :=
  ["program_code", "program_title", "audit_area", "department", "audit_type", "audit_objective",
    "audit_scope", "key_risks", "control_objectives", "reference_standard", "status", "version_number",
    "created_by"]

/-- PostgreSQL with the columns of audit programs: a new program is not approved. The migrations give the column
`status` no default, and `schema.sql` gives it `'Draft'`. -/
structure ProgramPostgres (Id : Type) extends Postgres Id where
  status_default : default TABLE_NAME "status" ≠ .text "Approved"
  approvedBy_default : default TABLE_NAME "approved_by" = .null
  approvedAt_default : default TABLE_NAME "approved_at" = .null

/-! ## createProgram -/

structure CreateProgramInput where
  programCode : String
  programTitle : String
  auditArea : String
  department : String
  auditType : String
  auditObjective : String
  auditScope : String
  keyRisks : Option String
  referenceStandard : Option String
  riskIds : List String
  complianceItemIds : List String

inductive ProgramError
  | forbidden (message : String)
  | tooMany (message field : String) (max provided : ℕ)
  | duplicates (message field : String) (duplicates : List String)
  | missing (message field : String) (missing : List String)
  | notFound (message : String)
  | status (message : String) (currentStatus : Value) (allowedStatuses : List String)
  /-- A statement fails. -/
  | database
  deriving DecidableEq, Repr

/-- `ids.filter((id, idx) => ids.indexOf(id) !== idx)`. -/
def repeated (ids : List String) : List String :=
  (ids.zipIdx.filter fun e => ids.idxOf e.1 ≠ e.2).map Prod.fst

/-- The checks of `createProgram` in front of its transaction. -/
def checkInput (data : CreateProgramInput) (userRole : String) : Except ProgramError Unit :=
  if userRole ≠ "Internal Auditor" then
    .error (.forbidden "فقط المدقق الداخلي يمكنه إنشاء برامج التدقيق")
  else if 200 < data.riskIds.length then
    .error (.tooMany "لا يمكن ربط أكثر من 200 مخاطرة بالبرنامج" "risk_ids" 200 data.riskIds.length)
  else if 200 < data.complianceItemIds.length then
    .error (.tooMany "لا يمكن ربط أكثر من 200 معيار امتثال بالبرنامج" "compliance_item_ids" 200
      data.complianceItemIds.length)
  else if ¬data.riskIds.Nodup then
    .error (.duplicates "قائمة معرّفات المخاطر تحتوي على قيم مكررة" "risk_ids" (repeated data.riskIds))
  else if ¬data.complianceItemIds.Nodup then
    .error (.duplicates "قائمة معرّفات معايير الامتثال تحتوي على قيم مكررة" "compliance_item_ids"
      (repeated data.complianceItemIds))
  else .ok ()

/-- The ids that the two queries of the transaction find among those that the program is to be linked to. -/
structure FoundLinks where
  risks : List String
  complianceItems : List String

/-- The checks in the transaction. -/
def checkLinks (data : CreateProgramInput) (found : FoundLinks) : Except ProgramError Unit :=
  let missingRiskIds := data.riskIds.filter (· ∉ found.risks)
  let missingComplianceIds := data.complianceItemIds.filter (· ∉ found.complianceItems)
  if missingRiskIds ≠ [] then
    .error (.missing "بعض معرّفات المخاطر غير موجودة في سجل المخاطر" "risk_ids" missingRiskIds)
  else if missingComplianceIds ≠ [] then
    .error (.missing "بعض معرّفات معايير الامتثال غير موجودة في مصفوفة الامتثال" "compliance_item_ids"
      missingComplianceIds)
  else .ok ()

/-- The fields of the `INSERT` of `createProgram`. -/
def CreateProgramInput.fields (data : CreateProgramInput) (userId : String) : Body :=
  [("program_code", .text data.programCode), ("program_title", .text data.programTitle),
    ("audit_area", .text data.auditArea), ("department", .text data.department),
    ("audit_type", .text data.auditType), ("audit_objective", .text data.auditObjective),
    ("audit_scope", .text data.auditScope), ("key_risks", .text (data.keyRisks.getD "")),
    ("reference_standard", .text (data.referenceStandard.getD "")), ("status", .text "Draft"),
    ("version_number", .num "1"), ("created_by", .text userId)].foldl
      (fun body (field : String × Value) => body.set field.1 field.2) .empty

/-! ## duplicate -/

/-- The columns of a copy: those of the original, with another title and code, and the defaults of the times. -/
def copyColumns (source : String → Value) (username now : String) (column : String) : Value :=
  if column = "created_at" ∨ column = "updated_at" then .text now
  else if column = "program_title" then .text ((source "program_title").template ++ " (Copy)")
  else if column = "program_code" then .text ((source "program_code").template ++ "-COPY")
  else if column = "status" then .text "Draft"
  else if column = "created_by" then .text username
  else if column = "version_number" then .num "1"
  else source column

/-! ## approveProgram -/

/-- What `getUserPermissions` makes of the rows that it has read: the permissions of the role and the overrides
of the user, and whether the user may approve audit programs. -/
def mayApprove (rolePermissions : List Permission) (userOverrides : List (Permission × UserPermission)) : Bool :=
  match (do
    let permissions ← rolePermissions.foldlM applyRole JsMap.empty
    userOverrides.foldlM applyOverride permissions) with
  | .error _ => false
  | .ok permissions => ((permissions.cleanUp.get AUDIT_PROGRAM_LIBRARY).getD []).contains "Approve"

/-- The user has the permission at the moment. -/
def holdsApprove (db : PermissionStore) (userId : String) : Bool :=
  match db.getUserPermissions userId with
  | .error _ => false
  | .ok effective => ((effective.permissions.get AUDIT_PROGRAM_LIBRARY).getD []).contains "Approve"

/-- The permission is what the rows say that are read at one time. -/
theorem holdsApprove_eq {db : PermissionStore} {userId : String} {user : Employee}
    (h : db.user userId = some user) :
    holdsApprove db userId = mayApprove (db.roleRows user.roleId) (db.overrideRows userId) := by
  unfold holdsApprove PermissionTables.getUserPermissions mayApprove
  rw [h]
  cases hrole : (db.roleRows user.roleId).foldlM applyRole JsMap.empty with
  | error message => simp [bind, Except.bind, hrole]
  | ok permissions =>
    cases hoverride : (db.overrideRows userId).foldlM applyOverride permissions with
    | error message => simp [bind, Except.bind, hrole, hoverride]
    | ok permissions => simp [bind, Except.bind, hrole, hoverride, pure, Except.pure]

/-- The check of `approveProgram` on the permission. -/
def checkApprover (allowed : Bool) : Except ProgramError Unit :=
  if allowed then .ok () else .error (.forbidden "ليس لديك صلاحية اعتماد برامج التدقيق")

def approvableStatuses : List String := ["Draft", "Submitted"]

/-- `approvableStatuses.includes(status)`. -/
def isApprovable (status : Value) : Bool := approvableStatuses.any fun name => status = .text name

/-- The checks of `approveProgram` on the row that its query finds. -/
def checkProgram {Id : Type} (program : Option (Row Id)) : Except ProgramError Unit :=
  match program with
  | none => .error (.notFound "برنامج التدقيق غير موجود")
  | some program =>
    if isApprovable (program.columns "status") then .ok ()
    else .error (.status "لا يمكن اعتماد البرنامج إلا إذا كانت حالته \"مسودة\" أو \"مُقدَّم\""
      (program.columns "status") approvableStatuses)

/-- `SET` of the `UPDATE`. -/
def approvedColumns (userId now : String) (columns : String → Value) (column : String) : Value :=
  if column = "status" then .text "Approved"
  else if column = "approved_by" then .text userId
  else if column = "approved_at" ∨ column = "updated_at" then .text now
  else columns column

/-! ## Calls under way -/

/-- A call that has begun, by what it has read. -/
inductive Call (Id : Type) where
  /-- The transaction of `createProgram`. -/
  | creating (data : CreateProgramInput) (userId : String)
  /-- That of `duplicate`, with the original. -/
  | duplicating (program : Row Id) (username : String)
  /-- `approveProgram` with the user, before the query for the permissions of the role. -/
  | readingRole (programId userId : String) (user : Employee)
  | readingOverrides (programId userId : String) (rolePermissions : List Permission)
  /-- The user may approve. -/
  | selecting (programId userId : String)
  /-- And the program can be approved. -/
  | updating (programId userId : String)
  | finished

/-- An `UPDATE` of `approveProgram` that found its program: the status that this had before, and whether the user
had the permission then. -/
structure Approval (Id : Type) where
  programId : Id
  userId : String
  approvedAt : String
  statusBefore : Value
  held : Bool

/-- The tables, the calls under way, and the approvals so far, with the latest first. -/
structure ProgramState (Id : Type) where
  tables : Tables Id
  permissions : PermissionStore
  calls : List (Call Id)
  approvals : List (Approval Id)

inductive ProgramAction (Id : Type) where
  | createProgram (data : CreateProgramInput) (userId userRole : String)
  | duplicate (id username : String)
  | approveProgram (programId userId : String)
  /-- `POST /`, with the code that is generated for a program without one. -/
  | post (body : Body) (code : Option String) (slot : Slot Id)
  /-- `PUT /:id`. -/
  | put (id : String) (body : Body) (now : String) (fails : Option String)
  /-- The next step of a call, with the links that a `createProgram` finds. -/
  | proceed (i : ℕ) (found : FoundLinks) (slot : Slot Id)
  /-- The permissions change. -/
  | setPermissions (permissions : PermissionStore)

namespace ProgramState

variable {Id : Type}

/-- The rows of `audit_programs`. -/
def programs (s : ProgramState Id) : List (Row Id) := (s.tables TABLE_NAME).rows

def begin (s : ProgramState Id) (call : Call Id) : ProgramState Id := { s with calls := s.calls ++ [call] }

def setCall (s : ProgramState Id) (i : ℕ) (call : Call Id) : ProgramState Id :=
  { s with calls := s.calls.set i call }

/-- The tables after a statement; one that fails is rolled back. -/
def setTables (s : ProgramState Id) (tables : Except ServiceError (Tables Id)) : ProgramState Id :=
  match tables with
  | .ok tables => { s with tables := tables }
  | .error _ => s

variable [DecidableEq Id]

/-- `SELECT … FROM audit_programs WHERE id = ?`. -/
def selectProgram (pg : ProgramPostgres Id) (s : ProgramState Id) (id : String) : Option (Row Id) :=
  (pg.parseId (.text id)).bind fun rowId => s.programs.find? fun row => row.id = rowId

/-- The `INSERT` of `createProgram`. -/
def insertProgram (pg : ProgramPostgres Id) (s : ProgramState Id) (data : CreateProgramInput) (userId : String)
    (slot : Slot Id) : ProgramState Id :=
  s.setTables (insertRow pg.toPostgres s.tables TABLE_NAME (data.fields userId) slot)

/-- The `INSERT` of `duplicate`. -/
def insertCopy (s : ProgramState Id) (program : Row Id) (username : String) (slot : Slot Id) : ProgramState Id :=
  s.setTables <|
    match slot.fails, (s.tables TABLE_NAME).insert ⟨slot.id, copyColumns program.columns username slot.now⟩ with
    | none, some table => .ok (Function.update s.tables TABLE_NAME table)
    | _, _ => .error (.database "INSERT failed")

/-- The `UPDATE` of `approveProgram`, with the approval that it is. -/
def approve (pg : ProgramPostgres Id) (s : ProgramState Id) (programId userId : String) (slot : Slot Id) :
    ProgramState Id :=
  match slot.fails, pg.parseId (.text programId) with
  | none, some rowId =>
    { s with
      tables := Function.update s.tables TABLE_NAME
        ((s.tables TABLE_NAME).update (fun row => row.id = rowId) (approvedColumns userId slot.now))
      approvals := ((s.programs.filter fun row => row.id = rowId).map fun row =>
        ⟨rowId, userId, slot.now, row.columns "status", holdsApprove s.permissions userId⟩) ++ s.approvals }
  | _, _ => s

/-- The next step of a call. -/
def proceed (pg : ProgramPostgres Id) (s : ProgramState Id) (i : ℕ) (found : FoundLinks) (slot : Slot Id) :
    Call Id → Option (ProgramState Id)
  | .creating data userId =>
    match checkLinks data found with
    | .ok () => some ((s.insertProgram pg data userId slot).setCall i .finished)
    | .error _ => some (s.setCall i .finished)
  | .duplicating program username => some ((s.insertCopy program username slot).setCall i .finished)
  | .readingRole programId userId user =>
    some (s.setCall i (.readingOverrides programId userId (s.permissions.roleRows user.roleId)))
  | .readingOverrides programId userId rolePermissions =>
    match checkApprover (mayApprove rolePermissions (s.permissions.overrideRows userId)) with
    | .ok () => some (s.setCall i (.selecting programId userId))
    | .error _ => some (s.setCall i .finished)
  | .selecting programId userId =>
    match checkProgram (s.selectProgram pg programId) with
    | .ok () => some (s.setCall i (.updating programId userId))
    | .error _ => some (s.setCall i .finished)
  | .updating programId userId => some ((s.approve pg programId userId slot).setCall i .finished)
  | .finished => none

/-- One step. What a request is refused for changes nothing. -/
def step (pg : ProgramPostgres Id) (s : ProgramState Id) : ProgramAction Id → Option (ProgramState Id)
  | .createProgram data userId userRole =>
    match checkInput data userRole with
    | .ok () => some (s.begin (.creating data userId))
    | .error _ => some s
  | .duplicate id username =>
    match s.selectProgram pg id with
    | some program => some (s.begin (.duplicating program username))
    | none => some s
  | .approveProgram programId userId =>
    match s.permissions.user userId with
    | some user => some (s.begin (.readingRole programId userId user))
    | none => some s
  | .post body code slot =>
    some (s.setTables
      (BaseService.create pg.toPostgres s.tables TABLE_NAME (allowedBody ALLOWED_FIELDS body) code slot))
  | .put id body now fails =>
    some (s.setTables (BaseService.update pg.toPostgres s.tables TABLE_NAME (.text id)
      (allowedBody ALLOWED_FIELDS body) now fails))
  | .proceed i found slot => (s.calls[i]?).bind (proceed pg s i found slot)
  | .setPermissions permissions => some { s with permissions := permissions }

end ProgramState

end AlsaqiBackend.Programs
