import AlsaqiBackend.Events.Session
import AlsaqiBackend.Lib.JsString
import AlsaqiBackend.Passwords.Policy
import AlsaqiBackend.Users.EmployeeId

/-!
# Operations with an event

The operations of `UserService`, `AuditService` and `BaseService` that send an event, each with its
statements in their order. `UserService` and `AuditService` send it themselves, behind the transaction or
inside of it; `BaseService` enqueues it.

An event is its name, and it describes the change of one of the statements. A body is a list of fields, of
which the source looks at the name and whether the value is truthy.
-/

namespace AlsaqiBackend.Events

open AlsaqiBackend.Lib TxM
open AlsaqiBackend.Users (UserData orNull isEmployeeIdConflict MAX_EMP_ID_ATTEMPTS)
open AlsaqiBackend.Passwords (PolicySettings validatePasswordPolicy)

/-! ## Statements -/

/-- The scopes of `numbering_counters` that `createFinding` counts in. -/
inductive Counter
  | finding
  | recommendation
  deriving DecidableEq, Repr

def Counter.scopeType : Counter → String
  | .finding => "finding"
  | .recommendation => "rec"

inductive Statement
  | existingUser
  | existingEmail
  | roleByName
  | departmentCode
  | latestEmployeeIds
  | insertUser (attempt : ℕ)
  | selectUser
  | passwordSettings
  | updateUser
  | updateStatus
  | deleteRefreshTokens
  | deleteUser
  | selectPlan
  | nextCounter (counter : Counter)
  | insertFinding
  | insertRecommendation
  | selectAdmins
  | selectManagers
  | insertNotification
  | insertRecipient (userId : String)
  | insertForUser (userId : String)
  | insertLegacy (userId : String)
  | selectFinding
  | updateFinding
  | updateRecommendations
  | deleteRecommendations
  | deleteFinding
  | selectPlanCode
  | latestFinding
  | entityCode
  | legacyDepartment
  | latestRecord
  | insertRow
  | updateRow
  | softDeleteRow
  | deleteRow
  deriving DecidableEq, Repr

/-- What an operation meets: the environment, the kind of database, and the columns that are read of the
rows it finds. `whitelist` is `getColumnWhitelist`. -/
structure World extends Environment Statement where
  isExternal : Bool
  whitelist : String → List String
  settings : PolicySettings
  planIsArchived : Bool
  planHasCode : Bool
  planHasDepartment : Bool
  entityHasCode : Bool
  lastValue : Counter → ℕ
  findingId : String
  createdBy : Option String
  adminIds : List String
  managerIds : List String

/-- A field of a request body. -/
structure Field where
  name : String
  truthy : Bool
  deriving DecidableEq, Repr

/-- `!!body[name]`. -/
def isTruthy (body : List Field) (name : String) : Bool :=
  body.any fun field => field.name = name && field.truthy

variable (world : World)

/-- The statements that `askEach` executes change nothing that an event describes. -/
def askEach (st : String → Statement) : List String → TxM (List String) Unit
  | [] => pure ()
  | userId :: userIds => do
    let _ ← ask world.toEnvironment (st userId)
    askEach st userIds

/-! ## The three ways to send -/

/-- The event is sent when the transaction is over. -/
def sendAfterCommit (event : String) (body : TxM (List String) Unit) : SessionM String Unit := do
  transaction world.toEnvironment world.isExternal .outer (onConnection body)
  modify (sendEvent world.toEnvironment event)

/-- The event is sent at the end of the body. -/
def sendInside (event : String) (fn : SessionM String Unit) : SessionM String Unit :=
  transaction world.toEnvironment world.isExternal .outer do
    fn
    modify (sendEvent world.toEnvironment event)

/-- The event is enqueued at the end of the body. -/
def enqueueInside (event : String) (body : TxM (List String) Unit) : SessionM String Unit :=
  transaction world.toEnvironment world.isExternal .outer do
    onConnection body
    modify (enqueueEvent world.toEnvironment event)

/-! ## `UserService` -/

/-- The check for the email of a new user. -/
def checkEmail (data : UserData) : TxM (List String) Unit :=
  match orNull data.email with
  | none => pure ()
  | some _ => do
    let existingEmail ← ask world.toEnvironment .existingEmail
    require (!existingEmail) "A user with this email already exists"

/-- The query for the code of the department, whose errors are caught. -/
def readDepartmentCode (data : UserData) : TxM (List String) Bool :=
  match orNull data.department with
  | none => pure false
  | some _ => attempt (ask world.toEnvironment .departmentCode) false

/-- The loop of `createUser`, with the number of attempts that are left after this one. -/
def insertUser : ℕ → ℕ → TxM (List String) Unit
  | 0, attempt => insert world.toEnvironment (.insertUser attempt) "user.created"
  | left + 1, attempt =>
    tryCatch (insert world.toEnvironment (.insertUser attempt) "user.created") fun insertErr =>
      if isEmployeeIdConflict insertErr then insertUser left (attempt + 1) else throw insertErr

def createUser (data : UserData) : SessionM String Unit :=
  sendAfterCommit world "user.created" do
    let existingUser ← ask world.toEnvironment .existingUser
    require (!existingUser) "A user with this username already exists"
    checkEmail world data
    let _ ← ask world.toEnvironment .roleByName
    let _ ← readDepartmentCode world data
    let _ ← ask world.toEnvironment .latestEmployeeIds
    insertUser world (MAX_EMP_ID_ATTEMPTS - 1) 1

/-- The row of `user_management_settings`; an error of the query is caught. -/
def readSettings : TxM (List String) (Option PolicySettings) := do
  let found ← attempt (ask world.toEnvironment .passwordSettings) false
  pure (if found then some world.settings else none)

/-- `if (password) await validatePasswordPolicy(password);`. -/
def checkPassword (password : String) : TxM (List String) Unit :=
  if password = "" then pure ()
  else do
    let settings ← readSettings world
    ofExcept (validatePasswordPolicy settings password)

def updateUser (data : UserData) : SessionM String Unit :=
  sendAfterCommit world "user.updated" do
    let oldUser ← ask world.toEnvironment .selectUser
    require oldUser "User not found"
    let _ ← ask world.toEnvironment .roleByName
    checkPassword world data.password
    let _ ← change world.toEnvironment .updateUser "user.updated"
    pure ()

def setStatus : SessionM String Unit :=
  sendInside world "user.status_changed" <| onConnection do
    let user ← ask world.toEnvironment .selectUser
    require user "User not found"
    let _ ← change world.toEnvironment .updateStatus "user.status_changed"
    pure ()

def deleteUser : SessionM String Unit :=
  sendInside world "user.deleted" <| onConnection do
    let user ← ask world.toEnvironment .selectUser
    require user "User not found"
    let _ ← ask world.toEnvironment .deleteRefreshTokens
    let _ ← change world.toEnvironment .deleteUser "user.deleted"
    pure ()

/-! ## `AuditService` -/

structure CreateFindingInput where
  title : Option String
  findingType : Option String
  auditId : Option String
  deriving DecidableEq, Repr

def VALID_FINDING_TYPES : List String := ["control_design_deficiency", "operational_design_deficiency"]

/-- `text.trim()`. -/
def trim (text : String) : String :=
  .ofList (((text.toList.dropWhile isJsWhitespace).reverse.dropWhile isJsWhitespace).reverse)

/-- The title that the checks see. -/
def CreateFindingInput.trimmedTitle (data : CreateFindingInput) : String := (data.title.map trim).getD ""

def MAX_CHILD_SEQ : ℕ := 99

/-- `nextFindingNumber` and `nextRecommendationNumber`, with the scope that they count in. -/
def nextNumber (counter : Counter) (scopeId : String) : TxM (List String) Unit := do
  let row ← ask world.toEnvironment (.nextCounter counter)
  require row ("Failed to generate counter for scope '" ++ counter.scopeType ++ "' (id: " ++ scopeId ++ ")")
  require (world.lastValue counter ≤ MAX_CHILD_SEQ)
    ("Numbering overflow: sequence for scope '" ++ counter.scopeType ++ "' (id: " ++ scopeId ++
      ") has reached the maximum value of 99. Cannot generate a new number.")

/-- The statements of `createFinding` up to its recommendation. -/
def insertFinding (auditId : String) : TxM (List String) Unit := do
  let plan ← ask world.toEnvironment .selectPlan
  require plan "الخطة غير موجودة / Audit plan not found"
  require (!world.planIsArchived) "لا يمكن إضافة ملاحظة لخطة مؤرشفة / Cannot add finding to an archived plan"
  nextNumber world .finding auditId
  let findingResult ← change world.toEnvironment .insertFinding "finding.created"
  require (findingResult && world.findingId ≠ "") "Failed to create finding"
  nextNumber world .recommendation world.findingId
  let _ ← ask world.toEnvironment .insertRecommendation
  pure ()

/-- The transaction of `NotificationService.create`. -/
def insertNotification (targetUserIds : List String) : TxM (List String) Unit := do
  let newId ← ask world.toEnvironment .insertNotification
  if newId then do
    askEach world .insertRecipient targetUserIds
    askEach world .insertForUser targetUserIds.tail
  else pure ()

/-- The fallback of `NotificationService.create`, which skips what fails. -/
def insertLegacyRows : List String → SessionM String Unit
  | [] => pure ()
  | userId :: userIds => do
    tryCatch (do let _ ← onConnection (ask world.toEnvironment (.insertLegacy userId)))
      fun _ => pure ()
    insertLegacyRows userIds

/-- The recipients without the user who acts. -/
def targetUserIds (recipientIds : List String) (actorId : String) : List String :=
  if actorId = "" then recipientIds else recipientIds.filter (· ≠ actorId)

/-- `NotificationService.create` for these users. -/
def createNotification (targetUserIds : List String) : SessionM String Unit :=
  if targetUserIds.isEmpty then pure ()
  else
    tryCatch (transaction world.toEnvironment world.isExternal .inner
      (onConnection (insertNotification world targetUserIds))) fun _ => insertLegacyRows world targetUserIds

/-- `[...new Set([...adminIds, ...managerUserIds])]`. -/
def allTargetIds : List String := (world.adminIds ++ world.managerIds).eraseDups

/-- The notification of `createFinding`, whose errors are caught. -/
def notifyManagers (userId : String) : SessionM String Unit :=
  tryCatch (do
    let _ ← onConnection (ask world.toEnvironment .selectAdmins)
    let _ ← onConnection (ask world.toEnvironment .selectManagers)
    if (allTargetIds world).isEmpty then pure ()
    else createNotification world (targetUserIds (allTargetIds world) userId)) fun _ => pure ()

def createFinding (data : CreateFindingInput) (userId : String) : SessionM String Unit := do
  check (data.trimmedTitle ≠ "")
    "عنوان الملاحظة إلزامي ولا يمكن أن يكون فارغاً / Finding title is required and cannot be empty"
  check (utf16Length data.trimmedTitle ≤ 200)
    "عنوان الملاحظة يجب ألا يتجاوز 200 حرف / Finding title must not exceed 200 characters"
  check (data.findingType.any VALID_FINDING_TYPES.contains)
    ("نوع الملاحظة غير مقبول. القيم المسموحة: control_design_deficiency, operational_design_deficiency / " ++
      "Invalid finding type. Allowed values: control_design_deficiency, operational_design_deficiency")
  check (orNull data.auditId).isSome "معرّف الخطة (audit_id) مطلوب / audit_id is required"
  sendInside world "finding.created" do
    onConnection (insertFinding world (data.auditId.getD ""))
    notifyManagers world userId

/-- `db.validateIdentifier` lets the text pass. -/
def isIdentifier (id : String) : Bool := id ≠ "" && id.toList.all fun c => c.isAlphanum || c = '_'

/-- `keys.map(k => db.validateIdentifier(k))`. -/
def validateIdentifiers (keys : List String) : TxM (List String) Unit :=
  match keys.find? fun key => !isIdentifier key with
  | some key => throw ("Invalid database identifier: " ++ key)
  | none => pure ()

/-- The fields of the body without `id` and `created_by`. -/
def updatedFields (body : List Field) : List Field :=
  body.filter fun field => field.name ≠ "id" && field.name ≠ "created_by"

def updateFinding (body : List Field) (userId : String) : SessionM String Unit :=
  sendAfterCommit world "finding.updated" do
    let finding ← ask world.toEnvironment .selectFinding
    require finding "الملاحظة غير موجودة / Finding not found"
    require (world.createdBy = some userId)
      ("ليس لديك صلاحية تعديل هذه الملاحظة. فقط كاتب الملاحظة يمكنه التعديل / " ++
        "You do not have permission to edit this finding. Only the finding creator can edit.")
    let data := updatedFields body
    validateIdentifiers (data.map Field.name)
    require (data ≠ []) "No data provided for update"
    let _ ← change world.toEnvironment .updateFinding "finding.updated"
    if isTruthy data "risk_level" then do
      let _ ← ask world.toEnvironment .updateRecommendations
    else pure ()

def deleteFinding : SessionM String Unit :=
  sendInside world "finding.deleted" <| onConnection do
    let _ ← ask world.toEnvironment .deleteRecommendations
    let _ ← change world.toEnvironment .deleteFinding "finding.deleted"
    pure ()

/-! ## `BaseService` -/

def SOFT_DELETE_TABLES : List String :=
  ["audit_programs", "audit_plans", "risk_register", "compliance_items", "audit_tasks", "audit_findings",
    "recommendations", "audit_evidence", "audit_reports", "fraud_log", "incoming_correspondence",
    "outgoing_letters", "correspondence_attachments"]

def codeColumns : List (String × String) :=
  [("audit_plans", "plan_code"), ("audit_programs", "program_code"), ("audit_tasks", "task_number"),
    ("audit_findings", "finding_number"), ("recommendations", "rec_number"), ("risk_register", "risk_id"),
    ("compliance_items", "ref_number")]

def TABLE_CODE_COLUMNS : List (String × String) := codeColumns ++ [("fraud_log", "incident_date")]

/-- `AppCodeGenerator.resolveDepartmentCode`. -/
def resolveDepartmentCode (hasDepartment : Bool) : TxM (List String) Unit :=
  if hasDepartment then
    attempt (do
      let dept ← ask world.toEnvironment .entityCode
      if dept && world.entityHasCode then pure ()
      else do
        let _ ← ask world.toEnvironment .legacyDepartment) ()
  else pure ()

/-- `AppCodeGenerator.generateCode`; it returns whether there is a code. -/
def generateCode (tableName : String) (hasDepartment : Bool) : TxM (List String) Bool :=
  if (TABLE_CODE_COLUMNS.lookup tableName).isNone then pure false
  else do
    resolveDepartmentCode world hasDepartment
    let _ ← attempt (ask world.toEnvironment .latestRecord) false
    pure true

/-- `AppCodeGenerator.generateFindingCode`. -/
def generateFindingCode : TxM (List String) Bool :=
  tryCatch (do
    let plan ← ask world.toEnvironment .selectPlanCode
    if plan && world.planHasCode then do
      let _ ← ask world.toEnvironment .latestFinding
      pure true
    else generateCode world "audit_findings" (plan && world.planHasDepartment))
    fun _ => generateCode world "audit_findings" false

/-- The keys of the body of `create`, with the code column when its code is generated. -/
def keysWithCode (tableName : String) (body : List Field) : TxM (List String) (List String) :=
  let keys := body.map Field.name
  match codeColumns.lookup tableName with
  | none => pure keys
  | some codeCol =>
    if isTruthy body codeCol then pure keys
    else do
      let code ← if tableName = "audit_findings" && isTruthy body "audit_id" then generateFindingCode world
        else generateCode world tableName (isTruthy body "department")
      pure (if code then keys.insert codeCol else keys)

/-- `checkWhitelist`, and the error for the keys that it rejects. -/
def rejectKeys (tableName : String) (body : List Field) : SessionM String Unit :=
  let rejectedKeys := (body.map Field.name).filter fun key => !(world.whitelist tableName).contains key
  check rejectedKeys.isEmpty
    ("The following fields are not permitted for " ++ tableName ++ ": " ++ ", ".intercalate rejectedKeys)

def create (tableName : String) (body : List Field) : SessionM String Unit := do
  rejectKeys world tableName body
  enqueueInside world (tableName ++ ".created") do
    let keys ← keysWithCode world tableName body
    validateIdentifiers keys
    require (keys ≠ []) "No data provided for creation"
    validateIdentifiers [tableName]
    insert world.toEnvironment .insertRow (tableName ++ ".created")

def update (tableName id : String) (body : List Field) : SessionM String Unit := do
  rejectKeys world tableName body
  enqueueInside world (tableName ++ ".updated") do
    validateIdentifiers (body.map Field.name)
    require (body ≠ []) "No data provided for update"
    validateIdentifiers [tableName]
    let updatedRow ← change world.toEnvironment .updateRow (tableName ++ ".updated")
    require updatedRow (tableName ++ " item with ID " ++ id ++ " not found")

def delete (tableName id : String) : SessionM String Unit := do
  check (isIdentifier tableName) ("Invalid database identifier: " ++ tableName)
  enqueueInside world (tableName ++ ".deleted") <|
    if SOFT_DELETE_TABLES.contains tableName then do
      let updated ← change world.toEnvironment .softDeleteRow (tableName ++ ".deleted")
      require updated (tableName ++ " item with ID " ++ id ++ " not found")
    else do
      let _ ← change world.toEnvironment .deleteRow (tableName ++ ".deleted")

/-! ## Calls -/

inductive Operation
  | createUser (data : UserData)
  | updateUser (data : UserData)
  | setStatus
  | deleteUser
  | createFinding (data : CreateFindingInput) (userId : String)
  | updateFinding (body : List Field) (userId : String)
  | deleteFinding
  | create (tableName : String) (body : List Field)
  | update (tableName id : String) (body : List Field)
  | delete (tableName id : String)
  deriving DecidableEq, Repr

def Operation.run : Operation → SessionM String Unit
  | createUser data => Events.createUser world data
  | updateUser data => Events.updateUser world data
  | setStatus => Events.setStatus world
  | deleteUser => Events.deleteUser world
  | createFinding data userId => Events.createFinding world data userId
  | updateFinding body userId => Events.updateFinding world body userId
  | deleteFinding => Events.deleteFinding world
  | create tableName body => Events.create world tableName body
  | update tableName id body => Events.update world tableName id body
  | delete tableName id => Events.delete world tableName id

/-- Where the operation is called: by itself, or in a transaction, which is over already or open, and then
aborted or not. -/
inductive Caller
  | none
  | ended
  | «open» (aborted : Bool)
  deriving DecidableEq, Repr

/-- The session then. -/
def start : Caller → Session String
  | .none => ⟨[], Option.none, Option.none, []⟩
  | .ended => ⟨[], Option.none, some [], []⟩
  | .open aborted => ⟨[], some ⟨[], aborted⟩, some [], []⟩

end AlsaqiBackend.Events
