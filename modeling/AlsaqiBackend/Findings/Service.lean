import AlsaqiBackend.Users.LastAdmin

/-!
# Findings and recommendations

The tables `audit_findings` and `recommendations`, and what `AuditService` and `RecommendationService`
do to them. A statement either keeps the constraints of the database or is an error; the constraints of
single rows depend on the schema the database was made with, so they are a parameter.
-/

namespace AlsaqiBackend.Findings

open AlsaqiBackend.Users

/-! ## Tables -/

/-- A row of `audit_findings`; a column is `none` when it is NULL. -/
structure Finding where
  id : Option String
  auditId : Option String
  createdBy : Option String
  status : Option String
  riskLevel : Option String
  deletedAt : Option String
  deriving DecidableEq, Repr

/-- A row of `recommendations`. -/
structure Recommendation where
  id : Option String
  findingId : Option String
  status : Option String
  riskLevel : Option String
  actionPlan : Option String
  dueDate : Option String
  deletedAt : Option String
  deriving DecidableEq, Repr

structure FindingTables where
  findings : List Finding
  recommendations : List Recommendation
  deriving DecidableEq, Repr

/-- The CHECK constraints and the types of the columns. -/
structure RowChecks where
  finding : Finding → Bool
  recommendation : Recommendation → Bool

/-- The base migrations have none. -/
def migrationChecks : RowChecks := ⟨fun _ => true, fun _ => true⟩

/-- Those of `schema.sql` on the status and the risk level. -/
def schemaChecks : RowChecks where
  finding row := row.status.any (· ∈ ["Open", "In Progress", "Closed"]) &&
    row.riskLevel.all (· ∈ ["Low", "Medium", "High", "Critical"])
  recommendation row := row.status.any (· ∈ ["Open", "In Progress", "Implemented", "Overdue"]) &&
    row.riskLevel.all (· ∈ ["Low", "Medium", "High"])

/-- The constraints: primary keys, the foreign key of a recommendation, and those of the rows. -/
structure FindingTables.Valid (checks : RowChecks) (db : FindingTables) : Prop where
  findingKeys : (db.findings.map Finding.id).Nodup
  recommendationKeys : (db.recommendations.map Recommendation.id).Nodup
  foreignKey : ∀ row ∈ db.recommendations, row.findingId = none ∨
    row.findingId ∈ db.findings.map Finding.id
  findings : ∀ row ∈ db.findings, row.id ≠ none ∧ checks.finding row = true
  recommendations : ∀ row ∈ db.recommendations, row.id ≠ none ∧ checks.recommendation row = true

instance (checks : RowChecks) (db : FindingTables) : Decidable (db.Valid checks) :=
  decidable_of_iff
    ((db.findings.map Finding.id).Nodup ∧ (db.recommendations.map Recommendation.id).Nodup ∧
      (∀ row ∈ db.recommendations, row.findingId = none ∨ row.findingId ∈ db.findings.map Finding.id) ∧
      (∀ row ∈ db.findings, row.id ≠ none ∧ checks.finding row = true) ∧
      ∀ row ∈ db.recommendations, row.id ≠ none ∧ checks.recommendation row = true)
    ⟨fun ⟨h₁, h₂, h₃, h₄, h₅⟩ => ⟨h₁, h₂, h₃, h₄, h₅⟩, fun ⟨h₁, h₂, h₃, h₄, h₅⟩ => ⟨h₁, h₂, h₃, h₄, h₅⟩⟩

/-- The tables after a statement; `none` when it is an error. -/
def FindingTables.checked (checks : RowChecks) (db : FindingTables) : Option FindingTables :=
  if db.Valid checks then some db else none

namespace FindingTables

variable (db : FindingTables)

/-- `SELECT … FROM audit_findings WHERE id = ?`. -/
def finding (id : String) : Option Finding := db.findings.find? fun row => row.id = some id

/-- `SELECT … FROM recommendations WHERE id = ?`. -/
def recommendation (id : String) : Option Recommendation :=
  db.recommendations.find? fun row => row.id = some id

/-- `UPDATE audit_findings … WHERE id = ?`. -/
def updateFindings (id : String) (f : Finding → Finding) : FindingTables :=
  { db with findings := db.findings.map fun row => if row.id = some id then f row else row }

/-- `UPDATE recommendations … WHERE id = ?`. -/
def updateRecommendations (id : String) (f : Recommendation → Recommendation) : FindingTables :=
  { db with
    recommendations := db.recommendations.map fun row => if row.id = some id then f row else row }

/-- `UPDATE recommendations … WHERE finding_id = ?`. -/
def updateRecommendationsOf (findingId : String) (f : Recommendation → Recommendation) : FindingTables :=
  { db with
    recommendations := db.recommendations.map fun row => if row.findingId = some findingId then f row else row }

end FindingTables

/-! ## Bodies -/

/-- A value of a body: what the driver makes of it, and whether it counts as true. -/
structure BodyValue where
  column : Option String
  truthy : Bool
  deriving DecidableEq, Repr

def BodyValue.text (s : String) : BodyValue := ⟨some s, s ≠ ""⟩

/-- The entries of a body, with their keys. -/
abbrev Body := List (String × BodyValue)

/-- `body[key]`. -/
def Body.get (body : Body) (key : String) : Option BodyValue :=
  (body.find? fun entry => entry.1 = key).map Prod.snd

/-- `delete body[key]`. -/
def Body.delete (body : Body) (key : String) : Body := body.filter fun entry => entry.1 ≠ key

/-- What `SET` assigns to a column: a name without quotes is folded to lower case. -/
def Body.assigned (body : Body) (column : String) : Option (Option String) :=
  (body.find? fun entry => entry.1.toLower = column).map fun entry => entry.2.column

/-- The value of a column after `SET`. -/
def Body.set (body : Body) (column : String) (old : Option String) : Option String :=
  (body.assigned column).getD old

/-- `validateIdentifier`. -/
def isIdentifier (key : String) : Bool := key ≠ "" && key.toList.all fun c => c.isAlphanum || c = '_'

/-- The keys are identifiers, there is one, and no column is assigned twice. -/
def Body.accepted (body : Body) : Bool :=
  body ≠ [] && body.all (fun entry => isIdentifier entry.1) &&
    decide (body.map fun entry => entry.1.toLower).Nodup

def Finding.setColumns (body : Body) (row : Finding) : Finding where
  id := body.set "id" row.id
  auditId := body.set "audit_id" row.auditId
  createdBy := body.set "created_by" row.createdBy
  status := body.set "status" row.status
  riskLevel := body.set "risk_level" row.riskLevel
  deletedAt := body.set "deleted_at" row.deletedAt

def Recommendation.setColumns (body : Body) (row : Recommendation) : Recommendation where
  id := body.set "id" row.id
  findingId := body.set "finding_id" row.findingId
  status := body.set "status" row.status
  riskLevel := body.set "risk_level" row.riskLevel
  actionPlan := body.set "action_plan" row.actionPlan
  dueDate := body.set "due_date" row.dueDate
  deletedAt := body.set "deleted_at" row.deletedAt

/-! ## AuditService -/

def ALLOWED_FINDING_TRANSITIONS : String → List String
  | "Open" => ["In Progress"]
  | "In Progress" => ["Closed", "Pending Approval"]
  | "Pending Approval" => ["Closed", "In Progress"]
  | _ => []

def FINDING_TO_RECOMMENDATION_STATUS : String → Option String
  | "Open" => some "Open"
  | "In Progress" => some "In Progress"
  | "Closed" => some "Implemented"
  | "Pending Approval" => some "In Progress"
  | _ => none

/-- The transition is in the table. -/
def allowedTransition (status : Option String) (newStatus : Option String) : Bool :=
  status.any fun status => newStatus.any (· ∈ ALLOWED_FINDING_TRANSITIONS status)

/-- The transition needs the permission to approve. -/
def needsApproval (status newStatus : Option String) : Bool :=
  status = some "Pending Approval" && newStatus = some "Closed"

/-- The two updates of `createFinding`; the risk level is `data.risk_level || 'Medium'`. -/
def insertFinding (checks : RowChecks) (findingId recommendationId auditId userId riskLevel : String)
    (db : FindingTables) : Option FindingTables := do
  let db ← { db with
    findings := db.findings ++ [⟨some findingId, some auditId, some userId, some "Open",
      some riskLevel, none⟩] : FindingTables }.checked checks
  { db with
    recommendations := db.recommendations ++ [⟨some recommendationId, some findingId, some "Open",
      some riskLevel, none, some "", none⟩] : FindingTables }.checked checks

/-- The transaction of `changeFindingStatus`. -/
def setFindingStatus (checks : RowChecks) (id newStatus : String) (db : FindingTables) :
    Option FindingTables := do
  let db ← (db.updateFindings id fun row => { row with status := some newStatus }).checked checks
  match FINDING_TO_RECOMMENDATION_STATUS newStatus with
  | none => some db
  | some recStatus =>
    (db.updateRecommendationsOf id fun row => { row with status := some recStatus }).checked checks

/-- The body of `updateFinding` without the keys that are deleted. -/
def findingData (body : Body) : Body := (body.delete "id").delete "created_by"

/-- The two updates of `updateFinding`. -/
def saveFinding (checks : RowChecks) (id : String) (data : Body) (db : FindingTables) :
    Option FindingTables := do
  let db ← (db.updateFindings id (Finding.setColumns data)).checked checks
  match data.get "risk_level" with
  | some value =>
    if value.truthy then
      (db.updateRecommendationsOf id fun row => { row with riskLevel := value.column }).checked checks
    else some db
  | none => some db

/-! ## RecommendationService -/

/-- `status != 'Implemented'`, which NULL does not meet. -/
def Recommendation.isOpen (row : Recommendation) : Bool := row.status.any (· ≠ "Implemented")

/-- The body of `update` without its `id`. -/
def recommendationData (body : Body) : Body := body.delete "id"

/-- The first update of `update`. -/
def saveRecommendation (checks : RowChecks) (id : String) (data : Body) (db : FindingTables) :
    Option FindingTables :=
  (db.updateRecommendations id (Recommendation.setColumns data)).checked checks

/-- The finding that `update` looks at, after its update: the recommendation is set to Implemented, and the
count of the open ones of its finding is zero. -/
def findingToClose (asText : Bool) (id : String) (data : Body) (db : FindingTables) : Option String :=
  if (data.get "status").any fun value => value.column = some "Implemented" then
    match db.recommendation id with
    | some row =>
      match row.findingId with
      | some findingId =>
        let openRecs := db.recommendations.countP fun row => row.findingId = some findingId && row.isOpen
        if findingId ≠ "" ∧ (countValue asText openRecs).isZero then some findingId else none
      | none => none
    | none => none
  else none

/-- The finding is there, and not Closed. -/
def canClose (findingId : String) (db : FindingTables) : Bool :=
  (db.finding findingId).any fun row => row.status ≠ some "Closed"

/-- `UPDATE audit_findings SET status = 'Closed' WHERE id = ?`. -/
def closeFinding (checks : RowChecks) (findingId : String) (db : FindingTables) : Option FindingTables :=
  (db.updateFindings findingId fun row => { row with status := some "Closed" }).checked checks

end AlsaqiBackend.Findings
