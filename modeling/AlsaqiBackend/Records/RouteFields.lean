import AlsaqiBackend.Records.Service

/-!
# Fields that the routes let through

The routes of `createCrudRoutes` and of `auditTasks` keep the fields of a request that their own lists
name, and `BaseService` then rejects a body with a key that the write schema of the table does not
name. `fields_agree_iff` says for which requests the two agree: four of the tables have no schema,
`risk_register` and `audit_tasks` let columns through that are not writable, and `POST /audit-tasks`
adds `created_by` itself.

A body that is not rejected reaches its statement unless it is empty (`create_of_permitted`,
`update_of_permitted`).
-/

namespace AlsaqiBackend.Records

open AlsaqiBackend.Lib
open AlsaqiBackend.Events (codeColumns isIdentifier)

/-! ## Routes -/

/-- The resources whose bodies go to `BaseService`. -/
inductive RouteResource
  | auditPlans
  | auditProcedures
  | auditEvidence
  | riskRegister
  | fraudLog
  | centralBankInstructions
  | lawBank
  | auditReports
  | auditTasks
  deriving DecidableEq, Repr

inductive WriteMethod
  | post
  | put
  deriving DecidableEq, Repr

/-- The table of a resource. -/
def RouteResource.tableName : RouteResource → String
  | auditPlans => "audit_plans"
  | auditProcedures => "audit_procedures"
  | auditEvidence => "audit_evidence"
  | riskRegister => "risk_register"
  | fraudLog => "fraud_log"
  | centralBankInstructions => "central_bank_instructions"
  | lawBank => "law_bank"
  | auditReports => "audit_reports"
  | auditTasks => "audit_tasks"

/-- `TABLE_ALLOWED_FIELDS` of the tables of `createCrudRoutes`. -/
def TABLE_ALLOWED_FIELDS : List (String × List String) :=
  [("audit_plans", ["plan_code", "program_id", "title", "department", "type", "risk_rating",
      "planned_start_date", "planned_end_date", "status", "lead_auditor", "team_members",
      "objectives", "scope", "notes", "year", "quarter"]),
    ("audit_procedures", ["program_id", "procedure_number", "audit_step", "audit_test_description",
      "risk_addressed", "control_test_type", "expected_evidence", "sampling_method",
      "responsible_auditor", "remarks"]),
    ("audit_evidence", ["audit_id", "finding_id", "type", "description", "uploaded_by", "file_name",
      "file_data", "upload_date"]),
    ("risk_register", ["risk_id", "description", "owner", "source", "early_warning", "type",
      "likelihood", "impact", "likelihood_num", "impact_num", "risk_score_calc", "risk_level_calc",
      "score", "rating", "controls", "control_assessment", "mitigation", "treatment_option",
      "residual_likelihood", "residual_impact", "residual_score", "residual_rating", "status",
      "target_date", "review_date", "notes", "entry_date", "entered_by"]),
    ("fraud_log", ["incident_date", "description", "reported_by", "status"]),
    ("central_bank_instructions", ["title", "issue_date", "reference_number", "category",
      "description", "related_department", "attachment", "status", "related_instruction_id"]),
    ("law_bank", ["title", "type", "authority", "issue_date", "keywords", "bookmarked", "file_url"]),
    ("audit_reports", ["audit_id", "title", "report_type", "generated_by", "date_generated", "status",
      "content"])]

/-- `ALLOWED_FIELDS` of `auditTasks`. -/
def AUDIT_TASK_ALLOWED_FIELDS : List String :=
  ["task_number", "title", "plan_id", "program_id", "audit_type", "task_type", "status",
    "assigned_to", "audited_unit_id", "planned_hours", "actual_hours", "period_from", "period_to",
    "due_date", "approved_by", "approved_at", "created_by"]

/-- The fields that a route lets through. -/
def RouteResource.allowedFields (resource : RouteResource) : List String :=
  match resource with
  | auditTasks => AUDIT_TASK_ALLOWED_FIELDS
  | resource => (TABLE_ALLOWED_FIELDS.lookup resource.tableName).getD []

/-- What a route gets, and what its handler adds: the files with the values that `saveFile` returns for
them, the id of the user, and the code that is drawn for a plan. -/
structure WriteRequest where
  resource : RouteResource
  method : WriteMethod
  body : Body
  files : OrderedMap String Value
  userId : Value
  planCode : String

/-- The fields that a list names. -/
def allowedBody (allowed : List String) (body : Body) : Body := body.filterKeys (· ∈ allowed)

/-- The body of a CRUD route: the allowed fields, and then the allowed files. -/
def crudBody (allowed : List String) (body : Body) (files : OrderedMap String Value) : Body :=
  (allowedBody allowed files).entries.foldl (fun body file => body.set file.1 file.2)
    (allowedBody allowed body)

/-- `value || other`. -/
def orValue (value : Option Value) (other : Value) : Value :=
  match value with
  | some value => if value.truthy then value else other
  | none => other

/-- The body that `AuditPlanService.create` hands on. -/
def planBody (data : Body) (planCode : String) : Body :=
  let year := (data.get "year").getD .null
  let quarter := orValue (data.get "quarter") (.text "Annual")
  let start := orValue (data.get "planned_start_date") (.text s!"{year.template}-01-01")
  let finish := orValue (data.get "planned_end_date") (.text s!"{year.template}-12-31")
  ((((((data.set "plan_code" (.text planCode)).set "year" year).set "quarter" quarter).set
    "planned_start_date" start).set "planned_end_date" finish).set "status" (.text "Planned")).set
      "is_archived" (.bool false)

/-- The fields of a task that are deleted when they are empty. -/
def taskUuidFields : List String := ["plan_id", "program_id", "audited_unit_id", "assigned_to"]

/-- The body that `POST /audit-tasks` builds. -/
def taskBody (body : Body) (userId : Value) : Body :=
  let body := allowedBody AUDIT_TASK_ALLOWED_FIELDS body
  let kept := body.filterKeys fun key => key ∉ taskUuidFields || (body.get key).any Value.truthy
  kept.set "created_by" userId

/-- The body that `BaseService` gets. -/
def WriteRequest.data (req : WriteRequest) : Body :=
  match req.resource, req.method with
  | .auditTasks, .post => taskBody req.body req.userId
  | .auditTasks, .put => allowedBody AUDIT_TASK_ALLOWED_FIELDS req.body
  | .auditPlans, .post =>
    planBody (crudBody RouteResource.auditPlans.allowedFields req.body req.files) req.planCode
  | resource, _ => crudBody resource.allowedFields req.body req.files

/-! ## Agreement -/

/-- `BaseService` does not reject the body. -/
def WriteRequest.Permitted (req : WriteRequest) : Prop :=
  BaseService.checkKeys req.resource.tableName req.data = .ok ()

/-- The fields that a route lets through and `BaseService` rejects. -/
def RouteResource.unwritableFields : RouteResource → List String
  | auditPlans => []
  | centralBankInstructions => []
  | lawBank => []
  | riskRegister => ["risk_score_calc", "risk_level_calc"]
  | auditTasks => ["approved_by", "approved_at", "created_by"]
  | auditProcedures => RouteResource.auditProcedures.allowedFields
  | auditEvidence => RouteResource.auditEvidence.allowedFields
  | fraudLog => RouteResource.fraudLog.allowedFields
  | auditReports => RouteResource.auditReports.allowedFields

/-- The fields of a request that its route looks at. -/
def WriteRequest.fields (req : WriteRequest) : List String :=
  if req.resource = .auditTasks then req.body.keys else req.body.keys ++ req.files.keys

/-- The request creates no task and has no unwritable field. -/
def WriteRequest.FieldsAgree (req : WriteRequest) : Prop :=
  ¬ (req.resource = .auditTasks ∧ req.method = .post) ∧
    ∀ field ∈ req.resource.unwritableFields, field ∉ req.fields

/-- The unwritable fields are those of the list of the route that the schema leaves out. -/
theorem unwritableFields_eq (resource : RouteResource) :
    resource.allowedFields.filter (fun field => field ∉ getColumnWhitelist resource.tableName) =
      resource.unwritableFields := by
  cases resource <;> decide +kernel

theorem checkKeys_eq_ok {tableName : String} {data : Body} :
    BaseService.checkKeys tableName data = .ok () ↔
      ∀ key ∈ data.keys, key ∈ getColumnWhitelist tableName := by
  have hnil : checkWhitelist tableName data = [] ↔
      ∀ key ∈ data.keys, key ∈ getColumnWhitelist tableName := by
    unfold checkWhitelist
    rw [List.filter_eq_nil_iff]
    simp
  rw [← hnil]
  unfold BaseService.checkKeys
  simp only
  split_ifs with h
  · simp [h]
  · simp [h]

/-- The keys of a CRUD body. -/
theorem mem_keys_crudBody {allowed : List String} {body files : Body} {key : String} :
    key ∈ (crudBody allowed body files).keys ↔ key ∈ allowed ∧ key ∈ body.keys ++ files.keys := by
  have hfold : ∀ (entries : List (String × Value)) (body : Body),
      key ∈ (entries.foldl (fun body file => body.set file.1 file.2) body).keys ↔
        key ∈ body.keys ∨ key ∈ entries.map Prod.fst := by
    intro entries
    induction entries with
    | nil => simp
    | cons entry entries ih =>
      intro body
      rw [List.foldl_cons, ih, OrderedMap.mem_keys_set, List.map_cons, List.mem_cons]
      tauto
  have hfiles : key ∈ (allowedBody allowed files).entries.map Prod.fst ↔
      key ∈ files.keys ∧ key ∈ allowed := by
    refine OrderedMap.mem_keys_filterKeys.trans ?_
    rw [decide_eq_true_iff]
  have hbody : key ∈ (allowedBody allowed body).keys ↔ key ∈ body.keys ∧ key ∈ allowed := by
    refine OrderedMap.mem_keys_filterKeys.trans ?_
    rw [decide_eq_true_iff]
  unfold crudBody
  rw [hfold, hbody, hfiles, List.mem_append]
  tauto

/-- The allowed fields of a request are writable exactly when none of the unwritable ones is among
them. -/
theorem writable_iff (resource : RouteResource) (fields : List String) :
    (∀ key, key ∈ resource.allowedFields ∧ key ∈ fields →
        key ∈ getColumnWhitelist resource.tableName) ↔
      ∀ field ∈ resource.unwritableFields, field ∉ fields := by
  rw [← unwritableFields_eq resource]
  constructor
  · intro h field hfield hmem
    obtain ⟨hallowed, hout⟩ := List.mem_filter.1 hfield
    exact of_decide_eq_true hout (h field ⟨hallowed, hmem⟩)
  · rintro h key ⟨hallowed, hmem⟩
    by_contra hout
    exact h key (List.mem_filter.2 ⟨hallowed, decide_eq_true hout⟩) hmem

/-- What `AuditPlanService.create` adds is writable. -/
theorem planBody_permitted (data : Body) (planCode : String) :
    BaseService.checkKeys "audit_plans" (planBody data planCode) = .ok () ↔
      BaseService.checkKeys "audit_plans" data = .ok () := by
  have hadded : ∀ key ∈ ["plan_code", "year", "quarter", "planned_start_date", "planned_end_date",
      "status", "is_archived"], key ∈ getColumnWhitelist "audit_plans" := by decide +kernel
  simp only [List.forall_mem_cons] at hadded
  rw [checkKeys_eq_ok, checkKeys_eq_ok]
  unfold planBody
  simp only [OrderedMap.mem_keys_set]
  constructor
  · intro h key hkey
    exact h key (by tauto)
  · intro h key hkey
    rcases hkey with rfl | rfl | rfl | rfl | rfl | rfl | rfl | hkey <;> tauto

/-- A CRUD body is permitted exactly when it has no unwritable field. -/
theorem crudBody_permitted (resource : RouteResource) (body files : Body) :
    BaseService.checkKeys resource.tableName (crudBody resource.allowedFields body files) = .ok () ↔
      ∀ field ∈ resource.unwritableFields, field ∉ body.keys ++ files.keys := by
  rw [checkKeys_eq_ok, ← writable_iff]
  simp only [mem_keys_crudBody]

/-- The body of a `PUT` of a task. -/
theorem allowedBody_permitted (body : Body) :
    BaseService.checkKeys "audit_tasks" (allowedBody AUDIT_TASK_ALLOWED_FIELDS body) = .ok () ↔
      ∀ field ∈ RouteResource.auditTasks.unwritableFields, field ∉ body.keys := by
  rw [checkKeys_eq_ok, ← writable_iff]
  unfold allowedBody
  simp only [OrderedMap.mem_keys_filterKeys, decide_eq_true_iff]
  exact forall_congr' fun key => imp_congr_left and_comm

/-- The body of a `POST` of a task is never permitted. -/
theorem taskBody_not_permitted (body : Body) (userId : Value) :
    BaseService.checkKeys "audit_tasks" (taskBody body userId) ≠ .ok () := by
  rw [ne_eq, checkKeys_eq_ok]
  intro h
  have hcreated : "created_by" ∈ (taskBody body userId).keys := OrderedMap.mem_keys_set.2 (.inl rfl)
  exact absurd (h "created_by" hcreated) (by decide +kernel)

/-- The other routes hand on the body of a CRUD route. -/
theorem data_eq_crudBody {req : WriteRequest} (htask : req.resource ≠ .auditTasks)
    (hplan : ¬ (req.resource = .auditPlans ∧ req.method = .post)) :
    req.data = crudBody req.resource.allowedFields req.body req.files := by
  unfold WriteRequest.data
  split
  · exact absurd ‹_› htask
  · exact absurd ‹_› htask
  · exact absurd ⟨‹_›, ‹_›⟩ hplan
  · rfl

/-- The body that a route builds is not rejected exactly when the request creates no task and has none of
the fields that the route lets through and the schema of the table leaves out. -/
theorem fields_agree_iff (req : WriteRequest) : req.Permitted ↔ req.FieldsAgree := by
  obtain ⟨resource, method, body, files, userId, planCode⟩ := req
  unfold WriteRequest.Permitted WriteRequest.FieldsAgree WriteRequest.fields
  simp only
  by_cases htask : resource = .auditTasks
  · subst htask
    rw [if_pos rfl]
    cases method with
    | post => exact iff_of_false (taskBody_not_permitted body userId) fun h => h.1 ⟨rfl, rfl⟩
    | put => exact (allowedBody_permitted body).trans (by simp)
  · have hcrud := crudBody_permitted resource body files
    rw [if_neg htask, and_iff_right fun h => htask h.1, ← hcrud]
    by_cases hplan : resource = .auditPlans ∧ method = .post
    · obtain ⟨rfl, rfl⟩ := hplan
      exact planBody_permitted _ planCode
    · rw [data_eq_crudBody htask hplan]

/-- `POST /audit-tasks` with a title. -/
def titledTask : WriteRequest :=
  ⟨.auditTasks, .post, OrderedMap.empty.set "title" (.text "Cash count"), .empty, .text "7", ""⟩

/-- The task is rejected, for the creator that the route adds. -/
theorem titledTask_rejected : ¬∀ req : WriteRequest, req.Permitted := by
  intro hall
  exact taskBody_not_permitted titledTask.body titledTask.userId (hall titledTask)

/-! ## Statements -/

variable {Id : Type} [DecidableEq Id]

/-- The writable columns of a resource, its column of codes and its table are identifiers. -/
theorem isIdentifier_names (resource : RouteResource) :
    ∀ name ∈ resource.tableName :: ((codeColumns.lookup resource.tableName).toList ++
      getColumnWhitelist resource.tableName), isIdentifier name = true := by
  cases resource <;> decide +kernel

/-- The keys with the code are those of the fields, and the column of codes. -/
theorem mem_keys_withCode {tableName key : String} {code : Option String} {body : Body}
    (h : key ∈ (BaseService.withCode tableName code body).keys) :
    key ∈ body.keys ∨ key ∈ (codeColumns.lookup tableName).toList := by
  unfold BaseService.withCode at h
  split at h
  · rename_i codeCol _ hcode _
    split_ifs at h
    · exact Or.inl h
    · rcases OrderedMap.mem_keys_set.1 h with rfl | hkey
      · exact Or.inr (by simp [hcode])
      · exact Or.inl hkey
  · exact Or.inl h

/-- The names of a statement over writable columns pass, unless there is none. -/
theorem checkNames_of_writable (resource : RouteResource) {body : Body} (empty : String)
    (h : ∀ key ∈ body.keys, key ∈ (codeColumns.lookup resource.tableName).toList ++
      getColumnWhitelist resource.tableName) :
    BaseService.checkNames resource.tableName body empty =
      if body.keys = [] then .error (.validation empty []) else .ok () := by
  have hnames := isIdentifier_names resource
  have hkeys := validateIdentifiers_eq_ok.2 fun key hkey =>
    hnames key (List.mem_cons_of_mem _ (h key hkey))
  have htable : validateIdentifiers [resource.tableName] = .ok () :=
    validateIdentifiers_eq_ok.2 fun name hname =>
      hnames name (List.mem_singleton.1 hname ▸ List.mem_cons_self)
  unfold BaseService.checkNames
  rw [hkeys, htable]
  split_ifs with hempty
  · rfl
  · rfl

/-- A body that is not rejected is inserted, unless it is empty. -/
theorem create_of_permitted {req : WriteRequest} (h : req.Permitted) (pg : Postgres Id)
    (tables : Tables Id) (code : Option String) (slot : Slot Id) :
    BaseService.create pg tables req.resource.tableName req.data code slot =
      let body := BaseService.withCode req.resource.tableName code (sanitizeBody req.data)
      if body.keys = [] then .error (.validation "No data provided for creation" [])
      else insertRow pg tables req.resource.tableName body slot := by
  have hwritable := checkKeys_eq_ok.1 h
  have hkeys : ∀ key ∈ (BaseService.withCode req.resource.tableName code (sanitizeBody req.data)).keys,
      key ∈ (codeColumns.lookup req.resource.tableName).toList ++
        getColumnWhitelist req.resource.tableName := by
    intro key hkey
    rcases mem_keys_withCode hkey with hfield | hcode
    · rw [sanitizeBody, OrderedMap.keys_mapValues] at hfield
      exact List.mem_append_right _ (hwritable key hfield)
    · exact List.mem_append_left _ hcode
  have hnames := checkNames_of_writable req.resource "No data provided for creation" hkeys
  unfold WriteRequest.Permitted at h
  unfold BaseService.create
  rw [h]
  show (BaseService.checkNames _ _ _ >>= fun _ => insertRow _ _ _ _ _) = _
  rw [hnames]
  simp only
  split_ifs
  · rfl
  · rfl

/-- A body that is not rejected is written to the row, unless it is empty. -/
theorem update_of_permitted {req : WriteRequest} (h : req.Permitted) (pg : Postgres Id)
    (tables : Tables Id) (id : Value) (now : String) (fails : Option String) :
    BaseService.update pg tables req.resource.tableName id req.data now fails =
      let body := sanitizeBody req.data
      if body.keys = [] then .error (.validation "No data provided for update" [])
      else updateRow pg tables req.resource.tableName id (fun _ => true) (setColumns body now) fails
        (BaseService.missing req.resource.tableName id) := by
  have hwritable := checkKeys_eq_ok.1 h
  have hkeys : ∀ key ∈ (sanitizeBody req.data).keys,
      key ∈ (codeColumns.lookup req.resource.tableName).toList ++
        getColumnWhitelist req.resource.tableName := by
    intro key hkey
    rw [sanitizeBody, OrderedMap.keys_mapValues] at hkey
    exact List.mem_append_right _ (hwritable key hkey)
  have hnames := checkNames_of_writable req.resource "No data provided for update" hkeys
  unfold WriteRequest.Permitted at h
  unfold BaseService.update BaseService.checkUpdate
  rw [h]
  show ((BaseService.checkNames _ _ _ >>= fun _ => pure (sanitizeBody req.data)) >>= fun body =>
    updateRow _ _ _ _ _ _ _ _) = _
  rw [hnames]
  simp only
  split_ifs
  · rfl
  · rfl

end AlsaqiBackend.Records
