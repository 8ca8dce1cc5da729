import AlsaqiBackend.Findings.Service
import AlsaqiBackend.Lib.Modify
import AlsaqiBackend.Lib.Run

/-!
# The status of an audit task

`PATCH /audit-tasks/:id/status` looks the transition up in lower case, and then has two guards for the
statuses in their own spelling, one of which looks for findings with the status `open`; what it stores is
the status as it was sent. `PUT /audit-tasks/:id` writes the same column. Findings and recommendations change
in between in any way.

`lawful_iff_orderly` says when every change of a status is one of the table, in its spelling and with its
conditions: exactly when `PATCH` is sent the spelling of the table, for a review there is no such finding,
for an approval no empty due date, and `PUT` has no other status than the table and its conditions allow.
-/

namespace AlsaqiBackend.Tasks

open AlsaqiBackend.Lib AlsaqiBackend.Findings

/-! ## Tasks -/

/-- The columns of `audit_tasks` that are read here. -/
structure AuditTask where
  id : String
  planId : Option String
  status : String
  deriving DecidableEq, Repr

def TASK_STATUSES : List String := ["draft", "in_progress", "review", "approved", "completed"]

/-- `ALLOWED_TRANSITIONS[status]?.[newStatus]?.roles`. -/
def ALLOWED_TRANSITIONS : String → String → Option (List String)
  | "draft", "in_progress" => some ["Auditor", "Internal Auditor", "Manager"]
  | "in_progress", "review" => some ["Auditor", "Internal Auditor"]
  | "review", "approved" => some ["Manager"]
  | "review", "in_progress" => some ["Manager"]
  | "approved", "completed" => some ["Manager"]
  | _, _ => none

/-- Tasks with different ids and statuses of the table. -/
structure TaskTable where
  tasks : List AuditTask
  nodup : (tasks.map AuditTask.id).Nodup
  known : ∀ task ∈ tasks, task.status ∈ TASK_STATUSES

structure TaskState where
  tasks : List AuditTask
  db : FindingTables
  deriving DecidableEq, Repr

def TaskState.init (table : TaskTable) (db : FindingTables) : TaskState := ⟨table.tasks, db⟩

inductive TaskOp
  /-- `PATCH /:id/status`. -/
  | patch (id newStatus userRole : String)
  /-- `PUT /:id`. -/
  | put (id : String) (body : Body) (userRole : String)
  /-- Findings and recommendations change. -/
  | setFindings (db : FindingTables)
  deriving DecidableEq, Repr

/-! ## changeStatus -/

/-- The findings of a plan; there are none without a plan. -/
def planFindings (db : FindingTables) (planId : Option String) : List Finding :=
  db.findings.filter fun row => planId.isSome && row.auditId = planId

/-- The recommendations, joined with the findings of a plan. -/
def planRecommendations (db : FindingTables) (planId : Option String) : List Recommendation :=
  db.recommendations.filter fun row =>
    row.findingId.isSome && (planFindings db planId).any fun finding => finding.id = row.findingId

/-- The query of the guard before a review. -/
def blockingFindings (db : FindingTables) (planId : Option String) : List Finding :=
  (planFindings db planId).filter fun row =>
    row.status = some "open" && (row.riskLevel = some "Critical" || row.riskLevel = some "High")

/-- The query of the guard before an approval. -/
def incompleteRecommendations (db : FindingTables) (planId : Option String) : List Recommendation :=
  (planRecommendations db planId).filter fun row =>
    row.actionPlan = none || row.actionPlan = some "" || row.dueDate = none

/-- What `changeStatus` checks before its update. Lower case is that of ASCII: no other letter has one of
these statuses in lower case. -/
def canChangeStatus (db : FindingTables) (task : AuditTask) (newStatus userRole : String) : Bool :=
  match ALLOWED_TRANSITIONS task.status.toLower newStatus.toLower with
  | none => false
  | some roles =>
    userRole ∈ roles && (newStatus ≠ "review" || blockingFindings db task.planId = []) &&
      (newStatus ≠ "approved" || incompleteRecommendations db task.planId = [])

/-! ## Updates -/

def ALLOWED_FIELDS : List String :=
  ["task_number", "title", "plan_id", "program_id", "audit_type", "task_type", "status", "assigned_to",
    "audited_unit_id", "planned_hours", "actual_hours", "period_from", "period_to", "due_date",
    "approved_by", "approved_at", "created_by"]

/-- The columns of the table that `BaseService.update` lets through. -/
def columnWhitelist : List String :=
  ["task_number", "title", "plan_id", "program_id", "task_type", "audit_type", "status", "assigned_to",
    "audited_unit_id", "planned_hours", "actual_hours", "period_from", "period_to", "due_date"]

/-- The fields of a body that `PUT` hands on. -/
def allowedFields (body : Body) : Body := body.filter fun entry => entry.1 ∈ ALLOWED_FIELDS

/-- `sanitizeBody` on the plan: an empty text is NULL. -/
def sanitizedPlan (value : BodyValue) : Option String :=
  if value.column = some "" then none else value.column

/-- The row after `BaseService.update`; `none` when the status would be NULL. -/
def AuditTask.setFields (data : Body) (task : AuditTask) : Option AuditTask :=
  match ((data.get "status").map BodyValue.column).getD (some task.status) with
  | none => none
  | some status => some { task with
      planId := ((data.get "plan_id").map sanitizedPlan).getD task.planId
      status := status }

/-- What `BaseService.update` takes. -/
def canUpdate (data : Body) : Bool := data ≠ [] && data.all fun entry => entry.1 ∈ columnWhitelist

-- The CHECK constraint of the column.
variable (statusCheck : String → Bool)

/-- `UPDATE audit_tasks … WHERE id = ?`; nothing is updated when the new row is refused. -/
def updateTask (id : String) (row : AuditTask → Option AuditTask) (tasks : List AuditTask) :
    List AuditTask :=
  tasks.map fun task =>
    if task.id = id then ((row task).filter fun task => statusCheck task.status).getD task else task

def task (s : TaskState) (id : String) : Option AuditTask := s.tasks.find? fun task => task.id = id

/-- One operation; one that is refused changes nothing. -/
def taskStep (s : TaskState) : TaskOp → Option TaskState
  | .patch id newStatus userRole =>
    if (task s id).any fun task => canChangeStatus s.db task newStatus userRole then
      some { s with tasks := updateTask statusCheck id (fun task => some { task with status := newStatus }) s.tasks }
    else some s
  | .put id body _ =>
    if canUpdate (allowedFields body) then
      some { s with tasks := updateTask statusCheck id (AuditTask.setFields (allowedFields body)) s.tasks }
    else some s
  | .setFindings db => some { s with db }

/-! ## Lawful changes -/

/-- The plan has no Open finding of a high risk. -/
def NoOpenFinding (db : FindingTables) (planId : Option String) : Prop :=
  ∀ row ∈ planFindings db planId, row.status = some "Open" →
    row.riskLevel ≠ some "Critical" ∧ row.riskLevel ≠ some "High"

/-- A column that has a text. -/
def Filled (column : Option String) : Prop := column ≠ none ∧ column ≠ some ""

/-- Every recommendation of the plan has an action plan and a due date. -/
def AllPlanned (db : FindingTables) (planId : Option String) : Prop :=
  ∀ row ∈ planRecommendations db planId, Filled row.actionPlan ∧ Filled row.dueDate

/-- The table has the change for this role, and the conditions hold. -/
structure LawfulStatus (db : FindingTables) (userRole status newStatus : String)
    (planId : Option String) : Prop where
  allowed : ∃ roles, ALLOWED_TRANSITIONS status newStatus = some roles ∧ userRole ∈ roles
  review : newStatus = "review" → NoOpenFinding db planId
  approved : newStatus = "approved" → AllPlanned db planId

/-- The role of the user of an operation. -/
def TaskOp.userRole : TaskOp → String
  | .patch _ _ userRole => userRole
  | .put _ _ userRole => userRole
  | .setFindings _ => ""

/-- Every task has a status of the table after the operation, and keeps its own or changes it lawfully. -/
def Lawful (s : TaskState) (op : TaskOp) : Prop :=
  ∀ t, taskStep statusCheck s op = some t → ∀ (k : ℕ) (task task' : AuditTask), s.tasks[k]? = some task →
    t.tasks[k]? = some task' → task'.status ∈ TASK_STATUSES ∧
      (task'.status = task.status ∨
        LawfulStatus s.db op.userRole task.status task'.status task'.planId)

/-- What makes a change lawful: `PATCH` is sent a status in lower case; where that is a review no finding of
a high risk is Open, and where it is an approval no due date is empty. The status of a `PUT` is the old one, or
that of a lawful change. -/
def Orderly (s : TaskState) : TaskOp → Prop
  | .patch id newStatus userRole =>
    ∀ row ∈ s.tasks, row.id = id → canChangeStatus s.db row newStatus userRole = true →
      statusCheck newStatus = true →
        newStatus.toLower = newStatus ∧ (newStatus = "review" → NoOpenFinding s.db row.planId) ∧
          (newStatus = "approved" → ∀ rec ∈ planRecommendations s.db row.planId, rec.dueDate ≠ some "")
  | .put id body userRole =>
    canUpdate (allowedFields body) = true → ∀ row ∈ s.tasks, row.id = id →
      ∀ row', row.setFields (allowedFields body) = some row' → statusCheck row'.status = true →
        row'.status = row.status ∨ LawfulStatus s.db userRole row.status row'.status row'.planId
  | .setFindings _ => True

variable {statusCheck} {s : TaskState}

/-! ## The table -/

/-- The table leads to its statuses, from other ones. -/
theorem ALLOWED_TRANSITIONS_spec {status newStatus : String} {roles : List String}
    (h : ALLOWED_TRANSITIONS status newStatus = some roles) :
    newStatus ∈ TASK_STATUSES ∧ newStatus ≠ status := by
  unfold ALLOWED_TRANSITIONS at h
  split at h
  · exact ⟨by decide, by decide⟩
  · exact ⟨by decide, by decide⟩
  · exact ⟨by decide, by decide⟩
  · exact ⟨by decide, by decide⟩
  · exact ⟨by decide, by decide⟩
  · cases h

/-- Its statuses are in lower case. -/
theorem toLower_of_known {status : String} (h : status ∈ TASK_STATUSES) : status.toLower = status := by
  have hall : ∀ status ∈ TASK_STATUSES, status.toLower = status := by decide +kernel
  exact hall status h

/-- The recommendations that the guard leaves have an action plan, and a due date unless it is empty. -/
theorem allPlanned_iff {db : FindingTables} {planId : Option String}
    (h : incompleteRecommendations db planId = []) :
    AllPlanned db planId ↔ ∀ rec ∈ planRecommendations db planId, rec.dueDate ≠ some "" := by
  have hcomplete : ∀ rec ∈ planRecommendations db planId, Filled rec.actionPlan ∧ rec.dueDate ≠ none := by
    intro rec hrec
    have hnot := List.filter_eq_nil_iff.1 h rec hrec
    simp only [Bool.or_eq_true, decide_eq_true_eq, not_or] at hnot
    exact ⟨⟨hnot.1.1, hnot.1.2⟩, hnot.2⟩
  constructor
  · intro hplanned rec hrec
    exact (hplanned rec hrec).2.2
  · intro hdue rec hrec
    obtain ⟨haction, hsome⟩ := hcomplete rec hrec
    exact ⟨haction, hsome, hdue rec hrec⟩

/-- From a status of the table, a change that is checked is lawful exactly when it is sent in lower case, and
the conditions hold that the guards miss. -/
theorem lawfulStatus_iff {db : FindingTables} {task : AuditTask} {newStatus userRole : String}
    (hknown : task.status ∈ TASK_STATUSES) (hcan : canChangeStatus db task newStatus userRole = true) :
    (newStatus ∈ TASK_STATUSES ∧ (newStatus = task.status ∨
        LawfulStatus db userRole task.status newStatus task.planId)) ↔
      newStatus.toLower = newStatus ∧ (newStatus = "review" → NoOpenFinding db task.planId) ∧
        (newStatus = "approved" → ∀ rec ∈ planRecommendations db task.planId, rec.dueDate ≠ some "") := by
  unfold canChangeStatus at hcan
  rw [toLower_of_known hknown] at hcan
  split at hcan
  · cases hcan
  rename_i roles hroles
  simp only [Bool.and_eq_true, Bool.or_eq_true, decide_eq_true_eq, ne_eq] at hcan
  obtain ⟨⟨hrole, -⟩, happroved⟩ := hcan
  have hplanned : newStatus = "approved" → (AllPlanned db task.planId ↔
      ∀ rec ∈ planRecommendations db task.planId, rec.dueDate ≠ some "") :=
    fun heq => allPlanned_iff (happroved.resolve_left fun hne => hne heq)
  constructor
  · rintro ⟨hmem, hcase⟩
    have hlower := toLower_of_known hmem
    rw [hlower] at hroles
    have hlawful := hcase.resolve_left (ALLOWED_TRANSITIONS_spec hroles).2
    exact ⟨hlower, hlawful.review, fun heq => (hplanned heq).1 (hlawful.approved heq)⟩
  · rintro ⟨hlower, hreview, hdue⟩
    rw [hlower] at hroles
    exact ⟨(ALLOWED_TRANSITIONS_spec hroles).1,
      Or.inr ⟨⟨roles, hroles, hrole⟩, hreview, fun heq => (hplanned heq).2 (hdue heq)⟩⟩

/-! ## Operations -/

/-- The tasks have different ids, and statuses of the table. -/
structure Known (s : TaskState) : Prop where
  nodup : (s.tasks.map AuditTask.id).Nodup
  known : ∀ task ∈ s.tasks, task.status ∈ TASK_STATUSES

theorem task_of_mem (hs : Known s) {row : AuditTask} (hrow : row ∈ s.tasks) : task s row.id = some row :=
  find?_key_of_mem hs.nodup hrow rfl

/-- What an update makes of the tasks, one by one. -/
theorem getElem?_updateTask {id : String} {row : AuditTask → Option AuditTask} {tasks : List AuditTask}
    {k : ℕ} {task : AuditTask} (h : tasks[k]? = some task) :
    (updateTask statusCheck id row tasks)[k]? = some (if task.id = id then
      ((row task).filter fun task => statusCheck task.status).getD task else task) := by
  unfold updateTask
  rw [List.getElem?_map, h, Option.map_some]

/-- An operation is lawful when its update is, at each task that it changes. -/
theorem lawful_update_iff {op : TaskOp} {id : String} {row : AuditTask → Option AuditTask} {t : TaskState}
    (hs : Known s) (hstep : taskStep statusCheck s op = some t)
    (ht : t.tasks = updateTask statusCheck id row s.tasks) :
    Lawful statusCheck s op ↔ ∀ task ∈ s.tasks, task.id = id → ∀ task', row task = some task' →
      statusCheck task'.status = true → task'.status ∈ TASK_STATUSES ∧
        (task'.status = task.status ∨
          LawfulStatus s.db op.userRole task.status task'.status task'.planId) := by
  constructor
  · intro hlawful task hmem hid task' hrow hcheck
    obtain ⟨k, hk⟩ := List.getElem?_of_mem hmem
    apply hlawful t hstep k task task' hk
    rw [ht, getElem?_updateTask hk, if_pos hid, hrow, Option.filter_some, if_pos hcheck]
    rfl
  · intro hrows u hu k task task' hk hk'
    obtain rfl := Option.some.inj (hstep.symm.trans hu)
    have hmem := List.mem_of_getElem? hk
    have hsame : task.status ∈ TASK_STATUSES ∧ (task.status = task.status ∨
        LawfulStatus s.db op.userRole task.status task.status task.planId) :=
      ⟨hs.known task hmem, Or.inl rfl⟩
    rw [ht, getElem?_updateTask hk, Option.some.injEq] at hk'
    subst hk'
    by_cases hid : task.id = id
    · rw [if_pos hid]
      cases hrow : (row task).filter fun task => statusCheck task.status with
      | none => exact hsame
      | some written =>
        obtain ⟨hwritten, hcheck⟩ := Option.filter_eq_some_iff.1 hrow
        exact hrows task hmem hid written hwritten hcheck
    · rw [if_neg hid]
      exact hsame

/-- An operation that leaves the tasks as they are is lawful. -/
theorem lawful_of_same {op : TaskOp} {t : TaskState} (hs : Known s)
    (hstep : taskStep statusCheck s op = some t) (ht : t.tasks = s.tasks) : Lawful statusCheck s op := by
  intro u hu k task task' hk hk'
  obtain rfl := Option.some.inj (hstep.symm.trans hu)
  rw [ht] at hk'
  obtain rfl := Option.some.inj (hk.symm.trans hk')
  exact ⟨hs.known task (List.mem_of_getElem? hk), Or.inl rfl⟩

/-- One operation is lawful exactly when it is orderly. -/
theorem lawful_step_iff (hs : Known s) {op : TaskOp} {t : TaskState}
    (hstep : taskStep statusCheck s op = some t) : Lawful statusCheck s op ↔ Orderly statusCheck s op := by
  cases op with
  | patch id newStatus userRole =>
    by_cases hcan : (task s id).any fun task => canChangeStatus s.db task newStatus userRole
    · have ht : t.tasks =
          updateTask statusCheck id (fun task => some { task with status := newStatus }) s.tasks := by
        simp only [taskStep, if_pos hcan, Option.some.injEq] at hstep
        rw [← hstep]
      rw [lawful_update_iff hs hstep ht]
      refine forall₂_congr fun row hrow => forall_congr' fun hid => ?_
      -- The task that was read is this one, so it was checked.
      have hread : canChangeStatus s.db row newStatus userRole = true := by
        rw [← hid, task_of_mem hs hrow] at hcan
        exact hcan
      have hiff := lawfulStatus_iff (hs.known row hrow) hread
      constructor
      · intro h _ hcheck
        exact hiff.1 (h _ rfl hcheck)
      · intro h task' heq hcheck
        obtain rfl := Option.some.inj heq
        exact hiff.2 (h hread hcheck)
    · have ht : t.tasks = s.tasks := by
        simp only [taskStep, if_neg hcan, Option.some.injEq] at hstep
        rw [← hstep]
      refine iff_of_true (lawful_of_same hs hstep ht) fun row hrow hid hread => ?_
      rw [← hid, task_of_mem hs hrow] at hcan
      exact absurd hread hcan
  | put id body userRole =>
    by_cases hcan : canUpdate (allowedFields body) = true
    · have ht : t.tasks =
          updateTask statusCheck id (AuditTask.setFields (allowedFields body)) s.tasks := by
        simp only [taskStep, if_pos hcan, Option.some.injEq] at hstep
        rw [← hstep]
      rw [lawful_update_iff hs hstep ht]
      constructor
      · intro h _ row hrow hid row' hset hcheck
        exact (h row hrow hid row' hset hcheck).2
      · intro h row hrow hid row' hset hcheck
        have hcase := h hcan row hrow hid row' hset hcheck
        refine ⟨?_, hcase⟩
        rcases hcase with hsame | hlawful
        · rw [hsame]
          exact hs.known row hrow
        · obtain ⟨roles, hroles, -⟩ := hlawful.allowed
          exact (ALLOWED_TRANSITIONS_spec hroles).1
    · have ht : t.tasks = s.tasks := by
        simp only [taskStep, if_neg hcan, Option.some.injEq] at hstep
        rw [← hstep]
      exact iff_of_true (lawful_of_same hs hstep ht) fun h => absurd h hcan
  | setFindings db =>
    have ht : t.tasks = s.tasks := by
      obtain rfl := Option.some.inj hstep
      rfl
    exact iff_of_true (lawful_of_same hs hstep ht) trivial

/-! ## Runs -/

/-- An update keeps the ids. -/
theorem map_id_updateTask {id : String} {row : AuditTask → Option AuditTask} {tasks : List AuditTask}
    (hrow : ∀ task task', row task = some task' → task'.id = task.id) :
    (updateTask statusCheck id row tasks).map AuditTask.id = tasks.map AuditTask.id := by
  unfold updateTask
  rw [List.map_map]
  refine List.map_congr_left fun task _ => ?_
  rw [Function.comp_apply]
  split_ifs
  · cases hfilter : (row task).filter fun task => statusCheck task.status with
    | none => rfl
    | some written => exact hrow task written (Option.filter_eq_some_iff.1 hfilter).1
  · rfl

theorem setFields_id {data : Body} {task task' : AuditTask} (h : task.setFields data = some task') :
    task'.id = task.id := by
  unfold AuditTask.setFields at h
  split at h
  · cases h
  · obtain rfl := Option.some.inj h
    rfl

/-- Every operation keeps the ids. -/
theorem taskStep_ids {op : TaskOp} {t : TaskState} (hstep : taskStep statusCheck s op = some t) :
    t.tasks.map AuditTask.id = s.tasks.map AuditTask.id := by
  cases op with
  | patch id newStatus userRole =>
    simp only [taskStep] at hstep
    split_ifs at hstep
    · obtain rfl := Option.some.inj hstep
      apply map_id_updateTask
      intro task task' heq
      obtain rfl := Option.some.inj heq
      rfl
    · obtain rfl := Option.some.inj hstep
      rfl
  | put id body userRole =>
    simp only [taskStep] at hstep
    split_ifs at hstep
    · obtain rfl := Option.some.inj hstep
      exact map_id_updateTask fun task task' => setFields_id
    · obtain rfl := Option.some.inj hstep
      rfl
  | setFindings db =>
    obtain rfl := Option.some.inj hstep
    rfl

/-- A lawful operation keeps the statuses in the table. -/
theorem Known.of_lawful (s : TaskState) (op : TaskOp) (t : TaskState) (hs : Known s)
    (hlawful : Lawful statusCheck s op) (hstep : taskStep statusCheck s op = some t) : Known t where
  nodup := by
    rw [taskStep_ids hstep]
    exact hs.nodup
  known := by
    intro task' hmem
    obtain ⟨k, hk'⟩ := List.getElem?_of_mem hmem
    have hlength : t.tasks.length = s.tasks.length := by
      have hids := congrArg List.length (taskStep_ids hstep)
      rwa [List.length_map, List.length_map] at hids
    have hlt : k < s.tasks.length := hlength ▸ (List.getElem?_eq_some_iff.1 hk').1
    exact (hlawful t hstep k _ task' (List.getElem?_eq_getElem hlt) hk').1

theorem Known.init (table : TaskTable) (db : FindingTables) : Known (.init table db) :=
  ⟨table.nodup, table.known⟩

variable (statusCheck)

/-- Every operation of a sequence is lawful exactly when every one is orderly. -/
theorem lawful_iff_orderly (table : TaskTable) (db : FindingTables) (ops : List TaskOp) :
    Guarded (taskStep statusCheck) (Lawful statusCheck) (.init table db) ops ↔
      Guarded (taskStep statusCheck) (Orderly statusCheck) (.init table db) ops :=
  guarded_congr Known.of_lawful (fun _ _ _ hs hstep => lawful_step_iff hs hstep) ops (.init table db)

/-- A task of the plan `p`. -/
def oneTask (status : String) (known : status ∈ TASK_STATUSES) : TaskTable where
  tasks := [⟨"t", some "p", status⟩]
  nodup := List.nodup_singleton _
  known := by
    intro task htask
    rwa [List.mem_singleton.1 htask]

/-- A finding of the plan and its recommendation, as they are created, with an action plan. -/
def createdFinding : FindingTables where
  findings := [⟨some "f", some "p", some "owner", some "Open", some "High", none⟩]
  recommendations := [⟨some "r", some "f", some "Open", some "High", some "plan", some "", none⟩]

/-- A task is stored in `Review`, one enters the review with an Open finding of a high risk, one is approved
with a recommendation that has no due date, and one is completed as a draft. -/
theorem statuses_against_table :
    (¬ Guarded (taskStep fun _ => true) (Lawful fun _ => true)
      (.init (oneTask "in_progress" (by decide)) ⟨[], []⟩) [.patch "t" "Review" "Auditor"]) ∧
    (¬ Guarded (taskStep fun status => status ∈ TASK_STATUSES) (Lawful fun status => status ∈ TASK_STATUSES)
      (.init (oneTask "in_progress" (by decide)) createdFinding) [.patch "t" "review" "Auditor"]) ∧
    (¬ Guarded (taskStep fun status => status ∈ TASK_STATUSES) (Lawful fun status => status ∈ TASK_STATUSES)
      (.init (oneTask "review" (by decide)) createdFinding) [.patch "t" "approved" "Manager"]) ∧
    ¬ Guarded (taskStep fun status => status ∈ TASK_STATUSES) (Lawful fun status => status ∈ TASK_STATUSES)
      (.init (oneTask "draft" (by decide)) ⟨[], []⟩) [.put "t" [("status", .text "completed")] "Auditor"] := by
  refine ⟨fun h => ?_, fun h => ?_, fun h => ?_, fun h => ?_⟩
  · have hstep : taskStep (fun _ => true) (.init (oneTask "in_progress" (by decide)) ⟨[], []⟩)
        (.patch "t" "Review" "Auditor") = some ⟨[⟨"t", some "p", "Review"⟩], ⟨[], []⟩⟩ := by
      decide +kernel
    have hlawful := (h _ hstep).1 _ hstep 0 _ _ rfl rfl
    exact absurd hlawful.1 (by decide)
  · have hstep : taskStep (fun status => status ∈ TASK_STATUSES)
        (.init (oneTask "in_progress" (by decide)) createdFinding) (.patch "t" "review" "Auditor") =
          some ⟨[⟨"t", some "p", "review"⟩], createdFinding⟩ := by
      decide +kernel
    obtain ⟨-, heq | hlawful⟩ := (h _ hstep).1 _ hstep 0 _ _ rfl rfl
    · exact absurd heq (by decide)
    · exact (hlawful.review rfl _ List.mem_cons_self rfl).2 rfl
  · have hstep : taskStep (fun status => status ∈ TASK_STATUSES)
        (.init (oneTask "review" (by decide)) createdFinding) (.patch "t" "approved" "Manager") =
          some ⟨[⟨"t", some "p", "approved"⟩], createdFinding⟩ := by
      decide +kernel
    obtain ⟨-, heq | hlawful⟩ := (h _ hstep).1 _ hstep 0 _ _ rfl rfl
    · exact absurd heq (by decide)
    · exact (hlawful.approved rfl _ List.mem_cons_self).2.2 rfl
  · have hstep : taskStep (fun status => status ∈ TASK_STATUSES)
        (.init (oneTask "draft" (by decide)) ⟨[], []⟩) (.put "t" [("status", .text "completed")] "Auditor") =
          some ⟨[⟨"t", some "p", "completed"⟩], ⟨[], []⟩⟩ := by
      decide +kernel
    obtain ⟨-, heq | hlawful⟩ := (h _ hstep).1 _ hstep 0 _ _ rfl rfl
    · exact absurd heq (by decide)
    · obtain ⟨roles, hroles, -⟩ := hlawful.allowed
      have hnone : ALLOWED_TRANSITIONS "draft" "completed" = none := by decide
      exact absurd (hnone.symm.trans hroles) nofun

end AlsaqiBackend.Tasks
