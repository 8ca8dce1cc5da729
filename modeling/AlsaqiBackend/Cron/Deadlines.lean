import AlsaqiBackend.Lib.JsDate
import AlsaqiBackend.Lib.Run
import AlsaqiBackend.Lib.Table

/-!
# Checks of upcoming deadlines

`checkUpcomingDeadlines` of `src/cron/index.ts` starts at each start of the server and at midnight. It returns at
once when the last check was for the same day; else it sends the notifications of the tasks that are due
tomorrow, of the plans that start or end in three days and, on December 15, of the plans of the year, and notes
the day at its end. Each of the three sections logs its errors and goes on with the next one.

A call is cut at its awaits, so that several calls can be under way. The day of a call is that of
`toISOString`; a date of the tables is the number of its day.
-/

namespace AlsaqiBackend.Cron

open AlsaqiBackend.Lib

/-! ## Local time -/

/-- The clock of the server: the offset to UTC at each time, and the time that a local time stands for. -/
structure LocalClock where
  offset : TimeZone
  toUtc : ℤ → ℤ
  /-- A local time that the clock shows stands for a time at which it shows it. -/
  toUtc_spec : ∀ t, toUtc (t + offset t) + offset (toUtc (t + offset t)) = t + offset t

/-- `date.setDate(date.getDate() + days)`. -/
def LocalClock.addDate (clock : LocalClock) (t days : ℤ) : ℤ :=
  clock.toUtc (t + clock.offset t + days * msPerDay)

/-- `toISOString().split('T')[0]`. -/
def isoDay (t : ℤ) : ℤ := t / msPerDay

/-- The date that `getTasksDueTomorrow` and `getPlansDueIn3Days` look for, from that of today. -/
def LocalClock.daysLater (clock : LocalClock) (today days : ℤ) : ℤ :=
  isoDay (clock.addDate (today * msPerDay) days)

/-! ## Tables -/

variable {K : Type}

structure TaskRow (K : Type) where
  id : K
  title : String
  dueDate : Option ℤ
  status : String
  deletedAt : Option ℤ

/-- A text that is no date counts as missing. -/
structure PlanRow (K : Type) where
  id : K
  title : String
  plannedStartDate : Option ℤ
  plannedEndDate : Option ℤ
  leadAuditor : Option String
  isArchived : Option Bool
  year : Option ℤ

structure UserRow (K : Type) where
  id : K
  name : Option String
  username : Option String
  role : String
  status : String

/-- The tables. In `task_assignments` a task and a user are unique together. The columns of the dates of a plan
are `TEXT` where the migrations have made them, and `DATE` where `schema.sql` has. -/
structure DeadlineDb (K : Type) where
  tasks : Keyed (@TaskRow.id K)
  plans : Keyed (@PlanRow.id K)
  users : Keyed (@UserRow.id K)
  assignments : List (K × K)
  assignments_nodup : assignments.Nodup
  planDatesAreText : Bool

variable [DecidableEq K]

namespace DeadlineDb

/-- `SELECT id FROM users WHERE role IN (?, ?) AND status = 'Active'`. -/
def getManagerAdminIds (db : DeadlineDb K) : List K :=
  (db.users.rows.filter fun u => (u.role = "Admin" || u.role = "Manager") && u.status = "Active").map UserRow.id

/-- The tasks of `getTasksDueTomorrow`. -/
def tasksDue (db : DeadlineDb K) (tomorrow : ℤ) : List (TaskRow K) :=
  db.tasks.rows.filter fun t =>
    t.dueDate = some tomorrow && t.status ≠ "completed" && t.status ≠ "approved" && t.deletedAt = none

/-- `SELECT user_id FROM task_assignments WHERE task_id = ?`. -/
def assignedUserIds (db : DeadlineDb K) (taskId : K) : List K :=
  (db.assignments.filter (·.1 = taskId)).map Prod.snd

/-- The query of `resolveLeadAuditorId`. -/
def leadAuditorId (db : DeadlineDb K) (leadAuditor : String) : Option K :=
  (db.users.rows.find? fun u =>
    (u.name = some leadAuditor || u.username = some leadAuditor) && u.status = "Active").map UserRow.id

def getUnarchivedPlansForYear (db : DeadlineDb K) (year : ℤ) : List (PlanRow K) :=
  db.plans.rows.filter fun p => p.year = some year && p.isArchived = some false

end DeadlineDb

/-! ## Notifications -/

inductive DateType where
  | start
  | «end»
deriving DecidableEq

/-- What a notification is about: `entityId` with `entityType`. -/
inductive Subject (K : Type) where
  | task (taskId : K)
  | plan (planId : K) (dateType : DateType)
  | yearEnd (year : ℤ)
deriving DecidableEq

/-- The message, with its key and its parameters. -/
inductive Message where
  | taskDueTomorrow (title : String) (dueDate : Option ℤ)
  | planStartingSoon (title : String) (date : ℤ) (missingLeadAuditor : Bool)
  | planEndingSoon (title : String) (date : ℤ) (missingLeadAuditor : Bool)
  | yearEndArchiveReminder (year : ℤ) (planCount : ℕ) (planTitles : String)

/-- The arguments of `NotificationService.create`. -/
structure CreateCall (K : Type) where
  recipientIds : List K
  subject : Subject K
  message : Message

/-- Who is notified of what. -/
def CreateCall.pairs (create : CreateCall K) : List (Subject K × K) :=
  create.recipientIds.map (create.subject, ·)

/-- A task of `getTasksDueTomorrow`, with its assigned users. -/
structure TaskDue (K : Type) where
  taskId : K
  title : String
  dueDate : Option ℤ
  assignedUserIds : List K

def TaskDue.create (task : TaskDue K) : CreateCall K :=
  ⟨task.assignedUserIds, .task task.taskId, .taskDueTomorrow task.title task.dueDate⟩

/-- An element of the result of `getPlansDueIn3Days`. -/
structure PlanDue (K : Type) where
  planId : K
  title : String
  dateType : DateType
  date : ℤ
  leadAuditor : Option String

/-- The elements for the dates of a row that are the given day. -/
def PlanRow.due (plan : PlanRow K) (threeDays : ℤ) : List (PlanDue K) :=
  (if plan.plannedStartDate = some threeDays then
      [⟨plan.id, plan.title, .start, threeDays, plan.leadAuditor.filter (· ≠ "")⟩]
    else []) ++
  (if plan.plannedEndDate = some threeDays then
      [⟨plan.id, plan.title, .end, threeDays, plan.leadAuditor.filter (· ≠ "")⟩]
    else [])

/-- The plans that start or end on a day. -/
def DeadlineDb.plansDue (db : DeadlineDb K) (threeDays : ℤ) : List (PlanDue K) :=
  (db.plans.rows.filter fun p => p.isArchived = some false &&
    (p.plannedStartDate = some threeDays || p.plannedEndDate = some threeDays)).flatMap (·.due threeDays)

/-- `getPlansDueIn3Days` compares what the query returns with a text, by `===`: the `Date` of a `DATE` column is
never equal to it. -/
def DeadlineDb.getPlansDueIn3Days (db : DeadlineDb K) (threeDays : ℤ) : List (PlanDue K) :=
  if db.planDatesAreText then db.plansDue threeDays else []

/-- The managers and the lead auditor, who is named once. -/
def recipientIds (managerAdminIds : List K) (leadAuditorId : Option K) : List K :=
  match leadAuditorId with
  | none => managerAdminIds
  | some id => if id ∈ managerAdminIds then managerAdminIds else managerAdminIds ++ [id]

def PlanDue.create (plan : PlanDue K) (managerAdminIds : List K) (leadAuditorId : Option K) : CreateCall K where
  recipientIds := recipientIds managerAdminIds leadAuditorId
  subject := .plan plan.planId plan.dateType
  message :=
    match plan.dateType with
    | .start => .planStartingSoon plan.title plan.date leadAuditorId.isNone
    | .end => .planEndingSoon plan.title plan.date leadAuditorId.isNone

def yearEndCreate (year : ℤ) (unarchivedPlans : List (PlanRow K)) (managerAdminIds : List K) : CreateCall K where
  recipientIds := managerAdminIds
  subject := .yearEnd year
  message := .yearEndArchiveReminder year unarchivedPlans.length
    (", ".intercalate (unarchivedPlans.map PlanRow.title))

/-! ## One call -/

/-- The await that a call of `checkUpcomingDeadlines` stands at, with its local variables. -/
inductive Phase (K : Type) where
  | tasks
  | assignments (task : TaskRow K) (rest : List (TaskRow K)) (results : List (TaskDue K))
  | notifyTask (task : TaskDue K) (tasksDue : List (TaskDue K))
  | plans
  | managers (plansDue : List (PlanDue K))
  | leadAuditor (managerAdminIds : List K) (plan : PlanDue K) (name : String) (plansDue : List (PlanDue K))
  | notifyPlan (managerAdminIds : List K) (plan : PlanDue K) (leadAuditorId : Option K)
      (plansDue : List (PlanDue K))
  | yearPlans
  | yearManagers (unarchivedPlans : List (PlanRow K))
  | notifyYear (unarchivedPlans : List (PlanRow K)) (managerAdminIds : List K)

/-- A call with the time at which it began. -/
structure Call (K : Type) where
  now : ℤ
  phase : Phase K

/-- `todayStr`. -/
def Call.today (call : Call K) : ℤ := isoDay call.now

/-- The loop over the tasks with their assigned users. -/
def tasksLoop : List (TaskDue K) → Phase K
  | [] => .plans
  | task :: tasksDue => .notifyTask task tasksDue

/-- The loop of `getTasksDueTomorrow`. -/
def assignmentsLoop : List (TaskRow K) → List (TaskDue K) → Phase K
  | [], results => tasksLoop results
  | task :: rest, results => .assignments task rest results

/-- The third section; `none` at the end of the call. -/
def yearSection (clock : LocalClock) (now : ℤ) : Option (Phase K) :=
  if (localDate clock.offset now).month = 12 ∧ (localDate clock.offset now).day = 15 then some .yearPlans else none

/-- The loop over the plans. -/
def plansLoop (clock : LocalClock) (now : ℤ) (managerAdminIds : List K) : List (PlanDue K) → Option (Phase K)
  | [] => yearSection clock now
  | plan :: plansDue =>
    match plan.leadAuditor with
    | none => some (.notifyPlan managerAdminIds plan none plansDue)
    | some name => some (.leadAuditor managerAdminIds plan name plansDue)

/-- Where a section that throws goes on. `create` does not throw. -/
def Phase.catch (clock : LocalClock) (now : ℤ) : Phase K → Option (Phase K)
  | .tasks => some .plans
  | .assignments .. => some .plans
  | .notifyTask _ tasksDue => some (tasksLoop tasksDue)
  | .plans => yearSection clock now
  | .managers .. => yearSection clock now
  | .leadAuditor .. => yearSection clock now
  | .notifyPlan managerAdminIds _ _ plansDue => plansLoop clock now managerAdminIds plansDue
  | .yearPlans => none
  | .yearManagers .. => none
  | .notifyYear .. => none

/-- What `getTasksDueTomorrow` adds for a task. -/
def DeadlineDb.taskDue (db : DeadlineDb K) (task : TaskRow K) : List (TaskDue K) :=
  if db.assignedUserIds task.id = [] then []
  else [⟨task.id, task.title, task.dueDate, db.assignedUserIds task.id⟩]

/-- The next await of a call whose current one succeeds. -/
def Phase.next (db : DeadlineDb K) (clock : LocalClock) (now : ℤ) : Phase K → Option (Phase K)
  | .tasks => some (assignmentsLoop (db.tasksDue (clock.daysLater (isoDay now) 1)) [])
  | .assignments task rest results => some (assignmentsLoop rest (results ++ db.taskDue task))
  | .notifyTask _ tasksDue => some (tasksLoop tasksDue)
  | .plans =>
    let plansDue := db.getPlansDueIn3Days (clock.daysLater (isoDay now) 3)
    if plansDue = [] then yearSection clock now else some (.managers plansDue)
  | .managers plansDue => plansLoop clock now db.getManagerAdminIds plansDue
  | .leadAuditor managerAdminIds plan name plansDue =>
    some (.notifyPlan managerAdminIds plan (db.leadAuditorId name) plansDue)
  | .notifyPlan managerAdminIds _ _ plansDue => plansLoop clock now managerAdminIds plansDue
  | .yearPlans =>
    let unarchivedPlans := db.getUnarchivedPlansForYear (getFullYear clock.offset now)
    if unarchivedPlans = [] then none else some (.yearManagers unarchivedPlans)
  | .yearManagers unarchivedPlans => some (.notifyYear unarchivedPlans db.getManagerAdminIds)
  | .notifyYear .. => none

/-- The notification that the current await sends. -/
def Phase.creates (clock : LocalClock) (now : ℤ) : Phase K → Option (CreateCall K)
  | .notifyTask task _ => some task.create
  | .notifyPlan managerAdminIds plan leadAuditorId _ => some (plan.create managerAdminIds leadAuditorId)
  | .notifyYear unarchivedPlans managerAdminIds =>
    some (yearEndCreate (getFullYear clock.offset now) unarchivedPlans managerAdminIds)
  | _ => none

/-! ## Several calls -/

/-- The process with its calls, and what they have sent, each with the day of its call. -/
structure CronState (K : Type) where
  lastDeadlineCheckDate : Option ℤ
  calls : List (Call K)
  sent : List (ℤ × CreateCall K)
  /-- The days for which a call has come to its end. -/
  completed : List ℤ
  /-- The days of the calls in which some await has failed. -/
  failed : List ℤ

inductive CronAction where
  /-- A call begins, at the start of the process or at midnight. -/
  | begins (now : ℤ)
  /-- The await of a call succeeds, or fails. -/
  | settles (i : ℕ) (succeeds : Bool)
  /-- The process starts again. -/
  | restarts

namespace CronState

def init : CronState K := ⟨none, [], [], [], []⟩

/-- A call goes on: to its next await, or to its end. -/
def goesOn (s : CronState K) (i : ℕ) (call : Call K) (phase : Option (Phase K)) : CronState K :=
  match phase with
  | some phase => { s with calls := ⟨call.now, phase⟩ :: s.calls.eraseIdx i }
  | none =>
    { s with
      lastDeadlineCheckDate := some call.today
      calls := s.calls.eraseIdx i
      completed := call.today :: s.completed }

/-- An await that succeeds. -/
def succeeds (db : DeadlineDb K) (clock : LocalClock) (s : CronState K) (i : ℕ) (call : Call K) : CronState K :=
  let created := (call.phase.creates clock call.now).toList.map (call.today, ·)
  { s with sent := s.sent ++ created }.goesOn i call (call.phase.next db clock call.now)

/-- An await that fails. -/
def fails (clock : LocalClock) (s : CronState K) (i : ℕ) (call : Call K) : CronState K :=
  { s with failed := call.today :: s.failed }.goesOn i call (call.phase.catch clock call.now)

end CronState

def step (db : DeadlineDb K) (clock : LocalClock) (s : CronState K) : CronAction → Option (CronState K)
  | .begins now =>
    some (if s.lastDeadlineCheckDate = some (isoDay now) then s
      else { s with calls := ⟨now, .tasks⟩ :: s.calls })
  | .settles i succeeds =>
    s.calls[i]?.map fun call => if succeeds then s.succeeds db clock i call else s.fails clock i call
  | .restarts => some { s with lastDeadlineCheckDate := none, calls := [] }

end AlsaqiBackend.Cron
