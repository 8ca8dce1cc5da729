import AlsaqiBackend.Archive.Completeness
import AlsaqiBackend.Lib.Run

/-!
# What keeps a plan from the archive

`archivePlan` counts the open tasks, findings and recommendations of a plan in all its rows, also in those that
are deleted softly, and SQL does not count a status that is `NULL`. The screens show the rows whose `deleted_at`
is `NULL`, and only these can still be finished or deleted.

`archivable_by_finishing_iff` says when a plan passes the checks exactly if its visible work is finished, and can
be brought there: when no row that has been deleted is open, and, unless visible work is open as well, a visible
status that is `NULL` comes with an open recommendation of a deleted finding.
-/

namespace AlsaqiBackend.Archive

open AlsaqiBackend.Lib

variable {Id : Type}

/-! ## Checks -/

/-- The error is one of the checks before the copies. -/
def ArchiveError.isCheck : ArchiveError → Bool
  | .forbidden _ => true
  | .notFound _ => true
  | .validation _ _ _ => true
  | .failure _ => false
  | .database _ => false

/-- The database does not fail. -/
def noFailure : Point → Option String := fun _ => none

/-! ## Visible work -/

/-- `deleted_at IS NULL`. -/
def isLive (row : Row Id) : Bool :=
  match row.columns "deleted_at" with
  | .null => true
  | _ => false

def hasStatus (row : Row Id) : Bool :=
  match row.columns "status" with
  | .text _ => true
  | _ => false

/-- The status is one of a row that needs no more work. -/
def isFinished (d : Detail) (row : Row Id) : Bool :=
  match row.columns "status" with
  | .text status => status ∈ d.closedStatuses
  | _ => false

variable [DecidableEq Id]

/-- The rows of the plan that are not deleted, a recommendation with a finding that is not. -/
def ArchiveDb.visibleRows (db : ArchiveDb Id) (planId : Id) (d : Detail) : List (Row Id) :=
  ((db.tables d).rows.filter isLive).filter (belongs planId ((db.tables .findings).rows.filter isLive) d)

/-- Every visible task is completed, every visible finding is closed, and so on. -/
def AllFinished (db : ArchiveDb Id) (planId : Id) : Prop :=
  ∀ d ∈ checkedDetails, ∀ row ∈ db.visibleRows planId d, isFinished d row = true

/-- `archivePlan` does not stop at one of its checks. -/
def PassesChecks (pg : Postgres) (planId userId : Id) (userRole : String) (db : ArchiveDb Id) : Prop :=
  ∀ e, (archivePlan pg noFailure planId userId userRole db).1 = .error e → e.isCheck = false

/-! ## Finishing and deleting -/

/-- What users do with rows that are not deleted. -/
inductive WorkAction (Id : Type)
  /-- The rows get a status in which they need no more work. -/
  | finish (d : Detail) (ids : List Id) (status : String)
  | delete (d : Detail) (ids : List Id) (deletedAt : ℤ)

def Row.set (column : String) (value : Value Id) (row : Row Id) : Row Id :=
  { row with columns := Function.update row.columns column value }

omit [DecidableEq Id] in
theorem Row.set_id (column : String) (value : Value Id) (row : Row Id) : (row.set column value).id = row.id := rfl

/-- `UPDATE … SET column = value WHERE id IN (…) AND deleted_at IS NULL`. -/
def ArchiveDb.setLive (db : ArchiveDb Id) (d : Detail) (ids : List Id) (column : String) (value : Value Id) :
    ArchiveDb Id :=
  { db with
    tables := Function.update db.tables d
      ((db.tables d).update (fun row => row.id ∈ ids && isLive row) (Row.set column value)
        (Row.set_id column value)) }

def workStep (db : ArchiveDb Id) : WorkAction Id → Option (ArchiveDb Id)
  | .finish d ids status =>
    if status ∈ d.closedStatuses then some (db.setLive d ids "status" (.text status)) else none
  | .delete d ids deletedAt => some (db.setLive d ids "deleted_at" (.timestamp deletedAt))

/-- The plan passes the checks exactly when its visible work is finished, and finishing and deleting rows can
bring it there. -/
def ArchivableByFinishing (pg : Postgres) (planId userId : Id) (userRole : String) (db : ArchiveDb Id) : Prop :=
  (PassesChecks pg planId userId userRole db ↔ AllFinished db planId) ∧
    ∃ db', Reachable workStep db db' ∧ PassesChecks pg planId userId userRole db'

/-! ## The condition -/

/-- No deleted row of the plan is open. -/
def NoDeletedOpen (db : ArchiveDb Id) (planId : Id) : Prop :=
  ∀ d ∈ checkedDetails, ∀ row ∈ db.planRows planId d, isLive row = false → isOpen d row = false

def SomeVisibleOpen (db : ArchiveDb Id) (planId : Id) : Prop :=
  ∃ d ∈ checkedDetails, ∃ row ∈ db.visibleRows planId d, isOpen d row = true

def SomeVisibleWithoutStatus (db : ArchiveDb Id) (planId : Id) : Prop :=
  ∃ d ∈ checkedDetails, ∃ row ∈ db.visibleRows planId d, hasStatus row = false

/-- A recommendation that is not deleted is open, and its finding is deleted. -/
def OpenBelowDeleted (db : ArchiveDb Id) (planId : Id) : Prop :=
  ∃ row ∈ (db.tables .recommendations).rows, isLive row = true ∧ isOpen .recommendations row = true ∧
    ∃ finding ∈ db.planRows planId .findings, isLive finding = false ∧
      row.columns "finding_id" = .uuid finding.id

variable {pg : Postgres} {db db' : ArchiveDb Id} {planId userId : Id} {userRole : String} {d : Detail} {row : Row Id}
  {tx tx' : ArchiveTx Id}

/-! ## What the checks read -/

/-- After the checks no error is one of a check. -/
theorem isCheck_of_exec {st : Statement} {e : ArchiveError} (hst : ∀ d, st ≠ .checkOpen d)
    (h : st.exec pg db tx = .error e) : e.isCheck = false := by
  cases st with
  | checkOpen d => exact absurd rfl (hst d)
  | copyPlan =>
    rw [Statement.exec] at h
    split at h
    · cases h
    · obtain rfl := Except.error.inj h
      rfl
  | copy d => cases h
  | verify d =>
    simp only [Statement.exec] at h
    split_ifs at h
    obtain rfl := Except.error.inj h
    rfl
  | scan d => cases h
  | delete d =>
    simp only [Statement.exec] at h
    split_ifs at h
    obtain rfl := Except.error.inj h
    rfl
  | markArchived =>
    simp only [Statement.exec] at h
    split_ifs at h
    obtain rfl := Except.error.inj h
    rfl

/-- Without failures of the database a statement is followed by the next ones. -/
theorem runStatements_cons (st : Statement) (sts : List Statement) :
    runStatements pg noFailure db (st :: sts) tx = st.exec pg db tx >>= runStatements pg noFailure db sts := rfl

theorem isCheck_of_runStatements {sts : List Statement} {e : ArchiveError} (hsts : ∀ d, .checkOpen d ∉ sts)
    (h : runStatements pg noFailure db sts tx = .error e) : e.isCheck = false := by
  induction sts generalizing tx with
  | nil => cases h
  | cons st sts ih =>
    rw [runStatements_cons] at h
    cases hexec : st.exec pg db tx with
    | error e' =>
      rw [hexec] at h
      obtain rfl := Except.error.inj h
      exact isCheck_of_exec (fun d heq => hsts d (heq ▸ List.mem_cons_self)) hexec
    | ok tx₁ =>
      rw [hexec] at h
      exact ih (fun d hd => hsts d (List.mem_cons_of_mem _ hd)) h

/-- The checks give the transaction on when no row is open, and stop with an error of theirs otherwise. -/
theorem runStatements_checkOpen (ds : List Detail) (sts : List Statement) :
    ((∀ d ∈ ds, ∀ row ∈ tx.selected db d, isOpen d row = false) ∧
      runStatements pg noFailure db (ds.map .checkOpen ++ sts) tx = runStatements pg noFailure db sts tx) ∨
    ((∃ d ∈ ds, ∃ row ∈ tx.selected db d, isOpen d row = true) ∧
      ∃ e, runStatements pg noFailure db (ds.map .checkOpen ++ sts) tx = .error e ∧ e.isCheck = true) := by
  induction ds with
  | nil => exact Or.inl ⟨nofun, rfl⟩
  | cons d ds ih =>
    rw [List.map_cons, List.cons_append, runStatements_cons, Statement.exec]
    by_cases hnone : (tx.selected db d).filter (isOpen d) = []
    · rw [if_pos hnone]
      have hclosed : ∀ row ∈ tx.selected db d, isOpen d row = false := by
        intro row hrow
        have hnot := List.filter_eq_nil_iff.1 hnone row hrow
        exact Bool.eq_false_iff.2 hnot
      rcases ih with ⟨hall, hrun⟩ | ⟨⟨d', hd', hopen⟩, herror⟩
      · exact Or.inl ⟨List.forall_mem_cons.2 ⟨hclosed, hall⟩, hrun⟩
      · exact Or.inr ⟨⟨d', List.mem_cons_of_mem _ hd', hopen⟩, herror⟩
    · rw [if_neg hnone]
      obtain ⟨row, hmem⟩ := List.exists_mem_of_ne_nil _ hnone
      obtain ⟨hrow, hopen⟩ := List.mem_filter.1 hmem
      exact Or.inr ⟨⟨d, List.mem_cons_self, row, hrow, hopen⟩, _, rfl, rfl⟩

/-- A plan that is not read is an error of a check. -/
theorem isCheck_of_beginArchive {e : ArchiveError} (h : beginArchive db planId userId = .error e) :
    e.isCheck = true := by
  unfold beginArchive at h
  split at h
  · cases h
  · split_ifs at h
    · obtain rfl := Except.error.inj h
      rfl
    · obtain rfl := Except.error.inj h
      rfl

/-- What `archivePlan` answers to a role that may archive. -/
theorem archivePlan_fst (hrole : userRole ∈ allowedRoles) {e : ArchiveError} :
    (archivePlan pg noFailure planId userId userRole db).1 = .error e ↔
      (beginArchive db planId userId >>= runStatements pg noFailure db archiveStatements) = .error e := by
  rw [archivePlan, if_neg (not_not.2 hrole)]
  unfold archiveTransaction
  cases hbegin : beginArchive db planId userId with
  | error e' => simp [reach, noFailure, bind, Except.bind]
  | ok tx =>
    cases hrun : runStatements pg noFailure db archiveStatements tx with
    | error e' => simp [reach, noFailure, bind, Except.bind, hrun]
    | ok tx' => simp [reach, noFailure, bind, Except.bind, pure, Except.pure, hrun]

/-- A plan passes the checks exactly when the role allows it, there is the plan, and none of its rows is open. -/
theorem passesChecks_iff : PassesChecks pg planId userId userRole db ↔
    userRole ∈ allowedRoles ∧
      (∃ plan ∈ db.plans.rows, plan.id = planId ∧ plan.columns "is_archived" = .bool false) ∧
      ∀ d ∈ checkedDetails, ∀ row ∈ db.planRows planId d, isOpen d row = false := by
  unfold PassesChecks
  by_cases hrole : userRole ∈ allowedRoles
  · simp only [archivePlan_fst hrole, hrole, true_and]
    cases hbegin : beginArchive db planId userId with
    | error e =>
      refine iff_of_false (fun h => ?_) ?_
      · have hnot := h e rfl
        rw [isCheck_of_beginArchive hbegin] at hnot
        cases hnot
      · rintro ⟨⟨plan, hplan, hid, harchived⟩, -⟩
        have hok : beginArchive db planId userId = .ok (ArchiveTx.start planId userId plan) :=
          beginArchive_eq_ok_iff.2 ⟨plan, hplan, hid, harchived, rfl⟩
        rw [hbegin] at hok
        cases hok
    | ok tx =>
      obtain ⟨plan, hplan, hid, harchived, rfl⟩ := beginArchive_eq_ok_iff.1 hbegin
      rw [and_iff_right ⟨plan, hplan, hid, harchived⟩]
      have hselected : ∀ d, (ArchiveTx.start planId userId plan).selected db d = db.planRows planId d :=
        fun d => ArchiveTx.selected_eq_planRows rfl fun _ => rfl
      have hchecks := @runStatements_checkOpen Id _ pg db (ArchiveTx.start planId userId plan) checkedDetails
        (.copyPlan :: (Detail.all.map .copy ++ (Detail.all.map .verify ++ (deleteStatements ++ [.markArchived]))))
      simp only [hselected] at hchecks
      rcases hchecks with ⟨hclosed, hrun⟩ | ⟨⟨d, hd, row, hrow, hopen⟩, e, hrun, hcheck⟩
      · refine iff_of_true (fun e he => ?_) hclosed
        have hrest : runStatements pg noFailure db _ _ = .error e := hrun.symm.trans he
        refine isCheck_of_runStatements (fun d hd => ?_) hrest
        simp [Detail.all, deleteStatements] at hd
      · refine iff_of_false (fun h => ?_) fun h => ?_
        · have hnot := h e hrun
          rw [hcheck] at hnot
          cases hnot
        · have hnot := h d hd row hrow
          rw [hopen] at hnot
          cases hnot
  · refine iff_of_false (fun h => ?_) fun h => hrole h.1
    have hforbidden := h _ (by rw [archivePlan, if_pos hrole])
    cases hforbidden

/-! ## What is visible -/

omit [DecidableEq Id] in
theorem isFinished_iff : isFinished d row = true ↔ hasStatus row = true ∧ isOpen d row = false := by
  unfold isFinished hasStatus isOpen
  cases row.columns "status" with
  | text status => simp
  | null | bool | int | uuid | date | timestamp => simp

theorem allFinished_iff :
    AllFinished db planId ↔ ¬SomeVisibleOpen db planId ∧ ¬SomeVisibleWithoutStatus db planId := by
  unfold AllFinished SomeVisibleOpen SomeVisibleWithoutStatus
  simp only [isFinished_iff, not_exists, not_and, Bool.not_eq_true, Bool.not_eq_false]
  constructor
  · intro h
    exact ⟨fun d hd row hrow => (h d hd row hrow).2, fun d hd row hrow => (h d hd row hrow).1⟩
  · rintro ⟨hopen, hstatus⟩ d hd row hrow
    exact ⟨hstatus d hd row hrow, hopen d hd row hrow⟩

/-- What is visible of a plan is of the plan. -/
theorem mem_planRows_of_visible (h : row ∈ db.visibleRows planId d) : row ∈ db.planRows planId d := by
  obtain ⟨hmem, hbelongs⟩ := List.mem_filter.1 h
  refine List.mem_filter.2 ⟨(List.mem_filter.1 hmem).1, ?_⟩
  cases d with
  | tasks | findings | evidence => exact hbelongs
  | recommendations =>
    obtain ⟨finding, hfinding, hof⟩ := List.any_eq_true.1 hbelongs
    exact List.any_eq_true.2 ⟨finding, (List.mem_filter.1 hfinding).1, hof⟩

/-- A row of a plan that is not visible is deleted, or its finding is. -/
theorem visible_or_deleted (hrow : row ∈ db.planRows planId d) (hlive : isLive row = true) :
    row ∈ db.visibleRows planId d ∨ (d = .recommendations ∧
      ∃ finding ∈ db.planRows planId .findings, isLive finding = false ∧
        row.columns "finding_id" = .uuid finding.id) := by
  obtain ⟨hmem, hbelongs⟩ := List.mem_filter.1 hrow
  have hlives : row ∈ (db.tables d).rows.filter isLive := List.mem_filter.2 ⟨hmem, hlive⟩
  cases d with
  | tasks | findings | evidence => exact Or.inl (List.mem_filter.2 ⟨hlives, hbelongs⟩)
  | recommendations =>
    obtain ⟨finding, hfinding, hof⟩ := List.any_eq_true.1 hbelongs
    rw [Bool.and_eq_true, decide_eq_true_eq, decide_eq_true_eq] at hof
    by_cases hdeleted : isLive finding = true
    · refine Or.inl (List.mem_filter.2 ⟨hlives, List.any_eq_true.2 ⟨finding, ?_, ?_⟩⟩)
      · exact List.mem_filter.2 ⟨hfinding, hdeleted⟩
      · rw [Bool.and_eq_true, decide_eq_true_eq, decide_eq_true_eq]
        exact hof
    · refine Or.inr ⟨rfl, finding, List.mem_filter.2 ⟨hfinding, decide_eq_true hof.1⟩, ?_, hof.2⟩
      exact Bool.eq_false_iff.2 hdeleted

/-- A recommendation of a deleted finding is not visible: another finding would have the same id. -/
theorem mem_planRows_of_deleted {finding : Row Id} (hrow : row ∈ (db.tables .recommendations).rows)
    (hfinding : finding ∈ db.planRows planId .findings) (hof : row.columns "finding_id" = .uuid finding.id) :
    row ∈ db.planRows planId .recommendations := by
  obtain ⟨hmem, hplan⟩ := List.mem_filter.1 hfinding
  refine List.mem_filter.2 ⟨hrow, List.any_eq_true.2 ⟨finding, hmem, ?_⟩⟩
  rw [Bool.and_eq_true, decide_eq_true_eq, decide_eq_true_eq]
  exact ⟨of_decide_eq_true hplan, hof⟩

/-- No row of the plan is open exactly when no deleted, no visible one and no recommendation of a deleted finding
is. -/
theorem closed_iff : (∀ d ∈ checkedDetails, ∀ row ∈ db.planRows planId d, isOpen d row = false) ↔
    NoDeletedOpen db planId ∧ ¬SomeVisibleOpen db planId ∧ ¬OpenBelowDeleted db planId := by
  constructor
  · intro h
    refine ⟨fun d hd row hrow _ => h d hd row hrow, ?_, ?_⟩
    · rintro ⟨d, hd, row, hrow, hopen⟩
      rw [h d hd row (mem_planRows_of_visible hrow)] at hopen
      cases hopen
    · rintro ⟨row, hrow, -, hopen, finding, hfinding, -, hof⟩
      rw [h .recommendations (by decide) row (mem_planRows_of_deleted hrow hfinding hof)] at hopen
      cases hopen
  · rintro ⟨hdeleted, hvisible, hbelow⟩ d hd row hrow
    by_cases hlive : isLive row = true
    · refine Bool.eq_false_iff.2 fun hopen => ?_
      rcases visible_or_deleted hrow hlive with hseen | ⟨rfl, hfinding⟩
      · exact hvisible ⟨d, hd, row, hseen, hopen⟩
      · exact hbelow ⟨row, (List.mem_filter.1 hrow).1, hlive, hopen, hfinding⟩
    · exact hdeleted d hd row hrow (Bool.eq_false_iff.2 hlive)

/-! ## What users can do -/

/-- The columns by which a row belongs to a plan. -/
def belongColumns : List String := ["plan_id", "audit_id", "finding_id"]

/-- What `setLive` makes of a row. -/
def changedRow (d : Detail) (ids : List Id) (column : String) (value : Value Id) (d' : Detail) (row : Row Id) :
    Row Id :=
  if d' = d ∧ row.id ∈ ids ∧ isLive row = true then row.set column value else row

variable {ids : List Id} {column : String} {value : Value Id} {d' : Detail}

theorem rows_setLive : ((db.setLive d ids column value).tables d').rows =
    (db.tables d').rows.map (changedRow d ids column value d') := by
  unfold ArchiveDb.setLive
  by_cases hd : d' = d
  · subst hd
    dsimp only
    rw [Function.update_self]
    refine List.map_congr_left fun row _ => ?_
    simp [changedRow]
  · dsimp only
    rw [Function.update_of_ne hd]
    refine (List.map_id _).symm.trans (List.map_congr_left fun row _ => ?_)
    rw [changedRow, if_neg fun h => hd h.1]
    rfl

theorem changedRow_id : (changedRow d ids column value d' row).id = row.id := by
  unfold changedRow
  split_ifs
  · rfl
  · rfl

theorem changedRow_column {other : String} (h : other ≠ column) :
    (changedRow d ids column value d' row).columns other = row.columns other := by
  unfold changedRow
  split_ifs
  · exact Function.update_of_ne h _ _
  · rfl

/-- A row belongs to its plan after the change as before. -/
theorem belongs_changedRow (hcolumn : column ∉ belongColumns) :
    belongs planId ((db.setLive d ids column value).tables .findings).rows d' (changedRow d ids column value d' row) =
      belongs planId (db.tables .findings).rows d' row := by
  have hne : ∀ other ∈ belongColumns, other ≠ column := fun other hother heq => hcolumn (heq ▸ hother)
  cases d' with
  | tasks => simp only [belongs, changedRow_column (hne "plan_id" (by decide))]
  | findings => simp only [belongs, changedRow_column (hne "audit_id" (by decide))]
  | evidence => simp only [belongs, changedRow_column (hne "audit_id" (by decide))]
  | recommendations =>
    simp only [belongs, rows_setLive, List.any_map, Function.comp_def, changedRow_id,
      changedRow_column (hne "finding_id" (by decide)), changedRow_column (hne "audit_id" (by decide))]

theorem planRows_setLive (hcolumn : column ∉ belongColumns) :
    (db.setLive d ids column value).planRows planId d' =
      (db.planRows planId d').map (changedRow d ids column value d') := by
  have hrows : ((db.setLive d ids column value).tables d').rows =
      (db.tables d').rows.map (changedRow d ids column value d') := rows_setLive
  unfold ArchiveDb.planRows
  rw [hrows, List.filter_map]
  refine congrArg _ (List.filter_congr fun row _ => ?_)
  exact belongs_changedRow hcolumn

/-- A deleted row stays as it is. -/
theorem mem_planRows_setLive (hcolumn : column ∉ belongColumns) (hrow : row ∈ db.planRows planId d')
    (hdeleted : isLive row = false) : row ∈ (db.setLive d ids column value).planRows planId d' := by
  rw [planRows_setLive hcolumn]
  refine List.mem_map.2 ⟨row, hrow, if_neg fun h => ?_⟩
  rw [hdeleted] at h
  cases h.2.2

/-- An open row that has been deleted is still there, and open. -/
theorem deletedOpen_step
    (hopen : ∃ row ∈ db.planRows planId d, isLive row = false ∧ isOpen d row = true) {a : WorkAction Id}
    (hstep : workStep db a = some db') :
    ∃ row ∈ db'.planRows planId d, isLive row = false ∧ isOpen d row = true := by
  obtain ⟨row, hrow, hdeleted, hopen⟩ := hopen
  cases a with
  | finish d' ids status =>
    simp only [workStep] at hstep
    split_ifs at hstep
    obtain rfl := Option.some.inj hstep
    exact ⟨row, mem_planRows_setLive (by decide) hrow hdeleted, hdeleted, hopen⟩
  | delete d' ids deletedAt =>
    obtain rfl := Option.some.inj hstep
    exact ⟨row, mem_planRows_setLive (by decide) hrow hdeleted, hdeleted, hopen⟩

/-- A status that is set leaves the deleted rows as they are. -/
theorem noDeletedOpen_finish (h : NoDeletedOpen db planId) (d : Detail) (ids : List Id) (status : String) :
    NoDeletedOpen (db.setLive d ids "status" (.text status)) planId := by
  intro d' hd' row hrow hdeleted
  rw [planRows_setLive (by decide)] at hrow
  obtain ⟨old, hold, rfl⟩ := List.mem_map.1 hrow
  unfold changedRow at hdeleted ⊢
  split_ifs at hdeleted ⊢ with hchanged
  · -- The status of a row does not delete it.
    have hlive : isLive (old.set "status" (.text status)) = isLive old := rfl
    rw [hlive, hchanged.2.2] at hdeleted
    cases hdeleted
  · exact h d' hd' old hold hdeleted

/-- A finished status keeps the rows of every table closed. -/
theorem closed_finish {status : String} (hstatus : status ∈ d.closedStatuses)
    (h : ∀ row ∈ db.planRows planId d', isOpen d' row = false) :
    ∀ row ∈ (db.setLive d ids "status" (.text status)).planRows planId d', isOpen d' row = false := by
  intro row hrow
  rw [planRows_setLive (by decide)] at hrow
  obtain ⟨old, hold, rfl⟩ := List.mem_map.1 hrow
  unfold changedRow
  split_ifs with hchanged
  · rw [hchanged.1]
    simp [isOpen, Row.set, hstatus]
  · exact h old hold

/-- Once all rows of a table that are not deleted are finished, none of the plan is open there. -/
theorem closed_of_finish {status : String} (hd : d ∈ checkedDetails) (hstatus : status ∈ d.closedStatuses)
    (h : NoDeletedOpen db planId) :
    ∀ row ∈ (db.setLive d ((db.tables d).rows.map Row.id) "status" (.text status)).planRows planId d,
      isOpen d row = false := by
  intro row hrow
  rw [planRows_setLive (by decide)] at hrow
  obtain ⟨old, hold, rfl⟩ := List.mem_map.1 hrow
  unfold changedRow
  split_ifs with hchanged
  · simp [isOpen, Row.set, hstatus]
  · refine h d hd old hold (Bool.eq_false_iff.2 fun hlive => hchanged ⟨rfl, ?_, hlive⟩)
    exact List.mem_map_of_mem (List.mem_filter.1 hold).1

/-- The rows of the tables are finished, one table after the other. -/
theorem exists_finished (ds : List Detail) (hds : ∀ d ∈ ds, d ∈ checkedDetails) (h : NoDeletedOpen db planId) :
    ∃ db', Reachable workStep db db' ∧ db'.plans = db.plans ∧ NoDeletedOpen db' planId ∧
      ∀ d ∈ ds, ∀ row ∈ db'.planRows planId d, isOpen d row = false := by
  induction ds with
  | nil => exact ⟨db, ⟨[], rfl⟩, rfl, h, nofun⟩
  | cons d ds ih =>
    obtain ⟨db₁, hreach, hplans, hdeleted, hclosed⟩ := ih fun d' hd' => hds d' (List.mem_cons_of_mem _ hd')
    have hd : d ∈ checkedDetails := hds d List.mem_cons_self
    obtain ⟨status, hstatus⟩ : ∃ status, status ∈ d.closedStatuses := by
      have hnonempty : ∀ d ∈ checkedDetails, d.closedStatuses ≠ [] := by decide
      exact List.exists_mem_of_ne_nil _ (hnonempty d hd)
    refine ⟨db₁.setLive d ((db₁.tables d).rows.map Row.id) "status" (.text status), ?_, hplans,
      noDeletedOpen_finish hdeleted d _ status, ?_⟩
    · exact hreach.tail (a := .finish d ((db₁.tables d).rows.map Row.id) status) (if_pos hstatus)
    · intro d' hd' row hrow
      rcases List.mem_cons.1 hd' with rfl | hd'
      · exact closed_of_finish hd hstatus hdeleted row hrow
      · exact closed_finish hstatus (hclosed d' hd') row hrow

/-! ## The exact condition -/

/-- Finishing and deleting can bring a plan to the archive exactly when no deleted row is open. -/
theorem exists_passesChecks_iff (hrole : userRole ∈ allowedRoles)
    (hplan : ∃ plan ∈ db.plans.rows, plan.id = planId ∧ plan.columns "is_archived" = .bool false) :
    (∃ db', Reachable workStep db db' ∧ PassesChecks pg planId userId userRole db') ↔ NoDeletedOpen db planId := by
  constructor
  · rintro ⟨db', hreach, hpasses⟩ d hd row hrow hdeleted
    refine Bool.eq_false_iff.2 fun hopen => ?_
    obtain ⟨row', hrow', -, hopen'⟩ := hreach.invariant
      (I := fun db => ∃ row ∈ db.planRows planId d, isLive row = false ∧ isOpen d row = true)
      (fun _ _ _ hs hstep => deletedOpen_step hs hstep) ⟨row, hrow, hdeleted, hopen⟩
    rw [(passesChecks_iff.1 hpasses).2.2 d hd row' hrow'] at hopen'
    cases hopen'
  · intro h
    obtain ⟨db', hreach, hplans, -, hclosed⟩ := exists_finished checkedDetails (fun _ hd => hd) h
    exact ⟨db', hreach, passesChecks_iff.2 ⟨hrole, hplans ▸ hplan, hclosed⟩⟩

/-- A plan can be archived exactly when its visible work is finished, and can be brought there, if and only if none
of its deleted rows is open and, unless visible work is open, a visible row without a status comes with an open
recommendation of a deleted finding. -/
theorem archivable_by_finishing_iff (pg : Postgres) (planId userId : Id) (userRole : String) (db : ArchiveDb Id)
    (hrole : userRole ∈ allowedRoles)
    (hplan : ∃ plan ∈ db.plans.rows, plan.id = planId ∧ plan.columns "is_archived" = .bool false) :
    ArchivableByFinishing pg planId userId userRole db ↔
      NoDeletedOpen db planId ∧
        (SomeVisibleOpen db planId ∨ (OpenBelowDeleted db planId ↔ SomeVisibleWithoutStatus db planId)) := by
  unfold ArchivableByFinishing
  rw [exists_passesChecks_iff hrole hplan, and_comm, and_congr_right_iff]
  intro hdeleted
  rw [passesChecks_iff, and_iff_right hrole, and_iff_right hplan, closed_iff, and_iff_right hdeleted, allFinished_iff]
  tauto

theorem openPlan_nodup : ([openPlan].map Row.id).Nodup := by decide

/-- The database with a plan, its rows, and nothing in the archive. -/
def planDb (tables : Detail → Keyed (@Row.id ℕ)) : ArchiveDb ℕ where
  plans := ⟨[openPlan], openPlan_nodup⟩
  tables := tables
  links _ := []
  archivedPlans := []
  archived _ := []

/-- With a completed task, and nothing else, the plan can be archived. -/
theorem completed_archivable : ArchivableByFinishing migrated 1 7 "Manager"
    (planDb fun d => if d = .tasks then ⟨[completedTask], by decide⟩ else ⟨[], by decide⟩) := by
  refine (archivable_by_finishing_iff migrated 1 7 "Manager" _ (by decide) ⟨openPlan, ?_, rfl, rfl⟩).2 ⟨?_, ?_⟩
  · exact List.mem_singleton.2 rfl
  · unfold NoDeletedOpen
    decide
  · refine Or.inr (iff_of_false ?_ ?_)
    · unfold OpenBelowDeleted
      decide
    · unfold SomeVisibleWithoutStatus
      decide

/-- A task that was deleted as a draft. -/
def deletedDraft : Row ℕ :=
  ⟨2, fun column => if column = "plan_id" then .uuid 1 else if column = "status" then .text "draft"
    else if column = "deleted_at" then .timestamp 0 else .null⟩

/-- A task that was deleted as a draft keeps its plan from the archive, whatever is finished or deleted. -/
theorem deletedDraft_not_archivable : ¬ArchivableByFinishing migrated 1 7 "Manager"
    (planDb fun d => if d = .tasks then ⟨[deletedDraft], by decide⟩ else ⟨[], by decide⟩) := by
  rintro ⟨hiff, -⟩
  have hfinished : AllFinished (planDb fun d => if d = .tasks then ⟨[deletedDraft], by decide⟩ else ⟨[], by decide⟩)
      1 := by
    unfold AllFinished
    decide
  have hclosed := (passesChecks_iff.1 (hiff.2 hfinished)).2.2 .tasks (by decide) deletedDraft
    (List.mem_filter.2 ⟨List.mem_singleton.2 rfl, rfl⟩)
  cases hclosed

end AlsaqiBackend.Archive
