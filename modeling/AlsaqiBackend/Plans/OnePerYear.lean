import AlsaqiBackend.Lib.JsString
import AlsaqiBackend.Lib.Modify
import AlsaqiBackend.Lib.Run
import Mathlib.Algebra.Order.Ring.Int

/-!
# One plan for each fiscal year

`AuditPlanService.create` looks for a plan of the year and for an unarchived one of the year before, and inserts
its row some awaits later; no index keeps the years apart. The bulk operations insert rows, and both kinds of
updates change the year of one, without these checks.

`onePerYear_iff_orderly` says when no step of a run leaves two plans of a year or creates one after an unarchived
plan: exactly when the checks still hold where a row is inserted, one by one in a batch, and the years that
updates give are different.
-/

namespace AlsaqiBackend.Plans

open AlsaqiBackend.Lib

/-! ## Plans -/

/-- The columns of `audit_plans` that are read here. -/
structure Plan where
  id : String
  year : Option ℤ
  isArchived : Option Bool
  deleted : Bool
  deriving DecidableEq, Repr

/-- The fields of a body; `none` where the body does not have one. -/
structure PlanFields where
  year : Option (Option ℤ)
  isArchived : Option (Option Bool)
  deriving DecidableEq, Repr

/-- A create or an archiving that has begun. -/
inductive Request
  /-- After the first `SELECT` of `canCreateNewPlan`. -/
  | checking (year : ℤ)
  /-- `canCreateNewPlan` has allowed the plan. -/
  | allowed (year : ℤ)
  | archiving (id : String)
  | done
  deriving DecidableEq, Repr

structure PlanState where
  plans : List Plan
  requests : List Request
  deriving DecidableEq, Repr

inductive PlanAction
  /-- `create` up to its first `SELECT`; the year is `none` when it is no integer. -/
  | create (year : Option ℤ) (quarter : Option String)
  /-- The second `SELECT` of `canCreateNewPlan`. -/
  | selectUnarchived (i : ℕ)
  /-- The plan of a create is committed. -/
  | insert (i : ℕ) (id : String)
  /-- An await of a request throws. -/
  | fail (i : ℕ)
  | bulkCreate (items : List (String × PlanFields))
  | update (id : String) (data : PlanFields)
  | bulkUpdate (items : List (String × PlanFields))
  /-- `BaseService.delete`, or a bulk delete. -/
  | delete (ids : List String)
  /-- `ArchiveService` finds the plan. -/
  | archive (id : String)
  /-- And commits its changes. -/
  | commitArchive (i : ℕ)
  deriving DecidableEq, Repr

/-! ## canCreateNewPlan -/

def VALID_QUARTERS : List String := ["Q1", "Q2", "Q3", "Q4", "Annual"]

/-- The query for a plan of the same year. -/
def sameYear (plans : List Plan) (year : ℤ) : List Plan := plans.filter fun plan => plan.year = some year

/-- The query for a plan of the previous year that is not archived. -/
def unarchived (plans : List Plan) (previousYear : ℤ) : List Plan :=
  plans.filter fun plan => plan.year = some previousYear && plan.isArchived = some false

def canCreateNewPlan (plans : List Plan) (year : ℤ) : Bool :=
  sameYear plans year = [] && unarchived plans (year - 1) = []

/-! ## Statements -/

/-- The row of a create. -/
def createdPlan (id : String) (year : ℤ) : Plan := ⟨id, some year, some false, false⟩

/-- The row of an item of a batch. -/
def itemPlan (item : String × PlanFields) : Plan :=
  ⟨item.1, item.2.year.join, item.2.isArchived.getD (some false), false⟩

/-- `SET` on a row. -/
def Plan.set (data : PlanFields) (plan : Plan) : Plan :=
  { plan with year := data.year.getD plan.year, isArchived := data.isArchived.getD plan.isArchived }

/-- `UPDATE audit_plans … WHERE id = ?`. -/
def updatePlan (id : String) (f : Plan → Plan) (plans : List Plan) : List Plan :=
  plans.map fun plan => if plan.id = id then f plan else plan

/-- The row exists, and `deleted_at IS NULL`. -/
def present (plans : List Plan) (id : String) : Bool := plans.any fun plan => plan.id = id && !plan.deleted

/-- The updates of a batch; one that finds no row fails all. -/
def updateAll : List (String × PlanFields) → List Plan → Option (List Plan)
  | [], plans => some plans
  | (id, data) :: items, plans =>
    if present plans id then updateAll items (updatePlan id (Plan.set data) plans) else none

/-- The deletions of a batch. -/
def deleteAll : List String → List Plan → Option (List Plan)
  | [], plans => some plans
  | id :: ids, plans =>
    if present plans id then deleteAll ids (updatePlan id (fun plan => { plan with deleted := true }) plans)
    else none

/-- `validateBatchSize`. -/
def validBatch {α : Type} (items : List α) : Bool := 1 ≤ items.length && items.length ≤ 100

namespace PlanState

def setRequest (s : PlanState) (i : ℕ) (request : Request) : PlanState :=
  { s with requests := s.requests.modify i fun _ => request }

/-- A batch that fails is rolled back. -/
def setPlans (s : PlanState) (plans : Option (List Plan)) : PlanState := { s with plans := plans.getD s.plans }

end PlanState

/-- One step; an operation that is refused changes nothing, and a new row has a new id. -/
def planStep (s : PlanState) : PlanAction → Option PlanState
  | .create year quarter =>
    match year with
    | none => some s
    | some year =>
      if 2000 ≤ year ∧ year ≤ 2100 ∧ (orElse quarter (some "Annual")).any (· ∈ VALID_QUARTERS) = true ∧
          sameYear s.plans year = [] then
        some { s with requests := s.requests ++ [.checking year] }
      else some s
  | .selectUnarchived i =>
    match s.requests[i]? with
    | some (.checking year) =>
      some (s.setRequest i (if unarchived s.plans (year - 1) = [] then .allowed year else .done))
    | _ => none
  | .insert i id =>
    match s.requests[i]? with
    | some (.allowed year) =>
      if id ∈ s.plans.map Plan.id then none
      else some { s.setRequest i .done with plans := s.plans ++ [createdPlan id year] }
    | _ => none
  | .fail i => some (s.setRequest i .done)
  | .bulkCreate items =>
    if validBatch items && decide (s.plans.map Plan.id ++ items.map Prod.fst).Nodup then
      some { s with plans := s.plans ++ items.map itemPlan }
    else none
  | .update id data => some { s with plans := updatePlan id (Plan.set data) s.plans }
  | .bulkUpdate items => if validBatch items then some (s.setPlans (updateAll items s.plans)) else none
  | .delete ids => if validBatch ids then some (s.setPlans (deleteAll ids s.plans)) else none
  | .archive id =>
    if s.plans.any fun plan => plan.id = id && plan.isArchived = some false then
      some { s with requests := s.requests ++ [.archiving id] }
    else some s
  | .commitArchive i =>
    match s.requests[i]? with
    | some (.archiving id) => some { s.setRequest i .done with
        plans := updatePlan id (fun plan => { plan with isArchived := some true }) s.plans }
    | _ => none

/-! ## Lawful steps -/

/-- No two rows have the same year. -/
def OnePerYear (plans : List Plan) : Prop := plans.Pairwise fun plan other => plan.year = other.year → plan.year = none

/-- Where a row is inserted, the plans of the year before it are archived. -/
def CreatedLawfully : List Plan → List Plan → Prop
  | _, [] => True
  | plans, row :: rows =>
    (∀ year, row.year = some year → ∀ plan ∈ plans, plan.year = some (year - 1) →
      plan.isArchived = some true) ∧ CreatedLawfully (plans ++ [row]) rows

/-- There is at most one plan for each year after the step, and its new rows are created lawfully. -/
def Lawful (s : PlanState) (a : PlanAction) : Prop :=
  ∀ t, planStep s a = some t → OnePerYear t.plans ∧ CreatedLawfully s.plans (t.plans.drop s.plans.length)

/-- The checks allow the year, and leave out no plan with NULL in `is_archived`. -/
def MayCreate (plans : List Plan) (year : ℤ) : Prop :=
  canCreateNewPlan plans year = true ∧ ∀ plan ∈ plans, plan.year = some (year - 1) → plan.isArchived ≠ none

/-- The checks allow the rows one by one. -/
def MayCreateAll : List Plan → List Plan → Prop
  | _, [] => True
  | plans, row :: rows => (∀ year, row.year = some year → MayCreate plans year) ∧ MayCreateAll (plans ++ [row]) rows

/-- The year of a row after the items: that of the last one that has a year for its id. -/
def newYear (items : List (String × PlanFields)) (plan : Plan) : Option ℤ :=
  items.foldl (fun year item => if item.1 = plan.id then item.2.year.getD year else year) plan.year

/-- The items give the rows different years. -/
def Apart (items : List (String × PlanFields)) (plans : List Plan) : Prop :=
  plans.Pairwise fun plan other => newYear items plan = newYear items other → newYear items plan = none

/-- What makes a step lawful: where a create inserts its row, its checks still hold; those of a batch would
allow each item; and the years that updates give are different. -/
def Orderly (s : PlanState) : PlanAction → Prop
  | .insert i _ => ∀ year, s.requests[i]? = some (.allowed year) → MayCreate s.plans year
  | .bulkCreate items => MayCreateAll s.plans (items.map itemPlan)
  | .update id data => Apart [(id, data)] s.plans
  | .bulkUpdate items => updateAll items s.plans ≠ none → Apart items s.plans
  | _ => True

variable {s t : PlanState} {plans rows : List Plan} {items : List (String × PlanFields)}

/-! ## New rows -/

/-- The checks pass when there is no plan of the year, and none of the year before that is unarchived. -/
theorem canCreateNewPlan_iff {year : ℤ} : canCreateNewPlan plans year = true ↔
    (∀ plan ∈ plans, plan.year ≠ some year) ∧
      ∀ plan ∈ plans, plan.year = some (year - 1) → plan.isArchived ≠ some false := by
  unfold canCreateNewPlan sameYear unarchived
  simp only [Bool.and_eq_true, decide_eq_true_eq, List.filter_eq_nil_iff, not_and, ne_eq]

/-- With the plans of NULL: the years before are archived. -/
theorem mayCreate_iff {year : ℤ} : MayCreate plans year ↔ (∀ plan ∈ plans, plan.year ≠ some year) ∧
    ∀ plan ∈ plans, plan.year = some (year - 1) → plan.isArchived = some true := by
  unfold MayCreate
  rw [canCreateNewPlan_iff, and_assoc, and_congr_right_iff]
  intro _
  constructor
  · rintro ⟨hfalse, hnull⟩ plan hplan hyear
    cases harchived : plan.isArchived with
    | none => exact absurd harchived (hnull plan hplan hyear)
    | some archived =>
      cases archived with
      | true => rfl
      | false => exact absurd harchived (hfalse plan hplan hyear)
  · intro h
    constructor
    · intro plan hplan hyear hfalse
      rw [h plan hplan hyear] at hfalse
      cases hfalse
    · intro plan hplan hyear hnull
      rw [h plan hplan hyear] at hnull
      cases hnull

/-- One more row keeps the years apart when its year is a new one. -/
theorem onePerYear_concat_iff {row : Plan} (h : OnePerYear plans) : OnePerYear (plans ++ [row]) ↔
    ∀ year, row.year = some year → ∀ plan ∈ plans, plan.year ≠ some year := by
  unfold OnePerYear
  rw [List.pairwise_append]
  constructor
  · rintro ⟨-, -, hapart⟩ year hrow plan hplan hyear
    have hnone := hapart plan hplan row (List.mem_singleton_self row) (hyear.trans hrow.symm)
    rw [hyear] at hnone
    cases hnone
  · intro hnew
    refine ⟨h, List.pairwise_singleton _ _, fun plan hplan other hother heq => ?_⟩
    rw [List.mem_singleton.1 hother] at heq
    cases hyear : plan.year with
    | none => rfl
    | some year => exact absurd hyear (hnew year (heq.symm.trans hyear) plan hplan)

theorem OnePerYear.of_append (h : OnePerYear (plans ++ rows)) : OnePerYear plans :=
  (List.pairwise_append.1 h).1

/-- New rows are lawful exactly when the checks allow them one by one. -/
theorem created_iff (h : OnePerYear plans) :
    OnePerYear (plans ++ rows) ∧ CreatedLawfully plans rows ↔ MayCreateAll plans rows := by
  induction rows generalizing plans with
  | nil =>
    rw [List.append_nil]
    exact iff_of_true ⟨h, trivial⟩ trivial
  | cons row rows ih =>
    have happend : plans ++ row :: rows = plans ++ [row] ++ rows := by simp
    simp only [MayCreateAll, CreatedLawfully, mayCreate_iff, happend]
    constructor
    · rintro ⟨hone, harchived, hrest⟩
      have hconcat := hone.of_append
      exact ⟨fun year hyear => ⟨(onePerYear_concat_iff h).1 hconcat year hyear, harchived year hyear⟩,
        (ih hconcat).1 ⟨hone, hrest⟩⟩
    · rintro ⟨hrow, hrest⟩
      have hconcat : OnePerYear (plans ++ [row]) :=
        (onePerYear_concat_iff h).2 fun year hyear => (hrow year hyear).1
      obtain ⟨hone, hcreated⟩ := (ih hconcat).2 hrest
      exact ⟨hone, fun year hyear => (hrow year hyear).2, hcreated⟩

/-! ## Updates -/

/-- What the items make of one row. -/
def setAll (items : List (String × PlanFields)) (plan : Plan) : Plan :=
  items.foldl (fun plan item => if plan.id = item.1 then plan.set item.2 else plan) plan

theorem setAll_year (items : List (String × PlanFields)) (plan : Plan) :
    (setAll items plan).year = newYear items plan := by
  unfold setAll newYear
  induction items generalizing plan with
  | nil => rfl
  | cons item items ih =>
    rw [List.foldl_cons, List.foldl_cons, ih]
    by_cases hid : plan.id = item.1
    · rw [if_pos hid, if_pos hid.symm]
      rfl
    · rw [if_neg hid, if_neg (Ne.symm hid)]

/-- A batch of updates that finds its rows makes this of each of them. -/
theorem updateAll_eq {plans' : List Plan} (h : updateAll items plans = some plans') :
    plans' = plans.map (setAll items) := by
  induction items generalizing plans with
  | nil =>
    obtain rfl := Option.some.inj h
    exact (List.map_id plans).symm
  | cons item items ih =>
    simp only [updateAll] at h
    split_ifs at h
    rw [ih h]
    unfold updatePlan
    rw [List.map_map]
    rfl

/-- The years are apart after the items exactly when these give different ones. -/
theorem onePerYear_map_iff : OnePerYear (plans.map (setAll items)) ↔ Apart items plans := by
  unfold OnePerYear Apart
  rw [List.pairwise_map]
  simp only [setAll_year]

/-- Updates that keep the years keep them apart. -/
theorem onePerYear_updatePlan {id : String} {f : Plan → Plan} (hf : ∀ plan, (f plan).year = plan.year)
    (h : OnePerYear plans) : OnePerYear (updatePlan id f plans) := by
  have hyear : ∀ plan : Plan, (if plan.id = id then f plan else plan).year = plan.year := by
    intro plan
    split_ifs
    · exact hf plan
    · rfl
  unfold OnePerYear updatePlan
  rw [List.pairwise_map]
  simp only [hyear]
  exact h

theorem onePerYear_deleteAll {ids : List String} {plans' : List Plan} (h : OnePerYear plans)
    (hdelete : deleteAll ids plans = some plans') : OnePerYear plans' := by
  induction ids generalizing plans with
  | nil =>
    obtain rfl := Option.some.inj hdelete
    exact h
  | cons id ids ih =>
    simp only [deleteAll] at hdelete
    split_ifs at hdelete
    have hkeep : OnePerYear (updatePlan id (fun plan => { plan with deleted := true }) plans) :=
      onePerYear_updatePlan (fun _ => rfl) h
    exact ih hkeep hdelete

theorem length_updatePlan (id : String) (f : Plan → Plan) (plans : List Plan) :
    (updatePlan id f plans).length = plans.length := List.length_map _

theorem length_deleteAll {ids : List String} {plans' : List Plan} (h : deleteAll ids plans = some plans') :
    plans'.length = plans.length := by
  induction ids generalizing plans with
  | nil =>
    obtain rfl := Option.some.inj h
    rfl
  | cons id ids ih =>
    simp only [deleteAll] at h
    split_ifs at h
    rw [ih h, length_updatePlan]

/-! ## Steps -/

/-- A step that adds no row is lawful when it keeps the years apart. -/
theorem lawful_iff_of_length {a : PlanAction} (hstep : planStep s a = some t)
    (hlength : t.plans.length = s.plans.length) : Lawful s a ↔ OnePerYear t.plans := by
  have hdrop : t.plans.drop s.plans.length = [] := List.drop_eq_nil_of_le hlength.le
  rw [Lawful, forall_step_iff hstep, hdrop]
  exact and_iff_left trivial

/-- A step that leaves the plans alone is lawful. -/
theorem lawful_of_same {a : PlanAction} (hs : OnePerYear s.plans) (hstep : planStep s a = some t)
    (hsame : t.plans = s.plans) : Lawful s a := by
  rw [lawful_iff_of_length hstep (by rw [hsame]), hsame]
  exact hs

/-- A step that adds rows is lawful when the checks allow them. -/
theorem lawful_iff_of_append {a : PlanAction} (hs : OnePerYear s.plans) (hstep : planStep s a = some t)
    (happend : t.plans = s.plans ++ rows) : Lawful s a ↔ MayCreateAll s.plans rows := by
  rw [← created_iff hs]
  have hdrop : t.plans.drop s.plans.length = rows := by
    rw [happend, List.drop_left]
  rw [Lawful, forall_step_iff hstep, hdrop, happend]

/-- A step is lawful exactly when it is orderly. -/
theorem lawful_step_iff (s : PlanState) (a : PlanAction) (t : PlanState) (hs : OnePerYear s.plans)
    (hstep : planStep s a = some t) : Lawful s a ↔ Orderly s a := by
  cases a with
  | create year quarter =>
    have hsame : t.plans = s.plans := by
      simp only [planStep] at hstep
      split at hstep
      · obtain rfl := Option.some.inj hstep
        rfl
      · split_ifs at hstep
        · obtain rfl := Option.some.inj hstep
          rfl
        · obtain rfl := Option.some.inj hstep
          rfl
    exact iff_of_true (lawful_of_same hs hstep hsame) trivial
  | selectUnarchived i =>
    have hsame : t.plans = s.plans := by
      simp only [planStep] at hstep
      split at hstep
      · obtain rfl := Option.some.inj hstep
        rfl
      · cases hstep
    exact iff_of_true (lawful_of_same hs hstep hsame) trivial
  | insert i id =>
    have happend : ∃ year, s.requests[i]? = some (.allowed year) ∧
        t.plans = s.plans ++ [createdPlan id year] := by
      simp only [planStep] at hstep
      split at hstep
      · rename_i year hrequest
        split_ifs at hstep
        obtain rfl := Option.some.inj hstep
        exact ⟨year, hrequest, rfl⟩
      · cases hstep
    obtain ⟨year, hrequest, hplans⟩ := happend
    rw [lawful_iff_of_append hs hstep hplans]
    simp only [Orderly, MayCreateAll, createdPlan, hrequest, Option.some.injEq, and_true, Request.allowed.injEq]
  | fail i =>
    obtain rfl := Option.some.inj hstep
    exact iff_of_true (lawful_of_same hs rfl rfl) trivial
  | bulkCreate items =>
    have happend : t.plans = s.plans ++ items.map itemPlan := by
      simp only [planStep] at hstep
      split_ifs at hstep
      obtain rfl := Option.some.inj hstep
      rfl
    exact lawful_iff_of_append hs hstep happend
  | update id data =>
    have hmap : t.plans = s.plans.map (setAll [(id, data)]) := by
      obtain rfl := Option.some.inj hstep
      rfl
    rw [lawful_iff_of_length hstep (by rw [hmap, List.length_map]), hmap]
    exact onePerYear_map_iff
  | bulkUpdate items =>
    have hplans : t.plans = (updateAll items s.plans).getD s.plans := by
      simp only [planStep] at hstep
      split_ifs at hstep
      obtain rfl := Option.some.inj hstep
      rfl
    cases hupdate : updateAll items s.plans with
    | none =>
      rw [hupdate, Option.getD_none] at hplans
      exact iff_of_true (lawful_of_same hs hstep hplans) fun h => absurd hupdate h
    | some plans' =>
      rw [hupdate, Option.getD_some, updateAll_eq hupdate] at hplans
      rw [lawful_iff_of_length hstep (by rw [hplans, List.length_map]), hplans, onePerYear_map_iff]
      simp [Orderly, hupdate]
  | delete ids =>
    have hplans : t.plans = (deleteAll ids s.plans).getD s.plans := by
      simp only [planStep] at hstep
      split_ifs at hstep
      obtain rfl := Option.some.inj hstep
      rfl
    refine iff_of_true ?_ trivial
    cases hdelete : deleteAll ids s.plans with
    | none =>
      rw [hdelete, Option.getD_none] at hplans
      exact lawful_of_same hs hstep hplans
    | some plans' =>
      rw [hdelete, Option.getD_some] at hplans
      rw [lawful_iff_of_length hstep (by rw [hplans, length_deleteAll hdelete]), hplans]
      exact onePerYear_deleteAll hs hdelete
  | archive id =>
    have hsame : t.plans = s.plans := by
      simp only [planStep] at hstep
      split_ifs at hstep
      · obtain rfl := Option.some.inj hstep
        rfl
      · obtain rfl := Option.some.inj hstep
        rfl
    exact iff_of_true (lawful_of_same hs hstep hsame) trivial
  | commitArchive i =>
    have hplans : ∃ id, t.plans =
        updatePlan id (fun plan => { plan with isArchived := some true }) s.plans := by
      simp only [planStep] at hstep
      split at hstep
      · rename_i id _
        obtain rfl := Option.some.inj hstep
        exact ⟨id, rfl⟩
      · cases hstep
    obtain ⟨id, hplans⟩ := hplans
    refine iff_of_true ?_ trivial
    rw [lawful_iff_of_length hstep (by rw [hplans, length_updatePlan]), hplans]
    exact onePerYear_updatePlan (fun _ => rfl) hs

/-- A create that nothing comes between is orderly where every plan has a value in `is_archived`. -/
theorem orderly_of_alone {year : ℤ} {quarter : Option String} {id : String} {u : PlanState}
    (hcreate : planStep s (.create (some year) quarter) = some t)
    (hselect : planStep t (.selectUnarchived s.requests.length) = some u)
    (hnull : ∀ plan ∈ s.plans, plan.isArchived ≠ none) : Orderly u (.insert s.requests.length id) := by
  simp only [planStep] at hcreate
  split_ifs at hcreate with hchecks
  · obtain rfl := Option.some.inj hcreate
    simp only [planStep, List.getElem?_concat_length, Option.some.injEq] at hselect
    subst hselect
    intro year' hallowed
    simp only [PlanState.setRequest, List.getElem?_modify, List.getElem?_concat_length, if_true,
      Option.map_eq_map, Option.map_some, Option.some.injEq] at hallowed
    split_ifs at hallowed with harchived
    obtain rfl := Request.allowed.inj hallowed
    refine ⟨?_, fun plan hplan _ => hnull plan hplan⟩
    show (decide (sameYear s.plans year = []) && decide (unarchived s.plans (year - 1) = [])) = true
    rw [decide_eq_true hchecks.2.2.2, decide_eq_true harchived]
    rfl
  · obtain rfl := Option.some.inj hcreate
    simp only [planStep, List.getElem?_eq_none (le_refl s.requests.length)] at hselect
    cases hselect

/-! ## Runs -/

/-- Plans with different ids and years. -/
structure PlanTable where
  plans : List Plan
  nodup : (plans.map Plan.id).Nodup
  onePerYear : OnePerYear plans

/-- No create has begun. -/
def PlanState.init (table : PlanTable) : PlanState := ⟨table.plans, []⟩

/-- Every step of a run is lawful exactly when every one is orderly. -/
theorem onePerYear_iff_orderly (table : PlanTable) (as : List PlanAction) :
    Guarded planStep Lawful (.init table) as ↔ Guarded planStep Orderly (.init table) as :=
  guarded_congr (I := fun s => OnePerYear s.plans) (fun _ _ t _ hlawful hstep => (hlawful t hstep).1)
    lawful_step_iff as table.onePerYear

/-- The plan of 2025, which is not archived. -/
def planOf2025 : PlanTable where
  plans := [createdPlan "p" 2025]
  nodup := List.nodup_singleton _
  onePerYear := List.pairwise_singleton _ _

/-- Two creates that both look before one of them inserts. -/
def twoCreates : List PlanAction :=
  [.create (some 2030) none, .create (some 2030) none, .selectUnarchived 0, .selectUnarchived 1,
    .insert 0 "q"]

/-- There are two plans of a year after two creates at once, after a batch of one, and after an update, and a
batch creates a plan after one that is not archived. -/
theorem two_plans_of_year :
    (∃ s t, run planStep (.init planOf2025) twoCreates = some s ∧ planStep s (.insert 1 "r") = some t ∧
      ¬ OnePerYear t.plans) ∧
    (∃ t, planStep (.init planOf2025) (.bulkCreate [("q", ⟨some (some 2025), none⟩)]) = some t ∧
      ¬ OnePerYear t.plans) ∧
    (∃ s t, run planStep (.init planOf2025) [.bulkCreate [("q", ⟨none, none⟩)]] = some s ∧
      planStep s (.update "q" ⟨some (some 2025), none⟩) = some t ∧ ¬ OnePerYear t.plans) ∧
    ¬ Lawful (.init planOf2025) (.bulkCreate [("q", ⟨some (some 2026), none⟩)]) := by
  have hpair : ∀ (p : Plan) (rows : List Plan) (year : ℤ) (q : Plan), q ∈ rows → p.year = some year →
      q.year = some year → ¬ OnePerYear (p :: rows) := by
    intro p rows year q hq hp hyear hone
    have hnone := (List.pairwise_cons.1 hone).1 q hq (hp.trans hyear.symm)
    rw [hp] at hnone
    cases hnone
  refine ⟨?_, ?_, ?_, fun h => ?_⟩
  · have hrun : (run planStep (.init planOf2025) twoCreates).bind (fun s => planStep s (.insert 1 "r")) =
        some ⟨[createdPlan "p" 2025, createdPlan "q" 2030, createdPlan "r" 2030], [.done, .done]⟩ := by
      decide +kernel
    obtain ⟨s, hs, ht⟩ := Option.bind_eq_some_iff.1 hrun
    refine ⟨s, _, hs, ht, fun hone => ?_⟩
    exact hpair _ _ 2030 _ List.mem_cons_self rfl rfl (List.pairwise_cons.1 hone).2
  · refine ⟨⟨[createdPlan "p" 2025, createdPlan "q" 2025], []⟩, by decide +kernel, ?_⟩
    exact hpair _ _ 2025 _ List.mem_cons_self rfl rfl
  · refine ⟨⟨[createdPlan "p" 2025, ⟨"q", none, some false, false⟩], []⟩,
      ⟨[createdPlan "p" 2025, createdPlan "q" 2025], []⟩, by decide +kernel, by decide +kernel, ?_⟩
    exact hpair _ _ 2025 _ List.mem_cons_self rfl rfl
  · have hstep : planStep (.init planOf2025) (.bulkCreate [("q", ⟨some (some 2026), none⟩)]) =
        some ⟨[createdPlan "p" 2025, createdPlan "q" 2026], []⟩ := by
      decide +kernel
    have harchived := (h _ hstep).2.1 2026 rfl _ List.mem_cons_self rfl
    cases harchived

end AlsaqiBackend.Plans
