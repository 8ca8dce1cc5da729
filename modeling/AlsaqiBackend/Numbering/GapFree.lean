import AlsaqiBackend.Events.Operations
import AlsaqiBackend.Lib.PgTransaction
import AlsaqiBackend.Lib.Run
import AlsaqiBackend.Numbering.Service
import AlsaqiBackend.Plans.OnePerYear

/-!
# Numbers of failed creations

Five services draw a number and insert a row with it. `createFinding` does both in one transaction, which takes
the number back when it fails; the others draw it outside of the transaction of their insert, or without any.

`gapFree_iff` says when every counter is the number of rows in its scope after every call of a run: exactly
when no creation other than that of a finding fails after its number is drawn.
-/

namespace AlsaqiBackend.Numbering

open AlsaqiBackend.Lib AlsaqiBackend.Plans AlsaqiBackend.Lib.TxM

/-! ## Tables -/

/-- A row of `audit_plans`. -/
structure NumberedPlan extends Plan where
  planCode : Option String
  deriving DecidableEq, Repr

/-- A row of `audit_findings`. -/
structure NumberedFinding where
  id : String
  auditId : String
  findingNumber : Option String
  deriving DecidableEq, Repr

/-- A row of `recommendations` or `audit_evidence`. -/
structure FindingChild where
  findingId : String
  number : String
  deriving DecidableEq, Repr

/-- A row of `incoming_correspondence` or `outgoing_letters`, with the year of its number. -/
structure Letter where
  year : ℕ
  sequenceNumber : String
  deriving DecidableEq, Repr

structure NumberedDb where
  counters : Counters
  plans : List NumberedPlan
  findings : List NumberedFinding
  recommendations : List FindingChild
  evidence : List FindingChild
  incoming : List Letter
  outgoing : List Letter

def NumberedDb.empty : NumberedDb := ⟨.empty, [], [], [], [], [], []⟩

/-- The scope of every row: the type and the id of its counter. -/
def NumberedDb.scopes (db : NumberedDb) : List (String × String) :=
  (db.plans.filterMap fun plan => plan.year.map fun year => ("plan_year", toString year.toNat)) ++
    db.findings.map (fun finding => ("finding", finding.auditId)) ++
    db.recommendations.map (fun row => ("rec", row.findingId)) ++
    db.evidence.map (fun row => ("evidence", row.findingId)) ++
    db.incoming.map (fun letter => ("correspondence_incoming", toString letter.year)) ++
    db.outgoing.map (fun letter => ("correspondence_outgoing", toString letter.year))

/-- Every counter is the number of rows in its scope. -/
def GapFree (db : NumberedDb) : Prop :=
  ∀ scopeType scopeId, db.counters scopeType scopeId = db.scopes.count (scopeType, scopeId)

/-! ## Calls -/

/-- The awaits that fail: what is read, the draws, the file, the inserts (with the commit of a plan or of a
finding), and the notification of a finding. -/
structure Faults where
  select : Bool
  draw : Bool
  write : Bool
  insert : Bool
  secondDraw : Bool
  secondInsert : Bool
  notify : Bool
  commit : Bool
  deriving DecidableEq, Repr

def Faults.none : Faults := ⟨false, false, false, false, false, false, false, false⟩

/-- The body of a plan; the year is `none` when it is no integer. -/
structure PlanInput where
  year : Option ℤ
  quarter : Option String
  keys : List String
  deriving DecidableEq, Repr

/-- A call, with the ids of its new rows and the awaits that fail in it. -/
inductive CreateCall
  | createPlan (data : PlanInput) (id : String) (faults : Faults)
  | createFinding (data : Events.CreateFindingInput) (findingId : String) (faults : Faults)
  | attachEvidence (findingId : String) (faults : Faults)
  | createIncoming (year : ℕ) (faults : Faults)
  | createOutgoing (year : ℕ) (faults : Faults)
  deriving DecidableEq, Repr

/-- A column in a template text. -/
def textOf (column : Option String) : String := column.getD "null"

/-- `getColumnWhitelist('audit_plans')`. -/
def PLAN_COLUMNS : List String :=
  ["plan_code", "program_id", "title", "department", "type", "risk_rating", "planned_start_date",
    "planned_end_date", "status", "lead_auditor", "team_members", "objectives", "scope", "notes", "year",
    "quarter", "is_archived"]

/-- The checks of `AuditPlanService.create`. -/
def mayCreatePlan (db : NumberedDb) (data : PlanInput) (year : ℤ) : Bool :=
  2000 ≤ year && year ≤ 2100 && (orElse data.quarter (some "Annual")).any (· ∈ VALID_QUARTERS) &&
    canCreateNewPlan (db.plans.map NumberedPlan.toPlan) year

/-- `BaseService.create` for a plan; a row that is refused changes nothing. -/
def insertPlan (data : PlanInput) (id : String) (year : ℤ) (planCode : String) (faults : Faults)
    (db : NumberedDb) : NumberedDb :=
  if data.keys.all (· ∈ PLAN_COLUMNS) && !faults.insert && !faults.commit &&
      db.plans.all fun plan => plan.id ≠ id && plan.planCode ≠ some planCode then
    { db with plans := db.plans ++ [⟨createdPlan id year, some planCode⟩] }
  else db

/-- `AuditPlanService.create`. -/
def createPlan (data : PlanInput) (id : String) (faults : Faults) (db : NumberedDb) : NumberedDb :=
  match data.year with
  | none => db
  | some year =>
    if faults.select || !mayCreatePlan db data year || faults.draw then db
    else
      match nextPlanCode year.toNat db.counters with
      | (none, counters) => { db with counters }
      | (some planCode, counters) => insertPlan data id year planCode faults { db with counters }

/-- A number is drawn inside of a transaction. -/
def drawNumber (fails : Bool) (next : Counters → Option String × Counters) : TxM NumberedDb String := do
  let code ← statement fails fun db =>
    some ({ db with counters := (next db.counters).2 }, (next db.counters).1)
  match code with
  | some code => pure code
  | none => throw "Numbering overflow"

/-- `INSERT INTO audit_findings`. -/
def insertFinding (fails : Bool) (findingId auditId findingNumber : String) : TxM NumberedDb Unit :=
  statement fails fun db =>
    if db.findings.all fun row => row.id ≠ findingId && row.findingNumber ≠ some findingNumber then
      some ({ db with findings := db.findings ++ [⟨findingId, auditId, some findingNumber⟩] }, ())
    else none

/-- `INSERT INTO recommendations`. -/
def insertRecommendation (fails : Bool) (findingId recNumber : String) : TxM NumberedDb Unit :=
  statement fails fun db =>
    if db.recommendations.all fun row => row.number ≠ recNumber then
      some ({ db with recommendations := db.recommendations ++ [⟨findingId, recNumber⟩] }, ())
    else none

/-- The transaction of `createFinding`. The error of the notification is caught. -/
def findingTx (auditId findingId : String) (faults : Faults) : TxM NumberedDb Unit := do
  let plan ← statement faults.select fun db => some (db, db.plans.find? fun plan => plan.id = auditId)
  match plan with
  | none => throw "Audit plan not found"
  | some plan =>
    if plan.isArchived = some true then throw "Cannot add finding to an archived plan"
    else do
      let findingNumber ← drawNumber faults.draw (nextFindingNumber auditId (textOf plan.planCode))
      insertFinding faults.insert findingId auditId findingNumber
      let recNumber ← drawNumber faults.secondDraw (nextRecommendationNumber findingId findingNumber)
      insertRecommendation faults.secondInsert findingId recNumber
      attempt (statement faults.notify fun db => some (db, ())) ()

/-- `AuditService.createFinding`. -/
def createFinding (data : Events.CreateFindingInput) (findingId : String) (faults : Faults)
    (db : NumberedDb) : NumberedDb :=
  match data.auditId with
  | none => db
  | some auditId =>
    if auditId = "" || data.trimmedTitle = "" || utf16Length data.trimmedTitle > 200 ||
        !data.findingType.any Events.VALID_FINDING_TYPES.contains || faults.commit then db
    else (transaction (findingTx auditId findingId faults) db).2

/-- `EvidenceStorageService.attachEvidence`. -/
def attachEvidence (findingId : String) (faults : Faults) (db : NumberedDb) : NumberedDb :=
  match if faults.select then none else db.findings.find? fun finding => finding.id = findingId with
  | none => db
  | some finding =>
    if faults.draw then db
    else
      match nextEvidenceNumber findingId (textOf finding.findingNumber) db.counters with
      | (none, counters) => { db with counters }
      | (some evidenceNumber, counters) =>
        if faults.write || faults.insert then { db with counters }
        else { db with counters, evidence := db.evidence ++ [⟨findingId, evidenceNumber⟩] }

/-- `${letters}-${year}-${NNNN}`. -/
def sequenceNumber (letters : String) (year nextNum : ℕ) : String :=
  letters ++ "-" ++ toString year ++ "-" ++ String.ofList (padded 4 nextNum)

/-- The letters after a creation in a year, and the counters. -/
def createLetter (scopeType letters : String) (year : ℕ) (faults : Faults) (rows : List Letter)
    (counters : Counters) : List Letter × Counters :=
  match if faults.draw then none else nextCounter scopeType (toString year) counters with
  | none => (rows, counters)
  | some (nextNum, counters) =>
    let letter : Letter := ⟨year, sequenceNumber letters year nextNum⟩
    if faults.insert || rows.any fun row => row.sequenceNumber = letter.sequenceNumber then (rows, counters)
    else (rows ++ [letter], counters)

/-- `CorrespondenceService.createIncoming`. -/
def createIncoming (year : ℕ) (faults : Faults) (db : NumberedDb) : NumberedDb :=
  let (incoming, counters) :=
    createLetter "correspondence_incoming" "INC" year faults db.incoming db.counters
  { db with counters, incoming }

/-- `CorrespondenceService.createOutgoing`. -/
def createOutgoing (year : ℕ) (faults : Faults) (db : NumberedDb) : NumberedDb :=
  let (outgoing, counters) :=
    createLetter "correspondence_outgoing" "OUT" year faults db.outgoing db.counters
  { db with counters, outgoing }

def createStep (db : NumberedDb) : CreateCall → Option NumberedDb
  | .createPlan data id faults => some (createPlan data id faults db)
  | .createFinding data findingId faults => some (createFinding data findingId faults db)
  | .attachEvidence findingId faults => some (attachEvidence findingId faults db)
  | .createIncoming year faults => some (createIncoming year faults db)
  | .createOutgoing year faults => some (createOutgoing year faults db)

/-! ## Kept numbers -/

/-- The letter is inserted if its number is drawn. -/
def KeepsLetter (scopeType letters : String) (year : ℕ) (faults : Faults) (rows : List Letter)
    (counters : Counters) : Prop :=
  let value := counters scopeType (toString year) + 1
  faults.draw = false → value ≤ MAX_INTEGER →
    faults.insert = false ∧ ∀ row ∈ rows, row.sequenceNumber ≠ sequenceNumber letters year value

/-- What makes a call keep its number: one that draws it has not reached the maximum, writes its file, and
inserts its row. A finding always keeps its numbers. -/
def Kept (db : NumberedDb) : CreateCall → Prop
  | .createPlan data id faults => ∀ year, data.year = some year →
      let value := db.counters "plan_year" (toString year.toNat) + 1
      faults.select = false → mayCreatePlan db data year = true → faults.draw = false → value ≤ MAX_INTEGER →
        value ≤ MAX_PLAN_SEQ ∧ (∀ key ∈ data.keys, key ∈ PLAN_COLUMNS) ∧ faults.insert = false ∧
          faults.commit = false ∧ ∀ plan ∈ db.plans, plan.id ≠ id ∧
            plan.planCode ≠ some (planCode (toString year.toNat) value)
  | .createFinding _ _ _ => True
  | .attachEvidence findingId faults =>
      let value := db.counters "evidence" findingId + 1
      faults.select = false → (∃ finding ∈ db.findings, finding.id = findingId) → faults.draw = false →
        value ≤ MAX_INTEGER → value ≤ MAX_CHILD_SEQ ∧ faults.write = false ∧ faults.insert = false
  | .createIncoming year faults =>
      KeepsLetter "correspondence_incoming" "INC" year faults db.incoming db.counters
  | .createOutgoing year faults =>
      KeepsLetter "correspondence_outgoing" "OUT" year faults db.outgoing db.counters

variable {db db' : NumberedDb} {faults : Faults}

/-! ## Draws -/

/-- A number that is drawn for a new row leaves no gap. -/
theorem GapFree.drawn (h : GapFree db) {scopeType scopeId : String}
    (hcounters : db'.counters = db.counters.set scopeType scopeId (db.counters scopeType scopeId + 1))
    (hscopes : ∀ scope, db'.scopes.count scope =
      db.scopes.count scope + [(scopeType, scopeId)].count scope) : GapFree db' := by
  intro otherType otherId
  rw [hscopes, hcounters]
  by_cases hscope : otherType = scopeType ∧ otherId = scopeId
  · obtain ⟨rfl, rfl⟩ := hscope
    rw [Counters.set_same, h, List.count_singleton_self]
  · have hne : (otherType, otherId) ≠ (scopeType, scopeId) := by
      intro heq
      exact hscope (Prod.mk.inj heq)
    rw [Counters.set_other _ _ (not_and_or.1 hscope), h, List.count_singleton, if_neg (by simpa using hne.symm),
      add_zero]

/-- A number that is drawn for no row leaves one. -/
theorem GapFree.lost (h : GapFree db) {scopeType scopeId : String}
    (hcounters : db'.counters = db.counters.set scopeType scopeId (db.counters scopeType scopeId + 1))
    (hscopes : db'.scopes = db.scopes) : ¬ GapFree db' := by
  intro h'
  have hscope := h' scopeType scopeId
  rw [hcounters, Counters.set_same, hscopes, ← h scopeType scopeId] at hscope
  omega

/-- A call that stores what it draws leaves no gap exactly when the number fits its code and is stored. -/
theorem gapFree_numbered_iff (h : GapFree db) {scopeType scopeId : String} {maxSeq : ℕ} {format : ℕ → String}
    {store : String → Counters → NumberedDb} {stored : Prop}
    (hstore : GapFree (store (format (db.counters scopeType scopeId + 1))
      (db.counters.set scopeType scopeId (db.counters scopeType scopeId + 1))) ↔ stored) :
    GapFree (match numbered scopeType scopeId maxSeq format db.counters with
      | (none, counters) => { db with counters }
      | (some code, counters) => store code counters) ↔
    (db.counters scopeType scopeId + 1 ≤ MAX_INTEGER → db.counters scopeType scopeId + 1 ≤ maxSeq ∧ stored) := by
  rcases numbered_cases scopeType scopeId maxSeq format db.counters with
    ⟨hint, heq⟩ | ⟨hint, hmax, heq⟩ | ⟨hint, hmax, heq⟩
  · -- The counter column cannot hold the number: the statement fails and nothing is drawn.
    rw [heq]
    exact iff_of_true h fun hle => absurd hle hint
  · -- The counter is raised before the maximum is looked at.
    rw [heq]
    exact iff_of_false (h.lost rfl rfl) fun hkept => absurd (hkept hint).1 hmax
  · rw [heq]
    simp only [hint, hmax, true_and, true_imp_iff]
    exact hstore

section scopes

variable (counters : Counters) (scope : String × String)

theorem count_plan (id : String) (year : ℤ) (code : Option String) :
    ({ db with counters, plans := db.plans ++ [⟨createdPlan id year, code⟩] } : NumberedDb).scopes.count scope =
      db.scopes.count scope + [("plan_year", toString year.toNat)].count scope := by
  simp only [NumberedDb.scopes, createdPlan, List.filterMap_append, List.count_append, List.filterMap_cons,
    List.filterMap_nil, Option.map_some]
  omega

theorem count_finding (row : NumberedFinding) :
    ({ db with counters, findings := db.findings ++ [row] } : NumberedDb).scopes.count scope =
      db.scopes.count scope + [("finding", row.auditId)].count scope := by
  simp only [NumberedDb.scopes, List.map_append, List.count_append, List.map_cons, List.map_nil]
  omega

theorem count_recommendation (row : FindingChild) :
    ({ db with counters, recommendations := db.recommendations ++ [row] } : NumberedDb).scopes.count scope =
      db.scopes.count scope + [("rec", row.findingId)].count scope := by
  simp only [NumberedDb.scopes, List.map_append, List.count_append, List.map_cons, List.map_nil]
  omega

theorem count_evidence (row : FindingChild) :
    ({ db with counters, evidence := db.evidence ++ [row] } : NumberedDb).scopes.count scope =
      db.scopes.count scope + [("evidence", row.findingId)].count scope := by
  simp only [NumberedDb.scopes, List.map_append, List.count_append, List.map_cons, List.map_nil]
  omega

theorem count_incoming (letter : Letter) :
    ({ db with counters, incoming := db.incoming ++ [letter] } : NumberedDb).scopes.count scope =
      db.scopes.count scope + [("correspondence_incoming", toString letter.year)].count scope := by
  simp only [NumberedDb.scopes, List.map_append, List.count_append, List.map_cons, List.map_nil]
  omega

theorem count_outgoing (letter : Letter) :
    ({ db with counters, outgoing := db.outgoing ++ [letter] } : NumberedDb).scopes.count scope =
      db.scopes.count scope + [("correspondence_outgoing", toString letter.year)].count scope := by
  simp only [NumberedDb.scopes, List.map_append, List.count_append, List.map_cons, List.map_nil]
  omega

end scopes

/-! ## Creations -/

/-- A plan keeps its number exactly when it is inserted once the number is drawn. -/
theorem gapFree_createPlan_iff (h : GapFree db) (data : PlanInput) (id : String) :
    GapFree (createPlan data id faults db) ↔ Kept db (.createPlan data id faults) := by
  unfold createPlan
  simp only [Kept]
  cases hyear : data.year with
  | none => exact iff_of_true h nofun
  | some year =>
    simp only [Option.some.injEq, forall_eq']
    by_cases hdraws : faults.select = false ∧ mayCreatePlan db data year = true ∧ faults.draw = false
    · obtain ⟨hselect, hmay, hdraw⟩ := hdraws
      simp only [hselect, hmay, hdraw, Bool.not_true, Bool.or_self, Bool.false_eq_true, if_false, true_imp_iff]
      refine gapFree_numbered_iff h ?_
      unfold insertPlan
      by_cases hinsert : (data.keys.all (· ∈ PLAN_COLUMNS) && !faults.insert && !faults.commit &&
          db.plans.all fun plan => plan.id ≠ id && plan.planCode ≠ some (planCode (toString year.toNat)
            (db.counters "plan_year" (toString year.toNat) + 1))) = true
      · rw [if_pos hinsert]
        refine iff_of_true (h.drawn rfl fun scope => count_plan _ scope id year _) ?_
        simpa [and_assoc] using hinsert
      · rw [if_neg hinsert]
        refine iff_of_false (h.lost rfl rfl) fun hkept => hinsert ?_
        simpa [and_assoc] using hkept
    · have hnone : (faults.select || !mayCreatePlan db data year || faults.draw) = true := by
        simp only [Bool.or_eq_true, Bool.not_eq_true']
        by_contra hall
        simp only [not_or, Bool.not_eq_true, Bool.not_eq_false] at hall
        exact hdraws ⟨hall.1.1, hall.1.2, hall.2⟩
      rw [if_pos hnone]
      exact iff_of_true h fun hselect hmay hdraw => absurd ⟨hselect, hmay, hdraw⟩ hdraws

/-- An evidence keeps its number exactly when its file and its row are written once it is drawn. -/
theorem gapFree_attachEvidence_iff (h : GapFree db) (findingId : String) :
    GapFree (attachEvidence findingId faults db) ↔ Kept db (.attachEvidence findingId faults) := by
  unfold attachEvidence
  simp only [Kept]
  split
  · -- The finding is not read, or is not there.
    rename_i hfind
    refine iff_of_true h fun hselect hfinding => ?_
    rw [hselect] at hfind
    obtain ⟨finding, hmem, hid⟩ := hfinding
    exact absurd hid (ne_of_find?_key hfind hmem)
  · rename_i finding hfind
    split_ifs at hfind with hselect
    have hfinding : ∃ finding ∈ db.findings, finding.id = findingId := ⟨finding, of_find?_key hfind⟩
    simp only [Bool.not_eq_true] at hselect
    simp only [hselect, hfinding, true_imp_iff]
    by_cases hdraw : faults.draw = true
    · rw [if_pos hdraw, hdraw]
      exact iff_of_true h nofun
    · rw [if_neg hdraw]
      simp only [Bool.eq_false_iff.2 hdraw, true_imp_iff]
      refine gapFree_numbered_iff h ?_
      by_cases hfault : (faults.write || faults.insert) = true
      · rw [if_pos hfault]
        refine iff_of_false (h.lost rfl rfl) fun hkept => ?_
        rw [hkept.1, hkept.2] at hfault
        cases hfault
      · rw [if_neg hfault]
        rw [Bool.or_eq_true, not_or, Bool.not_eq_true, Bool.not_eq_true] at hfault
        exact iff_of_true (h.drawn rfl fun scope => count_evidence _ scope _) hfault

/-- What the creation of a letter does: nothing, a draw that is lost, or a new letter. -/
theorem createLetter_cases (scopeType letters : String) (year : ℕ) (rows : List Letter) (counters : Counters) :
    (createLetter scopeType letters year faults rows counters = (rows, counters) ∧
      KeepsLetter scopeType letters year faults rows counters) ∨
    (createLetter scopeType letters year faults rows counters =
        (rows, counters.set scopeType (toString year) (counters scopeType (toString year) + 1)) ∧
      ¬ KeepsLetter scopeType letters year faults rows counters) ∨
    ((∃ number, createLetter scopeType letters year faults rows counters = (rows ++ [⟨year, number⟩],
        counters.set scopeType (toString year) (counters scopeType (toString year) + 1))) ∧
      KeepsLetter scopeType letters year faults rows counters) := by
  unfold createLetter KeepsLetter
  by_cases hdraw : faults.draw = true
  · rw [if_pos hdraw, hdraw]
    exact Or.inl ⟨rfl, nofun⟩
  · rw [if_neg hdraw]
    simp only [Bool.eq_false_iff.2 hdraw, true_imp_iff]
    unfold nextCounter
    by_cases hint : counters scopeType (toString year) + 1 ≤ MAX_INTEGER
    · simp only [hint, if_true, true_imp_iff]
      split_ifs with hrefused
      · refine Or.inr (Or.inl ⟨rfl, fun hkept => ?_⟩)
        rw [hkept.1, Bool.false_or, List.any_eq_true] at hrefused
        obtain ⟨row, hrow, heq⟩ := hrefused
        exact hkept.2 row hrow (of_decide_eq_true heq)
      · refine Or.inr (Or.inr ⟨⟨_, rfl⟩, ?_⟩)
        simpa using hrefused
    · simp only [hint, if_false]
      exact Or.inl ⟨trivial, nofun⟩

/-- A letter keeps its number exactly when it is inserted once the number is drawn. `put` is the database with
the letters and the counters after the creation. -/
theorem gapFree_letter_iff (put : List Letter × Counters → NumberedDb) (h : GapFree db)
    {scopeType letters : String} {year : ℕ} {rows : List Letter}
    (hcounters : ∀ result, (put result).counters = result.2)
    (hsame : ∀ counters, (put (rows, counters)).scopes = db.scopes)
    (hnew : ∀ number counters scope, (put (rows ++ [⟨year, number⟩], counters)).scopes.count scope =
      db.scopes.count scope + [(scopeType, toString year)].count scope) :
    GapFree (put (createLetter scopeType letters year faults rows db.counters)) ↔
      KeepsLetter scopeType letters year faults rows db.counters := by
  rcases createLetter_cases scopeType letters year rows db.counters with
    ⟨heq, hkept⟩ | ⟨heq, hkept⟩ | ⟨⟨number, heq⟩, hkept⟩
  · rw [heq]
    refine iff_of_true (fun otherType otherId => ?_) hkept
    rw [hcounters, hsame]
    exact h otherType otherId
  · rw [heq]
    exact iff_of_false (h.lost (hcounters _) (hsame _)) hkept
  · rw [heq]
    exact iff_of_true (h.drawn (hcounters _) (hnew number _)) hkept

theorem gapFree_createIncoming_iff (h : GapFree db) (year : ℕ) :
    GapFree (createIncoming year faults db) ↔ Kept db (.createIncoming year faults) :=
  gapFree_letter_iff (fun result => { db with counters := result.2, incoming := result.1 }) h
    (fun _ => rfl) (fun _ => rfl) fun number _ scope => count_incoming _ scope ⟨year, number⟩

theorem gapFree_createOutgoing_iff (h : GapFree db) (year : ℕ) :
    GapFree (createOutgoing year faults db) ↔ Kept db (.createOutgoing year faults) :=
  gapFree_letter_iff (fun result => { db with counters := result.2, outgoing := result.1 }) h
    (fun _ => rfl) (fun _ => rfl) fun number _ scope => count_outgoing _ scope ⟨year, number⟩

/-! ## Findings -/

/-- A draw that ends well has raised the counter of its scope. -/
theorem drawNumber_endsWell {fails : Bool} {scopeType scopeId : String} {maxSeq : ℕ} {format : ℕ → String}
    {number : String} {tx' : Tx NumberedDb}
    (h : EndsWell (drawNumber fails (numbered scopeType scopeId maxSeq format)) ⟨db, false⟩ number tx') :
    tx' = ⟨{ db with counters := db.counters.set scopeType scopeId (db.counters scopeType scopeId + 1) },
      false⟩ := by
  unfold drawNumber at h
  rw [endsWell_total_bind] at h
  obtain ⟨-, -, h⟩ := h
  rcases numbered_cases scopeType scopeId maxSeq format db.counters with
    ⟨-, heq⟩ | ⟨-, -, heq⟩ | ⟨-, -, heq⟩
  · rw [heq] at h
    exact absurd h not_endsWell_throw
  · rw [heq] at h
    exact absurd h not_endsWell_throw
  · rw [heq] at h
    exact (endsWell_pure.1 h).2.2

theorem insertFinding_endsWell {fails : Bool} {findingId auditId number : String} {tx' : Tx NumberedDb}
    (h : EndsWell (insertFinding fails findingId auditId number) ⟨db, false⟩ () tx') :
    tx' = ⟨{ db with findings := db.findings ++ [⟨findingId, auditId, some number⟩] }, false⟩ := by
  unfold insertFinding at h
  obtain ⟨-, -, db', hinsert, rfl⟩ := endsWell_statement.1 h
  split_ifs at hinsert
  obtain rfl := (Prod.mk.inj (Option.some.inj hinsert)).1
  rfl

theorem insertRecommendation_endsWell {fails : Bool} {findingId number : String} {tx' : Tx NumberedDb}
    (h : EndsWell (insertRecommendation fails findingId number) ⟨db, false⟩ () tx') :
    tx' = ⟨{ db with recommendations := db.recommendations ++ [⟨findingId, number⟩] }, false⟩ := by
  unfold insertRecommendation at h
  obtain ⟨-, -, db', hinsert, rfl⟩ := endsWell_statement.1 h
  split_ifs at hinsert
  obtain rfl := (Prod.mk.inj (Option.some.inj hinsert)).1
  rfl

section stays

variable (fails : Bool)

theorem drawNumber_stays (next : Counters → Option String × Counters) : StaysAborted (drawNumber fails next) := by
  refine (StaysAborted.statement _ _).bind fun code => ?_
  cases code with
  | none => exact .throw _
  | some code => exact .pure

theorem insertFinding_stays (findingId auditId number : String) :
    StaysAborted (insertFinding fails findingId auditId number) := .statement _ _

theorem insertRecommendation_stays (findingId number : String) :
    StaysAborted (insertRecommendation fails findingId number) := .statement _ _

theorem notify_stays : StaysAborted (attempt (statement fails fun db : NumberedDb => some (db, ())) ()) :=
  (StaysAborted.statement _ _).attempt

end stays

/-- A transaction that commits has inserted a row for each of its two numbers. -/
theorem gapFree_findingTx (h : GapFree db) {auditId findingId : String} {tx' : Tx NumberedDb}
    (hends : EndsWell (findingTx auditId findingId faults) ⟨db, false⟩ () tx') : GapFree tx'.db := by
  unfold findingTx at hends
  rw [endsWell_total_bind] at hends
  obtain ⟨-, -, hends⟩ := hends
  split at hends
  · exact absurd hends not_endsWell_throw
  · rename_i plan _
    split_ifs at hends
    · exact absurd hends not_endsWell_throw
    · -- The statements in turn: a number and its row, twice.
      rw [endsWell_bind fun _ => (insertFinding_stays _ _ _ _).bind fun _ => (drawNumber_stays _ _).bind fun _ =>
        (insertRecommendation_stays _ _ _).bind fun _ => notify_stays _] at hends
      obtain ⟨findingNumber, _, hdraw, hends⟩ := hends
      obtain rfl := drawNumber_endsWell hdraw
      rw [endsWell_bind fun _ => (drawNumber_stays _ _).bind fun _ =>
        (insertRecommendation_stays _ _ _).bind fun _ => notify_stays _] at hends
      obtain ⟨_, _, hinsert, hends⟩ := hends
      obtain rfl := insertFinding_endsWell hinsert
      rw [endsWell_bind fun _ => (insertRecommendation_stays _ _ _).bind fun _ => notify_stays _] at hends
      obtain ⟨recNumber, _, hdraw', hends⟩ := hends
      obtain rfl := drawNumber_endsWell hdraw'
      rw [endsWell_bind fun _ => notify_stays _] at hends
      obtain ⟨_, _, hinsert', hends⟩ := hends
      obtain rfl := insertRecommendation_endsWell hinsert'
      obtain ⟨-, -, -, rfl⟩ := endsWell_attempt_statement.1 hends
      have hfinding := h.drawn rfl fun scope =>
        count_finding (db.counters.set "finding" auditId (db.counters "finding" auditId + 1)) scope
          ⟨findingId, auditId, some findingNumber⟩
      exact hfinding.drawn rfl fun scope => count_recommendation _ scope ⟨findingId, recNumber⟩

/-- A finding leaves no gap, whatever fails. -/
theorem gapFree_createFinding (h : GapFree db) (data : Events.CreateFindingInput) (findingId : String) :
    GapFree (createFinding data findingId faults db) := by
  unfold createFinding
  split
  · exact h
  · rename_i auditId _
    split_ifs
    · exact h
    · by_cases hends : ∃ a tx', EndsWell (findingTx auditId findingId faults) ⟨db, false⟩ a tx'
      · obtain ⟨_, tx', hends⟩ := hends
        rw [transaction_of_endsWell hends]
        exact gapFree_findingTx h hends
      · rw [transaction_of_not_endsWell fun a tx' hends' => hends ⟨a, tx', hends'⟩]
        exact h

/-! ## Runs -/

/-- A call leaves no gap exactly when it keeps its number. -/
theorem gapFree_step_iff (db : NumberedDb) (call : CreateCall) (db' : NumberedDb) (h : GapFree db)
    (hstep : createStep db call = some db') : GapFree db' ↔ Kept db call := by
  cases call with
  | createPlan data id faults =>
    obtain rfl := Option.some.inj hstep
    exact gapFree_createPlan_iff h data id
  | createFinding data findingId faults =>
    obtain rfl := Option.some.inj hstep
    exact iff_of_true (gapFree_createFinding h data findingId) trivial
  | attachEvidence findingId faults =>
    obtain rfl := Option.some.inj hstep
    exact gapFree_attachEvidence_iff h findingId
  | createIncoming year faults =>
    obtain rfl := Option.some.inj hstep
    exact gapFree_createIncoming_iff h year
  | createOutgoing year faults =>
    obtain rfl := Option.some.inj hstep
    exact gapFree_createOutgoing_iff h year

/-- A database whose counters are the numbers of rows. -/
structure GapFreeDb where
  db : NumberedDb
  gapFree : GapFree db

/-- Along a run there is no gap exactly when every call keeps its number. -/
theorem gapFree_iff (start : GapFreeDb) (calls : List CreateCall) :
    Along createStep GapFree start.db calls ↔ Guarded createStep Kept start.db calls :=
  along_iff_guarded (I := fun _ => True) (fun _ _ _ _ _ => trivial)
    (fun db call db' _ h hstep => gapFree_step_iff db call db' h hstep) calls trivial start.gapFree

/-- No rows and no counters. -/
def GapFreeDb.empty : GapFreeDb := ⟨.empty, fun _ _ => rfl⟩

/-- The body of a plan of 2025. -/
def planOf2025Input : PlanInput := ⟨some 2025, none, ["title"]⟩

/-- The body of a finding of it. -/
def findingInput : Events.CreateFindingInput := ⟨some "title", some "control_design_deficiency", some "p"⟩

/-- A plan whose insert fails, an evidence whose file cannot be written, and a letter whose insert fails leave
gaps. -/
theorem numbers_lost :
    (∃ db, run createStep GapFreeDb.empty.db
        [.createPlan planOf2025Input "p" { Faults.none with insert := true }] = some db ∧ ¬ GapFree db) ∧
    (∃ db, run createStep GapFreeDb.empty.db
        [.createPlan planOf2025Input "p" .none, .createFinding findingInput "f" .none,
          .attachEvidence "f" { Faults.none with write := true }] = some db ∧ ¬ GapFree db) ∧
    ∃ db, run createStep GapFreeDb.empty.db
        [.createIncoming 2025 { Faults.none with insert := true }] = some db ∧ ¬ GapFree db := by
  have hgap : ∀ (calls : List CreateCall) (scope : String × String),
      (run createStep GapFreeDb.empty.db calls).map (fun db =>
        (db.counters scope.1 scope.2, db.scopes.count scope)) = some (1, 0) →
        ∃ db, run createStep GapFreeDb.empty.db calls = some db ∧ ¬ GapFree db := by
    intro calls scope h
    obtain ⟨db, hdb, hcounts⟩ := Option.map_eq_some_iff.1 h
    obtain ⟨hone, hzero⟩ := Prod.mk.inj hcounts
    refine ⟨db, hdb, fun hfree => ?_⟩
    have hscope := hfree scope.1 scope.2
    rw [hone, hzero] at hscope
    cases hscope
  refine ⟨hgap _ ("plan_year", "2025") ?_, hgap _ ("evidence", "f") ?_,
    hgap _ ("correspondence_incoming", "2025") ?_⟩
  · decide +kernel
  · decide +kernel
  · decide +kernel

end AlsaqiBackend.Numbering
