import AlsaqiBackend.Findings.StatusMachine

/-!
# A finding and its recommendations

A finding is to be Closed exactly when its recommendations are Implemented, and they have its risk level.
`changeFindingStatus` and `updateFinding` carry a change of the finding over to its recommendations, and
`RecommendationService.update` closes a finding with its last recommendation. Here the operations come one
after the other, and one that is refused or fails changes nothing.

`SyncOp.Keeps` is the condition under which an operation keeps the two tables in step. Those on a finding are
settled here: a new finding and a change of its status always keep them so, and `updateFinding_inSync_iff` says
when an update of its columns does.
-/

namespace AlsaqiBackend.Findings

open AlsaqiBackend.Lib AlsaqiBackend.Users

/-! ## The operations -/

inductive SyncOp
  | createFinding (findingId recommendationId auditId userId riskLevel : String)
  /-- `mayApprove` says whether the user has the permission. -/
  | changeFindingStatus (id newStatus : String) (mayApprove : Bool)
  /-- A body without a status. -/
  | updateFinding (id : String) (body : Body) (userId : String)
  /-- A body with a status. -/
  | updateRecommendation (id : String) (body : Body)
  /-- `PATCH /recommendations/:id/resolve`. -/
  | resolve (id closureEvidencePath : String)
  deriving DecidableEq, Repr

variable (database : Database)

def changeFindingStatus (id newStatus : String) (mayApprove : Bool) (db : FindingTables) :
    Option FindingTables :=
  match db.finding id with
  | none => none
  | some row =>
    if allowedTransition row.status (some newStatus) ∧
        (needsApproval row.status (some newStatus) → mayApprove) then
      setFindingStatus database.checks id newStatus db
    else none

def updateFinding (id : String) (body : Body) (userId : String) (db : FindingTables) :
    Option FindingTables :=
  match db.finding id with
  | none => none
  | some row =>
    if row.createdBy = some userId ∧ (findingData body).accepted then
      saveFinding database.checks id (findingData body) db
    else none

/-- The cascade of `update`, after its update. -/
def closeWithRecommendation (id : String) (data : Body) (db : FindingTables) : Option FindingTables :=
  match findingToClose database.countAsText id data db with
  | none => some db
  | some findingId => if canClose findingId db then closeFinding database.checks findingId db else some db

def updateRecommendation (id : String) (body : Body) (db : FindingTables) : Option FindingTables :=
  if (recommendationData body).accepted then
    (saveRecommendation database.checks id (recommendationData body) db).bind
      (closeWithRecommendation database id (recommendationData body))
  else none

/-- The recommendation is resolved; the evidence and who closed it when are not looked at again. -/
def resolve (id closureEvidencePath : String) (db : FindingTables) : Option FindingTables :=
  if closureEvidencePath = "" then none
  else (db.updateRecommendations id fun row => { row with status := some "closed" }).checked database.checks

/-- The tables that an operation leaves; `none` when it is refused, or fails. -/
def SyncOp.perform (db : FindingTables) : SyncOp → Option FindingTables
  | .createFinding findingId recommendationId auditId userId riskLevel =>
    insertFinding database.checks findingId recommendationId auditId userId riskLevel db
  | .changeFindingStatus id newStatus mayApprove =>
    Findings.changeFindingStatus database id newStatus mayApprove db
  | .updateFinding id body userId => Findings.updateFinding database id body userId db
  | .updateRecommendation id body => Findings.updateRecommendation database id body db
  | .resolve id closureEvidencePath => Findings.resolve database id closureEvidencePath db

/-- `updateFinding` without a status, and `update` with one. -/
def SyncOp.inScope : SyncOp → Bool
  | .updateFinding _ body _ => (findingData body).assigned "status" = none
  | .updateRecommendation _ body => ((recommendationData body).get "status").isSome
  | _ => true

def syncStep (db : FindingTables) (op : SyncOp) : Option FindingTables :=
  if op.inScope then some ((op.perform database db).getD db) else none

/-! ## In step -/

/-- The finding is Closed exactly when its recommendations that are not deleted are Implemented, and all of
them have its risk level. -/
structure Synced (recommendations : List Recommendation) (finding : Finding) : Prop where
  closed : finding.status = some "Closed" ↔ ∀ row ∈ recommendations, row.findingId = finding.id →
    row.deletedAt = none → row.status = some "Implemented"
  riskLevel : ∀ row ∈ recommendations, row.findingId = finding.id → row.riskLevel = finding.riskLevel

def InSync (db : FindingTables) : Prop := ∀ finding ∈ db.findings, Synced db.recommendations finding

/-- The other recommendations of the finding are Implemented, those that are deleted apart. -/
def OthersImplemented (db : FindingTables) (id : String) (finding : Finding) : Prop :=
  ∀ row ∈ db.recommendations, row.id ≠ some id → row.findingId = finding.id → row.deletedAt = none →
    row.status = some "Implemented"

/-- None of the others is counted. -/
def NoOtherOpen (db : FindingTables) (id : String) (finding : Finding) : Prop :=
  ∀ row ∈ db.recommendations, row.id ≠ some id → row.findingId = finding.id → row.isOpen = false

/-- The update of `row` closes the finding: the body sets it to Implemented under its own key, the driver
counts in numbers, and no other recommendation is counted, be it deleted or not. -/
structure Closes (db : FindingTables) (id : String) (data : Body) (row : Recommendation)
    (finding : Finding) : Prop where
  implemented : (data.get "status").any (fun value => value.column = some "Implemented") = true
  keepsId : (row.setColumns data).id = some id
  ofFinding : (row.setColumns data).findingId = finding.id
  hasId : finding.id ≠ some ""
  notOpen : (row.setColumns data).isOpen = false
  number : database.countAsText = false
  others : NoOtherOpen db id finding

/-- What keeps the tables in step. -/
def SyncOp.Keeps (db : FindingTables) : SyncOp → Prop
  | .updateFinding id body _ =>
    ∀ riskLevel, (findingData body).assigned "risk_level" = some riskLevel →
      (((findingData body).get "risk_level").any BodyValue.truthy = true ∨
        ∀ row ∈ db.recommendations, row.findingId = some id → row.riskLevel = riskLevel)
  | .updateRecommendation id body =>
    let data := recommendationData body
    ∀ row ∈ db.recommendations, row.id = some id → ∀ finding ∈ db.findings,
      ((row.setColumns data).findingId = finding.id →
        (row.setColumns data).riskLevel = finding.riskLevel) ∧
      (row.findingId = finding.id ∨ (row.setColumns data).findingId = finding.id →
        ((finding.status = some "Closed" ∨ Closes database db id data row finding) ↔
          (OthersImplemented db id finding ∧
            ((row.setColumns data).findingId = finding.id → (row.setColumns data).deletedAt = none →
              (row.setColumns data).status = some "Implemented"))))
  | .resolve id _ =>
    ∀ row ∈ db.recommendations, row.id = some id → row.deletedAt = none →
      ∀ finding ∈ db.findings, row.findingId = finding.id → finding.status ≠ some "Closed"
  | _ => True

/-- An operation that is accepted keeps the tables in step. -/
def Kept (db : FindingTables) (op : SyncOp) : Prop :=
  (op.perform database db).isSome → op.Keeps database db

variable {database} {db db' : FindingTables}

/-! ## Constraints -/

theorem valid_of_checked {checks : RowChecks} (h : db.checked checks = some db') : db'.Valid checks := by
  unfold FindingTables.checked at h
  split_ifs at h with hvalid
  exact Option.some.inj h ▸ hvalid

theorem setFindingStatus_valid {checks : RowChecks} {id newStatus : String}
    (h : setFindingStatus checks id newStatus db = some db') : db'.Valid checks := by
  unfold setFindingStatus at h
  obtain ⟨db₁, h₁, hrest⟩ := Option.bind_eq_some_iff.1 h
  split at hrest
  · exact Option.some.inj hrest ▸ valid_of_checked h₁
  · exact valid_of_checked hrest

theorem saveFinding_valid {checks : RowChecks} {id : String} {data : Body}
    (h : saveFinding checks id data db = some db') : db'.Valid checks := by
  unfold saveFinding at h
  obtain ⟨db₁, h₁, hrest⟩ := Option.bind_eq_some_iff.1 h
  split at hrest
  · split_ifs at hrest
    · exact valid_of_checked hrest
    · exact Option.some.inj hrest ▸ valid_of_checked h₁
  · exact Option.some.inj hrest ▸ valid_of_checked h₁

theorem closeWithRecommendation_valid {id : String} {data : Body} (hdb : db.Valid database.checks)
    (h : closeWithRecommendation database id data db = some db') : db'.Valid database.checks := by
  unfold closeWithRecommendation at h
  split at h
  · exact Option.some.inj h ▸ hdb
  · split_ifs at h
    · exact valid_of_checked h
    · exact Option.some.inj h ▸ hdb

/-- What an operation leaves meets the constraints. -/
theorem perform_valid {op : SyncOp} (h : op.perform database db = some db') :
    db'.Valid database.checks := by
  cases op with
  | createFinding findingId recommendationId auditId userId riskLevel =>
    obtain ⟨db₁, -, h₂⟩ := Option.bind_eq_some_iff.1 h
    exact valid_of_checked h₂
  | changeFindingStatus id newStatus mayApprove =>
    simp only [SyncOp.perform, changeFindingStatus] at h
    split at h
    · cases h
    · split_ifs at h
      exact setFindingStatus_valid h
  | updateFinding id body userId =>
    simp only [SyncOp.perform, updateFinding] at h
    split at h
    · cases h
    · split_ifs at h
      exact saveFinding_valid h
  | updateRecommendation id body =>
    simp only [SyncOp.perform, updateRecommendation] at h
    split_ifs at h
    obtain ⟨db₁, h₁, hclose⟩ := Option.bind_eq_some_iff.1 h
    exact closeWithRecommendation_valid (valid_of_checked h₁) hclose
  | resolve id closureEvidencePath =>
    simp only [SyncOp.perform, resolve] at h
    split_ifs at h
    exact valid_of_checked h

theorem syncStep_valid (db : FindingTables) (op : SyncOp) (db' : FindingTables)
    (hdb : db.Valid database.checks) (h : syncStep database db op = some db') :
    db'.Valid database.checks := by
  unfold syncStep at h
  split_ifs at h
  obtain rfl := Option.some.inj h
  cases hperform : op.perform database db with
  | none => exact hdb
  | some db' => exact perform_valid hperform

/-! ## Findings that are created -/

theorem createFinding_inSync {findingId recommendationId auditId userId riskLevel : String}
    (hdb : db.Valid database.checks) (hsync : InSync db)
    (h : insertFinding database.checks findingId recommendationId auditId userId riskLevel db = some db') :
    InSync db' := by
  obtain ⟨db₁, h₁, h₂⟩ := Option.bind_eq_some_iff.1 h
  have hkeys := (valid_of_checked h₁).findingKeys
  obtain rfl := checked_eq_some h₁
  obtain rfl := checked_eq_some h₂
  simp only [List.map_append, List.map_cons, List.map_nil] at hkeys
  have hnew : some findingId ∉ db.findings.map Finding.id := by
    have hdisjoint := (List.nodup_append.1 hkeys).2.2
    intro hmem
    exact hdisjoint _ hmem _ List.mem_cons_self rfl
  intro finding hfinding
  rcases List.mem_append.1 hfinding with hold | hlast
  · -- The new recommendation is that of the new finding.
    have hne : finding.id ≠ some findingId := fun heq => hnew (heq ▸ List.mem_map_of_mem hold)
    have hsynced := hsync finding hold
    constructor
    · rw [hsynced.closed]
      constructor
      · intro hall row hrow
        rcases List.mem_append.1 hrow with hrow | hrow
        · exact hall row hrow
        · rw [List.mem_singleton.1 hrow]
          exact fun heq => absurd heq.symm hne
      · intro hall row hrow
        exact hall row (List.mem_append_left _ hrow)
    · intro row hrow
      rcases List.mem_append.1 hrow with hrow | hrow
      · exact hsynced.riskLevel row hrow
      · rw [List.mem_singleton.1 hrow]
        exact fun heq => absurd heq.symm hne
  · rw [List.mem_singleton.1 hlast]
    constructor
    · refine iff_of_false (by simp) fun hall => ?_
      have himplemented := hall _ (List.mem_append_right _ List.mem_cons_self) rfl rfl
      simp at himplemented
    · intro row hrow heq
      rcases List.mem_append.1 hrow with hrow | hrow
      · rcases hdb.foreignKey row hrow with hnone | hmem
        · rw [hnone] at heq
          cases heq
        · rw [heq] at hmem
          exact absurd hmem hnew
      · rw [List.mem_singleton.1 hrow]

/-! ## Changes of a status -/

/-- The table does not leave Closed, and its other statuses have one for the recommendations. -/
theorem allowedTransition_spec {status : Option String} {newStatus : String}
    (h : allowedTransition status (some newStatus) = true) :
    status ≠ some "Closed" ∧ ∃ recStatus, FINDING_TO_RECOMMENDATION_STATUS newStatus = some recStatus ∧
      (some newStatus = some "Closed" ↔ some recStatus = some "Implemented") := by
  cases status with
  | none => cases h
  | some status =>
    have hmem : newStatus ∈ ALLOWED_FINDING_TRANSITIONS status := of_decide_eq_true h
    unfold ALLOWED_FINDING_TRANSITIONS at hmem
    split at hmem
    · rw [List.mem_singleton] at hmem
      subst hmem
      exact ⟨by decide, "In Progress", rfl, by decide⟩
    · simp only [List.mem_cons, List.not_mem_nil, or_false] at hmem
      rcases hmem with rfl | rfl
      · exact ⟨by decide, "Implemented", rfl, by decide⟩
      · exact ⟨by decide, "In Progress", rfl, by decide⟩
    · simp only [List.mem_cons, List.not_mem_nil, or_false] at hmem
      rcases hmem with rfl | rfl
      · exact ⟨by decide, "Implemented", rfl, by decide⟩
      · exact ⟨by decide, "In Progress", rfl, by decide⟩
    · cases hmem

theorem setFindingStatus_eq {checks : RowChecks} {id newStatus recStatus : String}
    (hrec : FINDING_TO_RECOMMENDATION_STATUS newStatus = some recStatus)
    (h : setFindingStatus checks id newStatus db = some db') :
    db' = (db.updateFindings id fun row => { row with status := some newStatus }).updateRecommendationsOf id
      fun row => { row with status := some recStatus } := by
  unfold setFindingStatus at h
  obtain ⟨db₁, h₁, h₂⟩ := Option.bind_eq_some_iff.1 h
  rw [hrec] at h₂
  rw [checked_eq_some h₂, checked_eq_some h₁]

theorem finding_eq_some {id : String} {row : Finding} (h : db.finding id = some row) :
    row ∈ db.findings ∧ row.id = some id := of_find?_key h

/-- A finding stays in step when no recommendation of it changes. -/
theorem Synced.map_of_others {recommendations : List Recommendation} {finding : Finding}
    {g : Recommendation → Recommendation} (h : Synced recommendations finding)
    (hof : ∀ rec, (g rec).findingId = rec.findingId)
    (hsame : ∀ rec ∈ recommendations, rec.findingId = finding.id → g rec = rec) :
    Synced (recommendations.map g) finding := by
  constructor
  · rw [h.closed, List.forall_mem_map]
    refine forall₂_congr fun rec hrec => ?_
    rw [hof]
    refine forall_congr' fun hofRec => ?_
    rw [hsame rec hrec hofRec]
  · rw [List.forall_mem_map]
    intro rec hrec hofRec
    rw [hof] at hofRec
    rw [hsame rec hrec hofRec]
    exact h.riskLevel rec hrec hofRec

/-- The recommendations follow their finding. -/
theorem changeFindingStatus_inSync {id newStatus : String} {mayApprove : Bool}
    (hdb : db.Valid database.checks) (hsync : InSync db)
    (h : changeFindingStatus database id newStatus mayApprove db = some db') : InSync db' := by
  unfold changeFindingStatus at h
  split at h
  · cases h
  rename_i old hold
  split_ifs at h with hchange
  obtain ⟨hmem, hid⟩ := finding_eq_some hold
  obtain ⟨hnotClosed, recStatus, hrec, hclosed⟩ := allowedTransition_spec hchange.1
  rw [setFindingStatus_eq hrec h]
  intro finding hfinding
  obtain ⟨row, hrow, rfl⟩ := List.mem_map.1 hfinding
  have hsynced := hsync row hrow
  by_cases hrowId : row.id = some id
  · rw [if_pos hrowId]
    constructor
    · show some newStatus = some "Closed" ↔ _
      rw [hclosed]
      constructor
      · intro hrecStatus rec hrecMem hof hdeleted
        obtain ⟨rec, hrec', rfl⟩ := List.mem_map.1 hrecMem
        split_ifs at hof hdeleted ⊢ with hfid
        · exact hrecStatus
        · exact absurd (hof.trans hrowId) hfid
      · -- Not Closed before, the finding has a recommendation that is not deleted.
        intro hall
        have hrowOld : row = old := List.inj_on_of_nodup_map hdb.findingKeys hrow hmem (hrowId.trans hid.symm)
        have hsome : ∃ rec ∈ db.recommendations, rec.findingId = row.id ∧ rec.deletedAt = none := by
          by_contra hnone
          push Not at hnone
          have hclosed' := hsynced.closed.2 fun rec hmem' hof hdeleted =>
            absurd hdeleted (hnone rec hmem' hof)
          rw [hrowOld] at hclosed'
          exact hnotClosed hclosed'
        obtain ⟨rec, hrecMem, hof, hdeleted⟩ := hsome
        have hfid : rec.findingId = some id := hof.trans hrowId
        have hset := hall { rec with status := some recStatus }
          (List.mem_map.2 ⟨rec, hrecMem, if_pos hfid⟩) hof hdeleted
        exact hset
    · intro rec hrecMem hof
      obtain ⟨rec, hrec', rfl⟩ := List.mem_map.1 hrecMem
      split_ifs at hof ⊢
      · exact hsynced.riskLevel rec hrec' hof
      · exact hsynced.riskLevel rec hrec' hof
  · rw [if_neg hrowId]
    refine hsynced.map_of_others (fun rec => ?_) fun rec _ hof => if_neg fun hfid => hrowId (hof.symm.trans hfid)
    split_ifs
    · rfl
    · rfl

/-! ## Changes of a risk level -/

/-- A key in lower case is the column that it assigns. -/
theorem assigned_of_get {body : Body} (haccepted : body.accepted = true) {key : String}
    (hkey : key.toLower = key) {value : BodyValue} (h : body.get key = some value) :
    body.assigned key = some value.column := by
  obtain ⟨entry, hentry, rfl⟩ := Option.map_eq_some_iff.1 h
  obtain ⟨hmem, hexact⟩ := of_find?_key hentry
  have hfold : entry.1.toLower = key := by rw [hexact, hkey]
  have hnodup : (body.map fun entry => entry.1.toLower).Nodup := by
    simp only [Body.accepted, Bool.and_eq_true, decide_eq_true_eq] at haccepted
    exact haccepted.2
  unfold Body.assigned
  rw [find?_key_of_mem hnodup hmem hfold, Option.map_some]

/-- The risk level that `updateFinding` carries over. -/
def carriedRisk (data : Body) : Option (Option String) :=
  ((data.get "risk_level").filter BodyValue.truthy).map BodyValue.column

/-- The recommendations after `updateFinding`. -/
def withRisk (id : String) (riskLevel : Option (Option String)) (row : Recommendation) : Recommendation :=
  match riskLevel with
  | some riskLevel => if row.findingId = some id then { row with riskLevel := riskLevel } else row
  | none => row

/-- Only the risk level changes. -/
theorem exists_withRisk (id : String) (riskLevel : Option (Option String)) (row : Recommendation) :
    ∃ newRisk, withRisk id riskLevel row = { row with riskLevel := newRisk } := by
  unfold withRisk
  split
  · split_ifs
    · exact ⟨_, rfl⟩
    · exact ⟨row.riskLevel, rfl⟩
  · exact ⟨row.riskLevel, rfl⟩

section withRisk

variable (id : String) (riskLevel : Option (Option String)) (row : Recommendation)

@[simp]
theorem withRisk_findingId : (withRisk id riskLevel row).findingId = row.findingId := by
  obtain ⟨newRisk, heq⟩ := exists_withRisk id riskLevel row
  rw [heq]

@[simp]
theorem withRisk_status : (withRisk id riskLevel row).status = row.status := by
  obtain ⟨newRisk, heq⟩ := exists_withRisk id riskLevel row
  rw [heq]

@[simp]
theorem withRisk_deletedAt : (withRisk id riskLevel row).deletedAt = row.deletedAt := by
  obtain ⟨newRisk, heq⟩ := exists_withRisk id riskLevel row
  rw [heq]

end withRisk

theorem withRisk_of_ne {id : String} {riskLevel : Option (Option String)} {row : Recommendation}
    (h : row.findingId ≠ some id) : withRisk id riskLevel row = row := by
  unfold withRisk
  split
  · exact if_neg h
  · rfl

theorem saveFinding_eq {checks : RowChecks} {id : String} {data : Body}
    (h : saveFinding checks id data db = some db') :
    db'.findings = (db.updateFindings id (Finding.setColumns data)).findings ∧
      db'.recommendations = db.recommendations.map (withRisk id (carriedRisk data)) := by
  refine ⟨saveFinding_findings h, ?_⟩
  unfold saveFinding at h
  obtain ⟨db₁, h₁, hrest⟩ := Option.bind_eq_some_iff.1 h
  obtain rfl := checked_eq_some h₁
  have hnone : db.recommendations = db.recommendations.map (withRisk id none) :=
    (List.map_id' db.recommendations).symm
  unfold carriedRisk
  split at hrest
  · rename_i value hvalue
    split_ifs at hrest with htruthy
    · rw [checked_eq_some hrest, hvalue, Option.filter_some, if_pos htruthy]
      rfl
    · rw [← Option.some.inj hrest, hvalue, Option.filter_some, if_neg htruthy]
      exact hnone
  · rename_i hget
    rw [← Option.some.inj hrest, hget]
    exact hnone

/-- A finding that gets another key has no recommendations, before and after. -/
theorem no_recommendations_of_rename {checks : RowChecks} {id : String} {f : Finding → Finding}
    {g : Recommendation → Recommendation} (hg : ∀ row, (g row).findingId = row.findingId)
    (hdb : db.Valid checks) (hdb' : db'.Valid checks)
    (hfindings : db'.findings = (db.updateFindings id f).findings)
    (hrecs : db'.recommendations = db.recommendations.map g) {row : Finding} (hrow : row ∈ db.findings)
    (hid : row.id = some id) (hne : (f row).id ≠ some id) :
    ∀ rec ∈ db.recommendations, rec.findingId ≠ some id ∧ rec.findingId ≠ (f row).id := by
  have hkeys := hdb'.findingKeys
  have hrow' : f row ∈ db'.findings := by
    rw [hfindings]
    exact List.mem_map.2 ⟨row, hrow, if_pos hid⟩
  intro rec hrec
  constructor
  · -- The foreign key holds after the update, where no finding has the old key.
    intro hof
    have hrec' : g rec ∈ db'.recommendations := hrecs ▸ List.mem_map_of_mem hrec
    rcases hdb'.foreignKey _ hrec' with hnone | hmem
    · rw [hg, hof] at hnone
      cases hnone
    · rw [hg, hof, hfindings] at hmem
      obtain ⟨other', hother', heq⟩ := List.mem_map.1 hmem
      obtain ⟨other, hother, rfl⟩ := List.mem_map.1 hother'
      by_cases hotherId : other.id = some id
      · have hsame : other = row := List.inj_on_of_nodup_map hdb.findingKeys hother hrow (hotherId.trans hid.symm)
        rw [if_pos hotherId, hsame] at heq
        exact hne heq
      · rw [if_neg hotherId] at heq
        exact hotherId heq
  · -- It held before, and the new key is that of no other finding.
    intro hof
    rcases hdb.foreignKey rec hrec with hnone | hmem
    · rw [hnone] at hof
      exact (hdb'.findings _ hrow').1 hof.symm
    · obtain ⟨other, hother, heq⟩ := List.mem_map.1 hmem
      have hotherId : other.id ≠ some id := by
        rw [heq, hof]
        exact hne
      have hother' : other ∈ db'.findings := by
        rw [hfindings]
        exact List.mem_map.2 ⟨other, hother, if_neg hotherId⟩
      have hboth : other.id = (f row).id := heq.trans hof
      rw [hfindings] at hkeys
      simp only [FindingTables.updateFindings, List.map_map] at hkeys
      have hsame : other = row := by
        refine List.inj_on_of_nodup_map hkeys hother hrow ?_
        simp only [Function.comp_apply, if_neg hotherId, if_pos hid]
        exact hboth
      rw [hsame] at hotherId
      exact hotherId hid

/-- With the same recommendations but for their risk levels, a finding is in step exactly when the risk
levels are its own. -/
theorem synced_withRisk_iff {id : String} {riskLevel : Option (Option String)} {row row' : Finding}
    (hsynced : Synced db.recommendations row) (hid : row'.id = row.id) (hstatus : row'.status = row.status) :
    Synced (db.recommendations.map (withRisk id riskLevel)) row' ↔
      ∀ rec ∈ db.recommendations, rec.findingId = row.id →
        (withRisk id riskLevel rec).riskLevel = row'.riskLevel := by
  constructor
  · intro h rec hrec hof
    refine h.riskLevel _ (List.mem_map_of_mem hrec) ?_
    rw [withRisk_findingId, hid, hof]
  · intro h
    constructor
    · rw [hstatus, hsynced.closed, hid]
      simp only [List.mem_map, forall_exists_index, and_imp, forall_apply_eq_imp_iff₂, withRisk_findingId,
        withRisk_deletedAt, withRisk_status]
    · intro rec' hrec' hof
      obtain ⟨rec, hrec, rfl⟩ := List.mem_map.1 hrec'
      rw [withRisk_findingId, hid] at hof
      exact h rec hrec hof

/-- The recommendations have the risk level of the finding after an update when it is carried over to them,
or they have it already. -/
theorem risk_carried_iff {id : String} {data : Body} (haccepted : data.accepted = true) {row : Finding}
    (hrisk : ∀ rec ∈ db.recommendations, rec.findingId = some id → rec.riskLevel = row.riskLevel) :
    (∀ rec ∈ db.recommendations, rec.findingId = some id →
        (withRisk id (carriedRisk data) rec).riskLevel = (row.setColumns data).riskLevel) ↔
      ∀ riskLevel, data.assigned "risk_level" = some riskLevel →
        ((data.get "risk_level").any BodyValue.truthy = true ∨
          ∀ rec ∈ db.recommendations, rec.findingId = some id → rec.riskLevel = riskLevel) := by
  have hset : (row.setColumns data).riskLevel = (data.assigned "risk_level").getD row.riskLevel := rfl
  rw [hset]
  by_cases htruthy : (data.get "risk_level").any BodyValue.truthy = true
  · obtain ⟨value, hvalue, hvalueTruthy⟩ := (Option.any_eq_true _ _).1 htruthy
    have hcarried : carriedRisk data = some value.column := by
      rw [carriedRisk, hvalue, Option.filter_some, if_pos hvalueTruthy, Option.map_some]
    rw [assigned_of_get haccepted (by decide +kernel) hvalue, hcarried]
    refine iff_of_true (fun rec _ hof => ?_) (fun _ _ => Or.inl htruthy)
    simp only [withRisk, if_pos hof, Option.getD_some]
  · have hcarried : carriedRisk data = none := by
      unfold carriedRisk
      cases hget : data.get "risk_level" with
      | none => rfl
      | some value =>
        rw [hget, Option.any_some] at htruthy
        rw [Option.filter_some, if_neg htruthy, Option.map_none]
    simp only [hcarried, withRisk, htruthy, Bool.false_eq_true, false_or]
    cases data.assigned "risk_level" with
    | none => exact iff_of_true hrisk nofun
    | some riskLevel => simp only [Option.getD_some, Option.some.injEq, forall_eq']

/-- An update of a finding keeps the tables in step exactly when the recommendations get its risk level, or
have it. -/
theorem updateFinding_inSync_iff {id userId : String} {body : Body} (hdb : db.Valid database.checks)
    (hsync : InSync db) (hscope : (SyncOp.updateFinding id body userId).inScope = true)
    (h : updateFinding database id body userId db = some db') :
    InSync db' ↔ (SyncOp.updateFinding id body userId).Keeps database db := by
  have hstatus : (findingData body).assigned "status" = none := of_decide_eq_true hscope
  unfold updateFinding at h
  split at h
  · cases h
  rename_i found hfound
  split_ifs at h with hgranted
  obtain ⟨hfoundMem, hfoundId⟩ := finding_eq_some hfound
  have hvalid := saveFinding_valid h
  obtain ⟨hfindings, hrecs⟩ := saveFinding_eq h
  set data := findingData body
  have hset : ∀ row : Finding, (row.setColumns data).status = row.status := by
    intro row
    simp [Finding.setColumns, Body.set, hstatus]
  -- The other findings stay in step.
  have hothers : ∀ row ∈ db.findings, row.id ≠ some id → Synced db'.recommendations row := by
    intro row hrow hne
    rw [hrecs]
    exact (hsync row hrow).map_of_others (withRisk_findingId id _) fun rec _ hof =>
      withRisk_of_ne fun hfid => hne (hof.symm.trans hfid)
  have hiff : InSync db' ↔ Synced db'.recommendations (found.setColumns data) := by
    constructor
    · intro hall
      refine hall _ ?_
      rw [hfindings]
      exact List.mem_map.2 ⟨found, hfoundMem, if_pos hfoundId⟩
    · intro hone finding hfinding
      rw [hfindings] at hfinding
      obtain ⟨row, hrow, rfl⟩ := List.mem_map.1 hfinding
      split_ifs with hrowId
      · have hsame : row = found := List.inj_on_of_nodup_map hdb.findingKeys hrow hfoundMem (hrowId.trans hfoundId.symm)
        rw [hsame]
        exact hone
      · exact hothers row hrow hrowId
  rw [hiff, hrecs]
  by_cases hrename : (found.setColumns data).id = some id
  · rw [synced_withRisk_iff (hsync found hfoundMem) (hrename.trans hfoundId.symm) (hset found), hfoundId]
    have hrisk := (hsync found hfoundMem).riskLevel
    rw [hfoundId] at hrisk
    exact risk_carried_iff hgranted.2 hrisk
  · -- A finding with another key has no recommendations.
    have hnone := no_recommendations_of_rename (withRisk_findingId id (carriedRisk data)) hdb hvalid hfindings
      hrecs hfoundMem hfoundId hrename
    have hclosed : found.status = some "Closed" :=
      (hsync found hfoundMem).closed.2 fun rec hrec hof =>
        absurd (hof.trans hfoundId) (hnone rec hrec).1
    refine iff_of_true ⟨?_, ?_⟩ ?_
    · rw [hset, hclosed]
      refine iff_of_true rfl fun rec' hrec' hof => ?_
      obtain ⟨rec, hrec, rfl⟩ := List.mem_map.1 hrec'
      rw [withRisk_findingId] at hof
      exact absurd hof (hnone rec hrec).2
    · intro rec' hrec' hof
      obtain ⟨rec, hrec, rfl⟩ := List.mem_map.1 hrec'
      rw [withRisk_findingId] at hof
      exact absurd hof (hnone rec hrec).2
    · exact fun riskLevel _ => Or.inr fun rec hrec hof => absurd hof (hnone rec hrec).1

end AlsaqiBackend.Findings
