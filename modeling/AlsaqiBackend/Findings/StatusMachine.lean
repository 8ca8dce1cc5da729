import AlsaqiBackend.Findings.Service
import AlsaqiBackend.Lib.Modify
import AlsaqiBackend.Lib.Run
import AlsaqiBackend.Permissions.Service

/-!
# The status of a finding

Three operations write the column `status` of `audit_findings`: `changeFindingStatus` checks the transition
and the permission to approve on what it has read before its transaction, `updateFinding` writes what the
body has, and `RecommendationService.update` closes a finding whatever its status is. A request stands
between two of its awaits; the queries of `getUserPermissions` are one step, and so are the writes of a
transaction with its `COMMIT`, since they lock the row of the finding.

`lawful_iff` says when every change of a status is a transition of the table, approved where it has to be:
exactly when a checked change still finds the status and the permission that were checked, a body has no
other status than the table allows, and the findings that are closed with their recommendations are those
that the table would let close.
-/

namespace AlsaqiBackend.Findings

open AlsaqiBackend.Lib AlsaqiBackend.Permissions

/-! ## Requests -/

/-- The next thing a request does. -/
inductive Work
  /-- `changeFindingStatus`, before `getUserPermissions`. -/
  | authorize (id oldStatus newStatus : String)
  /-- `changeFindingStatus`, before its transaction. -/
  | change (id oldStatus newStatus : String)
  /-- `updateFinding`, which has checked the owner. -/
  | save (id : String) (data : Body)
  /-- `RecommendationService.update`, before the `COUNT`. -/
  | count (id : String) (data : Body)
  /-- Before the status of the finding is read. -/
  | read (id : String) (data : Body) (findingId : String)
  /-- Before the end of its transaction. -/
  | close (id : String) (data : Body) (findingId : Option String)
  | done
  deriving DecidableEq, Repr

structure Request where
  userId : String
  work : Work
  deriving DecidableEq, Repr

structure FindingState where
  db : FindingTables
  permissions : PermissionTables
  requests : List Request

inductive FindingAction
  /-- The permissions change. -/
  | setPermissions (permissions : PermissionTables)
  | changeFindingStatus (id newStatus userId : String)
  | updateFinding (id : String) (body : Body) (userId : String)
  | updateRecommendation (id : String) (body : Body) (userId : String)
  /-- A request reads, and goes on. -/
  | advance (i : ℕ)
  /-- The transaction of a request is committed, or it fails. -/
  | commit (i : ℕ) (ok : Bool)

/-- The schema of the database, and how its driver returns a count. -/
structure Database where
  checks : RowChecks
  countAsText : Bool

/-- The user may approve findings now. -/
def MayApprove (permissions : PermissionTables) (userId : String) : Prop :=
  match permissions.getUserPermissions userId with
  | .ok set => set.has "AuditFindings" "Approve"
  | .error _ => False

instance (set : UserPermissionSet) (module action : String) : Decidable (set.has module action) := by
  unfold UserPermissionSet.has
  match h : set.permissions.get module with
  | none => exact isFalse (by simp)
  | some actions => exact decidable_of_iff (action ∈ actions) (by simp)

instance (permissions : PermissionTables) (userId : String) :
    Decidable (MayApprove permissions userId) := by
  unfold MayApprove
  split
  · infer_instance
  · infer_instance

variable (database : Database)

/-- What a request writes in its transaction; `none` when that is an error. -/
def Work.written (db : FindingTables) : Work → Option FindingTables
  | .change id _ newStatus => setFindingStatus database.checks id newStatus db
  | .save id data => saveFinding database.checks id data db
  | .close id data none => saveRecommendation database.checks id data db
  | .close id data (some findingId) =>
    (saveRecommendation database.checks id data db).bind (closeFinding database.checks findingId)
  | _ => none

/-- Where a request is after it has read; `none` when it has nothing to read. -/
def Work.afterRead (s : FindingState) (userId : String) : Work → Option Work
  | .authorize id oldStatus newStatus =>
    some (if MayApprove s.permissions userId then .change id oldStatus newStatus else .done)
  | .count id data =>
    -- The transaction sees its own update.
    match saveRecommendation database.checks id data s.db with
    | none => some .done
    | some db =>
      match findingToClose database.countAsText id data db with
      | none => some (.close id data none)
      | some findingId => some (.read id data findingId)
  | .read id data findingId =>
    some (.close id data (if canClose findingId s.db then some findingId else none))
  | _ => none

namespace FindingState

def init (db : FindingTables) (permissions : PermissionTables) : FindingState := ⟨db, permissions, []⟩

def start (s : FindingState) (userId : String) (work : Work) : FindingState :=
  { s with requests := s.requests ++ [⟨userId, work⟩] }

def setWork (s : FindingState) (i : ℕ) (work : Work) : FindingState :=
  { s with requests := s.requests.modify i fun request => { request with work } }

end FindingState

/-- One step; `none` when the action is not possible. -/
def findingStep (s : FindingState) : FindingAction → Option FindingState
  | .setPermissions permissions => some { s with permissions }
  | .changeFindingStatus id newStatus userId =>
    match s.db.finding id with
    | none => none
    | some row =>
      match row.status with
      | none => none
      | some oldStatus =>
        if allowedTransition row.status (some newStatus) then
          if needsApproval row.status (some newStatus) then
            some (s.start userId (.authorize id oldStatus newStatus))
          else some (s.start userId (.change id oldStatus newStatus))
        else none
  | .updateFinding id body userId =>
    match s.db.finding id with
    | none => none
    | some row =>
      if row.createdBy = some userId ∧ (findingData body).accepted then
        some (s.start userId (.save id (findingData body)))
      else none
  | .updateRecommendation id body userId =>
    if (recommendationData body).accepted then
      some (s.start userId (.count id (recommendationData body)))
    else none
  | .advance i =>
    match s.requests[i]? with
    | none => none
    | some request => (request.work.afterRead database s request.userId).map (s.setWork i)
  | .commit i ok =>
    match s.requests[i]? with
    | none => none
    | some request =>
      if ok then
        (request.work.written database s.db).map fun db => { s.setWork i .done with db }
      else some (s.setWork i .done)

/-! ## Lawful changes -/

/-- The status stays, or the table has the transition, and the user may approve it where that is needed. -/
def LawfulChange (permissions : PermissionTables) (userId : String) (status newStatus : Option String) :
    Prop :=
  status = newStatus ∨ (allowedTransition status newStatus = true ∧
    (needsApproval status newStatus = true → MayApprove permissions userId))

/-- The user whose request the action is about. -/
def actor (s : FindingState) : FindingAction → String
  | .changeFindingStatus _ _ userId => userId
  | .updateFinding _ _ userId => userId
  | .updateRecommendation _ _ userId => userId
  | .advance i => ((s.requests[i]?).map Request.userId).getD ""
  | .commit i _ => ((s.requests[i]?).map Request.userId).getD ""
  | .setPermissions _ => ""

/-- Every finding keeps its status in the step, or changes it lawfully. -/
def Lawful (s : FindingState) (a : FindingAction) : Prop :=
  ∀ t, findingStep database s a = some t → ∀ (k : ℕ) (row row' : Finding),
    s.db.findings[k]? = some row → t.db.findings[k]? = some row' →
      LawfulChange s.permissions (actor s a) row.status row'.status

/-- A checked change finds the status that it has checked, and still the permission, or the change from
the new status is lawful; the status of a body is a lawful change; and so is that of a finding that is
closed with its recommendations. -/
def Work.MayWrite (permissions : PermissionTables) (userId : String) (row : Finding) : Work → Prop
  | .change id oldStatus newStatus =>
    row.id = some id →
      if row.status = some oldStatus then
        needsApproval row.status (some newStatus) = true → MayApprove permissions userId
      else LawfulChange permissions userId row.status (some newStatus)
  | .save id data =>
    row.id = some id → ∀ status, data.assigned "status" = some status →
      LawfulChange permissions userId row.status status
  | .close _ _ (some findingId) =>
    row.id = some findingId → row.status = some "Closed" ∨ row.status = some "In Progress" ∨
      (row.status = some "Pending Approval" ∧ MayApprove permissions userId)
  | _ => True

/-- What is committed may be written. -/
def MayCommit (s : FindingState) : FindingAction → Prop
  | .commit i true =>
    ∀ request, s.requests[i]? = some request → ∀ row ∈ s.db.findings,
      request.work.MayWrite s.permissions request.userId row
  | _ => True

/-- A change that is checked is one of the table. -/
def Checked (s : FindingState) : Prop :=
  ∀ request ∈ s.requests, ∀ id oldStatus newStatus,
    (request.work = .authorize id oldStatus newStatus ∨ request.work = .change id oldStatus newStatus) →
      allowedTransition (some oldStatus) (some newStatus) = true

variable {database} {s t : FindingState}

/-! ## What is written -/

theorem checked_eq_some {checks : RowChecks} {db db' : FindingTables} (h : db.checked checks = some db') :
    db' = db := by
  unfold FindingTables.checked at h
  split_ifs at h
  exact (Option.some.inj h).symm

theorem getElem?_updateFindings {db : FindingTables} {id : String} {f : Finding → Finding} {k : ℕ}
    {row : Finding} (h : db.findings[k]? = some row) :
    (db.updateFindings id f).findings[k]? = some (if row.id = some id then f row else row) := by
  show (db.findings.map _)[k]? = _
  rw [List.getElem?_map, h, Option.map_some]

/-- The status of a row after its request has written. -/
def Work.newStatus (row : Finding) : Work → Option String
  | .change id _ newStatus => if row.id = some id then some newStatus else row.status
  | .save id data => if row.id = some id then data.set "status" row.status else row.status
  | .close _ _ (some findingId) => if row.id = some findingId then some "Closed" else row.status
  | _ => row.status

theorem setFindingStatus_findings {checks : RowChecks} {id newStatus : String} {db db' : FindingTables}
    (h : setFindingStatus checks id newStatus db = some db') :
    db'.findings = (db.updateFindings id fun row => { row with status := some newStatus }).findings := by
  unfold setFindingStatus at h
  obtain ⟨db₁, h₁, hrest⟩ := Option.bind_eq_some_iff.1 h
  obtain rfl := checked_eq_some h₁
  split at hrest
  · rw [← Option.some.inj hrest]
  · rw [checked_eq_some hrest]
    rfl

theorem saveFinding_findings {checks : RowChecks} {id : String} {data : Body} {db db' : FindingTables}
    (h : saveFinding checks id data db = some db') :
    db'.findings = (db.updateFindings id (Finding.setColumns data)).findings := by
  unfold saveFinding at h
  obtain ⟨db₁, h₁, hrest⟩ := Option.bind_eq_some_iff.1 h
  obtain rfl := checked_eq_some h₁
  split at hrest
  · split_ifs at hrest
    · rw [checked_eq_some hrest]
      rfl
    · rw [← Option.some.inj hrest]
  · rw [← Option.some.inj hrest]

theorem saveRecommendation_findings {checks : RowChecks} {id : String} {data : Body}
    {db db' : FindingTables} (h : saveRecommendation checks id data db = some db') :
    db'.findings = db.findings := by
  rw [checked_eq_some h]
  rfl

/-- What a request makes of the status of a finding. -/
theorem written_status {db db' : FindingTables} {work : Work} (h : work.written database db = some db')
    {k : ℕ} {row row' : Finding} (hrow : db.findings[k]? = some row)
    (hrow' : db'.findings[k]? = some row') : row'.status = work.newStatus row := by
  unfold Work.written at h
  split at h
  · rw [setFindingStatus_findings h, getElem?_updateFindings hrow] at hrow'
    obtain rfl := Option.some.inj hrow'
    simp only [Work.newStatus]
    split_ifs <;> rfl
  · rw [saveFinding_findings h, getElem?_updateFindings hrow] at hrow'
    obtain rfl := Option.some.inj hrow'
    simp only [Work.newStatus]
    split_ifs <;> rfl
  · rw [saveRecommendation_findings h, hrow] at hrow'
    obtain rfl := Option.some.inj hrow'
    rfl
  · obtain ⟨db₁, h₁, hclose⟩ := Option.bind_eq_some_iff.1 h
    rw [← saveRecommendation_findings h₁] at hrow
    rw [checked_eq_some hclose, getElem?_updateFindings hrow] at hrow'
    obtain rfl := Option.some.inj hrow'
    simp only [Work.newStatus]
    split_ifs <;> rfl
  · cases h

/-- And every finding is still there. -/
theorem written_length {db db' : FindingTables} {work : Work} (h : work.written database db = some db') :
    db'.findings.length = db.findings.length := by
  unfold Work.written at h
  split at h
  · rw [setFindingStatus_findings h]
    exact List.length_map ..
  · rw [saveFinding_findings h]
    exact List.length_map ..
  · rw [saveRecommendation_findings h]
  · obtain ⟨db₁, h₁, hclose⟩ := Option.bind_eq_some_iff.1 h
    rw [← saveRecommendation_findings h₁, checked_eq_some hclose]
    exact List.length_map ..
  · cases h

/-! ## The exact condition -/

theorem LawfulChange.refl (permissions : PermissionTables) (userId : String) (status : Option String) :
    LawfulChange permissions userId status status := Or.inl rfl

/-- The findings that the table lets close. -/
theorem lawfulChange_closed_iff {permissions : PermissionTables} {userId : String}
    {status : Option String} :
    LawfulChange permissions userId status (some "Closed") ↔
      status = some "Closed" ∨ status = some "In Progress" ∨
        (status = some "Pending Approval" ∧ MayApprove permissions userId) := by
  unfold LawfulChange
  refine or_congr_right ?_
  cases status with
  | none => simp [allowedTransition]
  | some status =>
    simp only [allowedTransition, needsApproval, ALLOWED_FINDING_TRANSITIONS, Option.any_some,
      Option.some.injEq, Bool.and_eq_true, decide_eq_true_eq, and_true]
    split <;> simp_all

theorem needsApproval_self (status : Option String) : needsApproval status status = false := by
  unfold needsApproval
  by_cases hpending : status = some "Pending Approval"
  · rw [hpending]
    rfl
  · simp [hpending]

/-- What a checked change may write is a lawful change. -/
theorem Work.mayWrite_iff {permissions : PermissionTables} {userId : String} {row : Finding}
    {work : Work} (hchecked : ∀ id oldStatus newStatus, work = .change id oldStatus newStatus →
      allowedTransition (some oldStatus) (some newStatus) = true) :
    work.MayWrite permissions userId row ↔
      LawfulChange permissions userId row.status (work.newStatus row) := by
  unfold Work.MayWrite
  split
  · rename_i id oldStatus newStatus
    simp only [Work.newStatus]
    by_cases hid : row.id = some id
    · simp only [hid, true_imp_iff, if_true]
      split_ifs with hstatus
      · -- The status is the one that was checked, so the table has the transition.
        have hallowed := hchecked id oldStatus newStatus rfl
        rw [← hstatus] at hallowed
        constructor
        · intro hmay
          exact Or.inr ⟨hallowed, hmay⟩
        · rintro (heq | ⟨-, hmay⟩) hneeds
          · rw [← heq, needsApproval_self] at hneeds
            cases hneeds
          · exact hmay hneeds
      · exact Iff.rfl
    · rw [if_neg hid]
      exact iff_of_true (fun h => absurd h hid) (.refl _ _ _)
  · rename_i id data
    simp only [Work.newStatus]
    split_ifs with hid
    · simp only [hid, true_imp_iff, Body.set]
      cases hassigned : data.assigned "status" with
      | none => exact iff_of_true nofun (.refl _ _ _)
      | some status => simp
    · exact iff_of_true (fun h => absurd h hid) (.refl _ _ _)
  · rename_i findingId
    simp only [Work.newStatus]
    split_ifs with hid
    · simp only [hid, true_imp_iff, lawfulChange_closed_iff]
    · exact iff_of_true (fun h => absurd h hid) (.refl _ _ _)
  · rename_i hchange hsave hclose
    have hstatus : work.newStatus row = row.status := by
      unfold Work.newStatus
      split
      · exact absurd rfl (hchange _ _ _)
      · exact absurd rfl (hsave _ _)
      · exact absurd rfl (hclose _ _ _)
      · rfl
    rw [hstatus]
    exact iff_of_true trivial (.refl _ _ _)

/-! ## Steps -/

/-- A change that a work is about is one of the table. -/
def Work.IsChecked (work : Work) : Prop :=
  ∀ id oldStatus newStatus,
    (work = .authorize id oldStatus newStatus ∨ work = .change id oldStatus newStatus) →
      allowedTransition (some oldStatus) (some newStatus) = true

theorem Work.isChecked_authorize {id oldStatus newStatus : String}
    (hallowed : allowedTransition (some oldStatus) (some newStatus) = true) :
    (Work.authorize id oldStatus newStatus).IsChecked := by
  rintro id' old new (heq | heq)
  · cases heq
    exact hallowed
  · cases heq

theorem Work.isChecked_change {id oldStatus newStatus : String}
    (hallowed : allowedTransition (some oldStatus) (some newStatus) = true) :
    (Work.change id oldStatus newStatus).IsChecked := by
  rintro id' old new (heq | heq)
  · cases heq
  · cases heq
    exact hallowed

/-- What follows a checked work is checked: only `authorize` goes on to a change, and to its own. -/
theorem Work.IsChecked.afterRead {work next : Work} {userId : String} (hwork : work.IsChecked)
    (h : work.afterRead database s userId = some next) : next.IsChecked := by
  intro id oldStatus newStatus hcase
  unfold Work.afterRead at h
  split at h
  · rename_i id' old new
    have hallowed := hwork id' old new (Or.inl rfl)
    have hnext := Option.some.inj h
    split_ifs at hnext
    · rw [← hnext] at hcase
      exact isChecked_change hallowed id oldStatus newStatus hcase
    · rw [← hnext] at hcase
      simp at hcase
  · split at h
    · obtain rfl := Option.some.inj h
      simp at hcase
    · split at h
      · obtain rfl := Option.some.inj h
        simp at hcase
      · obtain rfl := Option.some.inj h
        simp at hcase
  · obtain rfl := Option.some.inj h
    simp at hcase
  · cases h

/-- A step changes the permissions, starts a request whose change is checked, lets one go on to what follows
its work, or ends its transaction; the tables change with a commit only. -/
theorem findingStep_cases {a : FindingAction} (h : findingStep database s a = some t) :
    (∃ permissions, t = { s with permissions }) ∨
    (∃ userId work, work.IsChecked ∧ t = s.start userId work) ∨
    (∃ i request work, s.requests[i]? = some request ∧
      request.work.afterRead database s request.userId = some work ∧ t = s.setWork i work) ∨
    (∃ i request db, a = .commit i true ∧ s.requests[i]? = some request ∧
      request.work.written database s.db = some db ∧ t = { s.setWork i .done with db }) ∨
    ∃ i, t = s.setWork i .done := by
  cases a with
  | setPermissions permissions => exact Or.inl ⟨permissions, (Option.some.inj h).symm⟩
  | changeFindingStatus id newStatus userId =>
    simp only [findingStep] at h
    split at h
    · cases h
    · split at h
      · cases h
      · rename_i oldStatus hstatus
        -- The status was checked before the approval is asked for.
        split_ifs at h with hallowed hneeds
        · rw [hstatus] at hallowed
          exact Or.inr (Or.inl ⟨userId, _, Work.isChecked_authorize hallowed, (Option.some.inj h).symm⟩)
        · rw [hstatus] at hallowed
          exact Or.inr (Or.inl ⟨userId, _, Work.isChecked_change hallowed, (Option.some.inj h).symm⟩)
  | updateFinding id body userId =>
    simp only [findingStep] at h
    split at h
    · cases h
    · split_ifs at h
      exact Or.inr (Or.inl ⟨userId, _, by simp [Work.IsChecked], (Option.some.inj h).symm⟩)
  | updateRecommendation id body userId =>
    simp only [findingStep] at h
    split_ifs at h
    exact Or.inr (Or.inl ⟨userId, _, by simp [Work.IsChecked], (Option.some.inj h).symm⟩)
  | advance i =>
    simp only [findingStep] at h
    split at h
    · cases h
    · rename_i request hrequest
      obtain ⟨work, hwork, rfl⟩ := Option.map_eq_some_iff.1 h
      exact Or.inr (Or.inr (Or.inl ⟨i, request, work, hrequest, hwork, rfl⟩))
  | commit i ok =>
    simp only [findingStep] at h
    split at h
    · cases h
    · rename_i request hrequest
      split_ifs at h with hok
      · obtain ⟨db, hdb, rfl⟩ := Option.map_eq_some_iff.1 h
        exact Or.inr (Or.inr (Or.inr (Or.inl ⟨i, request, db, by rw [hok], hrequest, hdb, rfl⟩)))
      · exact Or.inr (Or.inr (Or.inr (Or.inr ⟨i, (Option.some.inj h).symm⟩)))

/-- A commit writes what its request has to write. -/
theorem findingStep_commit {i : ℕ} {request : Request} (hrequest : s.requests[i]? = some request)
    (h : findingStep database s (.commit i true) = some t) :
    request.work.written database s.db = some t.db := by
  simp only [findingStep, hrequest, if_true] at h
  obtain ⟨db, hdb, rfl⟩ := Option.map_eq_some_iff.1 h
  exact hdb

/-- No other step changes the tables. -/
theorem findingStep_db {a : FindingAction} (ha : ∀ i, a ≠ .commit i true)
    (h : findingStep database s a = some t) : t.db = s.db := by
  rcases findingStep_cases h with ⟨permissions, rfl⟩ | ⟨userId, work, -, rfl⟩ | ⟨i, request, work, -, -, rfl⟩ |
    ⟨i, request, db, hcommit, -⟩ | ⟨i, rfl⟩
  · rfl
  · rfl
  · rfl
  · exact absurd hcommit (ha i)
  · rfl

/-- A new request keeps that the changes are checked when its own is. -/
theorem Checked.start (hs : Checked s) {userId : String} {work : Work} (hwork : work.IsChecked) :
    Checked (s.start userId work) := by
  intro request hmem
  rcases List.mem_append.1 hmem with hold | hnew
  · exact hs request hold
  · rw [List.mem_singleton.1 hnew]
    exact hwork

/-- And so does a request that goes on. -/
theorem Checked.setWork (hs : Checked s) {i : ℕ} {work : Work} (hwork : work.IsChecked) :
    Checked (s.setWork i work) := by
  intro request hmem
  rcases mem_modify_cases hmem with hold | ⟨old, -, rfl⟩
  · exact hs request hold
  · exact hwork

theorem findingStep_checked (s : FindingState) (a : FindingAction) (t : FindingState) (hs : Checked s)
    (h : findingStep database s a = some t) : Checked t := by
  have hdone : ∀ i, Checked (s.setWork i .done) := fun i => hs.setWork (by simp [Work.IsChecked])
  rcases findingStep_cases h with ⟨permissions, rfl⟩ | ⟨userId, work, hwork, rfl⟩ |
    ⟨i, request, work, hrequest, hwork, rfl⟩ | ⟨i, request, db, -, -, -, rfl⟩ | ⟨i, rfl⟩
  · exact hs
  · exact hs.start hwork
  · have hrequestChecked : request.work.IsChecked := hs request (List.mem_of_getElem? hrequest)
    exact hs.setWork (hrequestChecked.afterRead hwork)
  · exact hdone i
  · exact hdone i

/-- A step is lawful exactly when what it commits may be written. -/
theorem lawful_step_iff (s : FindingState) (a : FindingAction) (t : FindingState) (hs : Checked s)
    (hstep : findingStep database s a = some t) : Lawful database s a ↔ MayCommit s a := by
  have hlawful : Lawful database s a ↔ ∀ (k : ℕ) (row row' : Finding), s.db.findings[k]? = some row →
      t.db.findings[k]? = some row' →
        LawfulChange s.permissions (actor s a) row.status row'.status := forall_step_iff hstep
  rw [hlawful]
  by_cases hcommit : ∃ i, a = .commit i true
  · obtain ⟨i, rfl⟩ := hcommit
    cases hrequest : s.requests[i]? with
    | none => simp [findingStep, hrequest] at hstep
    | some request =>
      have hwritten := findingStep_commit hrequest hstep
      have hmem := List.mem_of_getElem? hrequest
      have hactor : actor s (.commit i true) = request.userId := by simp [actor, hrequest]
      have hwork : ∀ id oldStatus newStatus, request.work = .change id oldStatus newStatus →
          allowedTransition (some oldStatus) (some newStatus) = true :=
        fun id oldStatus newStatus heq => hs request hmem id oldStatus newStatus (Or.inr heq)
      have hmay : MayCommit s (.commit i true) ↔ ∀ row ∈ s.db.findings,
          LawfulChange s.permissions request.userId row.status (request.work.newStatus row) := by
        simp only [MayCommit, hrequest, Option.some.injEq, forall_eq', Work.mayWrite_iff hwork]
      rw [hmay, hactor]
      constructor
      · intro h row hrow
        obtain ⟨k, hk⟩ := List.mem_iff_getElem?.1 hrow
        obtain ⟨row', hk'⟩ : ∃ row', t.db.findings[k]? = some row' := by
          have hlt := (List.getElem?_eq_some_iff.1 hk).1
          rw [← written_length hwritten] at hlt
          exact ⟨_, List.getElem?_eq_getElem hlt⟩
        rw [← written_status hwritten hk hk']
        exact h k row row' hk hk'
      · intro h k row row' hk hk'
        rw [written_status hwritten hk hk']
        exact h row (List.mem_of_getElem? hk)
  · have ha : ∀ i, a ≠ .commit i true := fun i hi => hcommit ⟨i, hi⟩
    have hdb := findingStep_db ha hstep
    refine iff_of_true (fun k row row' hk hk' => ?_) ?_
    · rw [hdb, hk] at hk'
      obtain rfl := Option.some.inj hk'
      exact .refl _ _ _
    · unfold MayCommit
      split
      · exact absurd rfl (ha _)
      · trivial

/-- Along a run every change of a status is lawful exactly when everything that is committed may be
written. -/
theorem lawful_iff (database : Database) (db : FindingTables) (permissions : PermissionTables)
    (as : List FindingAction) :
    Guarded (findingStep database) (Lawful database) (.init db permissions) as ↔
      Guarded (findingStep database) MayCommit (.init db permissions) as := by
  have hinit : Checked (.init db permissions) := nofun
  exact guarded_congr (fun s a t hs _ => findingStep_checked s a t hs) lawful_step_iff as hinit

/-- A finding of `owner`, and its recommendation. -/
def oneFinding (status : String) : FindingTables where
  findings := [⟨some "f", some "p", some "owner", some status, some "High", none⟩]
  recommendations := [⟨some "r", some "f", some "Open", some "High", none, none, none⟩]

/-- Nobody has permissions. -/
def noPermissions : PermissionTables := ⟨[], [], [], [], []⟩

/-- The owner closes the finding with `PUT`. -/
def closedByBody : List FindingAction :=
  [.updateFinding "f" [("status", .text "Closed")] "owner"]

/-- Its recommendation is set to Implemented. -/
def closedByRecommendation : List FindingAction :=
  [.updateRecommendation "r" [("status", .text "Implemented")] "owner", .advance 0, .advance 0]

/-- An open finding is closed with `PUT`, and one that waits for its approval with its recommendation, by a
user without permissions. -/
theorem closed_without_transition :
    (∃ s t, run (findingStep ⟨schemaChecks, true⟩) (.init (oneFinding "Open") noPermissions)
        closedByBody = some s ∧
      findingStep ⟨schemaChecks, true⟩ s (.commit 0 true) = some t ∧
      ¬ Lawful ⟨schemaChecks, true⟩ s (.commit 0 true)) ∧
    ∃ s t, run (findingStep ⟨migrationChecks, false⟩) (.init (oneFinding "Pending Approval") noPermissions)
        closedByRecommendation = some s ∧
      findingStep ⟨migrationChecks, false⟩ s (.commit 0 true) = some t ∧
      ¬ Lawful ⟨migrationChecks, false⟩ s (.commit 0 true) := by
  have hbody : ((run (findingStep ⟨schemaChecks, true⟩) (.init (oneFinding "Open") noPermissions)
      closedByBody).bind fun s => (findingStep ⟨schemaChecks, true⟩ s (.commit 0 true)).map fun t =>
        (s.permissions, s.db.findings, t.db.findings)) =
      some (noPermissions, (oneFinding "Open").findings, (oneFinding "Closed").findings) := by
    decide +kernel
  have hrecommendation : ((run (findingStep ⟨migrationChecks, false⟩)
      (.init (oneFinding "Pending Approval") noPermissions) closedByRecommendation).bind fun s =>
        (findingStep ⟨migrationChecks, false⟩ s (.commit 0 true)).map fun t =>
          (s.permissions, s.db.findings, t.db.findings)) =
      some (noPermissions, (oneFinding "Pending Approval").findings, (oneFinding "Closed").findings) := by
    decide +kernel
  have hnobody : ∀ userId, ¬ MayApprove noPermissions userId := fun userId h => h
  constructor
  · obtain ⟨s, hs, hlast⟩ := Option.bind_eq_some_iff.1 hbody
    obtain ⟨t, ht, hfields⟩ := Option.map_eq_some_iff.1 hlast
    simp only [Prod.mk.injEq] at hfields
    obtain ⟨-, hbefore, hafter⟩ := hfields
    refine ⟨s, t, hs, ht, fun hlawful => ?_⟩
    have hchange := hlawful t ht 0 _ _ (by rw [hbefore]; rfl) (by rw [hafter]; rfl)
    rcases hchange with heq | ⟨hallowed, -⟩
    · exact absurd heq (by decide)
    · exact absurd hallowed (by decide)
  · obtain ⟨s, hs, hlast⟩ := Option.bind_eq_some_iff.1 hrecommendation
    obtain ⟨t, ht, hfields⟩ := Option.map_eq_some_iff.1 hlast
    simp only [Prod.mk.injEq] at hfields
    obtain ⟨hpermissions, hbefore, hafter⟩ := hfields
    refine ⟨s, t, hs, ht, fun hlawful => ?_⟩
    have hchange := hlawful t ht 0 _ _ (by rw [hbefore]; rfl) (by rw [hafter]; rfl)
    rw [hpermissions] at hchange
    rcases hchange with heq | ⟨-, happroved⟩
    · exact absurd heq (by decide)
    · exact hnobody _ (happroved rfl)

end AlsaqiBackend.Findings
