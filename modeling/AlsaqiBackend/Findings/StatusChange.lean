import AlsaqiBackend.Findings.Sync
import AlsaqiBackend.Lib.PgTransaction

/-!
# A change of the status of a finding

`AuditService.changeFindingStatus` writes the status of a finding and of its recommendations in one
transaction. The second write is attempted up to three times, inside of the transaction: once an attempt
has failed, PostgreSQL refuses the next ones. Whatever the transaction throws is caught and reported as
`syncSuccess: false`, and then the administrators and managers are notified.

`truthful_iff`: a call does what it should exactly when no answer to a `COMMIT` gets lost, the first
attempt succeeds if one of the three would, and nobody can be notified of a change that has not been
persisted.
-/

namespace AlsaqiBackend.Findings

open AlsaqiBackend.Lib TxM

/-! ## The transaction -/

/-- The update of a finding. -/
def updateStatus (checks : RowChecks) (id newStatus : String) (db : FindingTables) : Option FindingTables :=
  (db.updateFindings id fun row => { row with status := some newStatus }).checked checks

/-- The update of its recommendations. -/
def syncStatus (checks : RowChecks) (id recStatus : String) (db : FindingTables) : Option FindingTables :=
  (db.updateRecommendationsOf id fun row => { row with status := some recStatus }).checked checks

/-- The loop over the attempts, given by whether each fails for a reason of its own; it ends with
`lastError`. -/
def syncLoop (checks : RowChecks) (id recStatus : String) :
    List Bool → Option String → TxM FindingTables (Option String)
  | [], lastError => pure lastError
  | fails :: rest, _ =>
    -- A failed attempt is caught inside of the transaction, where no savepoint undoes it.
    tryCatch (statement fails fun db => (syncStatus checks id recStatus db).map (·, none))
      fun err => syncLoop checks id recStatus rest (some err)

/-- The body of the transaction. -/
def changeStatusBody (checks : RowChecks) (id newStatus : String) (attempts : List Bool) :
    TxM FindingTables Unit := do
  statement false fun db => (updateStatus checks id newStatus db).map (·, ())
  match FINDING_TO_RECOMMENDATION_STATUS newStatus with
  | none => pure ()
  | some recStatus =>
    match ← syncLoop checks id recStatus attempts none with
    | some lastError => throw lastError
    | none => pure ()

/-! ## The service -/

inductive StatusChangeError where
  | notFoundError
  | validationError (oldStatus : Option String) (newStatus : String)
  | forbiddenError
  /-- What `getUserPermissions` throws. -/
  | other (message : String)
  deriving DecidableEq, Repr

def StatusChangeError.message : StatusChangeError → String
  | notFoundError => "الملاحظة غير موجودة / Finding not found"
  | validationError oldStatus newStatus =>
    "انتقال حالة غير صالح من \"" ++ oldStatus.getD "null" ++ "\" إلى \"" ++ newStatus ++ "\" / " ++
      "Invalid status transition from \"" ++ oldStatus.getD "null" ++ "\" to \"" ++ newStatus ++ "\""
  | forbiddenError => "ليس لديك صلاحية الاعتماد لإغلاق هذه الملاحظة / " ++
      "You do not have APPROVE permission to close this finding"
  | other message => message

/-- What the other services and the database answer to a call. -/
structure StatusChangeEnv where
  checks : RowChecks
  /-- The effective permissions of the user include `APPROVE` on findings. -/
  mayApprove : Except String Bool
  /-- An attempt fails, whatever the transaction is like. -/
  attemptFails : Fin 3 → Bool
  commit : CommitAnswer
  adminIds : Except String (List String)
  managerIds : Except String (List String)
  createFails : Bool

/-- The `finding_status_changed` notification. -/
structure StatusNotification where
  targets : List String
  oldStatus : Option String
  newStatus : String
  actorId : String
  entityId : String
  deriving DecidableEq, Repr

/-- What a call returns or throws, and leaves behind. -/
structure StatusChange where
  syncSuccess : Except StatusChangeError Bool
  db : FindingTables
  notification : Option StatusNotification

namespace AuditService

variable (env : StatusChangeEnv)

/-- Step 6. A failure of it is caught. -/
def notifyStatus (finding : Finding) (newStatus userId findingId : String) : Option StatusNotification :=
  match env.adminIds, env.managerIds with
  | .ok adminIds, .ok managerIds =>
    let allTargetIds := (adminIds ++ managerIds).eraseDups
    if allTargetIds ≠ [] ∧ env.createFails = false then
      some ⟨allTargetIds, finding.status, newStatus, userId, findingId⟩
    else none
  | _, _ => none

def changeFindingStatus (findingId newStatus userId : String) (db : FindingTables) : StatusChange :=
  match db.finding findingId with
  | none => ⟨.error .notFoundError, db, none⟩
  | some finding =>
    if !allowedTransition finding.status (some newStatus) then
      ⟨.error (.validationError finding.status newStatus), db, none⟩
    else
      match if needsApproval finding.status (some newStatus) then env.mayApprove else .ok true with
      | .error e => ⟨.error (.other e), db, none⟩
      | .ok false => ⟨.error .forbiddenError, db, none⟩
      | .ok true =>
        let attempts := [env.attemptFails 0, env.attemptFails 1, env.attemptFails 2]
        let result := transactionWith env.commit (changeStatusBody env.checks findingId newStatus attempts) db
        -- The notification does not ask how the transaction has ended.
        ⟨.ok result.1.isOk, result.2, notifyStatus env finding newStatus userId findingId⟩

end AuditService

/-! ## What a call should do -/

/-- The finding has the new status, and its recommendations the one that goes with it. -/
def Carries (id newStatus : String) (db : FindingTables) : Prop :=
  (∀ row ∈ db.findings, row.id = some id → row.status = some newStatus) ∧
    ∀ rec ∈ db.recommendations, rec.findingId = some id →
      rec.status = FINDING_TO_RECOMMENDATION_STATUS newStatus

/-- The constraints of the database accept both updates, and this attempt at the second one does not
fail for a reason of its own. -/
def WouldSucceed (env : StatusChangeEnv) (id newStatus : String) (db : FindingTables) (attempt : Fin 3) : Prop :=
  setFindingStatus env.checks id newStatus db ≠ none ∧ env.attemptFails attempt = false

/-- What a call should come to. -/
structure Truthful (env : StatusChangeEnv) (id newStatus : String) (db : FindingTables) (change : StatusChange) :
    Prop where
  /-- All is changed and reported, or nothing is. -/
  whole : (Carries id newStatus change.db ∧ change.syncSuccess = .ok true) ∨
    (change.db = db ∧ change.syncSuccess = .ok false)
  /-- An attempt that would succeed, with a `COMMIT` that does, is a success. -/
  recovers : env.commit = .committed → (∃ attempt, WouldSucceed env id newStatus db attempt) →
    change.syncSuccess = .ok true
  /-- The notification is about a change that has been persisted. -/
  notified : change.notification ≠ none → Carries id newStatus change.db

/-- There is somebody to notify, and the notification can be created. -/
def StatusChangeEnv.Notifies (env : StatusChangeEnv) : Prop :=
  ∃ adminIds managerIds, env.adminIds = .ok adminIds ∧ env.managerIds = .ok managerIds ∧
    adminIds ++ managerIds ≠ [] ∧ env.createFails = false

/-- When a call does what it should. -/
structure FirstDecides (env : StatusChangeEnv) (id newStatus : String) (db : FindingTables) : Prop where
  /-- No `COMMIT` that has happened goes unanswered. -/
  answered : WouldSucceed env id newStatus db 0 → env.commit ≠ .lost
  /-- The second and the third attempt are not needed. -/
  first : env.commit = .committed → (∃ attempt, WouldSucceed env id newStatus db attempt) →
    WouldSucceed env id newStatus db 0
  /-- There is nobody to notify when nothing is persisted. -/
  silent : env.Notifies → WouldSucceed env id newStatus db 0 ∧ env.commit ≠ .failed

/-! ## The attempts -/

variable {checks : RowChecks} {id newStatus recStatus : String} {db db' : FindingTables}

/-- In an aborted transaction, none of the attempts succeeds. -/
theorem syncLoop_aborted (attempts : List Bool) (lastError : String) (tx : Tx FindingTables)
    (htx : tx.aborted = true) :
    ∃ e, syncLoop checks id recStatus attempts (some lastError) tx = (.ok (some e), tx) := by
  induction attempts generalizing lastError with
  | nil => exact ⟨lastError, rfl⟩
  | cons fails rest ih =>
    obtain ⟨e, he⟩ := ih abortedError
    refine ⟨e, ?_⟩
    unfold syncLoop
    rw [tryCatch_apply]
    unfold statement
    -- The statement is refused, and the loop catches that too.
    rw [if_pos htx]
    exact he

/-- A first attempt that succeeds ends the loop. -/
theorem syncLoop_ok {fails : Bool} {rest : List Bool} (hfails : fails = false)
    (hsync : syncStatus checks id recStatus db = some db') :
    syncLoop checks id recStatus (fails :: rest) none ⟨db, false⟩ = (.ok none, ⟨db', false⟩) := by
  unfold syncLoop
  rw [tryCatch_apply, hfails]
  simp [statement, hsync]

/-- And after one that fails, there is an error left at the end. -/
theorem syncLoop_failed {fails : Bool} {rest : List Bool}
    (hfails : ¬ (fails = false ∧ syncStatus checks id recStatus db ≠ none)) :
    ∃ e, syncLoop checks id recStatus (fails :: rest) none ⟨db, false⟩ = (.ok (some e), ⟨db, true⟩) := by
  -- The other attempts meet an aborted transaction.
  have hrest : ∃ e, syncLoop checks id recStatus rest (some "statement failed") ⟨db, true⟩ =
      (.ok (some e), ⟨db, true⟩) := syncLoop_aborted rest "statement failed" ⟨db, true⟩ rfl
  obtain ⟨e, he⟩ := hrest
  refine ⟨e, ?_⟩
  rw [syncLoop, tryCatch_apply]
  cases fails with
  | true => exact he
  | false =>
    have hnone : syncStatus checks id recStatus db = none := by
      by_contra hsome
      exact hfails ⟨rfl, hsome⟩
    simp only [statement, hnone, Option.map_none, Bool.false_eq_true, if_false]
    exact he

/-- Both updates, one after the other. -/
theorem setFindingStatus_eq_bind (hrec : FINDING_TO_RECOMMENDATION_STATUS newStatus = some recStatus) :
    setFindingStatus checks id newStatus db =
      (updateStatus checks id newStatus db).bind (syncStatus checks id recStatus) := by
  unfold setFindingStatus
  rw [hrec]
  rfl

/-- The transaction ends well when both updates are accepted and the first attempt does not fail. -/
theorem changeStatusBody_endsWell {fails : Bool} {rest : List Bool}
    (hrec : FINDING_TO_RECOMMENDATION_STATUS newStatus = some recStatus) (hfails : fails = false)
    (hset : setFindingStatus checks id newStatus db = some db') :
    EndsWell (changeStatusBody checks id newStatus (fails :: rest)) ⟨db, false⟩ () ⟨db', false⟩ := by
  rw [setFindingStatus_eq_bind hrec] at hset
  obtain ⟨db₁, hupdate, hsync⟩ := Option.bind_eq_some_iff.1 hset
  unfold changeStatusBody
  rw [endsWell_statement_bind]
  refine ⟨rfl, rfl, db₁, (), by simp [hupdate], ?_⟩
  have hloop : syncLoop checks id recStatus (fails :: rest) none ⟨db₁, false⟩ = (.ok none, ⟨db', false⟩) :=
    syncLoop_ok hfails hsync
  unfold EndsWell
  rw [hrec]
  dsimp only
  rw [bind_apply, hloop]
  exact ⟨rfl, rfl⟩

/-- Otherwise it throws. -/
theorem changeStatusBody_throws {fails : Bool} {rest : List Bool}
    (hrec : FINDING_TO_RECOMMENDATION_STATUS newStatus = some recStatus)
    (hnot : ¬ (setFindingStatus checks id newStatus db ≠ none ∧ fails = false)) :
    ∃ e, (changeStatusBody checks id newStatus (fails :: rest) ⟨db, false⟩).1 = .error e := by
  rw [setFindingStatus_eq_bind hrec] at hnot
  unfold changeStatusBody
  rw [bind_apply]
  cases hupdate : updateStatus checks id newStatus db with
  | none => exact ⟨"statement failed", by simp [statement, hupdate]⟩
  | some db₁ =>
    rw [hupdate] at hnot
    -- The error that is left after the loop is thrown by the body.
    have hloop : ∃ e, syncLoop checks id recStatus (fails :: rest) none ⟨db₁, false⟩ =
        (.ok (some e), ⟨db₁, true⟩) := syncLoop_failed fun h => hnot ⟨h.2, h.1⟩
    obtain ⟨e, he⟩ := hloop
    refine ⟨e, ?_⟩
    simp only [statement, hupdate, Option.map_some, Bool.false_eq_true, if_false, hrec]
    rw [bind_apply, he]
    rfl

/-! ## The tables -/

/-- What both updates write is what should be there. -/
theorem carries_of_setFindingStatus (hrec : FINDING_TO_RECOMMENDATION_STATUS newStatus = some recStatus)
    (hset : setFindingStatus checks id newStatus db = some db') : Carries id newStatus db' := by
  rw [setFindingStatus_eq hrec hset]
  unfold Carries
  constructor
  · intro row hrow hid
    obtain ⟨old, -, rfl⟩ := List.mem_map.1 hrow
    split_ifs at hid ⊢ with hold
    · rfl
    · exact absurd hid hold
  · intro rec hmem hof
    obtain ⟨old, -, rfl⟩ := List.mem_map.1 hmem
    split_ifs at hof ⊢ with hold
    · exact hrec.symm
    · exact absurd hof hold

/-- No transition of the table leads from a status to itself. -/
theorem allowedTransition_self (status : Option String) : allowedTransition status status = false := by
  cases status with
  | none => rfl
  | some status =>
    rw [Bool.eq_false_iff]
    intro hallowed
    -- Each of the lists of the table is without its own status.
    have hmem : status ∈ ALLOWED_FINDING_TRANSITIONS status := of_decide_eq_true hallowed
    unfold ALLOWED_FINDING_TRANSITIONS at hmem
    split at hmem
    · exact absurd hmem (by decide)
    · exact absurd hmem (by decide)
    · exact absurd hmem (by decide)
    · cases hmem

/-- And what was there before is not. -/
theorem not_carries {row : Finding} (hrow : db.finding id = some row)
    (hallowed : allowedTransition row.status (some newStatus) = true) : ¬ Carries id newStatus db := by
  intro hcarries
  obtain ⟨hmem, hid⟩ := finding_eq_some hrow
  -- The finding would have the new status already.
  rw [hcarries.1 row hmem hid, allowedTransition_self] at hallowed
  cases hallowed

/-! ## A call -/

variable {env : StatusChangeEnv} {userId : String} {row : Finding}

theorem eraseDups_eq_nil {ids : List String} : ids.eraseDups = [] ↔ ids = [] := by
  cases ids with
  | nil => exact Iff.rfl
  | cons first rest => simp [List.eraseDups_cons]

theorem notifyStatus_ne_none_iff :
    AuditService.notifyStatus env row newStatus userId id ≠ none ↔ env.Notifies := by
  unfold AuditService.notifyStatus StatusChangeEnv.Notifies
  cases env.adminIds with
  | error e => simp
  | ok adminIds =>
    cases env.managerIds with
    | error e => simp
    | ok managerIds =>
      simp only [Except.ok.injEq, ne_eq, eraseDups_eq_nil]
      split_ifs with hsend
      · exact iff_of_true nofun ⟨_, _, rfl, rfl, hsend⟩
      · refine iff_of_false (fun h => h rfl) ?_
        rintro ⟨_, _, rfl, rfl, h⟩
        exact hsend h

/-- A call that gets past its checks. -/
theorem changeFindingStatus_eq (hrow : db.finding id = some row)
    (hallowed : allowedTransition row.status (some newStatus) = true)
    (hmay : needsApproval row.status (some newStatus) = true → env.mayApprove = .ok true) :
    AuditService.changeFindingStatus env id newStatus userId db =
      let result := transactionWith env.commit (changeStatusBody env.checks id newStatus
        [env.attemptFails 0, env.attemptFails 1, env.attemptFails 2]) db
      ⟨.ok result.1.isOk, result.2, AuditService.notifyStatus env row newStatus userId id⟩ := by
  have happroved : (if needsApproval row.status (some newStatus) then env.mayApprove else .ok true) =
      .ok true := by
    split_ifs with hneeds
    · exact hmay hneeds
    · rfl
  unfold AuditService.changeFindingStatus
  simp only [hrow, hallowed, happroved, Bool.not_true, Bool.false_eq_true, if_false]

section Outcome

variable {result : Except String Unit × FindingTables} {notification : Option StatusNotification}

/-- The first attempt succeeds, so that the `COMMIT` is what is left. -/
theorem truthful_iff_of_first (hold : ¬ Carries id newStatus db) (hnew : Carries id newStatus db')
    (hfirst : WouldSucceed env id newStatus db 0)
    (hdb : result.2 = if env.commit = .failed then db else db')
    (hok : result.1.isOk = true ↔ env.commit = .committed) (hnotify : notification ≠ none ↔ env.Notifies) :
    Truthful env id newStatus db ⟨.ok result.1.isOk, result.2, notification⟩ ↔
      FirstDecides env id newStatus db := by
  constructor
  · intro h
    refine ⟨fun _ hlost => ?_, fun _ _ => hfirst, fun hsend => ⟨hfirst, fun hfailed => ?_⟩⟩
    · rcases h.whole with ⟨-, htrue⟩ | ⟨hsame, -⟩
      · have hcommit := hok.1 (Except.ok.inj htrue)
        rw [hcommit] at hlost
        cases hlost
      · -- The new statuses are there, and the caller is told that they are not.
        rw [if_neg (by rw [hlost]; decide)] at hdb
        have hkept : db' = db := hdb.symm.trans hsame
        exact hold (hkept ▸ hnew)
    -- After a failed `COMMIT` the notification is about the old statuses.
    · have hcarries := h.notified (hnotify.2 hsend)
      dsimp only at hcarries
      rw [hdb, if_pos hfailed] at hcarries
      exact hold hcarries
  · intro h
    have hanswered := h.answered hfirst
    by_cases hfailed : env.commit = .failed
    · rw [if_pos hfailed] at hdb
      have hfalse : result.1.isOk = false := by
        rw [Bool.eq_false_iff, ne_eq, hok, hfailed]
        decide
      refine ⟨Or.inr ⟨hdb, congrArg _ hfalse⟩, fun hcommit => ?_, fun hsome => ?_⟩
      · rw [hfailed] at hcommit
        cases hcommit
      · exact absurd hfailed (h.silent (hnotify.1 hsome)).2
    · have hcommitted : env.commit = .committed := by
        cases hcommit : env.commit with
        | committed => rfl
        | failed => exact absurd hcommit hfailed
        -- What is left is an answered `COMMIT`.
        | lost => exact absurd hcommit hanswered
      rw [if_neg hfailed] at hdb
      have hcarries : Carries id newStatus result.2 := hdb ▸ hnew
      have htrue : result.1.isOk = true := hok.2 hcommitted
      exact ⟨Or.inl ⟨hcarries, congrArg _ htrue⟩, fun _ _ => congrArg _ htrue, fun _ => hcarries⟩

/-- It does not, and all is rolled back. -/
theorem truthful_iff_of_not_first (hold : ¬ Carries id newStatus db)
    (hfirst : ¬ WouldSucceed env id newStatus db 0) (hdb : result.2 = db) (hok : result.1.isOk = false)
    (hnotify : notification ≠ none ↔ env.Notifies) :
    Truthful env id newStatus db ⟨.ok result.1.isOk, result.2, notification⟩ ↔
      FirstDecides env id newStatus db := by
  constructor
  · intro h
    refine ⟨fun hwould => absurd hwould hfirst, fun hcommit hsome => ?_, fun hsend => ?_⟩
    -- A later attempt would succeed, and the call has failed.
    · have htrue := Except.ok.inj (h.recovers hcommit hsome)
      rw [hok] at htrue
      cases htrue
    · have hcarries := h.notified (hnotify.2 hsend)
      dsimp only at hcarries
      rw [hdb] at hcarries
      exact absurd hcarries hold
  · intro h
    refine ⟨Or.inr ⟨hdb, congrArg _ hok⟩, fun hcommit hsome => ?_, fun hsome => ?_⟩
    · exact absurd (h.first hcommit hsome) hfirst
    · exact absurd (h.silent (hnotify.1 hsome)).1 hfirst

end Outcome

/-- A call that gets past its checks does what it should exactly when the first attempt decides: a
`COMMIT` that has happened is answered, the later attempts are not needed, and nobody is told of what
has not been persisted. -/
theorem truthful_iff (hrow : db.finding id = some row)
    (hallowed : allowedTransition row.status (some newStatus) = true)
    (hmay : needsApproval row.status (some newStatus) = true → env.mayApprove = .ok true) :
    Truthful env id newStatus db (AuditService.changeFindingStatus env id newStatus userId db) ↔
      FirstDecides env id newStatus db := by
  obtain ⟨-, recStatus, hrec, -⟩ := allowedTransition_spec hallowed
  have hold : ¬ Carries id newStatus db := not_carries hrow hallowed
  rw [changeFindingStatus_eq hrow hallowed hmay]
  by_cases hfirst : WouldSucceed env id newStatus db 0
  · obtain ⟨db', hset⟩ := Option.ne_none_iff_exists'.1 hfirst.1
    have hends : EndsWell (changeStatusBody env.checks id newStatus
        [env.attemptFails 0, env.attemptFails 1, env.attemptFails 2]) ⟨db, false⟩ () ⟨db', false⟩ :=
      changeStatusBody_endsWell hrec hfirst.2 hset
    obtain ⟨hdb, hok⟩ := transactionWith_of_endsWell hends
    exact truthful_iff_of_first hold (carries_of_setFindingStatus hrec hset) hfirst hdb hok
      notifyStatus_ne_none_iff
  · have hthrows : ∃ e, (changeStatusBody env.checks id newStatus
        [env.attemptFails 0, env.attemptFails 1, env.attemptFails 2] ⟨db, false⟩).1 = .error e :=
      changeStatusBody_throws hrec hfirst
    obtain ⟨e, he⟩ := hthrows
    obtain ⟨hdb, hok⟩ := transactionWith_of_throw he
    exact truthful_iff_of_not_first hold hfirst hdb hok notifyStatus_ne_none_iff

/-- The first attempt times out, and the others would not. -/
def oneTimeout : StatusChangeEnv where
  checks := schemaChecks
  mayApprove := .ok false
  attemptFails attempt := attempt = 0
  commit := .committed
  adminIds := .ok ["admin"]
  managerIds := .ok []
  createFails := false

/-- Where none of the attempts fails, the call does what it should. -/
theorem truthful_open : Truthful { oneTimeout with attemptFails := fun _ => false } "f" "In Progress"
    (oneFinding "Open") (AuditService.changeFindingStatus { oneTimeout with attemptFails := fun _ => false } "f"
      "In Progress" "u" (oneFinding "Open")) ↔
    FirstDecides { oneTimeout with attemptFails := fun _ => false } "f" "In Progress" (oneFinding "Open") :=
  have hrow : (oneFinding "Open").finding "f" =
      some ⟨some "f", some "p", some "owner", some "Open", some "High", none⟩ := by decide +kernel
  truthful_iff hrow (by decide +kernel) (by decide +kernel)

/-- After one timeout the status stays, although the next attempt would succeed, and the administrator
is told that it has changed. -/
theorem rolled_back_and_notified : WouldSucceed oneTimeout "f" "In Progress" (oneFinding "Open") 1 ∧
    (AuditService.changeFindingStatus oneTimeout "f" "In Progress" "u" (oneFinding "Open")).notification ≠ none ∧
    ¬ Truthful oneTimeout "f" "In Progress" (oneFinding "Open")
      (AuditService.changeFindingStatus oneTimeout "f" "In Progress" "u" (oneFinding "Open")) := by
  have hwould : WouldSucceed oneTimeout "f" "In Progress" (oneFinding "Open") 1 := by
    constructor
    · decide +kernel
    · decide
  have hfalse : (AuditService.changeFindingStatus oneTimeout "f" "In Progress" "u"
      (oneFinding "Open")).syncSuccess = .ok false := by rfl
  refine ⟨hwould, by decide +kernel, fun h => ?_⟩
  have htrue := h.recovers rfl ⟨1, hwould⟩
  rw [hfalse] at htrue
  cases htrue

end AlsaqiBackend.Findings
