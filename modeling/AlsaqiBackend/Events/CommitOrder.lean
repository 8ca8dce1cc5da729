import AlsaqiBackend.Events.Notification

/-!
# Events of operations that have committed

Which operations deliver an event only for a change that is committed. `createUser` does, and what
`BaseService` creates, updates or marks as deleted. An event that is sent inside of the transaction comes
before the `COMMIT`, but for `createFinding` when its notification has committed the finding; and an
`UPDATE` or a `DELETE` whose result is not looked at announces a change that it may not have made.

`committedFirst_iff` says it for each operation, whatever fails and wherever it is called.
-/

namespace AlsaqiBackend.Events

open AlsaqiBackend.Lib TxM
open AlsaqiBackend.Users (UserData orNull)
open AlsaqiBackend.Passwords (PolicySettings validatePasswordPolicy)

section

variable {world : World} {caller : Caller} {event : String} {fn : SessionM String Unit}
  {body : TxM (List String) Unit}

/-! ## Bodies that make their change -/

/-- An event that is sent behind the `COMMIT` of a body that makes its change. -/
theorem committedFirst_sendAfterCommit_of (hbody : Ensures body fun tx => tx.aborted = false ∧ event ∈ tx.db) :
    CommittedFirst (after (sendAfterCommit world event body) (start caller)) :=
  (committedFirst_sendAfterCommit (hbody.mono fun _ h => h.1)).2 fun _ tx hok => (hbody _ _ tx hok).2

/-- The same with the buffer. -/
theorem committedFirst_enqueueInside_of (hbody : Ensures body fun tx => tx.aborted = false ∧ event ∈ tx.db) :
    CommittedFirst (after (enqueueInside world event body) (start caller)) :=
  (committedFirst_enqueueInside (hbody.mono fun _ h => h.1)).2 fun _ tx hok => (hbody _ _ tx hok).2

/-- An operation that checks something first. -/
theorem committedFirst_check {condition : Bool} {error : String} :
    CommittedFirst (after (do check condition error; fn) (start caller)) ↔
      (condition = true → CommittedFirst (after fn (start caller))) := by
  have hstart : (start caller).delivered = [] := by cases caller <;> rfl
  cases condition with
  | true => exact ⟨fun h _ => h, fun h => h rfl⟩
  | false => exact iff_of_true (.of_delivered hstart) fun h => nomatch h

theorem ensures_insertUser (left attempt : ℕ) :
    Ensures (insertUser world left attempt) fun tx => tx.aborted = false ∧ "user.created" ∈ tx.db := by
  induction left generalizing attempt with
  | zero => exact ensures_insert
  | succ left ih =>
    refine Ensures.tryCatch ensures_insert fun insertErr => ?_
    split_ifs
    · exact ih (attempt + 1)
    · exact .throw insertErr

theorem committedFirst_createUser (data : UserData) :
    CommittedFirst (after (createUser world data) (start caller)) :=
  committedFirst_sendAfterCommit_of <| .bind fun _ => .bind fun _ => .bind fun _ => .bind fun _ =>
    .bind fun _ => .bind fun _ => ensures_insertUser _ _

theorem committedFirst_create (tableName : String) (body : List Field) :
    CommittedFirst (after (create world tableName body) (start caller)) :=
  committedFirst_check.2 fun _ => committedFirst_enqueueInside_of <|
    .bind fun _ => .bind fun _ => .bind fun _ => .bind fun _ => ensures_insert

theorem committedFirst_update (tableName id : String) (body : List Field) :
    CommittedFirst (after (update world tableName id body) (start caller)) :=
  committedFirst_check.2 fun _ => committedFirst_enqueueInside_of <|
    .bind fun _ => .bind fun _ => .bind fun _ => ensures_change_require

/-! ## Bodies that may not find their row -/

/-- A body that returns exactly when `reaches` says so, and then has made its change when `found`. -/
theorem forall_mem_iff {reaches : Prop} {found : Bool} (hbody : Ensures body fun tx => tx.aborted = false)
    (hends : ∀ tx, EndsWell body ⟨[], false⟩ () tx ↔
      reaches ∧ tx = ⟨if found then [event] else [], false⟩) :
    (∀ tx, body ⟨[], false⟩ = (.ok (), tx) → event ∈ tx.db) ↔ (reaches → found = true) := by
  constructor
  · intro h hreaches
    have hmem := h _ (hbody.endsWell_iff.1 ((hends _).2 ⟨hreaches, rfl⟩))
    cases found with
    | true => rfl
    | false => exact absurd hmem List.not_mem_nil
  · intro h tx hok
    obtain ⟨hreaches, rfl⟩ := (hends tx).1 (hbody.endsWell_iff.2 hok)
    rw [if_pos (h hreaches)]
    exact List.mem_singleton_self event

theorem committedFirst_sendAfterCommit_iff {reaches : Prop} {found : Bool}
    (hbody : Ensures body fun tx => tx.aborted = false)
    (hends : ∀ tx, EndsWell body ⟨[], false⟩ () tx ↔
      reaches ∧ tx = ⟨if found then [event] else [], false⟩) :
    CommittedFirst (after (sendAfterCommit world event body) (start caller)) ↔
      (Dispatches world caller → reaches → found = true) :=
  (committedFirst_sendAfterCommit hbody).trans (imp_congr_right fun _ => forall_mem_iff hbody hends)

theorem committedFirst_enqueueInside_iff {reaches : Prop} {found : Bool}
    (hbody : Ensures body fun tx => tx.aborted = false)
    (hends : ∀ tx, EndsWell body ⟨[], false⟩ () tx ↔
      reaches ∧ tx = ⟨if found then [event] else [], false⟩) :
    CommittedFirst (after (enqueueInside world event body) (start caller)) ↔
      (Dispatches world caller → reaches → found = true) :=
  (committedFirst_enqueueInside hbody).trans (imp_congr_right fun _ => forall_mem_iff hbody hends)

theorem ensures_pure_of {α β : Type} {m : TxM (List String) α} {b : β} {P : Tx (List String) → Prop}
    (hm : Ensures m P) : Ensures (m >>= fun _ => pure b) P :=
  .bind_of hm fun a tx c tx' h hrest => by rwa [← (Prod.mk.inj hrest).2]

/-- The password of an update passes; without one nothing is checked. -/
def PasswordPasses (world : World) (password : String) : Prop :=
  password ≠ "" → ∃ found, world.answer .passwordSettings = .rows found ∧
    validatePasswordPolicy (if found then some world.settings else none) password = .ok ()

theorem endsWell_readSettings {settings : Option PolicySettings} {tx : Tx (List String)} :
    EndsWell (readSettings world) ⟨[], false⟩ settings tx ↔ ∃ found,
      world.answer .passwordSettings = .rows found ∧
        settings = (if found then some world.settings else none) ∧ tx = ⟨[], false⟩ := by
  unfold readSettings
  rw [endsWell_bind fun _ => .pure]
  constructor
  · rintro ⟨found, tx', hask, hrest⟩
    rw [endsWell_attempt abortsOnThrow_ask, endsWell_ask] at hask
    obtain ⟨-, hanswer, rfl⟩ := hask
    obtain ⟨-, rfl, rfl⟩ := endsWell_pure.1 hrest
    exact ⟨found, hanswer, rfl, rfl⟩
  · rintro ⟨found, hanswer, rfl, rfl⟩
    have hask : EndsWell (ask world.toEnvironment .passwordSettings : TxM (List String) Bool) ⟨[], false⟩ found ⟨[], false⟩ :=
      endsWell_ask.2 ⟨rfl, hanswer, rfl⟩
    exact ⟨found, _, (endsWell_attempt abortsOnThrow_ask).2 hask, endsWell_pure.2 ⟨rfl, rfl, rfl⟩⟩

theorem endsWell_checkPassword {password : String} {tx : Tx (List String)} :
    EndsWell (checkPassword world password) ⟨[], false⟩ () tx ↔
      PasswordPasses world password ∧ tx = ⟨[], false⟩ := by
  unfold checkPassword PasswordPasses
  by_cases hempty : password = ""
  · rw [if_pos hempty, endsWell_pure]
    exact ⟨fun h => ⟨fun hne => absurd hempty hne, h.2.2⟩, fun h => ⟨rfl, rfl, h.2⟩⟩
  · rw [if_neg hempty, endsWell_bind fun _ => .ofExcept _]
    constructor
    · rintro ⟨settings, tx', hread, hrest⟩
      obtain ⟨found, hanswer, rfl, rfl⟩ := endsWell_readSettings.1 hread
      obtain ⟨-, hpolicy, htx⟩ := endsWell_ofExcept.1 hrest
      exact ⟨fun _ => ⟨found, hanswer, hpolicy⟩, htx⟩
    · rintro ⟨hpasses, rfl⟩
      obtain ⟨found, hanswer, hpolicy⟩ := hpasses hempty
      exact ⟨_, _, endsWell_readSettings.2 ⟨found, hanswer, rfl, rfl⟩,
        endsWell_ofExcept.2 ⟨rfl, hpolicy, rfl⟩⟩

/-- The `UPDATE` of `updateUser` is reached, and succeeds. -/
structure UpdatesUser (world : World) (data : UserData) : Prop where
  selects : world.finds .selectUser = true
  readsRole : world.succeeds .roleByName = true
  password : PasswordPasses world data.password
  updates : world.succeeds .updateUser = true

theorem committedFirst_updateUser (data : UserData) :
    CommittedFirst (after (updateUser world data) (start caller)) ↔
      (Dispatches world caller → UpdatesUser world data → world.finds .updateUser = true) := by
  refine committedFirst_sendAfterCommit_iff ?_ fun tx => ?_
  · exact .bind fun _ => .bind fun _ => .bind fun _ => .bind fun _ => ensures_pure_of ensures_change
  · rw [endsWell_ask_require_bind, endsWell_ask_any_bind, endsWell_bind fun _ => ?_]
    constructor
    · rintro ⟨hselects, hreadsRole, _, _, hpassword, hrest⟩
      obtain ⟨hpasses, rfl⟩ := endsWell_checkPassword.1 hpassword
      obtain ⟨hupdates, hend⟩ := endsWell_change_any_bind.1 hrest
      exact ⟨⟨hselects, hreadsRole, hpasses, hupdates⟩, endsWell_pure_unit.1 hend⟩
    · rintro ⟨⟨hselects, hreadsRole, hpasses, hupdates⟩, htx⟩
      exact ⟨hselects, hreadsRole, (), _, endsWell_checkPassword.2 ⟨hpasses, rfl⟩,
        endsWell_change_any_bind.2 ⟨hupdates, endsWell_pure_unit.2 htx⟩⟩
    · exact (StaysAborted.query _).bind fun _ => .pure

theorem endsWell_validateIdentifiers_bind {keys changes : List String} {f : Unit → TxM (List String) Unit}
    {tx : Tx (List String)} : EndsWell (validateIdentifiers keys >>= f) ⟨changes, false⟩ () tx ↔
      (∀ key ∈ keys, isIdentifier key = true) ∧ EndsWell (f ()) ⟨changes, false⟩ () tx := by
  unfold validateIdentifiers
  cases hfind : keys.find? fun key => !isIdentifier key with
  | none =>
    have hall : ∀ key ∈ keys, isIdentifier key = true := by
      intro key hkey
      have hnot := List.find?_eq_none.1 hfind key hkey
      rwa [Bool.not_eq_true, Bool.not_eq_false'] at hnot
    exact (and_iff_right hall).symm
  | some key =>
    have hbad : isIdentifier key = false := by
      have hnot := List.find?_some hfind
      rwa [Bool.not_eq_true'] at hnot
    refine iff_of_false (fun h => nomatch congrArg Prod.fst h.1) fun h => ?_
    rw [h.1 key (List.mem_of_find?_eq_some hfind)] at hbad
    cases hbad

/-- The `UPDATE` of `updateFinding` is reached, and succeeds with the statement behind it. -/
structure UpdatesFinding (world : World) (body : List Field) (userId : String) : Prop where
  selects : world.finds .selectFinding = true
  owner : world.createdBy = some userId
  identifiers : ∀ key ∈ (updatedFields body).map Field.name, isIdentifier key = true
  fields : updatedFields body ≠ []
  updates : world.succeeds .updateFinding = true
  recommendations : isTruthy (updatedFields body) "risk_level" = true →
    world.succeeds .updateRecommendations = true

/-- The last part of `updateFinding`. -/
theorem endsWell_syncRiskLevel {condition : Bool} {changes : List String} {tx : Tx (List String)} :
    EndsWell (if condition then do
        let _ ← ask world.toEnvironment .updateRecommendations
      else pure ()) ⟨changes, false⟩ () tx ↔
      (condition = true → world.succeeds .updateRecommendations = true) ∧ tx = ⟨changes, false⟩ := by
  cases condition with
  | true =>
    rw [if_pos rfl, endsWell_ask_any_bind, endsWell_pure_unit]
    exact ⟨fun h => ⟨fun _ => h.1, h.2⟩, fun h => ⟨h.1 rfl, h.2⟩⟩
  | false =>
    rw [if_neg Bool.false_ne_true, endsWell_pure_unit]
    exact ⟨fun h => ⟨(fun hfalse => nomatch hfalse), h⟩, fun h => h.2⟩

theorem committedFirst_updateFinding (body : List Field) (userId : String) :
    CommittedFirst (after (updateFinding world body userId) (start caller)) ↔
      (Dispatches world caller → UpdatesFinding world body userId → world.finds .updateFinding = true) := by
  refine committedFirst_sendAfterCommit_iff ?_ fun tx => ?_
  · refine .bind fun _ => .bind fun _ => .bind fun _ => .bind fun _ => .bind fun _ =>
      .bind_of ensures_change fun _ tx u tx' hwell hrest => ?_
    by_cases hriskLevel : isTruthy (updatedFields body) "risk_level"
    · rw [if_pos hriskLevel] at hrest
      exact ensures_pure_of ensures_ask tx u tx' hrest
    · rw [if_neg hriskLevel] at hrest
      rwa [← (Prod.mk.inj hrest).2]
  · rw [endsWell_ask_require_bind, endsWell_require_bind, endsWell_validateIdentifiers_bind,
      endsWell_require_bind, endsWell_change_any_bind, endsWell_syncRiskLevel, decide_eq_true_iff,
      decide_eq_true_iff]
    constructor
    · rintro ⟨hselects, howner, hidentifiers, hfields, hupdates, hrecommendations, htx⟩
      exact ⟨⟨hselects, howner, hidentifiers, hfields, hupdates, hrecommendations⟩, htx⟩
    · rintro ⟨⟨hselects, howner, hidentifiers, hfields, hupdates, hrecommendations⟩, htx⟩
      exact ⟨hselects, howner, hidentifiers, hfields, hupdates, hrecommendations, htx⟩

/-- The physical `DELETE` is reached, and succeeds. -/
structure DeletesRow (world : World) (tableName : String) : Prop where
  identifier : isIdentifier tableName = true
  physical : tableName ∉ SOFT_DELETE_TABLES
  deletes : world.succeeds .deleteRow = true

theorem committedFirst_delete (tableName id : String) :
    CommittedFirst (after (delete world tableName id) (start caller)) ↔
      (Dispatches world caller → DeletesRow world tableName → world.finds .deleteRow = true) := by
  unfold delete
  rw [committedFirst_check]
  by_cases hsoft : SOFT_DELETE_TABLES.contains tableName
  · rw [if_pos hsoft]
    refine iff_of_true (fun _ => committedFirst_enqueueInside_of ensures_change_require) fun _ hdeletes => ?_
    exact absurd (List.contains_iff_mem.1 hsoft) hdeletes.physical
  · rw [if_neg hsoft, committedFirst_enqueueInside_iff (ensures_pure_of ensures_change) fun tx => by
      rw [endsWell_change_any_bind, endsWell_pure_unit]
      rfl]
    constructor
    · exact fun h hdispatches hdeletes => h hdeletes.identifier hdispatches hdeletes.deletes
    · intro h hidentifier hdispatches hdeletes
      exact h hdispatches ⟨hidentifier, fun hmem => hsoft (List.contains_iff_mem.2 hmem), hdeletes⟩

/-! ## Events inside of the transaction -/

/-- A body with statements only has committed nothing when the event is sent. -/
theorem committedFirst_sendInside_iff {reaches : Prop} (hbody : Ensures body fun tx => tx.aborted = false)
    (hends : (∃ tx, EndsWell body ⟨[], false⟩ () tx) ↔ reaches) :
    CommittedFirst (after (sendInside world event (onConnection body)) (start caller)) ↔
      (Opens world caller → world.delivers = true → ¬ reaches) := by
  have hquiet : (after (onConnection body) inside).delivered = [] ∧
      (after (onConnection body) inside).buffer = some [] := by
    unfold after
    rw [onConnection_of_tx rfl]
    match body ⟨[], false⟩ with
    | (.ok (), tx) => exact ⟨rfl, rfl⟩
    | (.error e, tx) => exact ⟨rfl, rfl⟩
  rw [committedFirst_sendInside hquiet.1 hquiet.2]
  refine imp_congr_right fun _ => imp_congr_right fun _ => ?_
  rw [← hends, onConnection_of_tx rfl]
  constructor
  · rintro h ⟨tx, htx⟩
    rw [htx.1] at h
    exact List.not_mem_nil (h _ rfl)
  · intro h t ht
    match hresult : body ⟨[], false⟩ with
    | (.ok (), tx) => exact absurd ⟨tx, hbody.endsWell_iff.2 hresult⟩ h
    | (.error e, tx) =>
      rw [hresult] at ht
      cases ht

/-- The event of `setStatus` is reached. -/
structure SetsStatus (world : World) : Prop where
  selects : world.finds .selectUser = true
  updates : world.succeeds .updateStatus = true

theorem committedFirst_setStatus : CommittedFirst (after (setStatus world) (start caller)) ↔
    (Opens world caller → world.delivers = true → ¬ SetsStatus world) := by
  refine committedFirst_sendInside_iff ?_ ?_
  · exact .bind fun _ => .bind fun _ => ensures_pure_of ensures_change
  · simp only [endsWell_ask_require_bind, endsWell_change_any_bind, endsWell_pure_unit]
    constructor
    · rintro ⟨tx, hselects, hupdates, -⟩
      exact ⟨hselects, hupdates⟩
    · rintro ⟨hselects, hupdates⟩
      exact ⟨_, hselects, hupdates, rfl⟩

/-- The event of `deleteUser` is reached. -/
structure DeletesUser (world : World) : Prop where
  selects : world.finds .selectUser = true
  deletesTokens : world.succeeds .deleteRefreshTokens = true
  deletes : world.succeeds .deleteUser = true

theorem committedFirst_deleteUser : CommittedFirst (after (deleteUser world) (start caller)) ↔
    (Opens world caller → world.delivers = true → ¬ DeletesUser world) := by
  refine committedFirst_sendInside_iff ?_ ?_
  · exact .bind fun _ => .bind fun _ => .bind fun _ => ensures_pure_of ensures_change
  · simp only [endsWell_ask_require_bind, endsWell_ask_any_bind, endsWell_change_any_bind, endsWell_pure_unit]
    constructor
    · rintro ⟨tx, hselects, htokens, hdeletes, -⟩
      exact ⟨hselects, htokens, hdeletes⟩
    · rintro ⟨hselects, htokens, hdeletes⟩
      exact ⟨_, hselects, htokens, hdeletes, rfl⟩

/-- The event of `deleteFinding` is reached. -/
structure DeletesFinding (world : World) : Prop where
  deletesRecommendations : world.succeeds .deleteRecommendations = true
  deletes : world.succeeds .deleteFinding = true

theorem committedFirst_deleteFinding : CommittedFirst (after (deleteFinding world) (start caller)) ↔
    (Opens world caller → world.delivers = true → ¬ DeletesFinding world) := by
  refine committedFirst_sendInside_iff ?_ ?_
  · exact .bind fun _ => ensures_pure_of ensures_change
  · simp only [endsWell_ask_any_bind, endsWell_change_any_bind, endsWell_pure_unit]
    constructor
    · rintro ⟨tx, hrecommendations, hdeletes, -⟩
      exact ⟨hrecommendations, hdeletes⟩
    · rintro ⟨hrecommendations, hdeletes⟩
      exact ⟨_, hrecommendations, hdeletes, rfl⟩

/-! ## The event of a finding -/

/-- The checks of `createFinding`. -/
structure AcceptsFinding (data : CreateFindingInput) : Prop where
  title : data.trimmedTitle ≠ ""
  length : utf16Length data.trimmedTitle ≤ 200
  findingType : data.findingType.any VALID_FINDING_TYPES.contains = true
  auditId : (orNull data.auditId).isSome = true

/-- There is a number for the finding, or for its recommendation. -/
structure Numbers (world : World) (counter : Counter) : Prop where
  counts : world.finds (.nextCounter counter) = true
  bound : world.lastValue counter ≤ MAX_CHILD_SEQ

/-- The finding and its recommendation are inserted. -/
structure InsertsFinding (world : World) : Prop where
  plan : world.finds .selectPlan = true
  notArchived : world.planIsArchived = false
  findingNumber : Numbers world .finding
  inserts : world.finds .insertFinding = true
  findingId : world.findingId ≠ ""
  recommendationNumber : Numbers world .recommendation
  recommendation : world.succeeds .insertRecommendation = true

theorem endsWell_nextNumber_bind {counter : Counter} {scopeId : String} {changes : List String}
    {f : Unit → TxM (List String) Unit} {tx : Tx (List String)} :
    EndsWell (nextNumber world counter scopeId >>= f) ⟨changes, false⟩ () tx ↔
      Numbers world counter ∧ EndsWell (f ()) ⟨changes, false⟩ () tx := by
  unfold nextNumber
  simp only [bind_assoc]
  rw [endsWell_ask_require_bind, endsWell_require_bind, decide_eq_true_iff, ← and_assoc]
  exact and_congr_left fun _ => ⟨fun h => ⟨h.1, h.2⟩, fun h => ⟨h.counts, h.bound⟩⟩

theorem endsWell_insertFinding {auditId : String} {tx : Tx (List String)} :
    EndsWell (insertFinding world auditId) ⟨[], false⟩ () tx ↔
      InsertsFinding world ∧ tx = ⟨["finding.created"], false⟩ := by
  unfold insertFinding
  rw [endsWell_ask_require_bind, endsWell_require_bind, endsWell_nextNumber_bind, endsWell_change_bind,
    Bool.not_eq_true']
  simp only [endsWell_require_bind, endsWell_nextNumber_bind, endsWell_ask_any_bind, endsWell_pure_unit,
    Bool.and_eq_true, decide_eq_true_iff]
  constructor
  · rintro ⟨hplan, harchived, hnumber, found, hanswer, ⟨rfl, hid⟩, hrec, hrecommendation, htx⟩
    exact ⟨⟨hplan, harchived, hnumber, finds_iff.2 hanswer, hid, hrec, hrecommendation⟩, htx⟩
  · rintro ⟨⟨hplan, harchived, hnumber, hinserts, hid, hrec, hrecommendation⟩, htx⟩
    exact ⟨hplan, harchived, hnumber, true, finds_iff.1 hinserts, ⟨rfl, hid⟩, hrec, hrecommendation, htx⟩

theorem ensures_insertFinding (auditId : String) :
    Ensures (insertFinding world auditId) fun tx => tx.aborted = false :=
  .bind fun _ => .bind fun _ => .bind fun _ => .bind fun _ => .bind fun _ => .bind fun _ => .bind fun _ =>
    ensures_pure_of ensures_ask

/-- With the finding inserted, the notification follows. -/
theorem createFinding_inside (auditId userId : String) (h : InsertsFinding world) :
    (do onConnection (insertFinding world auditId); notifyManagers world userId) inside =
      notifyManagers world userId written := by
  have hends : EndsWell (insertFinding world auditId) ⟨[], false⟩ () ⟨["finding.created"], false⟩ :=
    endsWell_insertFinding.2 ⟨h, rfl⟩
  dsimp only [bind, EStateM.bind]
  rw [onConnection_of_tx rfl, hends.1]
  rfl

theorem createFinding_fails (auditId userId : String) (h : ¬ InsertsFinding world) : ∃ e t,
    (do onConnection (insertFinding world auditId); notifyManagers world userId) inside = .error e t ∧
      t.delivered = [] ∧ t.buffer = some [] := by
  dsimp only [bind, EStateM.bind]
  rw [onConnection_of_tx rfl]
  match hresult : insertFinding world auditId ⟨[], false⟩ with
  | (.error e, tx) => exact ⟨e, _, rfl, rfl, rfl⟩
  | (.ok (), tx) =>
    have hends := (ensures_insertFinding auditId).endsWell_iff.2 hresult
    exact absurd (endsWell_insertFinding.1 hends).1 h

theorem committedFirst_createFinding (data : CreateFindingInput) (userId : String) :
    CommittedFirst (after (createFinding world data userId) (start caller)) ↔
      (Opens world caller → world.delivers = true → AcceptsFinding data → InsertsFinding world →
        Notifies world userId) := by
  have hsend : CommittedFirst (after (sendInside world "finding.created" do
        onConnection (insertFinding world (data.auditId.getD ""))
        notifyManagers world userId) (start caller)) ↔
      (Opens world caller → world.delivers = true → InsertsFinding world → Notifies world userId) := by
    by_cases hinserts : InsertsFinding world
    · obtain ⟨t, hnotify, hdelivered, hbuffer, hcommitted⟩ := notifyManagers_written world userId
      have hinside := (createFinding_inside (data.auditId.getD "") userId hinserts).trans hnotify
      rw [committedFirst_sendInside (by unfold after; rw [hinside]; exact hdelivered)
        (by unfold after; rw [hinside]; exact hbuffer)]
      refine imp_congr_right fun _ => imp_congr_right fun _ => ?_
      rw [hinside, ← hcommitted]
      constructor
      · exact fun h _ => h t rfl
      · intro h u hu
        rw [← (EStateM.Result.ok.inj hu).2]
        exact h hinserts
    · obtain ⟨e, t, hfails, hdelivered, hbuffer⟩ :=
        createFinding_fails (data.auditId.getD "") userId hinserts
      rw [committedFirst_sendInside (by unfold after; rw [hfails]; exact hdelivered)
        (by unfold after; rw [hfails]; exact hbuffer)]
      refine imp_congr_right fun _ => imp_congr_right fun _ => ?_
      rw [hfails]
      exact iff_of_true (fun _ h => nomatch h) fun h => absurd h hinserts
  unfold createFinding
  rw [committedFirst_check, committedFirst_check, committedFirst_check, committedFirst_check, hsend,
    decide_eq_true_iff, decide_eq_true_iff]
  constructor
  · exact fun h hopens hdelivers hdata => h hdata.title hdata.length hdata.findingType hdata.auditId hopens
      hdelivers
  · exact fun h htitle hlength htype hauditId hopens hdelivers => h hopens hdelivers
      ⟨htitle, hlength, htype, hauditId⟩

/-! ## The operations -/

/-- When the operation delivers its event only for a change that is committed. -/
def Operation.SendsCommitted (world : World) (caller : Caller) : Operation → Prop
  | .createUser _ => True
  | .updateUser data => Dispatches world caller → UpdatesUser world data → world.finds .updateUser = true
  | .setStatus => Opens world caller → world.delivers = true → ¬ SetsStatus world
  | .deleteUser => Opens world caller → world.delivers = true → ¬ DeletesUser world
  | .createFinding data userId => Opens world caller → world.delivers = true → AcceptsFinding data →
      InsertsFinding world → Notifies world userId
  | .updateFinding body userId =>
      Dispatches world caller → UpdatesFinding world body userId → world.finds .updateFinding = true
  | .deleteFinding => Opens world caller → world.delivers = true → ¬ DeletesFinding world
  | .create _ _ => True
  | .update _ _ _ => True
  | .delete tableName _ =>
      Dispatches world caller → DeletesRow world tableName → world.finds .deleteRow = true

/-- Whatever the environment answers and wherever the operation is called, every event that it delivers
describes a committed change exactly when `SendsCommitted` holds of it. -/
theorem committedFirst_iff (world : World) (caller : Caller) (op : Operation) :
    CommittedFirst (after (op.run world) (start caller)) ↔ op.SendsCommitted world caller := by
  cases op with
  | createUser data => exact iff_of_true (committedFirst_createUser data) trivial
  | updateUser data => exact committedFirst_updateUser data
  | setStatus => exact committedFirst_setStatus
  | deleteUser => exact committedFirst_deleteUser
  | createFinding data userId => exact committedFirst_createFinding data userId
  | updateFinding body userId => exact committedFirst_updateFinding body userId
  | deleteFinding => exact committedFirst_deleteFinding
  | create tableName body => exact iff_of_true (committedFirst_create tableName body) trivial
  | update tableName id body => exact iff_of_true (committedFirst_update tableName id body) trivial
  | delete tableName id => exact committedFirst_delete tableName id

/-- Every statement succeeds and finds its row, the service receives the events, and the `COMMIT` of an
operation fails. -/
def failingCommit : World where
  answer := fun _ => .rows true
  command := fun level command =>
    if level = .outer && command = .commit then some "Connection terminated unexpectedly" else none
  delivers := true
  stores := false
  deadLetter := .rows true
  dispatchMs := 10
  isExternal := true
  whitelist := fun _ => []
  settings := ⟨none, false, false, false, false⟩
  planIsArchived := false
  planHasCode := true
  planHasDepartment := true
  entityHasCode := true
  lastValue := fun _ => 1
  findingId := "f1"
  createdBy := some "u1"
  adminIds := ["u2"]
  managerIds := []

/-- `setStatus` has announced a change then that is rolled back. -/
theorem announced_without_commit :
    (after (Operation.setStatus.run failingCommit) (start .none)).delivered = [⟨"user.status_changed", []⟩] ∧
      (after (Operation.setStatus.run failingCommit) (start .none)).committed = [] ∧
        ¬ CommittedFirst (after (Operation.setStatus.run failingCommit) (start .none)) := by
  decide +kernel

end

end AlsaqiBackend.Events
