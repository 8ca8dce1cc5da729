import AlsaqiBackend.Lib.Run
import AlsaqiBackend.Permissions.RoleUpdate

/-!
# The audit log of permissions

Every successful request to a role or a user writes an entry, with the permissions before and after. Those
before are read, and those after are the ones that the request asks for. Requests come one after the other.

`faithful_iff_stored` says when the log is a history of what is stored: exactly when no request leaves a
permission granted, or an override set, for which there is no row in `permissions`.
-/

namespace AlsaqiBackend.Permissions

open AlsaqiBackend.Lib AlsaqiBackend.Users

/-! ## Requests -/

inductive AdminRequest
  | role (actor roleId : String) (permissions : List PermissionUpdate)
  | user (actor userId : String) (overrides : List PermissionOverride)
  deriving DecidableEq, Repr

/-- The store and the log, the last entry first, each entry with the store after its request. -/
structure AuditState where
  store : PermissionStore
  log : List (AuditEntry × PermissionStore)

def AuditState.init (store : PermissionStore) : AuditState := ⟨store, []⟩

/-- What a request does when nothing fails. -/
def AdminRequest.outcome (registry : List ModuleDefinition) (store : PermissionStore) :
    AdminRequest → Outcome
  | .role actor roleId permissions =>
    postRolePermissions registry false false store actor roleId permissions
  | .user actor userId overrides => putUserPermissions registry false store actor userId overrides

/-- A request; `none` when it is not successful. -/
def auditStep (registry : List ModuleDefinition) (s : AuditState) (request : AdminRequest) :
    Option AuditState :=
  match request.outcome registry s.store with
  | ⟨.ok _ _, store, some entry⟩ => some ⟨store, (entry, store) :: s.log⟩
  | _ => none

/-! ## A faithful log -/

/-- What is stored for a target: the permissions of a role, or the overrides of a user with their flags. -/
def stored (store : PermissionStore) : Target → Set ((String × String) × Bool)
  | .role id => {item | item.1 ∈ store.rolePairs (some id) ∧ item.2 = true}
  | .user id => {item | item ∈ store.overrides id}

/-- What an entry says is stored. -/
def LoggedState.denotes : LoggedState → Set ((String × String) × Bool)
  | .permissions record => {item | item.1 ∈ record.pairs ∧ item.2 = true}
  | .overrides list => {item | ∃ override ∈ list, (override.key, override.isAllowed) = item}

/-- The last entry for a target, with the store after its request. -/
def lastEntry (log : List (AuditEntry × PermissionStore)) (target : Target) :
    Option (AuditEntry × PermissionStore) :=
  log.find? fun logged => logged.1.target = target

/-- The old state of every entry is the new state of the one before it for the same target. -/
def Continues : List (AuditEntry × PermissionStore) → Prop
  | [] => True
  | logged :: log =>
    (∀ before, lastEntry log logged.1.target = some before →
      logged.1.oldState.denotes = before.1.newState.denotes) ∧ Continues log

/-- The new state of every entry is what was stored, and the old state that of the entry before. -/
structure Faithful (s : AuditState) : Prop where
  stored : ∀ logged ∈ s.log, logged.1.newState.denotes = stored logged.2 logged.1.target
  continues : Continues s.log

/-- What the request leaves granted, or sets, has rows in `permissions`. -/
def ItemsStored (s : AuditState) : AdminRequest → Prop
  | .role _ _ permissions => ∀ pair, lastSays (requestItems permissions) pair = some true →
      s.store.hasRow pair = true
  | .user _ _ overrides => ∀ override ∈ overrides, s.store.hasRow override.key = true

/-- Nothing has changed for a target since its last entry. -/
def Current (s : AuditState) : Prop :=
  ∀ target logged, lastEntry s.log target = some logged → stored logged.2 target = stored s.store target

/-! ## What a request logs and stores -/

/-- An entry for the target of a request, with what is stored before, and, if all of it has rows, after. -/
structure Logs (s : AuditState) (request : AdminRequest) (t : AuditState) (entry : AuditEntry) : Prop where
  log : t.log = (entry, t.store) :: s.log
  oldState : entry.oldState.denotes = stored s.store entry.target
  newState : entry.newState.denotes = stored t.store entry.target ↔ ItemsStored s request
  others : ∀ target, target ≠ entry.target → stored t.store target = stored s.store target

variable {registry : List ModuleDefinition} {s t : AuditState} {request : AdminRequest}

/-- The computed state is the stored one exactly when the items that leave a grant have rows. -/
theorem requestItems_eq_storedItems_iff (store : PermissionStore) (roleId : String)
    (permissions : List PermissionUpdate) :
    applyAll (store.rolePairs (some roleId)) (requestItems permissions) =
        applyAll (store.rolePairs (some roleId)) (storedItems store.toPermissionTables permissions) ↔
      ∀ pair, lastSays (requestItems permissions) pair = some true → store.hasRow pair = true := by
  rw [Set.ext_iff]
  refine forall_congr' fun pair => ?_
  rw [mem_applyAll_iff, mem_applyAll_iff, storedItems, lastSays_filter]
  cases hrow : store.hasRow pair with
  | true => simp
  | false =>
    have hnot : pair ∉ store.rolePairs (some roleId) := by
      intro hmem
      rw [hasRow_of_mem_rolePairs hmem] at hrow
      cases hrow
    simp [hnot]

theorem stored_role_inj {record : PermissionRecord} {store : PermissionStore} {roleId : String} :
    (LoggedState.permissions record).denotes = stored store (.role roleId) ↔
      record.pairs = store.rolePairs (some roleId) := by
  unfold LoggedState.denotes stored
  rw [Set.ext_iff, Set.ext_iff]
  simp only [Set.mem_ofPred_eq, Prod.forall]
  constructor
  · intro h module action
    have hitem := h module action true
    simpa using hitem
  · intro h module action granted
    rw [h]

/-- A step writes one entry. -/
theorem auditStep_eq (h : auditStep registry s request = some t) :
    ∃ message count entry,
      request.outcome registry s.store = ⟨.ok message count, t.store, some entry⟩ ∧
        t.log = (entry, t.store) :: s.log := by
  unfold auditStep at h
  split at h
  · next message count store entry houtcome =>
    obtain rfl := Option.some.inj h
    exact ⟨message, count, entry, houtcome, rfl⟩
  · cases h

/-- What a successful request to a role logs. -/
theorem logs_role {actor roleId : String} {permissions : List PermissionUpdate}
    (h : auditStep registry s (.role actor roleId permissions) = some t) :
    ∃ entry, Logs s (.role actor roleId permissions) t entry := by
  obtain ⟨message, count, entry, houtcome, hlog⟩ := auditStep_eq h
  change postRolePermissions registry false false s.store actor roleId permissions = _ at houtcome
  obtain ⟨role, hrole, hcustom, hvalid⟩ :=
    checks_of_postRolePermissions_ok (congrArg Outcome.reply houtcome)
  obtain ⟨oldMatrix, newPermissions, hold, hnew, hpost⟩ :=
    postRolePermissions_eq false false actor hrole hcustom hvalid
  rw [houtcome, if_neg Bool.false_ne_true, Outcome.mk.injEq, Option.some.injEq] at hpost
  obtain ⟨-, hstore, rfl⟩ := hpost
  refine ⟨_, hlog, stored_role_inj.2 hold, ?_, ?_⟩
  · dsimp only
    rw [stored_role_inj, hnew, hstore, rolePairs_updateRolePermissions]
    exact requestItems_eq_storedItems_iff s.store roleId permissions
  · intro target hne
    rw [hstore]
    match target with
    | .role other =>
      have hother : other ≠ roleId := fun heq => hne (heq ▸ rfl)
      unfold stored
      dsimp only
      rw [rolePairs_updateRolePermissions_of_ne s.store permissions hother]
    | .user userId => rfl

theorem mem_overrideList_iff {store : PermissionStore} {userId : String}
    {item : (String × String) × Bool} :
    (∃ override ∈ store.overrideList userId, (override.key, override.isAllowed) = item) ↔
      item ∈ store.overrides userId := by
  unfold PermissionTables.overrideList PermissionTables.overrides
  simp only [List.mem_map, exists_exists_and_eq_and]
  rfl

/-- What a successful request to a user logs. -/
theorem logs_user {actor userId : String} {overrides : List PermissionOverride}
    (h : auditStep registry s (.user actor userId overrides) = some t) :
    ∃ entry, Logs s (.user actor userId overrides) t entry := by
  obtain ⟨message, count, entry, houtcome, hlog⟩ := auditStep_eq h
  change putUserPermissions registry false s.store actor userId overrides = _ at houtcome
  obtain ⟨replaced, hreplaced, hput⟩ := putUserPermissions_ok (congrArg Outcome.reply houtcome)
  rw [houtcome, Outcome.mk.injEq, Option.some.injEq] at hput
  obtain ⟨-, rfl, rfl⟩ := hput
  obtain ⟨htables, hitems⟩ := overrides_replaceOverrides hreplaced
  refine ⟨_, hlog, ?_, ?_, ?_⟩
  · unfold LoggedState.denotes stored
    ext item
    exact mem_overrideList_iff
  · unfold LoggedState.denotes stored ItemsStored
    rw [Set.ext_iff]
    simp only [Set.mem_ofPred_eq, hitems, if_true]
    constructor
    · intro hall override hmem
      exact ((hall (override.key, override.isAllowed)).1 ⟨override, hmem, rfl⟩).1
    · intro hrows item
      constructor
      · rintro ⟨override, hmem, rfl⟩
        exact ⟨hrows override hmem, override, hmem, rfl⟩
      · rintro ⟨-, hmem⟩
        exact hmem
  · intro target hne
    match target with
    | .role roleId =>
      unfold stored
      dsimp only
      rw [rolePairs_eq, rolePairs_eq, htables]
    | .user other =>
      have hother : other ≠ userId := fun heq => hne (heq ▸ rfl)
      unfold stored
      ext item
      rw [Set.mem_ofPred_eq, Set.mem_ofPred_eq, hitems, if_neg hother]

/-- Every successful request logs what is stored before, and after, if all of it has rows. -/
theorem auditStep_logs (h : auditStep registry s request = some t) : ∃ entry, Logs s request t entry := by
  match request with
  | .role actor roleId permissions => exact logs_role h
  | .user actor userId overrides => exact logs_user h

/-! ## The log along a run -/

theorem lastEntry_cons (logged : AuditEntry × PermissionStore)
    (log : List (AuditEntry × PermissionStore)) (target : Target) :
    lastEntry (logged :: log) target =
      if logged.1.target = target then some logged else lastEntry log target := by
  unfold lastEntry
  rw [List.find?_cons]
  by_cases htarget : logged.1.target = target
  · rw [if_pos htarget, decide_eq_true htarget]
  · rw [if_neg htarget, decide_eq_false htarget]

theorem auditStep_current (s : AuditState) (request : AdminRequest) (t : AuditState) (h : Current s)
    (hstep : auditStep registry s request = some t) : Current t := by
  obtain ⟨entry, hlogs⟩ := auditStep_logs hstep
  intro target logged hlast
  rw [hlogs.log, lastEntry_cons] at hlast
  split_ifs at hlast with htarget
  · rw [← Option.some.inj hlast]
  · rw [h target logged hlast, hlogs.others target (Ne.symm htarget)]

/-- A step keeps the log faithful exactly when what the request leaves has rows. -/
theorem auditStep_faithful_iff (s : AuditState) (request : AdminRequest) (t : AuditState)
    (hcurrent : Current s) (h : Faithful s) (hstep : auditStep registry s request = some t) :
    Faithful t ↔ ItemsStored s request := by
  obtain ⟨entry, hlogs⟩ := auditStep_logs hstep
  rw [← hlogs.newState]
  constructor
  · intro ht
    have hmem : (entry, t.store) ∈ t.log := by
      rw [hlogs.log]
      exact List.mem_cons_self
    exact ht.stored (entry, t.store) hmem
  · intro hnew
    refine ⟨?_, ?_⟩
    · rw [hlogs.log, List.forall_mem_cons]
      exact ⟨hnew, h.stored⟩
    · rw [hlogs.log]
      refine ⟨fun before hbefore => ?_, h.continues⟩
      obtain ⟨hmem, htarget⟩ := of_find?_key hbefore
      calc entry.oldState.denotes
          = stored s.store entry.target := hlogs.oldState
        _ = stored before.2 entry.target := (hcurrent entry.target before hbefore).symm
        _ = before.1.newState.denotes := by rw [h.stored before hmem, htarget]

/-- Along a run the log is a history of what is stored exactly when all that is left granted or set has
rows. -/
theorem faithful_iff_stored (registry : List ModuleDefinition) (store : PermissionStore)
    (requests : List AdminRequest) :
    Along (auditStep registry) Faithful (.init store) requests ↔
      Guarded (auditStep registry) ItemsStored (.init store) requests := by
  have hcurrent : Current (.init store) := fun _ _ hlast => nomatch hlast
  have hfaithful : Faithful (.init store) := ⟨fun _ hmem => (nomatch hmem), trivial⟩
  exact along_iff_guarded auditStep_current auditStep_faithful_iff requests hcurrent hfaithful

/-- `customRoleStore` without the permission to edit reports, and with a user. -/
def missingRowStore : PermissionStore :=
  { customRoleStore with
    users := [employee "alice" "EMP-1001-A1B2C3"]
    permissions := [⟨"permission-1", "Reports", "View"⟩]
    uniqueId := by decide
    uniquePermission := by decide
    names := by decide }

/-- The action is registered and has no row: the log says that the role has it, or that the user has the
override, and it is not stored. -/
theorem logged_not_stored :
    (∃ t, auditStep reportsRegistry (.init missingRowStore)
        (.role "admin-1" "role-1" [⟨"Reports", "Edit", true⟩]) = some t ∧ ¬ Faithful t) ∧
      ∃ t, auditStep reportsRegistry (.init missingRowStore)
        (.user "admin-1" "alice" [⟨"Reports", "Edit", true⟩]) = some t ∧ ¬ Faithful t := by
  have hnot : ∀ request, (auditStep reportsRegistry (.init missingRowStore) request).isSome = true →
      ¬ ItemsStored (.init missingRowStore) request →
      ∃ t, auditStep reportsRegistry (.init missingRowStore) request = some t ∧ ¬ Faithful t := by
    intro request hsome hitems
    obtain ⟨t, hstep⟩ := Option.isSome_iff_exists.1 hsome
    obtain ⟨entry, hlogs⟩ := auditStep_logs hstep
    refine ⟨t, hstep, fun hfaithful => hitems (hlogs.newState.1 ?_)⟩
    refine hfaithful.stored (entry, t.store) ?_
    rw [hlogs.log]
    exact List.mem_cons_self
  constructor
  · refine hnot _ rfl fun hitems => ?_
    exact absurd (hitems ("Reports", "Edit") (by decide)) (by decide)
  · refine hnot _ rfl fun hitems => ?_
    exact absurd (hitems _ List.mem_cons_self) (by decide)

end AlsaqiBackend.Permissions
