import AlsaqiBackend.Permissions.Readings

/-!
# The routes that change permissions

`POST /roles/:id/permissions` grants and revokes permissions of a custom role, and
`PUT /users/:id/permissions` replaces the overrides of a user. Both write an entry of the audit log, with
the permissions before and after. The permissions after a request to a role are computed from those
before, with the items of the request; an item without a row in `permissions` is not stored.

The lemmas say what each route stores: `rolePairs_updateRolePermissions` and `overrides_replaceOverrides`.
-/

namespace AlsaqiBackend.Permissions

open AlsaqiBackend.Lib AlsaqiBackend.Users

/-! ## Requests, replies and entries -/

/-- An item of a request to a role. -/
structure PermissionUpdate where
  module : String
  action : String
  granted : Bool
  deriving DecidableEq, Repr

def PermissionUpdate.key (perm : PermissionUpdate) : String × String := (perm.module, perm.action)

def PermissionOverride.key (override : PermissionOverride) : String × String :=
  (override.module, override.action)

inductive Reply
  /-- The message, and the number of items. -/
  | ok (message : String) (count : ℕ)
  | error (status : ℕ) (error code : String) (module action : Option String)
  /-- The handler throws. -/
  | thrown (error : String)
  deriving DecidableEq, Repr

/-- Whose permissions an entry is about. -/
inductive Target
  | role (id : String)
  | user (id : String)
  deriving DecidableEq, Repr

/-- The permissions in an entry: those of a role, or the overrides of a user. -/
inductive LoggedState
  | permissions (record : PermissionRecord)
  | overrides (list : List PermissionOverride)

/-- A row of `permission_audit_logs`; the target is one of its two columns, and tells the type of the
event. -/
structure AuditEntry where
  actorUserId : String
  target : Target
  oldState : LoggedState
  newState : LoggedState

/-! ## The stored permissions -/

/-- One round of the loop of `updateRolePermissions`, on the rows of `role_permissions`. -/
def updateRow (permissions : List Permission) (roleId : String) (rows : List RolePermission)
    (perm : PermissionUpdate) : List RolePermission :=
  match permissions.find? fun permission => permission.key = perm.key with
  | none => rows
  | some permRecord =>
    if perm.granted then
      -- `ON CONFLICT DO NOTHING`.
      if ⟨roleId, permRecord.id⟩ ∈ rows then rows else rows ++ [⟨roleId, permRecord.id⟩]
    else rows.filter fun row => row ≠ ⟨roleId, permRecord.id⟩

namespace PermissionStore

/-- The transaction of `updateRolePermissions`. -/
def updateRolePermissions (store : PermissionStore) (roleId : String) (perms : List PermissionUpdate) :
    PermissionStore :=
  { store with
    rolePermissions := perms.foldl (updateRow store.permissions roleId) store.rolePermissions }

/-- `DELETE FROM user_permissions WHERE user_id = ?`. -/
def deleteOverrides (store : PermissionStore) (userId : String) : PermissionStore :=
  { store with
    userPermissions := store.userPermissions.filter fun row => row.userId ≠ userId
    uniqueOverride := store.uniqueOverride.sublist (List.filter_sublist.map _)
    flags := fun row hmem => store.flags row (List.mem_of_mem_filter hmem) }

/-- `INSERT INTO user_permissions`; `none` when the user has a row for the permission. -/
def insertOverride (store : PermissionStore) (userId permissionId : String) (isAllowed : Bool) :
    Option PermissionStore :=
  if h : store.HasOverride userId permissionId then none
  else some { store with
    userPermissions := store.userPermissions ++ [⟨userId, permissionId, if isAllowed then 1 else 0⟩]
    uniqueOverride := by
      rw [List.map_append, List.map_singleton]
      exact store.uniqueOverride.append (List.nodup_singleton _) (List.disjoint_singleton.2 h)
    flags := by
      rw [List.forall_mem_append, List.forall_mem_singleton]
      refine ⟨store.flags, ?_⟩
      cases isAllowed with
      | true => exact Or.inr rfl
      | false => exact Or.inl rfl }

/-- One round of the loop over the new overrides. An override without a row in `permissions` is passed
over. -/
def addOverride (userId : String) (store : PermissionStore) (override : PermissionOverride) :
    Option PermissionStore :=
  match store.permissionId override.key with
  | none => some store
  | some permissionId => store.insertOverride userId permissionId override.isAllowed

/-- The statements on `user_permissions` of the transaction of `PUT /users/:id/permissions`. -/
def replaceOverrides (store : PermissionStore) (userId : String) (overrides : List PermissionOverride) :
    Option PermissionStore :=
  overrides.foldlM (addOverride userId) (store.deleteOverrides userId)

end PermissionStore

/-! ## The routes -/

structure RolePermissionSet where
  roleId : String
  roleName : String
  isCustom : Bool
  permissions : PermissionRecord

def getRolePermissions (db : PermissionTables) (roleId : String) : Except String RolePermissionSet :=
  match db.role roleId with
  | none => throw ("Role " ++ roleId ++ " not found")
  | some role => do
    let permissions ← (db.roleRows (some roleId)).foldlM applyRole JsMap.empty
    return ⟨roleId, role.name, role.isCustom, permissions⟩

/-- One round of the loop that computes the new state of the entry. -/
def applyUpdate (permissions : PermissionRecord) (perm : PermissionUpdate) :
    Except String PermissionRecord :=
  permissions.modify perm.module (if perm.granted then grantAction perm.action else denyAction perm.action)

/-- The body of the request does not have the shape of the schema: a text is empty. -/
def emptyText (module action : String) : Bool := module = "" || action = ""

def validationFailed : Reply := .error 400 "Validation failed" "VALIDATION_ERROR" none none

/-- The reply to an item of a request to a role that is not registered. -/
def rejectUpdate (registry : List ModuleDefinition) (perm : PermissionUpdate) : Option Reply :=
  match getModule registry perm.module with
  | none => some (.error 400 ("Invalid module: '" ++ perm.module ++ "' is not registered in the system")
      "VALIDATION_ERROR" (some perm.module) none)
  | some moduleDef =>
    if perm.action ∈ moduleDef.actions then none
    else some (.error 400 ("Invalid action: '" ++ perm.action ++ "' is not supported by module '" ++
      perm.module ++ "'. Supported actions: " ++ ", ".intercalate moduleDef.actions)
      "VALIDATION_ERROR" (some perm.module) (some perm.action))

/-- The reply to an override that is not registered. -/
def rejectOverride (registry : List ModuleDefinition) (override : PermissionOverride) : Option Reply :=
  match getModule registry override.module with
  | none => some (.error 400 ("Unrecognized module: '" ++ override.module ++ "'") "VALIDATION_ERROR"
      (some override.module) none)
  | some moduleDef =>
    if override.action ∈ moduleDef.actions then none
    else some (.error 400 ("Action '" ++ override.action ++ "' is not supported by module '" ++
      override.module ++ "'. Supported actions: " ++ ", ".intercalate moduleDef.actions)
      "VALIDATION_ERROR" (some override.module) (some override.action))

def auditFailure : Reply :=
  .error 500 "Operation could not be completed due to audit logging failure" "INTERNAL_ERROR" none none

/-- What a request leaves: the reply, the store, and the entry that it has written. -/
structure Outcome where
  reply : Reply
  store : PermissionStore
  entry : Option AuditEntry

/-- The reversed items. -/
def rollbackPermissions (permissions : List PermissionUpdate) : List PermissionUpdate :=
  permissions.map fun p => { p with granted := !p.granted }

/-- `POST /roles/:id/permissions`. `logFails` says that `logPermissionChange` fails, and `rollbackFails`
that the transaction of the rollback does, whose error is caught. -/
def postRolePermissions (registry : List ModuleDefinition) (logFails rollbackFails : Bool)
    (store : PermissionStore) (actor roleId : String) (permissions : List PermissionUpdate) : Outcome :=
  match store.role roleId with
  | none => ⟨.error 404 "Role not found" "NOT_FOUND" none none, store, none⟩
  | some role =>
    if !role.isCustom then
      ⟨.error 403 "Built-in role permissions cannot be modified" "FORBIDDEN" none none, store, none⟩
    else if permissions.any fun perm => emptyText perm.module perm.action then
      ⟨validationFailed, store, none⟩
    else
      match permissions.findSome? (rejectUpdate registry) with
      | some reply => ⟨reply, store, none⟩
      | none =>
        match getRolePermissions store.toPermissionTables roleId with
        | .error e => ⟨.thrown e, store, none⟩
        | .ok oldRolePermissions =>
          let oldMatrix := oldRolePermissions.permissions
          let updated := store.updateRolePermissions roleId permissions
          match permissions.foldlM applyUpdate oldMatrix with
          | .error e => ⟨.thrown e, updated, none⟩
          | .ok newPermissions =>
            if logFails then
              ⟨auditFailure, if rollbackFails then updated
                else updated.updateRolePermissions roleId (rollbackPermissions permissions), none⟩
            else
              ⟨.ok "Role permissions updated successfully" permissions.length, updated,
                some ⟨actor, .role roleId, .permissions oldMatrix, .permissions newPermissions⟩⟩

/-- The overrides as `PUT /users/:id/permissions` reads them before. -/
def PermissionTables.overrideList (db : PermissionTables) (userId : String) : List PermissionOverride :=
  (db.overrideRows userId).map fun row => ⟨row.1.module, row.1.action, row.2.isAllowed = 1⟩

/-- `PUT /users/:id/permissions`. A failure in the transaction, of the log or of a statement, rolls all of
it back. -/
def putUserPermissions (registry : List ModuleDefinition) (logFails : Bool) (store : PermissionStore)
    (actor userId : String) (overrides : List PermissionOverride) : Outcome :=
  match store.user userId with
  | none => ⟨.error 404 "User not found" "NOT_FOUND" none none, store, none⟩
  | some _ =>
    if overrides.any fun override => emptyText override.module override.action then
      ⟨validationFailed, store, none⟩
    else
      match overrides.findSome? (rejectOverride registry) with
      | some reply => ⟨reply, store, none⟩
      | none =>
        let oldState := store.overrideList userId
        match store.replaceOverrides userId overrides with
        | none => ⟨auditFailure, store, none⟩
        | some replaced =>
          if logFails then ⟨auditFailure, store, none⟩
          else
            ⟨.ok "User permission overrides updated successfully" overrides.length, replaced,
              some ⟨actor, .user userId, .overrides oldState, .overrides overrides⟩⟩

/-! ## What a request to a role stores -/

/-- The items of a request, as grants and revocations. -/
def requestItems (permissions : List PermissionUpdate) : List ((String × String) × Bool) :=
  permissions.map fun perm => (perm.key, perm.granted)

/-- The pair has a row in `permissions`. -/
def PermissionTables.hasRow (db : PermissionTables) (key : String × String) : Bool :=
  (db.permissionId key).isSome

/-- The items that are stored. -/
def storedItems (db : PermissionTables) (permissions : List PermissionUpdate) :
    List ((String × String) × Bool) :=
  (requestItems permissions).filter fun item => db.hasRow item.1

/-- The pairs of a role, for some rows of `role_permissions`. -/
def rowPairs (permissions : List Permission) (roleId : String) (rows : List RolePermission) :
    Set (String × String) :=
  {pair | ∃ permission ∈ permissions, permission.key = pair ∧ ⟨roleId, permission.id⟩ ∈ rows}

variable {store : PermissionStore} {roleId other userId : String} {pair : String × String}
  {rows : List RolePermission} {perm : PermissionUpdate}

theorem rolePairs_eq (db : PermissionTables) (roleId : String) :
    db.rolePairs (some roleId) = rowPairs db.permissions roleId db.rolePermissions := by
  ext pair
  unfold PermissionTables.rolePairs rowPairs
  rw [Set.mem_ofPred_eq, Set.mem_ofPred_eq, List.mem_map]
  constructor
  · rintro ⟨permission, hmem, hkey⟩
    obtain ⟨hpermission, ⟨role, id⟩, hrow, hid, hrole⟩ := mem_roleRows.1 hmem
    dsimp only at hid hrole
    rw [hid, Option.some.inj hrole] at hrow
    exact ⟨permission, hpermission, hkey, hrow⟩
  · rintro ⟨permission, hpermission, hkey, hrow⟩
    exact ⟨permission, mem_roleRows.2 ⟨hpermission, _, hrow, rfl, rfl⟩, hkey⟩

/-- With unique keys, the lookup finds the permission that has the key. -/
theorem find_key_eq_some (store : PermissionStore) {permission : Permission}
    (hmem : permission ∈ store.permissions) :
    store.permissions.find? (fun p => p.key = permission.key) = some permission :=
  find?_key_of_mem store.uniquePermission hmem rfl

/-- A grant or a revocation of a permission with a row. -/
theorem rowPairs_updateRow {permRecord : Permission}
    (hfound : store.permissions.find? (fun permission => permission.key = perm.key) = some permRecord) :
    rowPairs store.permissions roleId (updateRow store.permissions roleId rows perm) =
      applyOne (rowPairs store.permissions roleId rows) (perm.key, perm.granted) := by
  obtain ⟨hrecord, hkey⟩ := of_find?_key hfound
  -- The update sets the row of the permission that it has found, and no other.
  have hrow : ∀ permission ∈ store.permissions,
      (⟨roleId, permission.id⟩ ∈ updateRow store.permissions roleId rows perm ↔
        if permission = permRecord then perm.granted = true else ⟨roleId, permission.id⟩ ∈ rows) := by
    intro permission hpermission
    have hid : permission.id = permRecord.id ↔ permission = permRecord :=
      ⟨fun heq => List.inj_on_of_nodup_map store.uniqueId hpermission hrecord heq, fun heq => heq ▸ rfl⟩
    unfold updateRow
    rw [hfound]
    dsimp only
    cases perm.granted with
    | true =>
      rw [if_pos rfl]
      split_ifs with hmem heq heq
      · rw [heq]
        exact iff_of_true hmem rfl
      · exact Iff.rfl
      · rw [heq]
        simp
      · simp [hid, heq]
    | false =>
      rw [if_neg Bool.false_ne_true]
      by_cases heq : permission = permRecord
      · simp [heq]
      · simp [hid, heq]
  ext pair
  rw [mem_applyOne_iff]
  unfold rowPairs
  rw [Set.mem_ofPred_eq, Set.mem_ofPred_eq]
  by_cases hpair : perm.key = pair
  · simp only [hpair, if_true]
    constructor
    -- A pair belongs to one permission.
    · rintro ⟨permission, hpermission, hpermKey, hmem⟩
      have heq : permission = permRecord :=
        List.inj_on_of_nodup_map store.uniquePermission hpermission hrecord
          (hpermKey.trans (hpair.symm.trans hkey.symm))
      rw [hrow permission hpermission, if_pos heq] at hmem
      exact hmem
    · intro hgranted
      refine ⟨permRecord, hrecord, hkey.trans hpair, ?_⟩
      rw [hrow permRecord hrecord, if_pos rfl]
      exact hgranted
  · simp only [if_neg hpair]
    refine exists_congr fun permission => and_congr_right fun hpermission =>
      and_congr_right fun hpermKey => ?_
    rw [hrow permission hpermission, if_neg]
    rintro rfl
    exact hpair (hkey.symm.trans hpermKey)

/-- The rows of the other roles stay. -/
theorem rowPairs_updateRow_of_ne (permissions : List Permission) (hne : other ≠ roleId) :
    rowPairs permissions other (updateRow permissions roleId rows perm) =
      rowPairs permissions other rows := by
  have hrow : ∀ id, (⟨other, id⟩ ∈ updateRow permissions roleId rows perm ↔
      (⟨other, id⟩ : RolePermission) ∈ rows) := by
    intro id
    unfold updateRow
    split
    · exact Iff.rfl
    · split_ifs
      · exact Iff.rfl
      · simp [hne]
      · simp [hne]
  unfold rowPairs
  simp only [hrow]

theorem storedItems_cons (db : PermissionTables) (perms : List PermissionUpdate) :
    storedItems db (perm :: perms) =
      if db.hasRow perm.key then (perm.key, perm.granted) :: storedItems db perms
      else storedItems db perms := by
  unfold storedItems requestItems
  rw [List.map_cons, List.filter_cons]

/-- There is a row when the lookup finds one. -/
theorem hasRow_eq_isSome (db : PermissionTables) (key : String × String) :
    db.hasRow key = (db.permissions.find? fun permission => permission.key = key).isSome := by
  rw [PermissionTables.hasRow, PermissionTables.permissionId, Option.isSome_map]

/-- The loop applies the items that are stored. -/
theorem rowPairs_foldl (store : PermissionStore) (roleId : String) (perms : List PermissionUpdate)
    (rows : List RolePermission) :
    rowPairs store.permissions roleId (perms.foldl (updateRow store.permissions roleId) rows) =
      applyAll (rowPairs store.permissions roleId rows) (storedItems store.toPermissionTables perms) := by
  induction perms generalizing rows with
  | nil => rfl
  | cons perm perms ih =>
    rw [List.foldl_cons, ih, storedItems_cons]
    cases hfound : store.permissions.find? fun permission => permission.key = perm.key with
    | none =>
      have hrow : store.hasRow perm.key = false := by rw [hasRow_eq_isSome, hfound, Option.isSome_none]
      rw [hrow, if_neg Bool.false_ne_true, updateRow, hfound]
    | some permRecord =>
      have hrow : store.hasRow perm.key = true := by rw [hasRow_eq_isSome, hfound, Option.isSome_some]
      rw [hrow, if_pos rfl, rowPairs_updateRow hfound]
      rfl

theorem rolePairs_updateRolePermissions (store : PermissionStore) (roleId : String)
    (perms : List PermissionUpdate) :
    (store.updateRolePermissions roleId perms).rolePairs (some roleId) =
      applyAll (store.rolePairs (some roleId)) (storedItems store.toPermissionTables perms) := by
  rw [rolePairs_eq, rolePairs_eq]
  exact rowPairs_foldl store roleId perms store.rolePermissions

theorem rolePairs_updateRolePermissions_of_ne (store : PermissionStore) (perms : List PermissionUpdate)
    (hne : other ≠ roleId) :
    (store.updateRolePermissions roleId perms).rolePairs (some other) = store.rolePairs (some other) := by
  rw [rolePairs_eq, rolePairs_eq]
  show rowPairs store.permissions other (perms.foldl (updateRow store.permissions roleId) _) = _
  induction perms generalizing store with
  | nil => rfl
  | cons perm perms ih =>
    have hrest := ih { store with
      rolePermissions := updateRow store.permissions roleId store.rolePermissions perm }
    rw [List.foldl_cons]
    exact hrest.trans (rowPairs_updateRow_of_ne store.permissions hne)

/-! ## What a request to a user stores -/

/-- The overrides of a user, for some rows of `user_permissions`. -/
def rowOverrides (permissions : List Permission) (userId : String) (rows : List UserPermission) :
    Set ((String × String) × Bool) :=
  {item | ∃ permission ∈ permissions, permission.key = item.1 ∧ ∃ row ∈ rows,
    row.permissionId = permission.id ∧ row.userId = userId ∧ decide (row.isAllowed = 1) = item.2}

theorem mem_overrides_iff {db : PermissionTables} {item : (String × String) × Bool} :
    item ∈ db.overrides userId ↔ item ∈ rowOverrides db.permissions userId db.userPermissions := by
  unfold PermissionTables.overrides rowOverrides
  rw [List.mem_map, Set.mem_ofPred_eq]
  constructor
  · rintro ⟨row, hmem, rfl⟩
    obtain ⟨hpermission, hrow, hid, huser⟩ := mem_overrideRows.1 hmem
    exact ⟨row.1, hpermission, rfl, row.2, hrow, hid, huser, rfl⟩
  · rintro ⟨permission, hpermission, hkey, row, hrow, hid, huser, hflag⟩
    exact ⟨(permission, row), mem_overrideRows.2 ⟨hpermission, hrow, hid, huser⟩,
      Prod.ext hkey hflag⟩

/-- A pair without a row is no permission of a role, and no override of a user. -/
theorem hasRow_of_mem (store : PermissionStore) {permission : Permission}
    (hmem : permission ∈ store.permissions) : store.hasRow permission.key = true := by
  rw [hasRow_eq_isSome, find_key_eq_some store hmem, Option.isSome_some]

theorem hasRow_of_mem_rolePairs (h : pair ∈ store.rolePairs (some roleId)) : store.hasRow pair = true := by
  rw [rolePairs_eq] at h
  obtain ⟨permission, hmem, rfl, -⟩ := h
  exact hasRow_of_mem store hmem

/-- What one override adds to the rows of the users. -/
theorem mem_overrides_addOverride {t : PermissionStore} {override : PermissionOverride}
    (h : store.addOverride userId override = some t) :
    t.toPermissionTables = { store.toPermissionTables with userPermissions := t.userPermissions } ∧
      ∀ user item, item ∈ t.overrides user ↔ item ∈ store.overrides user ∨
        (user = userId ∧ store.hasRow override.key = true ∧ item = (override.key, override.isAllowed)) := by
  unfold PermissionStore.addOverride PermissionTables.permissionId at h
  cases hfound : store.permissions.find? fun permission => permission.key = override.key with
  | none =>
    have hrow : store.hasRow override.key = false := by rw [hasRow_eq_isSome, hfound, Option.isSome_none]
    rw [hfound] at h
    obtain rfl := Option.some.inj h
    refine ⟨rfl, fun user item => ?_⟩
    rw [hrow]
    simp
  | some permRecord =>
    obtain ⟨hmem, hkey⟩ := of_find?_key hfound
    have hrow : store.hasRow override.key = true := hkey ▸ hasRow_of_mem store hmem
    rw [hfound] at h
    unfold PermissionStore.insertOverride at h
    simp only [Option.map_some] at h
    have hnew : ¬ store.HasOverride userId permRecord.id := by
      intro hold
      rw [dif_pos hold] at h
      cases h
    rw [dif_neg hnew] at h
    obtain rfl := Option.some.inj h
    refine ⟨rfl, fun user item => ?_⟩
    rw [mem_overrides_iff, mem_overrides_iff, hrow]
    unfold rowOverrides
    simp only [Set.mem_ofPred_eq, List.mem_append, List.mem_singleton]
    have hflag : decide ((if override.isAllowed = true then (1 : ℤ) else 0) = 1) = override.isAllowed := by
      cases override.isAllowed with
      | true => rfl
      | false => rfl
    constructor
    · rintro ⟨permission, hpermission, hpermKey, row, hold | rfl, hid, huser, hallowed⟩
      · exact Or.inl ⟨permission, hpermission, hpermKey, row, hold, hid, huser, hallowed⟩
      · have heq : permission = permRecord :=
          List.inj_on_of_nodup_map store.uniqueId hpermission hmem hid.symm
        refine Or.inr ⟨huser.symm, trivial, Prod.ext ?_ ?_⟩
        · rw [← hpermKey, heq, hkey]
        · rw [← hallowed]
          exact hflag
    · rintro (⟨permission, hpermission, hpermKey, row, hold, hrest⟩ | ⟨rfl, -, rfl⟩)
      · exact ⟨permission, hpermission, hpermKey, row, Or.inl hold, hrest⟩
      · exact ⟨permRecord, hmem, hkey, _, Or.inr rfl, rfl, rfl, hflag⟩

/-- After the request, the user has the overrides that have a row, and the other users have theirs. -/
theorem overrides_replaceOverrides {t : PermissionStore} {overrides : List PermissionOverride}
    (h : store.replaceOverrides userId overrides = some t) :
    t.toPermissionTables = { store.toPermissionTables with userPermissions := t.userPermissions } ∧
      ∀ user item, item ∈ t.overrides user ↔
        if user = userId then
          store.hasRow item.1 = true ∧ ∃ override ∈ overrides, (override.key, override.isAllowed) = item
        else item ∈ store.overrides user := by
  -- By induction on the overrides: each adds its own, where its permission has a row.
  have hloop : ∀ (overrides : List PermissionOverride) (s : PermissionStore),
      overrides.foldlM (PermissionStore.addOverride userId) s = some t →
      t.toPermissionTables = { s.toPermissionTables with userPermissions := t.userPermissions } ∧
        ∀ user item, item ∈ t.overrides user ↔ item ∈ s.overrides user ∨ (user = userId ∧
          s.hasRow item.1 = true ∧ ∃ override ∈ overrides, (override.key, override.isAllowed) = item) := by
    intro overrides
    induction overrides with
    | nil =>
      intro s hs
      obtain rfl := Option.some.inj hs
      exact ⟨rfl, fun user item => by simp⟩
    | cons override overrides ih =>
      intro s hs
      rw [List.foldlM_cons] at hs
      obtain ⟨u, hu, hut⟩ := Option.bind_eq_some_iff.1 hs
      obtain ⟨htables, hadd⟩ := mem_overrides_addOverride hu
      obtain ⟨htables', hrest⟩ := ih u hut
      have hrow : ∀ key, u.hasRow key = s.hasRow key := by
        intro key
        rw [PermissionTables.hasRow, htables]
        rfl
      refine ⟨by rw [htables', htables], fun user item => ?_⟩
      rw [hrest, hadd, hrow, List.exists_mem_cons_iff, or_assoc]
      refine or_congr_right ?_
      constructor
      · rintro (⟨huser, hkey, rfl⟩ | ⟨huser, hkey, hmem⟩)
        · exact ⟨huser, hkey, Or.inl rfl⟩
        · exact ⟨huser, hkey, Or.inr hmem⟩
      · rintro ⟨huser, hkey, rfl | hmem⟩
        · exact Or.inl ⟨huser, hkey, rfl⟩
        · exact Or.inr ⟨huser, hkey, hmem⟩
  obtain ⟨htables, hrest⟩ := hloop overrides (store.deleteOverrides userId) h
  refine ⟨htables, fun user item => ?_⟩
  -- The overrides of the user are deleted first, and those of the others stay.
  have hdeleted : item ∈ (store.deleteOverrides userId).overrides user ↔
      user ≠ userId ∧ item ∈ store.overrides user := by
    rw [mem_overrides_iff, mem_overrides_iff]
    unfold rowOverrides PermissionStore.deleteOverrides
    simp only [Set.mem_ofPred_eq, List.mem_filter, decide_eq_true_eq]
    constructor
    · rintro ⟨permission, hpermission, hkey, row, ⟨hrow, hne⟩, hid, rfl, hallowed⟩
      exact ⟨hne, permission, hpermission, hkey, row, hrow, hid, rfl, hallowed⟩
    · rintro ⟨hne, permission, hpermission, hkey, row, hrow, hid, rfl, hallowed⟩
      exact ⟨permission, hpermission, hkey, row, ⟨hrow, hne⟩, hid, rfl, hallowed⟩
  rw [hrest, hdeleted]
  by_cases huser : user = userId
  · rw [if_pos huser]
    constructor
    · rintro (⟨hne, -⟩ | ⟨-, hitem⟩)
      · exact absurd huser hne
      · exact hitem
    · intro hitem
      exact Or.inr ⟨huser, hitem⟩
  · rw [if_neg huser]
    constructor
    · rintro (⟨-, hitem⟩ | ⟨heq, -⟩)
      · exact hitem
      · exact absurd heq huser
    · intro hitem
      exact Or.inl ⟨huser, hitem⟩

/-! ## A request to a role that passes the checks -/

/-- The items have the shape of the schema, and are registered. -/
def validUpdates (registry : List ModuleDefinition) (permissions : List PermissionUpdate) : Bool :=
  permissions.all fun perm =>
    !emptyText perm.module perm.action && isRegistered registry perm.module perm.action

theorem rejectUpdate_eq_none_iff {registry : List ModuleDefinition} :
    rejectUpdate registry perm = none ↔ isRegistered registry perm.module perm.action = true := by
  unfold rejectUpdate isRegistered
  cases getModule registry perm.module with
  | none => simp
  | some moduleDef => simp

theorem exists_getRolePermissions (store : PermissionStore) {role : Role}
    (hrole : store.role roleId = some role) :
    ∃ set, getRolePermissions store.toPermissionTables roleId = .ok set ∧
      set.permissions.pairs = store.rolePairs (some roleId) := by
  obtain ⟨record, hrecord, hpairs⟩ := exists_roleRecord store (some roleId)
  unfold getRolePermissions
  rw [hrole]
  simp only [bind_eq_ok, pure_eq_ok]
  exact ⟨_, ⟨record, hrecord, rfl⟩, hpairs⟩

/-- The state that is logged has the items of the request applied, with a row or not. -/
theorem exists_newPermissions {registry : List ModuleDefinition} {permissions : List PermissionUpdate}
    (hvalid : validUpdates registry permissions = true) (record : PermissionRecord) :
    ∃ record', permissions.foldlM applyUpdate record = .ok record' ∧
      record'.pairs = applyAll record.pairs (requestItems permissions) := by
  refine exists_foldlM_applyAll (fun record perm hmem => ?_) record
  have hperm := List.all_eq_true.1 hvalid perm hmem
  rw [Bool.and_eq_true] at hperm
  have hname := notMem_of_isRegistered hperm.2
  unfold applyUpdate
  cases hgranted : perm.granted with
  | true =>
    rw [if_pos rfl]
    exact pairs_modify hname mem_grantAction
  | false =>
    rw [if_neg Bool.false_ne_true]
    exact pairs_modify hname mem_denyAction

/-- What such a request does. -/
theorem postRolePermissions_eq {registry : List ModuleDefinition} {permissions : List PermissionUpdate}
    (logFails rollbackFails : Bool) (actor : String) {role : Role} (hrole : store.role roleId = some role)
    (hcustom : role.isCustom = true) (hvalid : validUpdates registry permissions = true) :
    ∃ oldMatrix newPermissions, oldMatrix.pairs = store.rolePairs (some roleId) ∧
      newPermissions.pairs = applyAll (store.rolePairs (some roleId)) (requestItems permissions) ∧
      postRolePermissions registry logFails rollbackFails store actor roleId permissions =
        if logFails then
          ⟨auditFailure, if rollbackFails then store.updateRolePermissions roleId permissions
            else (store.updateRolePermissions roleId permissions).updateRolePermissions roleId
              (rollbackPermissions permissions), none⟩
        else
          ⟨.ok "Role permissions updated successfully" permissions.length,
            store.updateRolePermissions roleId permissions,
            some ⟨actor, .role roleId, .permissions oldMatrix, .permissions newPermissions⟩⟩ := by
  have hempty : (permissions.any fun perm => emptyText perm.module perm.action) = false := by
    rw [List.any_eq_false]
    intro perm hmem
    have hperm := List.all_eq_true.1 hvalid perm hmem
    rw [Bool.and_eq_true, Bool.not_eq_true'] at hperm
    rw [hperm.1]
    exact Bool.false_ne_true
  have hreject : permissions.findSome? (rejectUpdate registry) = none := by
    rw [List.findSome?_eq_none_iff]
    intro perm hmem
    have hperm := List.all_eq_true.1 hvalid perm hmem
    rw [Bool.and_eq_true] at hperm
    exact rejectUpdate_eq_none_iff.2 hperm.2
  obtain ⟨set, hset, hpairs⟩ := exists_getRolePermissions store hrole
  obtain ⟨record, hrecord, hnew⟩ := exists_newPermissions hvalid set.permissions
  refine ⟨set.permissions, record, hpairs, by rw [hnew, hpairs], ?_⟩
  unfold postRolePermissions
  rw [hrole]
  simp only [hcustom, hempty, hreject, hset, hrecord, Bool.not_true, Bool.false_eq_true, if_false]

theorem rejectUpdate_ne_ok {registry : List ModuleDefinition} {message : String} {count : ℕ} :
    rejectUpdate registry perm ≠ some (.ok message count) := by
  unfold rejectUpdate
  cases getModule registry perm.module with
  | none => simp
  | some moduleDef =>
    dsimp only
    split_ifs
    · simp
    · simp

theorem rejectOverride_ne_ok {registry : List ModuleDefinition} {override : PermissionOverride}
    {message : String} {count : ℕ} : rejectOverride registry override ≠ some (.ok message count) := by
  unfold rejectOverride
  cases getModule registry override.module with
  | none => simp
  | some moduleDef =>
    dsimp only
    split_ifs
    · simp
    · simp

/-- A request that succeeds passes the checks. -/
theorem checks_of_postRolePermissions_ok {registry : List ModuleDefinition}
    {permissions : List PermissionUpdate} {logFails rollbackFails : Bool} {actor message : String}
    {count : ℕ}
    (h : (postRolePermissions registry logFails rollbackFails store actor roleId permissions).reply =
      .ok message count) :
    ∃ role, store.role roleId = some role ∧ role.isCustom = true ∧
      validUpdates registry permissions = true := by
  unfold postRolePermissions at h
  cases hrole : store.role roleId with
  | none =>
    rw [hrole] at h
    cases h
  | some role =>
    rw [hrole] at h
    dsimp only at h
    cases hcustom : role.isCustom with
    | false =>
      rw [hcustom] at h
      cases h
    | true =>
      rw [hcustom, Bool.not_true, if_neg Bool.false_ne_true] at h
      cases hempty : permissions.any fun perm => emptyText perm.module perm.action with
      | true =>
        rw [hempty] at h
        cases h
      | false =>
        rw [hempty, if_neg Bool.false_ne_true] at h
        cases hreject : permissions.findSome? (rejectUpdate registry) with
        | some reply =>
          obtain ⟨perm, -, hperm⟩ := List.exists_of_findSome?_eq_some hreject
          rw [hreject] at h
          dsimp only at h
          exact absurd (h ▸ hperm) rejectUpdate_ne_ok
        | none =>
          refine ⟨role, rfl, hcustom, List.all_eq_true.2 fun perm hmem => ?_⟩
          have hnone := List.findSome?_eq_none_iff.1 hreject perm hmem
          have htext := List.any_eq_false.1 hempty perm hmem
          rw [Bool.and_eq_true, Bool.not_eq_true', ← Bool.not_eq_true]
          exact ⟨htext, rejectUpdate_eq_none_iff.1 hnone⟩

/-- What a request to a user does when it succeeds. -/
theorem putUserPermissions_ok {registry : List ModuleDefinition} {overrides : List PermissionOverride}
    {actor message : String} {count : ℕ}
    (h : (putUserPermissions registry false store actor userId overrides).reply = .ok message count) :
    ∃ replaced, store.replaceOverrides userId overrides = some replaced ∧
      putUserPermissions registry false store actor userId overrides =
        ⟨.ok "User permission overrides updated successfully" overrides.length, replaced,
          some ⟨actor, .user userId, .overrides (store.overrideList userId), .overrides overrides⟩⟩ := by
  unfold putUserPermissions at h ⊢
  cases huser : store.user userId with
  | none =>
    rw [huser] at h
    cases h
  | some user =>
    rw [huser] at h
    dsimp only at h ⊢
    cases hempty : overrides.any fun override => emptyText override.module override.action with
    | true =>
      rw [hempty] at h
      cases h
    | false =>
      rw [hempty, if_neg Bool.false_ne_true] at h
      rw [if_neg Bool.false_ne_true]
      cases hreject : overrides.findSome? (rejectOverride registry) with
      | some reply =>
        obtain ⟨override, -, hoverride⟩ := List.exists_of_findSome?_eq_some hreject
        rw [hreject] at h
        dsimp only at h
        exact absurd (h ▸ hoverride) rejectOverride_ne_ok
      | none =>
        rw [hreject] at h
        dsimp only at h ⊢
        cases hreplaced : store.replaceOverrides userId overrides with
        | none =>
          rw [hreplaced] at h
          cases h
        | some replaced => exact ⟨replaced, rfl, rfl⟩

end AlsaqiBackend.Permissions
