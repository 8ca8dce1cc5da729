import AlsaqiBackend.Permissions.Admin

/-!
# Undoing a change of a role

When the audit log cannot be written, `POST /roles/:id/permissions` undoes the change: it applies the
items of the request again, each one reversed. That restores the permissions of the role only where the
request did change them.

`undone_iff` says when: exactly when the last item for every permission with a row asks for what the role
did not have before, or, where the undoing fails as well, for what it had.
-/

namespace AlsaqiBackend.Permissions

open AlsaqiBackend.Lib AlsaqiBackend.Users

variable {store : PermissionStore} {roleId : String} {permissions : List PermissionUpdate}

theorem storedItems_rollbackPermissions (db : PermissionTables) :
    storedItems db (rollbackPermissions permissions) =
      (storedItems db permissions).map fun item => (item.1, !item.2) := by
  unfold storedItems requestItems rollbackPermissions
  rw [List.map_map, List.filter_map, List.filter_map, List.map_map]
  rfl

/-- The reversed items are applied to what the items have left. -/
theorem rolePairs_rollback (store : PermissionStore) (roleId : String)
    (permissions : List PermissionUpdate) :
    ((store.updateRolePermissions roleId permissions).updateRolePermissions roleId
        (rollbackPermissions permissions)).rolePairs (some roleId) =
      applyAll (applyAll (store.rolePairs (some roleId)) (storedItems store.toPermissionTables permissions))
        ((storedItems store.toPermissionTables permissions).map fun item => (item.1, !item.2)) := by
  rw [rolePairs_updateRolePermissions, rolePairs_updateRolePermissions, ← storedItems_rollbackPermissions]
  rfl

/-- After a request whose entry could not be written, the role has the permissions that it had exactly
when the last item for every permission asks for a change, or for none when the undoing fails. -/
theorem undone_iff (registry : List ModuleDefinition) (rollbackFails : Bool) (store : PermissionStore)
    (actor roleId : String) (permissions : List PermissionUpdate) {role : Role}
    (hrole : store.role roleId = some role) (hcustom : role.isCustom = true)
    (hvalid : validUpdates registry permissions = true) :
    (postRolePermissions registry true rollbackFails store actor roleId permissions).store.rolePairs
        (some roleId) = store.rolePairs (some roleId) ↔
      ∀ pair granted, lastSays (storedItems store.toPermissionTables permissions) pair = some granted →
        (pair ∈ store.rolePairs (some roleId) ↔ granted = rollbackFails) := by
  obtain ⟨oldMatrix, newPermissions, -, -, hpost⟩ :=
    postRolePermissions_eq true rollbackFails actor hrole hcustom hvalid
  rw [hpost, if_pos rfl]
  cases rollbackFails with
  | true =>
    rw [if_pos rfl, rolePairs_updateRolePermissions, applyAll_eq_self_iff]
  | false =>
    rw [if_neg Bool.false_ne_true, rolePairs_rollback, applyAll_undo_eq_iff]

/-- A custom role that may view reports. -/
def customRoleStore : PermissionStore :=
  { auditStore with
    users := []
    roles := [⟨"role-1", "Reader", true⟩]
    userPermissions := []
    uniqueOverride := by decide
    flags := by decide }

/-- A registry with one module. -/
def reportsRegistry : List ModuleDefinition := [⟨"Reports", ["View", "Edit"], rfl, rfl⟩]

/-- A grant that is a change is undone. -/
theorem undone_iff_new_grant :
    (postRolePermissions reportsRegistry true false customRoleStore "admin-1" "role-1"
        [⟨"Reports", "Edit", true⟩]).store.rolePairs (some "role-1") =
      customRoleStore.rolePairs (some "role-1") :=
  (undone_iff reportsRegistry false customRoleStore "admin-1" "role-1" [⟨"Reports", "Edit", true⟩]
    rfl rfl rfl).2 (by
      intro pair granted hlast
      have hmem := mem_of_lastSays_eq_some hlast
      have hitem : (pair, granted) = (("Reports", "Edit"), true) := List.mem_singleton.1 hmem
      obtain ⟨rfl, rfl⟩ := Prod.mk.inj hitem
      refine iff_of_false ?_ (by decide)
      show _ ∉ List.map _ _
      decide)

/-- A grant of what the role had is undone as well: the role loses the permission. -/
theorem undone_too_much :
    ("Reports", "View") ∈ customRoleStore.rolePairs (some "role-1") ∧
      ("Reports", "View") ∉ (postRolePermissions reportsRegistry true false customRoleStore "admin-1"
        "role-1" [⟨"Reports", "View", true⟩]).store.rolePairs (some "role-1") := by
  constructor
  · show _ ∈ List.map _ _
    decide
  · show _ ∉ List.map _ _
    decide

end AlsaqiBackend.Permissions
