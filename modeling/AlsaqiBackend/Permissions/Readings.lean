import AlsaqiBackend.Lib.Checks
import AlsaqiBackend.Lib.Modify
import AlsaqiBackend.Lib.Overrides
import AlsaqiBackend.Permissions.Service
import Mathlib.Data.List.Dedup

/-!
# Four readings of one set

What a user may do is the set of the role's permissions, with the overrides of the user applied to it.
`hasPermission` looks for the override first, `getUserPermissions` applies one after the other, and
`getEffectivePermissions` and `getUserById` leave it to the operators of SQL. As no permission has two
overrides, all of them read the same set (`readings_agree`).
-/

namespace AlsaqiBackend.Permissions

open AlsaqiBackend.Lib AlsaqiBackend.Users

namespace PermissionTables

variable (db : PermissionTables)

/-- The overrides of a user, as grants and revocations. -/
def overrides (userId : String) : List ((String × String) × Bool) :=
  (db.overrideRows userId).map fun row => (row.1.key, row.2.isAllowed = 1)

/-- The permissions of a role. -/
def rolePairs (roleId : Option String) : Set (String × String) :=
  {pair | pair ∈ (db.roleRows roleId).map Permission.key}

/-- What a user may do. -/
def allowed (userId : String) (roleId : Option String) : Set (String × String) :=
  applyAll (db.rolePairs roleId) (db.overrides userId)

end PermissionTables

variable {store : PermissionStore} {db : PermissionTables} {userId module action : String}
  {roleId : Option String}

/-! ## The overrides of a user -/

theorem mem_overrideRows {row : Permission × UserPermission} :
    row ∈ db.overrideRows userId ↔ row.1 ∈ db.permissions ∧ row.2 ∈ db.userPermissions ∧
      row.2.permissionId = row.1.id ∧ row.2.userId = userId := by
  unfold PermissionTables.overrideRows
  simp only [List.mem_flatMap, List.mem_map, List.mem_filter, Bool.and_eq_true, decide_eq_true_eq]
  constructor
  · rintro ⟨permission, hpermission, override, ⟨hoverride, hid, huser⟩, rfl⟩
    exact ⟨hpermission, hoverride, hid, huser⟩
  · rintro ⟨hpermission, hoverride, hid, huser⟩
    exact ⟨row.1, hpermission, row.2, ⟨hoverride, hid, huser⟩, rfl⟩

theorem mem_roleRows {permission : Permission} : permission ∈ db.roleRows roleId ↔
    permission ∈ db.permissions ∧
      ∃ row ∈ db.rolePermissions, row.permissionId = permission.id ∧ some row.roleId = roleId := by
  unfold PermissionTables.roleRows
  simp only [List.mem_flatMap, List.mem_map, List.mem_filter, Bool.and_eq_true, decide_eq_true_eq]
  constructor
  · rintro ⟨permission, hpermission, row, ⟨hrow, hid, hrole⟩, rfl⟩
    exact ⟨hpermission, row, hrow, hid, hrole⟩
  · rintro ⟨hpermission, row, hrow, hid, hrole⟩
    exact ⟨permission, hpermission, row, ⟨hrow, hid, hrole⟩, rfl⟩

/-- No permission has two overrides for a user. -/
theorem overrides_nodup (store : PermissionStore) (userId : String) :
    ((store.overrides userId).map Prod.fst).Nodup := by
  have hkeys : (store.overrides userId).map Prod.fst =
      store.permissions.flatMap fun permission =>
        (store.userPermissions.filter fun row =>
          row.permissionId = permission.id && row.userId = userId).map fun _ => permission.key := by
    unfold PermissionTables.overrides PermissionTables.overrideRows
    rw [List.map_map, List.map_flatMap]
    simp only [List.map_map]
    rfl
  rw [hkeys, List.nodup_flatMap]
  constructor
  · -- One permission has one row of the user at most.
    intro permission _
    have hfiltered := store.uniqueOverride.sublist
      ((List.filter_sublist (p := fun row =>
        row.permissionId = permission.id && row.userId = userId) (l := store.userPermissions)).map
        fun row => (row.userId, row.permissionId))
    have hone := (length_le_one_iff_of_nodup hfiltered).2 (by
      intro x hx y hy
      simp only [List.mem_filter, Bool.and_eq_true, decide_eq_true_eq] at hx hy
      rw [hx.2.1, hx.2.2, hy.2.1, hy.2.2])
    rw [List.map_const', List.nodup_replicate]
    exact hone
  · -- The rows of two permissions have two keys.
    refine List.Pairwise.imp ?_ (List.pairwise_map.1 store.uniquePermission)
    intro p q hne
    apply List.disjoint_left.2
    intro key hp hq
    obtain ⟨_, -, rfl⟩ := List.mem_map.1 hp
    obtain ⟨_, -, heq⟩ := List.mem_map.1 hq
    exact hne heq.symm

/-! ## hasPermission -/

/-- Looking for the override first is what the overrides make of the role's permissions. -/
theorem resolvePermission_iff (store : PermissionStore) (userId module action : String)
    (roleId : Option String) :
    store.resolvePermission userId module action roleId = true ↔
      (module, action) ∈ store.allowed userId roleId := by
  unfold PermissionTables.allowed PermissionTables.resolvePermission
  rw [mem_applyAll_iff, lastSays_eq_firstSays (overrides_nodup store userId)]
  have hfirst : firstSays (store.overrides userId) (module, action) =
      ((store.overrideRows userId).find? fun row => row.1.key = (module, action)).map
        fun row => decide (row.2.isAllowed = 1) := by
    unfold firstSays PermissionTables.overrides
    rw [List.find?_map, Option.map_map]
    rfl
  rw [hfirst]
  cases (store.overrideRows userId).find? fun row => row.1.key = (module, action) with
  | some row => simp
  | none =>
    simp only [Option.map_none, reduceCtorEq, false_or, true_and, Bool.and_eq_true, List.any_eq_true,
      decide_eq_true_eq, PermissionTables.rolePairs, Set.mem_ofPred_eq, List.mem_map]
    refine and_iff_right_of_imp ?_
    rintro ⟨permission, hmem, -⟩
    obtain ⟨-, row, -, -, hrole⟩ := mem_roleRows.1 hmem
    rw [← hrole]
    rfl

/-! ## getUserPermissions -/

/-- The pairs of a module and an action that a record has. -/
def PermissionRecord.pairs (permissions : PermissionRecord) : Set (String × String) :=
  {pair | pair.2 ∈ (permissions.get pair.1).getD []}

/-- A change of the actions of a module that grants or denies one action. -/
theorem pairs_modify {permissions : PermissionRecord} {f : List String → List String} {granted : Bool}
    (hnames : module ∉ inheritedNames)
    (hf : ∀ actions a, a ∈ f actions ↔ if action = a then granted = true else a ∈ actions) :
    ∃ permissions', permissions.modify module f = .ok permissions' ∧
      permissions'.pairs = applyOne permissions.pairs ((module, action), granted) := by
  refine ⟨_, if_neg hnames, ?_⟩
  ext ⟨m, a⟩
  rw [mem_applyOne_iff]
  unfold PermissionRecord.pairs
  rw [Set.mem_ofPred_eq, Set.mem_ofPred_eq, JsMap.get_set]
  by_cases hm : m = module
  · subst hm
    simp only [if_true, Option.getD_some, hf, Prod.mk.injEq, true_and]
  · simp only [if_neg hm, Prod.mk.injEq, Ne.symm hm, false_and, if_false]

theorem mem_grantAction (actions : List String) (a : String) :
    a ∈ grantAction action actions ↔ if action = a then true = true else a ∈ actions := by
  unfold grantAction
  by_cases ha : action = a
  · subst ha
    by_cases hmem : action ∈ actions
    · simp [hmem]
    · simp [hmem]
  · by_cases hmem : action ∈ actions
    · simp [hmem, ha]
    · simp [hmem, ha, Ne.symm ha]

theorem mem_denyAction (actions : List String) (a : String) :
    a ∈ denyAction action actions ↔ if action = a then false = true else a ∈ actions := by
  unfold denyAction
  by_cases ha : action = a
  · simp [ha]
  · simp [ha, Ne.symm ha]

/-- The record after the first loop has the permissions of the role. -/
theorem exists_roleRecord (store : PermissionStore) (roleId : Option String) :
    ∃ record, (store.roleRows roleId).foldlM applyRole JsMap.empty = .ok record ∧
      record.pairs = store.rolePairs roleId := by
  have hrole : ∀ record : PermissionRecord, ∀ row ∈ store.roleRows roleId,
      ∃ record', applyRole record row = .ok record' ∧
        record'.pairs = applyOne record.pairs (row.key, true) := by
    intro record row hmem
    exact pairs_modify (store.names row (mem_roleRows.1 hmem).1) mem_grantAction
  obtain ⟨record, hrecord, hpairs⟩ := exists_foldlM_applyAll hrole JsMap.empty
  refine ⟨record, hrecord, ?_⟩
  have hgrants : (store.roleRows roleId).map (fun row => (row.key, true)) =
      ((store.roleRows roleId).map Permission.key).map (·, true) := by
    rw [List.map_map]
    rfl
  rw [hpairs, hgrants]
  ext pair
  rw [mem_applyAll_grants]
  exact or_iff_right List.not_mem_nil

/-- The record after both loops has what the user may do. -/
theorem exists_record (store : PermissionStore) (userId : String) (roleId : Option String) :
    ∃ roleRecord record, (store.roleRows roleId).foldlM applyRole JsMap.empty = .ok roleRecord ∧
      (store.overrideRows userId).foldlM applyOverride roleRecord = .ok record ∧
      record.pairs = store.allowed userId roleId := by
  have hoverride : ∀ record : PermissionRecord, ∀ row ∈ store.overrideRows userId,
      ∃ record', applyOverride record row = .ok record' ∧
        record'.pairs = applyOne record.pairs (row.1.key, row.2.isAllowed = 1) := by
    intro record row hmem
    have hname := store.names row.1 (mem_overrideRows.1 hmem).1
    by_cases hallowed : row.2.isAllowed = 1
    · rw [applyOverride, if_pos hallowed, decide_eq_true hallowed]
      exact pairs_modify hname mem_grantAction
    · rw [applyOverride, if_neg hallowed, decide_eq_false hallowed]
      exact pairs_modify hname mem_denyAction
  obtain ⟨roleRecord, hroleRecord, hrolePairs⟩ := exists_roleRecord store roleId
  obtain ⟨record, hrecord, hpairs⟩ := exists_foldlM_applyAll hoverride roleRecord
  refine ⟨roleRecord, record, hroleRecord, hrecord, ?_⟩
  rw [hpairs, hrolePairs]
  rfl

/-- The modules that are left have the same pairs. -/
theorem has_cleanUp_iff {permissions : PermissionRecord} :
    (∃ actions, permissions.cleanUp.get module = some actions ∧ action ∈ actions) ↔
      (module, action) ∈ permissions.pairs := by
  unfold PermissionRecord.cleanUp PermissionRecord.pairs
  rw [Set.mem_ofPred_eq]
  show (∃ actions, (permissions.get module).filter _ = some actions ∧ action ∈ actions) ↔ _
  cases permissions.get module with
  | none => simp
  | some actions =>
    simp only [Option.filter_eq_some_iff, Option.some.injEq, decide_eq_true_eq, Option.getD_some]
    constructor
    · rintro ⟨_, ⟨rfl, -⟩, hmem⟩
      exact hmem
    · intro hmem
      exact ⟨actions, ⟨rfl, List.ne_nil_of_mem hmem⟩, hmem⟩

/-! ## The operators of SQL -/

theorem mem_overridePairs_iff {pair : String × String} {isAllowed : ℤ} :
    pair ∈ store.overridePairs userId isAllowed ↔
      ∃ row ∈ store.overrideRows userId, row.2.isAllowed = isAllowed ∧ row.1.key = pair := by
  unfold PermissionTables.overridePairs
  simp only [List.mem_map, List.mem_filter, decide_eq_true_eq, and_assoc]

/-- `UNION` and then `EXCEPT` is what the overrides make of the role's permissions. -/
theorem mem_effectivePairs_iff (store : PermissionStore) (userId : String) (roleId : Option String)
    (pair : String × String) :
    pair ∈ store.effectivePairs userId roleId ↔ pair ∈ store.allowed userId roleId := by
  have hoverrides : ∀ granted : Bool, (pair, granted) ∈ store.overrides userId ↔
      pair ∈ store.overridePairs userId (if granted then 1 else 0) := by
    intro granted
    rw [mem_overridePairs_iff, PermissionTables.overrides, List.mem_map]
    refine exists_congr fun row => and_congr_right fun hmem => ?_
    rw [Prod.mk.injEq, and_comm]
    refine and_congr_left fun _ => ?_
    rcases store.flags row.2 (mem_overrideRows.1 hmem).2.1 with hflag | hflag
    · cases granted with
      | true => simp [hflag]
      | false => simp [hflag]
    · cases granted with
      | true => simp [hflag]
      | false => simp [hflag]
  unfold PermissionTables.effectivePairs PermissionTables.allowed
  rw [applyAll_eq (overrides_nodup store userId), Set.mem_sdiff, Set.mem_union, Set.mem_ofPred_eq,
    Set.mem_ofPred_eq, hoverrides, hoverrides]
  simp only [List.mem_filter, List.mem_dedup, List.mem_append, decide_eq_true_eq, if_true,
    Bool.false_eq_true, if_false]
  rfl

/-! ## The readings -/

theorem hasPermission_iff {registry : List ModuleDefinition} {user : Employee}
    (huser : store.user userId = some user) (hrole : user.role ≠ "Admin")
    (hregistered : isRegistered registry module action = true) :
    store.hasPermission registry none userId module action = true ↔
      (module, action) ∈ store.allowed userId user.roleId := by
  rw [← resolvePermission_iff, PermissionTables.hasPermission, huser]
  dsimp only
  rw [if_neg hrole, hregistered, Bool.not_true, if_neg Bool.false_ne_true, Option.getD_none]

theorem exists_getUserPermissions {user : Employee} (huser : store.user userId = some user) :
    ∃ set, store.getUserPermissions userId = .ok set ∧
      ∀ module action, set.has module action ↔ (module, action) ∈ store.allowed userId user.roleId := by
  obtain ⟨roleRecord, record, hroleRecord, hrecord, hpairs⟩ := exists_record store userId user.roleId
  unfold PermissionTables.getUserPermissions
  rw [huser]
  simp only [bind_eq_ok, pure_eq_ok]
  refine ⟨_, ⟨roleRecord, hroleRecord, record, hrecord, rfl⟩, fun module action => ?_⟩
  rw [← hpairs]
  exact has_cleanUp_iff

/-- The four functions agree on every user who is no Admin, and every action of a registered module. -/
theorem readings_agree (registry : List ModuleDefinition) (store : PermissionStore) {userId : String}
    {user : Employee} (huser : store.user userId = some user) (hrole : user.role ≠ "Admin")
    {module action : String} (hregistered : isRegistered registry module action = true) :
    ∃ set profile, store.getUserPermissions userId = .ok set ∧ store.getUserById userId = some profile ∧
      (store.hasPermission registry none userId module action = true ↔ set.has module action) ∧
      (store.hasPermission registry none userId module action = true ↔
        (module, action) ∈ store.getEffectivePermissions userId) ∧
      (store.hasPermission registry none userId module action = true ↔
        (module, action) ∈ profile.permissions) := by
  have hid : user.id = userId := (of_find?_key huser).2
  obtain ⟨set, hset, hhas⟩ := exists_getUserPermissions huser
  have hprofile : store.getUserById userId = some
      ⟨user, (user.roleId.bind store.role).map Role.name, store.effectivePairs user.id user.roleId⟩ := by
    rw [PermissionTables.getUserById, huser]
    rfl
  refine ⟨set, _, hset, hprofile, ?_, ?_, ?_⟩
  · rw [hasPermission_iff huser hrole hregistered, hhas]
  · rw [hasPermission_iff huser hrole hregistered, PermissionTables.getEffectivePermissions, huser]
    exact (mem_effectivePairs_iff store userId user.roleId (module, action)).symm
  · rw [hasPermission_iff huser hrole hregistered, hid]
    exact (mem_effectivePairs_iff store userId user.roleId (module, action)).symm

/-- A store with an auditor, who has one permission by the role, and one override that denies it. -/
def auditStore : PermissionStore where
  users := [{ employee "alice" "EMP-1001-A1B2C3" with roleId := some "role-1" }]
  roles := [⟨"role-1", "Auditor", false⟩]
  permissions := [⟨"permission-1", "Reports", "View"⟩, ⟨"permission-2", "Reports", "Edit"⟩]
  rolePermissions := [⟨"role-1", "permission-1"⟩]
  userPermissions := [⟨"alice", "permission-1", 0⟩, ⟨"alice", "permission-2", 1⟩]
  uniqueId := by decide
  uniquePermission := by decide
  uniqueOverride := by decide
  flags := by decide
  names := by decide

/-- The override decides: the functions agree that the auditor may not view reports. -/
theorem readings_agree_denied :
    ∃ set profile, auditStore.getUserPermissions "alice" = .ok set ∧
      auditStore.getUserById "alice" = some profile ∧
      (auditStore.hasPermission [⟨"Reports", ["View"], rfl, rfl⟩] none "alice" "Reports" "View" = true ↔
        set.has "Reports" "View") ∧
      (auditStore.hasPermission [⟨"Reports", ["View"], rfl, rfl⟩] none "alice" "Reports" "View" = true ↔
        ("Reports", "View") ∈ auditStore.getEffectivePermissions "alice") ∧
      (auditStore.hasPermission [⟨"Reports", ["View"], rfl, rfl⟩] none "alice" "Reports" "View" = true ↔
        ("Reports", "View") ∈ profile.permissions) :=
  readings_agree _ auditStore (by rfl) (by decide) (by decide)

end AlsaqiBackend.Permissions
