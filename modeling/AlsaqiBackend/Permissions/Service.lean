import AlsaqiBackend.Lib.JsMap
import AlsaqiBackend.Users.EmployeeId

/-!
# Permissions of roles and of users

A role has permissions, and a user has overrides: single permissions that are granted or denied. This
module has the tables, the registry of modules, and the four functions that say what a user may do:
`hasPermission`, `getUserPermissions`, `getEffectivePermissions` and `UserService.getUserById`. Each of
them combines the two in its own way; `Readings.lean` compares them.
-/

namespace AlsaqiBackend.Permissions

open AlsaqiBackend.Lib AlsaqiBackend.Users

/-! ## Tables -/

structure Role where
  id : String
  name : String
  isCustom : Bool
  deriving DecidableEq, Repr

structure Permission where
  id : String
  module : String
  action : String
  deriving DecidableEq, Repr

structure RolePermission where
  roleId : String
  permissionId : String
  deriving DecidableEq, Repr

structure UserPermission where
  userId : String
  permissionId : String
  isAllowed : ℤ
  deriving DecidableEq, Repr

structure PermissionTables where
  users : List Employee
  roles : List Role
  permissions : List Permission
  rolePermissions : List RolePermission
  userPermissions : List UserPermission
  deriving DecidableEq, Repr

def Permission.key (permission : Permission) : String × String := (permission.module, permission.action)

/-- The names that every object of JavaScript inherits. -/
def inheritedNames : List String :=
  ["constructor", "__defineGetter__", "__defineSetter__", "hasOwnProperty", "__lookupGetter__",
    "__lookupSetter__", "isPrototypeOf", "propertyIsEnumerable", "toString", "valueOf", "__proto__",
    "toLocaleString"]

/-- The tables with their constraints. The modules are those of the registry, whose names begin with a
capital letter. -/
structure PermissionStore extends PermissionTables where
  uniqueId : (permissions.map Permission.id).Nodup
  uniquePermission : (permissions.map Permission.key).Nodup
  uniqueOverride : (userPermissions.map fun row => (row.userId, row.permissionId)).Nodup
  flags : ∀ row ∈ userPermissions, row.isAllowed = 0 ∨ row.isAllowed = 1
  names : ∀ permission ∈ permissions, permission.module ∉ inheritedNames

/-- The user has a row for the permission. -/
def PermissionTables.HasOverride (db : PermissionTables) (userId permissionId : String) : Prop :=
  (userId, permissionId) ∈ db.userPermissions.map fun row => (row.userId, row.permissionId)

instance (db : PermissionTables) (userId permissionId : String) :
    Decidable (db.HasOverride userId permissionId) :=
  inferInstanceAs (Decidable ((userId, permissionId) ∈ _))

/-! ## The registry -/

/-- `PASCAL_CASE_PATTERN`, and one to fifty characters. -/
def isModuleName (name : String) : Bool :=
  match name.toList with
  | [] => false
  | c :: cs => c.isUpper && cs.all Char.isAlphanum && cs.length < 50

def VALID_ACTIONS : List String := ["View", "Create", "Edit", "Delete", "Approve"]

/-- At least one action, and no others than these. -/
def areValidActions (actions : List String) : Bool :=
  actions ≠ [] && actions.all fun action => action ∈ VALID_ACTIONS

/-- A definition that `register` has accepted. -/
structure ModuleDefinition where
  name : String
  actions : List String
  named : isModuleName name = true
  valid : areValidActions actions = true
  deriving DecidableEq, Repr

/-- `ModuleRegistry.getModule`. -/
def getModule (registry : List ModuleDefinition) (name : String) : Option ModuleDefinition :=
  registry.find? fun definition => definition.name = name

/-- The module is registered, and has the action. -/
def isRegistered (registry : List ModuleDefinition) (module action : String) : Bool :=
  (getModule registry module).any fun moduleDef => action ∈ moduleDef.actions

/-- No module has a name that objects inherit. -/
theorem notMem_inheritedNames {name : String} (h : isModuleName name = true) : name ∉ inheritedNames := by
  have hnone : ∀ name ∈ inheritedNames, isModuleName name = false := by decide
  intro hmem
  rw [hnone name hmem] at h
  cases h

theorem getModule_name {registry : List ModuleDefinition} {name : String} {definition : ModuleDefinition}
    (h : getModule registry name = some definition) : definition.name = name := by
  simpa using List.find?_some h

/-- A registered module has none. -/
theorem notMem_of_isRegistered {registry : List ModuleDefinition} {module action : String}
    (h : isRegistered registry module action = true) : module ∉ inheritedNames := by
  obtain ⟨moduleDef, hmodule, -⟩ := (Option.any_eq_true _ _).1 h
  rw [← getModule_name hmodule]
  exact notMem_inheritedNames moduleDef.named

namespace PermissionTables

variable (db : PermissionTables)

/-! ## Queries -/

/-- `SELECT … FROM users WHERE id = ?`. -/
def user (id : String) : Option Employee := db.users.find? fun user => user.id = id

def role (id : String) : Option Role := db.roles.find? fun role => role.id = id

/-- `SELECT id FROM permissions WHERE module = ? AND action = ?`. -/
def permissionId (key : String × String) : Option String :=
  (db.permissions.find? fun permission => permission.key = key).map Permission.id

/-- `permissions` joined with the `role_permissions` of a role. There are none for a role that is null. -/
def roleRows (roleId : Option String) : List Permission :=
  db.permissions.flatMap fun permission =>
    (db.rolePermissions.filter fun row =>
      row.permissionId = permission.id && some row.roleId = roleId).map fun _ => permission

/-- `permissions` joined with the `user_permissions` of a user. -/
def overrideRows (userId : String) : List (Permission × UserPermission) :=
  db.permissions.flatMap fun permission =>
    (db.userPermissions.filter fun row =>
      row.permissionId = permission.id && row.userId = userId).map (permission, ·)

/-! ## hasPermission -/

/-- `resolvePermission`. -/
def resolvePermission (userId module action : String) (roleId : Option String) : Bool :=
  match (db.overrideRows userId).find? fun row => row.1.key = (module, action) with
  | some (_, userOverride) => userOverride.isAllowed = 1
  | none => roleId.isSome && (db.roleRows roleId).any fun permission => permission.key = (module, action)

/-- `hasPermission`; `cached` is what `cache.get` returns. -/
def hasPermission (registry : List ModuleDefinition) (cached : Option Bool)
    (userId module action : String) : Bool :=
  match db.user userId with
  | none => false
  | some user =>
    if user.role = "Admin" then true
    else if !isRegistered registry module action then false
    else cached.getD (db.resolvePermission userId module action user.roleId)

end PermissionTables

/-! ## getUserPermissions -/

/-- `Record<string, PermissionAction[]>`. -/
abbrev PermissionRecord := JsMap String (List String)

/-- `if (!permissions[m]) permissions[m] = [];`, and then `permissions[m]` is changed. A name that
objects inherit has a value already, which is no array. -/
def PermissionRecord.modify (permissions : PermissionRecord) (module : String)
    (f : List String → List String) : Except String PermissionRecord :=
  if module ∈ inheritedNames then throw "permissions[module] is not an array"
  else .ok (permissions.set module (f ((permissions.get module).getD [])))

/-- Add the action if it is not there. -/
def grantAction (action : String) (actions : List String) : List String :=
  if action ∈ actions then actions else actions ++ [action]

def denyAction (action : String) (actions : List String) : List String :=
  actions.filter fun a => a ≠ action

/-- The loop over the role permissions. -/
def applyRole (permissions : PermissionRecord) (row : Permission) : Except String PermissionRecord :=
  permissions.modify row.module (grantAction row.action)

/-- The loop over the overrides. -/
def applyOverride (permissions : PermissionRecord) (row : Permission × UserPermission) :
    Except String PermissionRecord :=
  permissions.modify row.1.module
    (if row.2.isAllowed = 1 then grantAction row.1.action else denyAction row.1.action)

/-- The modules without actions are deleted. -/
def PermissionRecord.cleanUp (permissions : PermissionRecord) : PermissionRecord :=
  fun module => (permissions.get module).filter fun actions => actions ≠ []

structure PermissionOverride where
  module : String
  action : String
  isAllowed : Bool
  deriving DecidableEq, Repr

structure UserPermissionSet where
  userId : String
  role : String
  roleId : String
  isCustomRole : Bool
  permissions : PermissionRecord
  overrides : List PermissionOverride

/-- The set has the permission. -/
def UserPermissionSet.has (set : UserPermissionSet) (module action : String) : Prop :=
  ∃ actions, set.permissions.get module = some actions ∧ action ∈ actions

namespace PermissionTables

variable (db : PermissionTables)

def getUserPermissions (userId : String) : Except String UserPermissionSet :=
  match db.user userId with
  | none => throw ("User " ++ userId ++ " not found")
  | some user => do
    let role := user.roleId.bind db.role
    let userOverrides := db.overrideRows userId
    let permissions ← (db.roleRows user.roleId).foldlM applyRole JsMap.empty
    let permissions ← userOverrides.foldlM applyOverride permissions
    return {
      userId := userId
      role := (((role.bind fun role => orNull role.name)).or (orNull user.role)).getD "Unknown"
      roleId := user.roleId.getD ""
      isCustomRole := role.any Role.isCustom
      permissions := permissions.cleanUp
      overrides := userOverrides.map fun row => ⟨row.1.module, row.1.action, row.2.isAllowed = 1⟩ }

/-! ## getEffectivePermissions and getUserById -/

/-- The pairs of the overrides with this flag. -/
def overridePairs (userId : String) (isAllowed : ℤ) : List (String × String) :=
  ((db.overrideRows userId).filter fun row => row.2.isAllowed = isAllowed).map fun row => row.1.key

/-- `SELECT … UNION SELECT … EXCEPT SELECT …`. The two operators bind alike, from the left. -/
def effectivePairs (userId : String) (roleId : Option String) : List (String × String) :=
  let union := ((db.roleRows roleId).map Permission.key ++ db.overridePairs userId 1).dedup
  union.filter fun pair => pair ∉ db.overridePairs userId 0

def getEffectivePermissions (userId : String) : List (String × String) :=
  db.effectivePairs userId ((db.user userId).bind Employee.roleId)

/-- What `getUserById` returns. -/
structure UserProfile extends Employee where
  roleName : Option String
  permissions : List (String × String)
  deriving DecidableEq, Repr

def getUserById (id : String) : Option UserProfile :=
  (db.user id).map fun user => {
    toEmployee := user
    roleName := (user.roleId.bind db.role).map Role.name
    permissions := db.effectivePairs user.id user.roleId }

end PermissionTables

end AlsaqiBackend.Permissions
