import AlsaqiBackend.Lib.Run
import AlsaqiBackend.Lib.Separator
import AlsaqiBackend.Permissions.Admin

/-!
# The permission cache

`hasPermission` keeps its answers in a `PermissionCache`, and whoever changes permissions has the entries
of the users concerned removed. This module has the cache, and the calls of `hasPermission` and the
changes side by side: a step is one statement in the database, or what a request does between two
`await`s. Redis is not available, so that an invalidation only concerns this cache.

The calls and the changes also record what the rule of `CacheFreshness.lean` speaks of: the states of the
database have numbers, and every change has the number of the state that it made.
-/

namespace AlsaqiBackend.Permissions

open AlsaqiBackend.Lib AlsaqiBackend.Users

/-! ## The cache -/

structure CacheEntry where
  value : Bool
  expiresAt : ℤ
  deriving DecidableEq, Repr

/-- The entries of the `Map` in its order, the least recently used one first. -/
structure PermissionCache where
  store : List (String × CacheEntry)
  maxEntries : ℕ
  ttlMs : ℤ
  deriving DecidableEq, Repr

def cacheKey (userId module action : String) : String :=
  "perm_" ++ userId ++ "_" ++ module ++ "_" ++ action

/-- What the keys of a user begin with. -/
def userPrefix (userId : String) : String := "perm_" ++ userId ++ "_"

namespace PermissionCache

variable (cache : PermissionCache)

/-- `get`, and the cache that it leaves. -/
def get (now : ℤ) (key : String) : Option Bool × PermissionCache :=
  match cache.store.find? fun e => e.1 = key with
  | none => (none, cache)
  | some (_, entry) =>
    let others := cache.store.filter fun e => e.1 ≠ key
    if entry.expiresAt < now then (none, { cache with store := others })
    else (some entry.value, { cache with store := others ++ [(key, entry)] })

def set (now : ℤ) (key : String) (value : Bool) : PermissionCache :=
  let others :=
    if cache.store.any fun e => e.1 = key then cache.store.filter fun e => e.1 ≠ key
    else if cache.maxEntries ≤ cache.store.length then cache.store.drop 1
    else cache.store
  { cache with store := others ++ [(key, ⟨value, now + cache.ttlMs⟩)] }

def invalidateUser (userId : String) : PermissionCache :=
  { cache with store := cache.store.filter fun e => !(userPrefix userId).toList.isPrefixOf e.1.toList }

end PermissionCache

section

variable {registry : List ModuleDefinition} {cache : PermissionCache} {now : ℤ} {key : String} {value : Bool}
  {userId module action : String} {e : String × CacheEntry}

/-- A registered module and its actions have no underscore. -/
theorem underscore_notMem (h : isRegistered registry module action = true) :
    '_' ∉ module.toList ∧ '_' ∉ action.toList := by
  obtain ⟨moduleDef, hmodule, haction⟩ := (Option.any_eq_true _ _).1 h
  rw [decide_eq_true_eq] at haction
  constructor
  · have hnamed := moduleDef.named
    rw [getModule_name hmodule] at hnamed
    unfold isModuleName at hnamed
    intro hmem
    cases hlist : module.toList with
    | nil =>
      rw [hlist] at hmem
      cases hmem
    | cons c cs =>
      rw [hlist] at hmem hnamed
      simp only [Bool.and_eq_true, List.all_eq_true] at hnamed
      obtain ⟨⟨hupper, halphanum⟩, -⟩ := hnamed
      obtain rfl | hrest := List.mem_cons.1 hmem
      · exact absurd hupper (by decide)
      · exact absurd (halphanum '_' hrest) (by decide)
  · have hvalid := moduleDef.valid
    unfold areValidActions at hvalid
    rw [Bool.and_eq_true, List.all_eq_true] at hvalid
    have hnone : ∀ action ∈ VALID_ACTIONS, '_' ∉ action.toList := by decide
    exact hnone action (of_decide_eq_true (hvalid.2 action haction))

/-- The key determines the user, the module and the action, when these are registered. -/
theorem cacheKey_inj {userId' module' action' : String} (h : isRegistered registry module action = true)
    (h' : isRegistered registry module' action' = true)
    (heq : cacheKey userId module action = cacheKey userId' module' action') :
    userId = userId' ∧ module = module' ∧ action = action' := by
  have hlist : ∀ userId module action : String, (cacheKey userId module action).toList =
      (('p' :: 'e' :: 'r' :: 'm' :: '_' :: userId.toList) ++ '_' :: module.toList) ++
        '_' :: action.toList := by
    intro userId module action
    unfold cacheKey
    simp only [String.toList_append]
    simp
  obtain ⟨hmodule, haction⟩ := underscore_notMem h
  obtain ⟨hmodule', haction'⟩ := underscore_notMem h'
  have hcut := congrArg String.toList heq
  rw [hlist, hlist, cut_at_last haction haction', cut_at_last hmodule hmodule'] at hcut
  obtain ⟨⟨huser, hmod⟩, hact⟩ := hcut
  simp only [List.cons.injEq, true_and] at huser
  exact ⟨String.toList_inj.1 huser, String.toList_inj.1 hmod, String.toList_inj.1 hact⟩

theorem mem_of_mem_get (h : e ∈ (cache.get now key).2.store) : e ∈ cache.store := by
  unfold PermissionCache.get at h
  split at h
  · exact h
  · rename_i key' entry hfound
    obtain ⟨hmem, rfl⟩ := of_find?_key hfound
    dsimp only at h
    split_ifs at h
    · exact List.mem_of_mem_filter h
    · rcases List.mem_append.1 h with hold | hnew
      · exact List.mem_of_mem_filter hold
      · rw [List.mem_singleton.1 hnew]
        exact hmem

/-- What the cache returns is the value of an entry. -/
theorem exists_of_get_eq_some (h : (cache.get now key).1 = some value) :
    ∃ entry, (key, entry) ∈ cache.store ∧ entry.value = value := by
  unfold PermissionCache.get at h
  split at h
  · cases h
  · rename_i key' entry hfound
    obtain ⟨hmem, rfl⟩ := of_find?_key hfound
    dsimp only at h
    split_ifs at h
    exact ⟨entry, hmem, Option.some.inj h⟩

theorem mem_of_mem_set (h : e ∈ (cache.set now key value).store) :
    e ∈ cache.store ∨ (e.1 = key ∧ e.2.value = value) := by
  unfold PermissionCache.set at h
  rcases List.mem_append.1 h with hold | hnew
  · left
    split_ifs at hold
    · exact List.mem_of_mem_filter hold
    · exact List.mem_of_mem_drop hold
    · exact hold
  · right
    rw [List.mem_singleton.1 hnew]
    exact ⟨rfl, rfl⟩

/-- An invalidation leaves no entry of the user. -/
theorem mem_invalidateUser (h : e ∈ (cache.invalidateUser userId).store) :
    e ∈ cache.store ∧ e.1 ≠ cacheKey userId module action := by
  unfold PermissionCache.invalidateUser at h
  obtain ⟨hmem, hprefix⟩ := List.mem_filter.1 h
  refine ⟨hmem, fun hkey => ?_⟩
  rw [hkey, Bool.not_eq_true', ← Bool.not_eq_true, List.isPrefixOf_iff_prefix] at hprefix
  refine hprefix ⟨(module ++ "_" ++ action).toList, ?_⟩
  unfold userPrefix cacheKey
  rw [← String.toList_append]
  simp only [String.append_assoc]

end

/-! ## The changes -/

namespace PermissionStore

/-- `UPDATE user_permissions SET is_allowed = ? WHERE user_id = ? AND permission_id = ?`. -/
def updateOverride (store : PermissionStore) (userId permissionId : String) (isAllowed : Bool) :
    PermissionStore :=
  let update (row : UserPermission) : UserPermission :=
    if row.userId = userId ∧ row.permissionId = permissionId then
      { row with isAllowed := if isAllowed then 1 else 0 }
    else row
  have hkey : ∀ row, ((update row).userId, (update row).permissionId) = (row.userId, row.permissionId) := by
    intro row
    dsimp only [update]
    split_ifs <;> rfl
  { store with
    userPermissions := store.userPermissions.map update
    uniqueOverride := by
      rw [List.map_map]
      exact (List.map_congr_left fun row _ => hkey row) ▸ store.uniqueOverride
    flags := by
      intro row hmem
      obtain ⟨old, hold, rfl⟩ := List.mem_map.1 hmem
      dsimp only [update]
      split_ifs
      · exact Or.inr rfl
      · exact Or.inl rfl
      · exact store.flags old hold }

/-- `UPDATE users SET role = ?, role_id = ? WHERE id = ?`. -/
def changeRole (store : PermissionStore) (userId role : String) (roleId : Option String) :
    PermissionStore :=
  { store with
    users := store.users.map fun user =>
      if user.id = userId then { user with role := role, roleId := roleId } else user }

end PermissionStore

inductive MutationKind
  | setUserPermissionOverride (userId module action : String) (allowed : Bool)
  | updateRolePermissions (roleId : String) (permissions : List PermissionUpdate)
  /-- `PUT /users/:id/permissions`. -/
  | putUserPermissions (userId : String) (overrides : List PermissionOverride)
  | changeRole (userId role : String) (roleId : Option String)
  deriving DecidableEq, Repr

/-- The number of the state that a change made, and the state before it. -/
structure Commit where
  index : ℕ
  before : PermissionStore

inductive MutationPhase
  | begun
  /-- `setUserPermissionOverride`, before it looks for the override. -/
  | permissionFound (permissionId : String)
  /-- `setUserPermissionOverride`, before it writes. -/
  | writing (permissionId : String) (existing : Bool)
  /-- `updateRolePermissions`, before it looks for the users with the role. -/
  | committed (commit : Commit)
  /-- These users are still to be invalidated. -/
  | invalidating (commit : Commit) (users : List String)
  | returned (commit : Commit)
  | failed (commit : Option Commit)

structure Mutation where
  kind : MutationKind
  phase : MutationPhase

def MutationPhase.commit : MutationPhase → Option Commit
  | .begun | .permissionFound _ | .writing _ _ => none
  | .committed commit | .invalidating commit _ | .returned commit => some commit
  | .failed commit => commit

/-- The change concerns what this user may do, here. -/
def MutationKind.touches (before : PermissionTables) (userId module action : String) :
    MutationKind → Bool
  | .setUserPermissionOverride u m a _ => u = userId && m = module && a = action
  | .updateRolePermissions roleId permissions =>
    (before.user userId).any (fun user => user.roleId = some roleId) &&
      permissions.any fun perm => perm.key = (module, action)
  | .putUserPermissions u _ => u = userId
  | .changeRole u _ _ => u = userId

/-- The number of the state that the change made, if it concerns this. -/
def Mutation.touchedAt (mutation : Mutation) (userId module action : String) : Option ℕ :=
  (mutation.phase.commit.filter fun commit =>
    mutation.kind.touches commit.before.toPermissionTables userId module action).map Commit.index

/-- The entries of the user are still to be removed. A change that failed has not returned either. -/
def Mutation.pending (mutation : Mutation) (userId : String) : Bool :=
  match mutation.phase with
  | .committed _ | .failed _ => true
  | .invalidating _ users => userId ∈ users
  | .begun | .permissionFound _ | .writing _ _ | .returned _ => false

def MutationPhase.isReturned : MutationPhase → Bool
  | .returned _ => true
  | _ => false

/-- Where a change is when it has committed. -/
def MutationKind.afterCommit (commit : Commit) : MutationKind → MutationPhase
  | .setUserPermissionOverride userId _ _ _ => .invalidating commit [userId]
  | .updateRolePermissions _ _ => .committed commit
  | .putUserPermissions userId _ => .invalidating commit [userId]
  | .changeRole userId _ _ => .invalidating commit [userId]

/-- What a statement, or a transaction, of a change does. -/
inductive Executed
  | read (phase : MutationPhase)
  | wrote (db : PermissionStore)

/-- A write that a constraint can reject. -/
def Executed.ofWrite : Option PermissionStore → Executed
  | none => .read (.failed none)
  | some db => .wrote db

/-- The next statement of a change; those in a transaction are one. -/
def Mutation.execute (mutation : Mutation) (db : PermissionStore) : Option Executed :=
  match mutation.phase, mutation.kind with
  | .begun, .setUserPermissionOverride _ module action _ =>
    match db.permissionId (module, action) with
    | none => some (.read (.failed none))
    | some permissionId => some (.read (.permissionFound permissionId))
  | .permissionFound permissionId, .setUserPermissionOverride userId _ _ _ =>
    some (.read (.writing permissionId
      (db.userPermissions.any fun row => row.userId = userId && row.permissionId = permissionId)))
  | .writing permissionId existing, .setUserPermissionOverride userId _ _ allowed =>
    if existing then some (.wrote (db.updateOverride userId permissionId allowed))
    else some (.ofWrite (db.insertOverride userId permissionId allowed))
  | .begun, .updateRolePermissions roleId permissions =>
    some (.wrote (db.updateRolePermissions roleId permissions))
  | .committed commit, .updateRolePermissions roleId _ =>
    some (.read (.invalidating commit
      ((db.users.filter fun user => user.roleId = some roleId).map fun user => user.id)))
  | .begun, .putUserPermissions userId overrides => some (.ofWrite (db.replaceOverrides userId overrides))
  | .begun, .changeRole userId role roleId => some (.wrote (db.changeRole userId role roleId))
  | _, _ => none

/-- A statement fails, or the `COMMIT`. -/
def MutationPhase.fail : MutationPhase → Option MutationPhase
  | .begun | .permissionFound _ | .writing _ _ => some (.failed none)
  | .committed commit => some (.failed (some commit))
  | .invalidating _ _ | .returned _ | .failed _ => none

/-! ## The calls -/

/-- Where a call of `hasPermission` is. -/
inductive CallPhase
  | readingUser
  | userRead (user : Option Employee)
  | readingOverride (roleId : Option String)
  | overrideRead (roleId : Option String) (userOverride : Option ℤ)
  | readingRole (roleId : String)
  | roleRead (rolePermission : Bool)
  | answered (answer : Bool)
  | failed
  deriving DecidableEq, Repr

/-- A call, with the number of the state that the answer is not to be older than, and of the state that it
has read last. -/
structure Call where
  userId : String
  module : String
  action : String
  since : ℕ
  readAt : ℕ
  phase : CallPhase
  deriving DecidableEq, Repr

/-- `SELECT up.is_allowed … WHERE up.user_id = ? AND p.module = ? AND p.action = ?`. -/
def PermissionTables.userOverride (db : PermissionTables) (userId module action : String) : Option ℤ :=
  ((db.overrideRows userId).find? fun row => row.1.key = (module, action)).map fun row => row.2.isAllowed

/-- `SELECT 1 … WHERE rp.role_id = ? AND p.module = ? AND p.action = ?`. -/
def PermissionTables.rolePermission (db : PermissionTables) (roleId module action : String) : Bool :=
  (db.roleRows (some roleId)).any fun permission => permission.key = (module, action)

/-- The statement that the call waits for. -/
def Call.query (call : Call) (db : PermissionTables) : Option CallPhase :=
  match call.phase with
  | .readingUser => some (.userRead (db.user call.userId))
  | .readingOverride roleId =>
    some (.overrideRead roleId (db.userOverride call.userId call.module call.action))
  | .readingRole roleId => some (.roleRead (db.rolePermission roleId call.module call.action))
  | _ => none

/-- What `resolvePermission` returns, when it has read enough. -/
def CallPhase.result : CallPhase → Option Bool
  | .overrideRead _ (some isAllowed) => some (isAllowed = 1)
  | .overrideRead none none => some false
  | .roleRead rolePermission => some rolePermission
  | _ => none

def Call.key (call : Call) : String := cacheKey call.userId call.module call.action

/-- What the call does with the row of the user. -/
def Call.resumeWithUser (registry : List ModuleDefinition) (now : ℤ) (cache : PermissionCache)
    (call : Call) : Option Employee → CallPhase × PermissionCache
  | none => (.answered false, cache)
  | some user =>
    if user.role = "Admin" then (.answered true, cache)
    else if !isRegistered registry call.module call.action then (.answered false, cache)
    else
      match cache.get now call.key with
      | (some cached, cache) => (.answered cached, cache)
      | (none, cache) => (.readingOverride user.roleId, cache)

/-- What the call does with what it has read. -/
def Call.resume (registry : List ModuleDefinition) (now : ℤ) (cache : PermissionCache) (call : Call) :
    Option (CallPhase × PermissionCache) :=
  match call.phase.result with
  | some result => some (.answered result, cache.set now call.key result)
  | none =>
    match call.phase with
    | .userRead user => some (call.resumeWithUser registry now cache user)
    | .overrideRead (some roleId) none => some (.readingRole roleId, cache)
    | _ => none

/-- A statement of the call fails, and `hasPermission` throws. -/
def CallPhase.fail : CallPhase → Option CallPhase
  | .readingUser | .readingOverride _ | .readingRole _ => some .failed
  | _ => none

/-! ## The steps -/

structure PermissionState where
  /-- The states of the database before the current one. -/
  past : List PermissionStore
  db : PermissionStore
  cache : PermissionCache
  now : ℤ
  calls : List Call
  mutations : List Mutation

inductive PermissionStep
  | call (userId module action : String)
  | query (i : ℕ)
  | queryFail (i : ℕ)
  | resume (i : ℕ)
  | mutate (kind : MutationKind)
  | execute (j : ℕ)
  | fail (j : ℕ)
  /-- `AuthCacheInvalidator.invalidate` for the next user. -/
  | invalidate (j : ℕ)
  | finish (j : ℕ)
  | wait (ms : ℕ)
  deriving DecidableEq, Repr

namespace PermissionState

/-- No call and no change yet. -/
def start (db : PermissionStore) (maxEntries : ℕ) (ttlMs now : ℤ) : PermissionState :=
  ⟨[], db, ⟨[], maxEntries, ttlMs⟩, now, [], []⟩

variable (s : PermissionState)

/-- The states of the database by their numbers. -/
def history : List PermissionStore := s.past ++ [s.db]

/-- The last change that concerns this and has returned. -/
def required (userId module action : String) : ℕ :=
  ((s.mutations.filter fun mutation => mutation.phase.isReturned).filterMap fun mutation =>
    mutation.touchedAt userId module action).foldr max 0

theorem history_current : s.history[s.past.length]? = some s.db := List.getElem?_concat_length

def setCall (i : ℕ) (call : Call) : PermissionState := { s with calls := s.calls.set i call }

def setMutation (j : ℕ) (mutation : Mutation) : PermissionState :=
  { s with mutations := s.mutations.set j mutation }

end PermissionState

/-- The states that there were keep their numbers. -/
theorem getElem?_of_prefix {history history' : List PermissionStore} {db : PermissionStore} {j : ℕ}
    (hhistory : history <+: history') (h : history[j]? = some db) : history'[j]? = some db := by
  obtain ⟨added, rfl⟩ := hhistory
  rw [List.getElem?_append_left (List.getElem?_eq_some_iff.1 h).1]
  exact h

/-- One step of a call or of a change. -/
def permissionStep (registry : List ModuleDefinition) (s : PermissionState) :
    PermissionStep → Option PermissionState
  | .call userId module action =>
    some { s with calls := s.calls ++
      [⟨userId, module, action, s.required userId module action, s.past.length, .readingUser⟩] }
  | .query i => do
    let call ← s.calls[i]?
    let phase ← call.query s.db.toPermissionTables
    return s.setCall i { call with phase := phase, readAt := s.past.length }
  | .queryFail i => do
    let call ← s.calls[i]?
    let phase ← call.phase.fail
    return s.setCall i { call with phase := phase }
  | .resume i => do
    let call ← s.calls[i]?
    let (phase, cache) ← call.resume registry s.now s.cache
    return { s.setCall i { call with phase := phase } with cache := cache }
  | .mutate kind => some { s with mutations := s.mutations ++ [⟨kind, .begun⟩] }
  | .execute j => do
    let mutation ← s.mutations[j]?
    match ← mutation.execute s.db with
    | .read phase => return s.setMutation j { mutation with phase := phase }
    | .wrote db =>
      let phase := mutation.kind.afterCommit ⟨s.past.length + 1, s.db⟩
      return { s.setMutation j { mutation with phase := phase } with past := s.past ++ [s.db], db := db }
  | .fail j => do
    let mutation ← s.mutations[j]?
    let phase ← mutation.phase.fail
    return s.setMutation j { mutation with phase := phase }
  | .invalidate j => do
    let mutation ← s.mutations[j]?
    match mutation.phase with
    | .invalidating commit (userId :: users) =>
      return { s.setMutation j { mutation with phase := .invalidating commit users } with
        cache := s.cache.invalidateUser userId }
    | _ => none
  | .finish j => do
    let mutation ← s.mutations[j]?
    match mutation.phase with
    | .invalidating commit [] => return s.setMutation j { mutation with phase := .returned commit }
    | _ => none
  | .wait ms => some { s with now := s.now + ms }

end AlsaqiBackend.Permissions
