import AlsaqiBackend.Permissions.Cache
import AlsaqiBackend.Permissions.RoleUpdate
import Mathlib.Data.List.MinMax

/-!
# Freshness of the permission cache

When a call of `hasPermission` begins, the changes that concern it and have returned have made certain
states of the database, and the call should give the answer of one that is not older. `answers_fresh_along`
is the rule: it holds along every run that is `Timely`. A run leaves the rule in three ways, which are
those of the source: a call stores an answer that it read before a change which has meanwhile removed the
entries; a call puts together what it has read before a change and after it; or a user loses a role
between a change of the role and the `SELECT` of the users who have it.

The invariant is about each entry: it is the answer of a state of the database, and every later change
that concerns it still has the entries of the user to remove.
-/

namespace AlsaqiBackend.Permissions

open AlsaqiBackend.Lib AlsaqiBackend.Users

variable (registry : List ModuleDefinition)

/-! ## The rule -/

/-- In the state with this number, `hasPermission` gives the answer without a cache. -/
def AnswerAt (history : List PermissionStore) (userId module action : String) (answer : Bool) (j : ℕ) :
    Prop :=
  ∃ db, history[j]? = some db ∧ db.hasPermission registry none userId module action = answer

/-- Every call has answered as some state does that is as fresh as it was required when the call began. -/
def AnswersFresh (s : PermissionState) : Prop :=
  ∀ call ∈ s.calls, ∀ answer, call.phase = .answered answer →
    ∃ j, call.since ≤ j ∧ AnswerAt registry s.history call.userId call.module call.action answer j

/-- Every change after this state that concerns the user here still has the entries to remove. -/
def FreshAt (mutations : List Mutation) (userId module action : String) (j : ℕ) : Prop :=
  ∀ mutation ∈ mutations, ∀ k ∈ mutation.touchedAt userId module action,
    j < k → mutation.pending userId = true

/-- The user has a row, which is no Admin's and meets the condition. -/
def PermissionTables.userMeets (db : PermissionTables) (userId : String) (p : Employee → Bool) : Bool :=
  (db.user userId).any fun user => user.role ≠ "Admin" && p user

/-- At the last statement of a call, what it has read before is what the database still has. -/
def Call.readsStand (call : Call) (db : PermissionTables) : Bool :=
  match call.phase with
  | .readingOverride roleId =>
    match db.userOverride call.userId call.module call.action, roleId with
    | some _, _ => db.userMeets call.userId fun _ => true
    | none, none => db.userMeets call.userId fun user => user.roleId = none
    | none, some _ => true
  | .readingRole roleId =>
    db.userMeets call.userId (fun user => user.roleId = some roleId) &&
      db.userOverride call.userId call.module call.action = none
  | _ => true

/-- A later change that concerns the user here has removed the entries. -/
def Superseded (mutations : List Mutation) (userId module action : String) (index : ℕ) : Prop :=
  ∃ mutation ∈ mutations, ∃ k ∈ mutation.touchedAt userId module action,
    index < k ∧ mutation.pending userId = false

/-- The users who had the role when its permissions were changed still have it, when they are looked for,
or have been invalidated since. -/
def FindsUsers (s : PermissionState) (mutation : Mutation) : Prop :=
  match mutation.phase, mutation.kind with
  | .committed commit, .updateRolePermissions roleId permissions =>
    ∀ user ∈ commit.before.users, user.roleId = some roleId → ∀ perm ∈ permissions,
      (∃ found ∈ s.db.users, found.roleId = some roleId ∧ found.id = user.id) ∨
        Superseded s.mutations user.id perm.module perm.action commit.index
  | _, _ => True

/-- The condition on a step: what a call puts together stands, what it stores will be removed by every
change after it, and a change of a role finds its users. -/
def Timely (s : PermissionState) : PermissionStep → Prop
  | .query i => ∀ call ∈ s.calls[i]?, call.readsStand s.db.toPermissionTables = true
  | .resume i => ∀ call ∈ s.calls[i]?, call.phase.result.isSome = true →
      FreshAt s.mutations call.userId call.module call.action call.readAt
  | .execute j => ∀ mutation ∈ s.mutations[j]?, FindsUsers s mutation
  | _ => True

instance (mutations : List Mutation) (userId module action : String) (j : ℕ) :
    Decidable (FreshAt mutations userId module action j) :=
  inferInstanceAs (Decidable (∀ mutation ∈ mutations, _))

instance (mutations : List Mutation) (userId module action : String) (index : ℕ) :
    Decidable (Superseded mutations userId module action index) :=
  inferInstanceAs (Decidable (∃ mutation ∈ mutations, _))

instance (s : PermissionState) (mutation : Mutation) : Decidable (FindsUsers s mutation) := by
  unfold FindsUsers
  split <;> infer_instance

instance (s : PermissionState) (a : PermissionStep) : Decidable (Timely s a) :=
  match a with
  | .query i => inferInstanceAs (Decidable (∀ call ∈ s.calls[i]?, _))
  | .resume i => inferInstanceAs (Decidable (∀ call ∈ s.calls[i]?, _))
  | .execute j => inferInstanceAs (Decidable (∀ mutation ∈ s.mutations[j]?, _))
  | .call _ _ _ | .queryFail _ | .mutate _ | .fail _ | .invalidate _ | .finish _ | .wait _ =>
    isTrue trivial

variable {registry} {userId module action : String}

/-! ## What a call reads -/

section

variable {db : PermissionTables} {call : Call} {phase : CallPhase} {answer : Bool}

/-- `resolvePermission` in its two statements. -/
theorem resolvePermission_eq (db : PermissionTables) (roleId : Option String) :
    db.resolvePermission userId module action roleId =
      match db.userOverride userId module action with
      | some isAllowed => decide (isAllowed = 1)
      | none => roleId.any fun roleId => db.rolePermission roleId module action := by
  unfold PermissionTables.resolvePermission PermissionTables.userOverride PermissionTables.rolePermission
  cases (db.overrideRows userId).find? fun row => row.1.key = (module, action) with
  | some row => rfl
  | none =>
    cases roleId with
    | none => rfl
    | some roleId => exact Bool.true_and _

/-- For a registered action and a user who is no Admin, the two statements decide. -/
theorem hasPermission_of_userMeets {p : Employee → Bool}
    (hregistered : isRegistered registry module action = true) (h : db.userMeets userId p = true) :
    ∃ user, p user = true ∧ db.hasPermission registry none userId module action =
      db.resolvePermission userId module action user.roleId := by
  obtain ⟨user, huser, hmeets⟩ := (Option.any_eq_true _ _).1 h
  rw [Bool.and_eq_true, decide_eq_true_eq] at hmeets
  refine ⟨user, hmeets.2, ?_⟩
  unfold PermissionTables.hasPermission
  rw [huser]
  dsimp only
  rw [if_neg hmeets.1, hregistered, Bool.not_true, if_neg Bool.false_ne_true, Option.getD_none]

/-- The three statements of a call. -/
theorem Call.query_cases (h : call.query db = some phase) :
    (call.phase = .readingUser ∧ phase = .userRead (db.user call.userId)) ∨
      (∃ roleId, call.phase = .readingOverride roleId ∧
        phase = .overrideRead roleId (db.userOverride call.userId call.module call.action)) ∨
      ∃ roleId, call.phase = .readingRole roleId ∧
        phase = .roleRead (db.rolePermission roleId call.module call.action) := by
  unfold Call.query at h
  cases hphase : call.phase with
  | readingUser =>
    rw [hphase] at h
    exact Or.inl ⟨rfl, (Option.some.inj h).symm⟩
  | readingOverride roleId =>
    rw [hphase] at h
    exact Or.inr (Or.inl ⟨roleId, rfl, (Option.some.inj h).symm⟩)
  | readingRole roleId =>
    rw [hphase] at h
    exact Or.inr (Or.inr ⟨roleId, rfl, (Option.some.inj h).symm⟩)
  | userRead | overrideRead | roleRead | answered | failed =>
    rw [hphase] at h
    cases h

/-- What a call has read, when it stands, is what `hasPermission` answers. -/
theorem hasPermission_of_readsStand (hregistered : isRegistered registry call.module call.action = true)
    (hquery : call.query db = some phase) (hstand : call.readsStand db = true)
    (hresult : phase.result = some answer) :
    db.hasPermission registry none call.userId call.module call.action = answer := by
  unfold Call.readsStand at hstand
  obtain ⟨-, rfl⟩ | ⟨roleId, hphase, rfl⟩ | ⟨roleId, hphase, rfl⟩ := Call.query_cases hquery
  · cases hresult
  · rw [hphase] at hstand
    dsimp only at hstand
    cases hoverride : db.userOverride call.userId call.module call.action with
    | some isAllowed =>
      rw [hoverride] at hresult hstand
      obtain ⟨user, -, hdecide⟩ := hasPermission_of_userMeets hregistered hstand
      rw [hdecide, resolvePermission_eq, hoverride]
      exact Option.some.inj hresult
    | none =>
      rw [hoverride] at hresult hstand
      cases roleId with
      | some roleId => cases hresult
      | none =>
        obtain ⟨user, hrole, hdecide⟩ := hasPermission_of_userMeets hregistered hstand
        rw [hdecide, resolvePermission_eq, hoverride, of_decide_eq_true hrole]
        exact Option.some.inj hresult
  · rw [hphase] at hstand
    dsimp only at hstand
    rw [Bool.and_eq_true, decide_eq_true_eq] at hstand
    obtain ⟨user, hrole, hdecide⟩ := hasPermission_of_userMeets hregistered hstand.1
    rw [hdecide, resolvePermission_eq, hstand.2, of_decide_eq_true hrole]
    exact Option.some.inj hresult

end

/-! ## Changes that move on -/

section

variable {mutations : List Mutation} {mutation mutation' : Mutation} {i j : ℕ}

theorem touchedAt_eq_some {k : ℕ} (h : k ∈ mutation.touchedAt userId module action) :
    ∃ commit, mutation.phase.commit = some commit ∧ commit.index = k ∧
      mutation.kind.touches commit.before.toPermissionTables userId module action = true := by
  obtain ⟨commit, hcommit, hindex⟩ := Option.map_eq_some_iff.1 h
  obtain ⟨hphase, htouches⟩ := Option.filter_eq_some_iff.1 hcommit
  exact ⟨commit, hphase, hindex, htouches⟩

/-- What a change that moves on keeps: the state that it made, and what it has removed. -/
theorem FreshAt.of_set (hmutation : mutations[i]? = some mutation)
    (hkept : ∀ k ∈ mutation.touchedAt userId module action,
      k ∈ mutation'.touchedAt userId module action ∧
        (mutation'.pending userId = true → mutation.pending userId = true))
    (h : FreshAt (mutations.set i mutation') userId module action j) :
    FreshAt mutations userId module action j := by
  intro other hmem k hk hlt
  obtain ⟨n, hn⟩ := List.mem_iff_getElem?.1 hmem
  have hi := (List.getElem?_eq_some_iff.1 hmutation).1
  by_cases hni : n = i
  · subst hni
    obtain rfl := Option.some.inj (hmutation.symm.trans hn)
    obtain ⟨hk', hpending⟩ := hkept k hk
    exact hpending (h mutation' (List.mem_of_getElem? (List.getElem?_set_self hi)) k hk' hlt)
  · have hother : (mutations.set i mutation')[n]? = some other := by
      rw [List.getElem?_set_ne (Ne.symm hni)]
      exact hn
    exact h other (List.mem_of_getElem? hother) k hk hlt

/-- A state stays fresh when the change that moves on has nothing to remove, or still has. -/
theorem FreshAt.set (h : FreshAt mutations userId module action j)
    (hnew : ∀ k ∈ mutation'.touchedAt userId module action, j < k → mutation'.pending userId = true) :
    FreshAt (mutations.set i mutation') userId module action j := by
  intro other hmem k hk hlt
  rcases List.mem_or_eq_of_mem_set hmem with hold | rfl
  · exact h other hold k hk hlt
  · exact hnew k hk hlt

end

/-! ## The invariant -/

/-- The call has found that the user is no Admin, and the action registered. -/
def CallPhase.resolving : CallPhase → Bool
  | .readingOverride _ | .overrideRead _ _ | .readingRole _ | .roleRead _ => true
  | .readingUser | .userRead _ | .answered _ | .failed => false

variable (registry)

/-- What a call knows. A state that is fresh is one from which it may answer. -/
structure CallInv (history : List PermissionStore) (mutations : List Mutation) (call : Call) : Prop where
  since_le : call.since ≤ call.readAt
  covered : ∀ j, FreshAt mutations call.userId call.module call.action j → call.since ≤ j
  user : ∀ user, call.phase = .userRead user →
    ∃ db, history[call.readAt]? = some db ∧ db.user call.userId = user
  registered : call.phase.resolving = true → isRegistered registry call.module call.action = true
  result : ∀ answer, call.phase.result = some answer →
    AnswerAt registry history call.userId call.module call.action answer call.readAt
  answered : ∀ answer, call.phase = .answered answer →
    ∃ j, call.since ≤ j ∧ AnswerAt registry history call.userId call.module call.action answer j

/-- An entry is the answer of a fresh state. -/
def CacheInv (history : List PermissionStore) (mutations : List Mutation)
    (store : List (String × CacheEntry)) : Prop :=
  ∀ userId module action, isRegistered registry module action = true →
    ∀ entry, (cacheKey userId module action, entry) ∈ store →
      ∃ j, FreshAt mutations userId module action j ∧
        AnswerAt registry history userId module action entry.value j

/-- The invariant. -/
structure PermissionInv (s : PermissionState) : Prop where
  commits : ∀ mutation ∈ s.mutations, ∀ commit ∈ mutation.phase.commit, commit.index ≤ s.past.length
  cached : CacheInv registry s.history s.mutations s.cache.store
  calls : ∀ call ∈ s.calls, CallInv registry s.history s.mutations call

variable {registry} {s t : PermissionState} {i j : ℕ}

/-- The invariant at the start. -/
theorem PermissionState.start_inv (db : PermissionStore) (maxEntries : ℕ) (ttlMs now : ℤ) :
    PermissionInv registry (.start db maxEntries ttlMs now) where
  commits := fun _ hmem => absurd hmem List.not_mem_nil
  cached := fun _ _ _ _ _ hmem => absurd hmem List.not_mem_nil
  calls := fun _ hmem => absurd hmem List.not_mem_nil

/-- No change is after the current state. -/
theorem PermissionInv.freshAt_current (h : PermissionInv registry s) :
    FreshAt s.mutations userId module action s.past.length := by
  intro mutation hmem k hk hlt
  obtain ⟨commit, hcommit, rfl, -⟩ := touchedAt_eq_some hk
  have hle := h.commits mutation hmem commit hcommit
  omega

/-- A state that is fresh is at least as fresh as required. -/
theorem required_le (h : FreshAt s.mutations userId module action j) :
    s.required userId module action ≤ j := by
  refine List.max_le_of_forall_le _ j fun k hk => ?_
  obtain ⟨mutation, hmem, hk⟩ := List.mem_filterMap.1 hk
  obtain ⟨hmem, hreturned⟩ := List.mem_filter.1 hmem
  by_contra hlt
  have hpending := h mutation hmem k hk (by omega)
  unfold Mutation.pending at hpending
  unfold MutationPhase.isReturned at hreturned
  cases hphase : mutation.phase with
  | returned commit =>
    rw [hphase] at hpending
    cases hpending
  | begun | permissionFound | writing | committed | invalidating | failed =>
    rw [hphase] at hreturned
    cases hreturned

theorem AnswerAt.mono {history history' : List PermissionStore} {answer : Bool}
    (hhistory : history <+: history') (h : AnswerAt registry history userId module action answer j) :
    AnswerAt registry history' userId module action answer j := by
  obtain ⟨db, hdb, hanswer⟩ := h
  exact ⟨db, getElem?_of_prefix hhistory hdb, hanswer⟩

/-- A call knows as much when states are added, and no more of them are fresh. -/
theorem CallInv.mono {history history' : List PermissionStore} {mutations mutations' : List Mutation}
    {call : Call} (h : CallInv registry history mutations call) (hhistory : history <+: history')
    (hfresh : ∀ j, FreshAt mutations' call.userId call.module call.action j →
      FreshAt mutations call.userId call.module call.action j) :
    CallInv registry history' mutations' call where
  since_le := h.since_le
  covered := fun j hj => h.covered j (hfresh j hj)
  user := fun user hphase => by
    obtain ⟨db, hdb, huser⟩ := h.user user hphase
    exact ⟨db, getElem?_of_prefix hhistory hdb, huser⟩
  registered := h.registered
  result := fun answer hresult => (h.result answer hresult).mono hhistory
  answered := fun answer hphase => by
    obtain ⟨j, hj, hanswer⟩ := h.answered answer hphase
    exact ⟨j, hj, hanswer.mono hhistory⟩

/-- Entries stay answers of fresh states when states are added, and those of the entries stay fresh. -/
theorem CacheInv.mono {history history' : List PermissionStore} {mutations mutations' : List Mutation}
    {store store' : List (String × CacheEntry)} (h : CacheInv registry history mutations store)
    (hhistory : history <+: history') (hsub : ∀ e ∈ store', e ∈ store)
    (hfresh : ∀ userId module action entry j, (cacheKey userId module action, entry) ∈ store' →
      FreshAt mutations userId module action j → FreshAt mutations' userId module action j) :
    CacheInv registry history' mutations' store' := by
  intro userId module action hregistered entry hmem
  obtain ⟨j, hj, hanswer⟩ := h userId module action hregistered entry (hsub _ hmem)
  exact ⟨j, hfresh _ _ _ entry j hmem hj, hanswer.mono hhistory⟩

namespace PermissionInv

/-! ## Calls -/

/-- A call moves on. -/
theorem setCall (h : PermissionInv registry s) (i : ℕ) {call : Call} {cache : PermissionCache}
    (hcall : CallInv registry s.history s.mutations call)
    (hcache : CacheInv registry s.history s.mutations cache.store) :
    PermissionInv registry { s.setCall i call with cache := cache } where
  commits := h.commits
  cached := hcache
  calls := fun c hc => by
    rcases List.mem_or_eq_of_mem_set hc with hold | rfl
    · exact h.calls c hold
    · exact hcall

/-- A call begins. -/
theorem call (h : PermissionInv registry s) (userId module action : String) :
    PermissionInv registry { s with calls := s.calls ++
      [⟨userId, module, action, s.required userId module action, s.past.length, .readingUser⟩] } where
  commits := h.commits
  cached := h.cached
  calls := by
    rw [List.forall_mem_append, List.forall_mem_singleton]
    refine ⟨h.calls, ?_⟩
    exact {
      since_le := required_le h.freshAt_current
      covered := fun j hj => required_le hj
      user := fun _ hphase => nomatch hphase
      registered := fun hresolving => nomatch hresolving
      result := fun _ hresult => nomatch hresult
      answered := fun _ hphase => nomatch hphase }

/-- The database executes a statement of a call. -/
theorem query (h : PermissionInv registry s) {call : Call} {phase : CallPhase} (hcall : call ∈ s.calls)
    (hquery : call.query s.db.toPermissionTables = some phase)
    (hstand : call.readsStand s.db.toPermissionTables = true) :
    PermissionInv registry (s.setCall i { call with phase := phase, readAt := s.past.length }) := by
  have hknown := h.calls call hcall
  have hsince : call.since ≤ s.past.length := hknown.covered _ h.freshAt_current
  have hanswer : ∀ answer, isRegistered registry call.module call.action = true →
      phase.result = some answer →
      s.db.hasPermission registry none call.userId call.module call.action = answer :=
    fun answer hregistered => hasPermission_of_readsStand hregistered hquery hstand
  refine h.setCall i ?_ h.cached
  obtain ⟨-, rfl⟩ | ⟨roleId, hphase, rfl⟩ | ⟨roleId, hphase, rfl⟩ := Call.query_cases hquery
  · exact {
      since_le := hsince
      covered := hknown.covered
      user := fun user huser => ⟨s.db, s.history_current, CallPhase.userRead.inj huser⟩
      registered := fun hresolving => nomatch hresolving
      result := fun _ hresult => nomatch hresult
      answered := fun _ hphase => nomatch hphase }
  · have hregistered := hknown.registered (by rw [hphase]; rfl)
    exact {
      since_le := hsince
      covered := hknown.covered
      user := fun _ hphase => nomatch hphase
      registered := fun _ => hregistered
      result := fun answer hresult => ⟨s.db, s.history_current, hanswer answer hregistered hresult⟩
      answered := fun _ hphase => nomatch hphase }
  · have hregistered := hknown.registered (by rw [hphase]; rfl)
    exact {
      since_le := hsince
      covered := hknown.covered
      user := fun _ hphase => nomatch hphase
      registered := fun _ => hregistered
      result := fun answer hresult => ⟨s.db, s.history_current, hanswer answer hregistered hresult⟩
      answered := fun _ hphase => nomatch hphase }

/-- A statement of a call fails. -/
theorem queryFail (h : PermissionInv registry s) {call : Call} {phase : CallPhase} (hcall : call ∈ s.calls)
    (hfail : call.phase.fail = some phase) :
    PermissionInv registry (s.setCall i { call with phase := phase }) := by
  have hknown := h.calls call hcall
  have hphase : phase = .failed := by
    unfold CallPhase.fail at hfail
    split at hfail
    · exact (Option.some.inj hfail).symm
    · exact (Option.some.inj hfail).symm
    · exact (Option.some.inj hfail).symm
    · cases hfail
  subst hphase
  exact h.setCall i ⟨hknown.since_le, hknown.covered, fun _ hphase => (nomatch hphase),
    fun hresolving => (nomatch hresolving), fun _ hresult => (nomatch hresult),
    fun _ hphase => (nomatch hphase)⟩ h.cached

/-- A call that knows an answer gives it. -/
theorem answer (h : PermissionInv registry s) {call : Call} (hcall : call ∈ s.calls) {answer : Bool}
    {cache : PermissionCache} (hcache : CacheInv registry s.history s.mutations cache.store)
    (hanswer : ∃ j, call.since ≤ j ∧
      AnswerAt registry s.history call.userId call.module call.action answer j) :
    PermissionInv registry
      { s.setCall i { call with phase := .answered answer } with cache := cache } := by
  have hknown := h.calls call hcall
  exact h.setCall i ⟨hknown.since_le, hknown.covered, fun _ hphase => (nomatch hphase),
    fun hresolving => (nomatch hresolving), fun _ hresult => (nomatch hresult),
    fun _ hphase => CallPhase.answered.inj hphase ▸ hanswer⟩ hcache

/-- A call goes on to its next statement. -/
theorem proceed (h : PermissionInv registry s) {call : Call} (hcall : call ∈ s.calls) {phase : CallPhase}
    {cache : PermissionCache} (hcache : CacheInv registry s.history s.mutations cache.store)
    (hregistered : isRegistered registry call.module call.action = true)
    (hphase : (∃ roleId, phase = .readingOverride roleId) ∨ ∃ roleId, phase = .readingRole roleId) :
    PermissionInv registry { s.setCall i { call with phase := phase } with cache := cache } := by
  have hknown := h.calls call hcall
  obtain ⟨roleId, rfl⟩ | ⟨roleId, rfl⟩ := hphase
  · exact h.setCall i ⟨hknown.since_le, hknown.covered, fun _ hphase => (nomatch hphase),
      fun _ => hregistered, fun _ hresult => (nomatch hresult), fun _ hphase => (nomatch hphase)⟩ hcache
  · exact h.setCall i ⟨hknown.since_le, hknown.covered, fun _ hphase => (nomatch hphase),
      fun _ => hregistered, fun _ hresult => (nomatch hresult), fun _ hphase => (nomatch hphase)⟩ hcache

/-- The answer that a call stores is one of a state that is still fresh. -/
theorem cacheInv_set (h : PermissionInv registry s) {call : Call} (hcall : call ∈ s.calls) {answer : Bool}
    (hresult : call.phase.result = some answer)
    (hfresh : FreshAt s.mutations call.userId call.module call.action call.readAt) :
    CacheInv registry s.history s.mutations (s.cache.set s.now call.key answer).store := by
  have hknown := h.calls call hcall
  have hresolving : call.phase.resolving = true := by
    cases hphase : call.phase with
    | overrideRead | roleRead => rfl
    | readingUser | userRead | readingOverride | readingRole | answered | failed =>
      rw [hphase] at hresult
      cases hresult
  intro userId module action hregistered entry hmem
  rcases mem_of_mem_set hmem with hold | ⟨hkey, hvalue⟩
  · exact h.cached userId module action hregistered entry hold
  · obtain ⟨rfl, rfl, rfl⟩ := cacheKey_inj hregistered (hknown.registered hresolving) hkey
    dsimp only at hvalue
    rw [hvalue]
    exact ⟨call.readAt, hfresh, hknown.result answer hresult⟩

/-- A call goes on with the row of the user. -/
theorem resumeWithUser (h : PermissionInv registry s) {call : Call} {phase : CallPhase}
    {cache : PermissionCache} (hcall : call ∈ s.calls) {user : Option Employee}
    (hphase : call.phase = .userRead user)
    (hresume : call.resumeWithUser registry s.now s.cache user = (phase, cache)) :
    PermissionInv registry { s.setCall i { call with phase := phase } with cache := cache } := by
  have hknown := h.calls call hcall
  obtain ⟨db, hdb, huser⟩ := hknown.user user hphase
  -- What the row alone decides, it decides in the state that was read.
  have hrow : ∀ answer, db.hasPermission registry none call.userId call.module call.action = answer →
      PermissionInv registry
        { s.setCall i { call with phase := .answered answer } with cache := s.cache } :=
    fun answer hanswer => h.answer hcall h.cached ⟨call.readAt, hknown.since_le, db, hdb, hanswer⟩
  unfold PermissionTables.hasPermission at hrow
  rw [huser] at hrow
  unfold Call.resumeWithUser at hresume
  cases user with
  | none =>
    obtain ⟨rfl, rfl⟩ := Prod.mk.inj hresume
    exact hrow false rfl
  | some user =>
    dsimp only at hresume hrow
    by_cases hadmin : user.role = "Admin"
    · rw [if_pos hadmin] at hresume
      obtain ⟨rfl, rfl⟩ := Prod.mk.inj hresume
      exact hrow true (if_pos hadmin)
    · rw [if_neg hadmin] at hresume hrow
      cases hregistered : isRegistered registry call.module call.action with
      | false =>
        rw [hregistered, Bool.not_false, if_pos rfl] at hresume hrow
        obtain ⟨rfl, rfl⟩ := Prod.mk.inj hresume
        exact hrow false rfl
      | true =>
        rw [hregistered, Bool.not_true, if_neg Bool.false_ne_true] at hresume
        have hget : CacheInv registry s.history s.mutations (s.cache.get s.now call.key).2.store :=
          h.cached.mono (List.prefix_refl _) (fun e he => mem_of_mem_get he) fun _ _ _ _ _ _ hj => hj
        cases hcached : s.cache.get s.now call.key with
        | mk cached cache' =>
          rw [hcached] at hresume hget
          cases cached with
          | none =>
            obtain ⟨rfl, rfl⟩ := Prod.mk.inj hresume
            exact h.proceed hcall hget hregistered (Or.inl ⟨user.roleId, rfl⟩)
          | some cached =>
            obtain ⟨rfl, rfl⟩ := Prod.mk.inj hresume
            obtain ⟨entry, hmem, rfl⟩ := exists_of_get_eq_some (congrArg Prod.fst hcached)
            obtain ⟨j, hj, hanswer⟩ := h.cached _ _ _ hregistered entry hmem
            exact h.answer hcall hget ⟨j, hknown.covered j hj, hanswer⟩

/-- A call goes on. -/
theorem resume (h : PermissionInv registry s) {call : Call} {phase : CallPhase} {cache : PermissionCache}
    (hcall : call ∈ s.calls) (hresume : call.resume registry s.now s.cache = some (phase, cache))
    (hfresh : call.phase.result.isSome = true →
      FreshAt s.mutations call.userId call.module call.action call.readAt) :
    PermissionInv registry { s.setCall i { call with phase := phase } with cache := cache } := by
  have hknown := h.calls call hcall
  unfold Call.resume at hresume
  cases hresult : call.phase.result with
  | some result =>
    rw [hresult] at hresume hfresh
    obtain ⟨rfl, rfl⟩ := Prod.mk.inj (Option.some.inj hresume)
    exact h.answer hcall (h.cacheInv_set hcall hresult (hfresh rfl))
      ⟨call.readAt, hknown.since_le, hknown.result result hresult⟩
  | none =>
    rw [hresult] at hresume
    dsimp only at hresume
    cases hphase : call.phase with
    | userRead user =>
      rw [hphase] at hresume
      exact h.resumeWithUser hcall hphase (Option.some.inj hresume)
    | overrideRead roleId userOverride =>
      rw [hphase] at hresume
      cases roleId with
      | none => cases hresume
      | some roleId =>
        cases userOverride with
        | some isAllowed => cases hresume
        | none =>
          obtain ⟨rfl, rfl⟩ := Prod.mk.inj (Option.some.inj hresume)
          exact h.proceed hcall h.cached (hknown.registered (by rw [hphase]; rfl)) (Or.inr ⟨roleId, rfl⟩)
    | readingUser | readingOverride | readingRole | roleRead | answered | failed =>
      rw [hphase] at hresume
      cases hresume

/-! ## Changes -/

/-- A change moves on, and removes entries: those that are left, of users for whom it has committed, are
still to be removed. -/
theorem setMutation (h : PermissionInv registry s) {mutation : Mutation} {phase : MutationPhase}
    {cache : PermissionCache} (hmutation : s.mutations[j]? = some mutation)
    (hcommit : phase.commit = mutation.phase.commit) (hsub : ∀ e ∈ cache.store, e ∈ s.cache.store)
    (hpending : ∀ userId module action, ∀ k ∈ mutation.touchedAt userId module action,
      (⟨mutation.kind, phase⟩ : Mutation).pending userId = true → mutation.pending userId = true)
    (hleft : ∀ userId module action entry i, (cacheKey userId module action, entry) ∈ cache.store →
      FreshAt s.mutations userId module action i → ∀ k ∈ mutation.touchedAt userId module action, i < k →
        (⟨mutation.kind, phase⟩ : Mutation).pending userId = true) :
    PermissionInv registry { s.setMutation j { mutation with phase := phase } with cache := cache } := by
  have htouched : ∀ userId module action,
      ({ mutation with phase := phase } : Mutation).touchedAt userId module action =
        mutation.touchedAt userId module action := by
    intro userId module action
    unfold Mutation.touchedAt
    rw [hcommit]
  refine ⟨fun other hmem commit hother => ?_, ?_, fun call hcall => ?_⟩
  · rcases List.mem_or_eq_of_mem_set hmem with hold | rfl
    · exact h.commits other hold commit hother
    · dsimp only at hother
      rw [hcommit] at hother
      exact h.commits mutation (List.mem_of_getElem? hmutation) commit hother
  · refine h.cached.mono (List.prefix_refl _) hsub fun userId module action entry i hmem hi => ?_
    refine hi.set fun k hk hlt => ?_
    rw [htouched] at hk
    exact hleft userId module action entry i hmem hi k hk hlt
  · refine (h.calls call hcall).mono (List.prefix_refl _) fun i hi => ?_
    refine hi.of_set hmutation fun k hk => ?_
    rw [htouched]
    exact ⟨hk, hpending call.userId call.module call.action k hk⟩

/-- A change that has not committed moves on. -/
theorem moveUncommitted (h : PermissionInv registry s) {mutation : Mutation} {phase : MutationPhase}
    (hmutation : s.mutations[j]? = some mutation) (hold : mutation.phase.commit = none)
    (hnew : phase.commit = none) :
    PermissionInv registry (s.setMutation j { mutation with phase := phase }) := by
  have htouched : ∀ userId module action, ∀ k, k ∉ mutation.touchedAt userId module action := by
    intro userId module action k hk
    obtain ⟨commit, hcommit, -⟩ := touchedAt_eq_some hk
    rw [hold] at hcommit
    cases hcommit
  have hkept : ∀ e ∈ s.cache.store, e ∈ s.cache.store := fun _ he => he
  exact h.setMutation hmutation (hnew.trans hold.symm) hkept
    (fun _ _ _ k hk => absurd hk (htouched _ _ _ k)) fun _ _ _ _ _ _ _ k hk => absurd hk (htouched _ _ _ k)

/-- The entries of the next user are removed. -/
theorem invalidate (h : PermissionInv registry s) {mutation : Mutation} {commit : Commit} {user : String}
    {users : List String} (hmutation : s.mutations[j]? = some mutation)
    (hphase : mutation.phase = .invalidating commit (user :: users)) :
    PermissionInv registry { s.setMutation j { mutation with phase := .invalidating commit users } with
      cache := s.cache.invalidateUser user } := by
  have hpending : ∀ userId, mutation.pending userId = true ↔ userId ∈ user :: users := by
    intro userId
    unfold Mutation.pending
    rw [hphase]
    exact decide_eq_true_iff
  refine h.setMutation hmutation (by rw [hphase]; rfl) (fun e he => List.mem_of_mem_filter he) ?_ ?_
  · intro userId _ _ _ _ hnew
    exact (hpending userId).2 (List.mem_cons_of_mem _ (of_decide_eq_true hnew))
  · intro userId module action entry i hmem hi k hk hlt
    have hold := (hpending userId).1 (hi mutation (List.mem_of_getElem? hmutation) k hk hlt)
    refine decide_eq_true ((List.mem_cons.1 hold).resolve_left ?_)
    rintro rfl
    exact (mem_invalidateUser hmem).2 rfl

/-- A change returns when nobody is left to invalidate. -/
theorem finish (h : PermissionInv registry s) {mutation : Mutation} {commit : Commit}
    (hmutation : s.mutations[j]? = some mutation) (hphase : mutation.phase = .invalidating commit []) :
    PermissionInv registry (s.setMutation j { mutation with phase := .returned commit }) := by
  have hkept : ∀ e ∈ s.cache.store, e ∈ s.cache.store := fun _ he => he
  refine h.setMutation hmutation (by rw [hphase]; rfl) hkept (fun _ _ _ _ _ hnew => nomatch hnew) ?_
  intro userId module action _ i _ hi k hk hlt
  have hold := hi mutation (List.mem_of_getElem? hmutation) k hk hlt
  unfold Mutation.pending at hold
  rw [hphase] at hold
  exact absurd (of_decide_eq_true hold) List.not_mem_nil

/-- A change fails. -/
theorem fail (h : PermissionInv registry s) {mutation : Mutation} {phase : MutationPhase}
    (hmutation : s.mutations[j]? = some mutation) (hfail : mutation.phase.fail = some phase) :
    PermissionInv registry (s.setMutation j { mutation with phase := phase }) := by
  unfold MutationPhase.fail at hfail
  cases hphase : mutation.phase with
  | begun | permissionFound | writing =>
    rw [hphase] at hfail
    obtain rfl := Option.some.inj hfail
    exact h.moveUncommitted hmutation (by rw [hphase]; rfl) rfl
  | committed commit =>
    rw [hphase] at hfail
    obtain rfl := Option.some.inj hfail
    have hkept : ∀ e ∈ s.cache.store, e ∈ s.cache.store := fun _ he => he
    refine h.setMutation hmutation (by rw [hphase]; rfl) hkept (fun _ _ _ _ _ _ => ?_)
      fun _ _ _ _ _ _ _ _ _ _ => rfl
    unfold Mutation.pending
    rw [hphase]
  | invalidating | returned | failed =>
    rw [hphase] at hfail
    cases hfail

/-- A change of a role looks for the users who have it. -/
theorem select (h : PermissionInv registry s) {mutation : Mutation} {commit : Commit} {roleId : String}
    {permissions : List PermissionUpdate} (hmutation : s.mutations[j]? = some mutation)
    (hphase : mutation.phase = .committed commit)
    (hkind : mutation.kind = .updateRolePermissions roleId permissions) (hfinds : FindsUsers s mutation) :
    PermissionInv registry (s.setMutation j { mutation with
      phase := .invalidating commit
        ((s.db.users.filter fun user => user.roleId = some roleId).map fun user => user.id) }) := by
  have hkept : ∀ e ∈ s.cache.store, e ∈ s.cache.store := fun _ he => he
  refine h.setMutation hmutation (by rw [hphase]; rfl) hkept (fun _ _ _ _ _ _ => ?_) ?_
  · unfold Mutation.pending
    rw [hphase]
  intro userId module action _ i _ hi k hk hlt
  obtain ⟨commit', hcommit, rfl, htouches⟩ := touchedAt_eq_some hk
  rw [hphase] at hcommit
  obtain rfl := Option.some.inj hcommit
  rw [hkind] at htouches
  obtain ⟨huser, hitem⟩ := (Bool.and_eq_true_iff).1 htouches
  obtain ⟨user, huser, hrole⟩ := (Option.any_eq_true _ _).1 huser
  obtain ⟨perm, hperm, hkey⟩ := List.any_eq_true.1 hitem
  obtain ⟨rfl, rfl⟩ := Prod.mk.inj (of_decide_eq_true hkey)
  obtain ⟨huserMem, hid⟩ := of_find?_key huser
  unfold FindsUsers at hfinds
  rw [hphase, hkind] at hfinds
  rcases hfinds user huserMem (of_decide_eq_true hrole) perm hperm with
    ⟨found, hfound, hfoundRole, hfoundId⟩ | ⟨other, hother, k', hk', hlater, hremoved⟩
  · refine decide_eq_true (List.mem_map.2 ⟨found, List.mem_filter.2 ⟨hfound, ?_⟩, hfoundId.trans hid⟩)
    exact decide_eq_true hfoundRole
  · -- The later change would still have to remove the entries.
    rw [hid] at hk' hremoved
    have hpending := hi other hother k' hk' (by omega)
    rw [hremoved] at hpending
    cases hpending

/-- A change that concerns a user here has the entries to remove when it has committed. -/
theorem pending_afterCommit {kind : MutationKind} {commit : Commit}
    (h : kind.touches commit.before.toPermissionTables userId module action = true) :
    (⟨kind, kind.afterCommit commit⟩ : Mutation).pending userId = true := by
  cases kind with
  | setUserPermissionOverride u m a allowed =>
    unfold MutationKind.touches at h
    rw [Bool.and_eq_true, Bool.and_eq_true, decide_eq_true_eq] at h
    exact decide_eq_true (List.mem_singleton.2 h.1.1.symm)
  | updateRolePermissions roleId permissions => rfl
  | putUserPermissions u overrides =>
    exact decide_eq_true (List.mem_singleton.2 (of_decide_eq_true h).symm)
  | changeRole u role roleId =>
    exact decide_eq_true (List.mem_singleton.2 (of_decide_eq_true h).symm)

/-- A change commits. -/
theorem write (h : PermissionInv registry s) {mutation : Mutation} (db : PermissionStore)
    (hmutation : s.mutations[j]? = some mutation) (hphase : mutation.phase.commit = none) :
    PermissionInv registry { s.setMutation j { mutation with
      phase := mutation.kind.afterCommit ⟨s.past.length + 1, s.db⟩ } with
      past := s.past ++ [s.db], db := db } := by
  have hcommit : (mutation.kind.afterCommit ⟨s.past.length + 1, s.db⟩).commit =
      some ⟨s.past.length + 1, s.db⟩ := by
    cases mutation.kind <;> rfl
  have hhistory : s.history <+: s.past ++ [s.db] ++ [db] := List.prefix_append _ _
  refine ⟨fun other hmem commit hother => ?_, ?_, fun call hcall => ?_⟩
  · rw [List.length_append, List.length_singleton]
    rcases List.mem_or_eq_of_mem_set hmem with hold | rfl
    · have hle := h.commits other hold commit hother
      omega
    · dsimp only at hother
      rw [hcommit] at hother
      obtain rfl := Option.some.inj hother
      exact le_rfl
  · refine h.cached.mono hhistory (fun _ he => he) fun userId module action entry i _ hi => ?_
    refine hi.set fun k hk _ => ?_
    obtain ⟨commit, hcommit', -, htouches⟩ := touchedAt_eq_some hk
    obtain rfl := Option.some.inj (hcommit.symm.trans hcommit')
    exact pending_afterCommit htouches
  · refine (h.calls call hcall).mono hhistory fun i hi => ?_
    refine hi.of_set hmutation fun k hk => ?_
    obtain ⟨commit, hcommit', -⟩ := touchedAt_eq_some hk
    rw [hphase] at hcommit'
    cases hcommit'

/-- A change begins. -/
theorem mutate (h : PermissionInv registry s) (kind : MutationKind) :
    PermissionInv registry { s with mutations := s.mutations ++ [⟨kind, .begun⟩] } where
  commits := by
    rw [List.forall_mem_append, List.forall_mem_singleton]
    exact ⟨h.commits, fun commit hcommit => nomatch hcommit⟩
  cached := h.cached.mono (List.prefix_refl _) (fun _ he => he) fun userId module action _ i _ hi => by
    unfold FreshAt
    rw [List.forall_mem_append, List.forall_mem_singleton]
    exact ⟨hi, fun k hk => nomatch hk⟩
  calls := fun call hcall => (h.calls call hcall).mono (List.prefix_refl _) fun i hi mutation hmem =>
    hi mutation (List.mem_append_left _ hmem)

end PermissionInv

/-! ## Steps -/

/-- What a statement of a change can be. -/
theorem Mutation.execute_cases {mutation : Mutation} {db : PermissionStore} {executed : Executed}
    (h : mutation.execute db = some executed) :
    (mutation.phase.commit = none ∧
      ((∃ phase, executed = .read phase ∧ phase.commit = none) ∨ ∃ db', executed = .wrote db')) ∨
      ∃ commit roleId permissions, mutation.phase = .committed commit ∧
        mutation.kind = .updateRolePermissions roleId permissions ∧
        executed = .read (.invalidating commit
          ((db.users.filter fun user => user.roleId = some roleId).map fun user => user.id)) := by
  have hwrite : ∀ written : Option PermissionStore,
      (∃ phase, Executed.ofWrite written = .read phase ∧ phase.commit = none) ∨
        ∃ db', Executed.ofWrite written = .wrote db' := by
    intro written
    cases written with
    | none => exact Or.inl ⟨_, rfl, rfl⟩
    | some db' => exact Or.inr ⟨db', rfl⟩
  unfold Mutation.execute at h
  split at h
  · -- `setUserPermissionOverride` looks for the permission.
    rename_i hphase _
    refine Or.inl ⟨by rw [hphase]; rfl, Or.inl ?_⟩
    split at h
    · exact ⟨_, (Option.some.inj h).symm, rfl⟩
    · exact ⟨_, (Option.some.inj h).symm, rfl⟩
  · rename_i hphase _
    exact Or.inl ⟨by rw [hphase]; rfl, Or.inl ⟨_, (Option.some.inj h).symm, rfl⟩⟩
  · rename_i hphase _
    refine Or.inl ⟨by rw [hphase]; rfl, ?_⟩
    split_ifs at h
    · exact Or.inr ⟨_, (Option.some.inj h).symm⟩
    · obtain rfl := Option.some.inj h
      exact hwrite _
  · rename_i hphase _
    exact Or.inl ⟨by rw [hphase]; rfl, Or.inr ⟨_, (Option.some.inj h).symm⟩⟩
  · rename_i hphase hkind
    exact Or.inr ⟨_, _, _, hphase, hkind, (Option.some.inj h).symm⟩
  · rename_i hphase _
    obtain rfl := Option.some.inj h
    exact Or.inl ⟨by rw [hphase]; rfl, hwrite _⟩
  · rename_i hphase _
    exact Or.inl ⟨by rw [hphase]; rfl, Or.inr ⟨_, (Option.some.inj h).symm⟩⟩
  · cases h

/-- A step of a change in the database. -/
theorem PermissionInv.execute (h : PermissionInv registry s) {mutation : Mutation} {executed : Executed}
    (hmutation : s.mutations[j]? = some mutation) (hexecute : mutation.execute s.db = some executed)
    (hfinds : FindsUsers s mutation) :
    PermissionInv registry (match executed with
      | .read phase => s.setMutation j { mutation with phase := phase }
      | .wrote db => { s.setMutation j { mutation with
          phase := mutation.kind.afterCommit ⟨s.past.length + 1, s.db⟩ } with
          past := s.past ++ [s.db], db := db }) := by
  obtain ⟨hold, ⟨phase, rfl, hnew⟩ | ⟨db, rfl⟩⟩ | ⟨commit, roleId, permissions, hphase, hkind, rfl⟩ :=
    mutation.execute_cases hexecute
  · exact h.moveUncommitted hmutation hold hnew
  · exact h.write db hmutation hold
  · exact h.select hmutation hphase hkind hfinds

/-- A timely step keeps the invariant. -/
theorem permissionStep_inv (s : PermissionState) (a : PermissionStep) (t : PermissionState)
    (h : PermissionInv registry s) (htimely : Timely s a) (hstep : permissionStep registry s a = some t) :
    PermissionInv registry t := by
  unfold permissionStep at hstep
  cases a with
  | call userId module action =>
    obtain rfl := Option.some.inj hstep
    exact h.call userId module action
  | query i =>
    obtain ⟨call, hcall, hstep⟩ := Option.bind_eq_some_iff.1 hstep
    obtain ⟨phase, hquery, hstep⟩ := Option.bind_eq_some_iff.1 hstep
    obtain rfl := Option.some.inj hstep
    -- Where a step reads or writes, it is timely.
    exact h.query (List.mem_of_getElem? hcall) hquery (htimely call hcall)
  | queryFail i =>
    obtain ⟨call, hcall, hstep⟩ := Option.bind_eq_some_iff.1 hstep
    obtain ⟨phase, hfail, hstep⟩ := Option.bind_eq_some_iff.1 hstep
    obtain rfl := Option.some.inj hstep
    exact h.queryFail (List.mem_of_getElem? hcall) hfail
  | resume i =>
    obtain ⟨call, hcall, hstep⟩ := Option.bind_eq_some_iff.1 hstep
    obtain ⟨⟨phase, cache⟩, hresume, hstep⟩ := Option.bind_eq_some_iff.1 hstep
    obtain rfl := Option.some.inj hstep
    exact h.resume (List.mem_of_getElem? hcall) hresume (htimely call hcall)
  | mutate kind =>
    obtain rfl := Option.some.inj hstep
    exact h.mutate kind
  | execute j =>
    obtain ⟨mutation, hmutation, hstep⟩ := Option.bind_eq_some_iff.1 hstep
    obtain ⟨executed, hexecute, hstep⟩ := Option.bind_eq_some_iff.1 hstep
    have hnext := h.execute hmutation hexecute (htimely mutation hmutation)
    cases executed with
    | read phase =>
      obtain rfl := Option.some.inj hstep
      exact hnext
    | wrote db =>
      obtain rfl := Option.some.inj hstep
      exact hnext
  | fail j =>
    obtain ⟨mutation, hmutation, hstep⟩ := Option.bind_eq_some_iff.1 hstep
    obtain ⟨phase, hfail, hstep⟩ := Option.bind_eq_some_iff.1 hstep
    obtain rfl := Option.some.inj hstep
    exact h.fail hmutation hfail
  | invalidate j =>
    obtain ⟨mutation, hmutation, hstep⟩ := Option.bind_eq_some_iff.1 hstep
    split at hstep
    · rename_i hphase
      obtain rfl := Option.some.inj hstep
      exact h.invalidate hmutation hphase
    · cases hstep
  | finish j =>
    obtain ⟨mutation, hmutation, hstep⟩ := Option.bind_eq_some_iff.1 hstep
    split at hstep
    · rename_i hphase
      obtain rfl := Option.some.inj hstep
      exact h.finish hmutation hphase
    · cases hstep
  | wait ms =>
    obtain rfl := Option.some.inj hstep
    exact ⟨h.commits, h.cached, h.calls⟩

theorem PermissionInv.answersFresh (h : PermissionInv registry s) : AnswersFresh registry s :=
  fun call hcall => (h.calls call hcall).answered

/-! ## The rule -/

/-- Along every timely run, a call that begins when changes have returned answers as a state of the
database does that is not older than those which they made, as far as they concern it. -/
theorem answers_fresh_along (registry : List ModuleDefinition) (db : PermissionStore) (maxEntries : ℕ)
    (ttlMs now : ℤ) (acts : List PermissionStep)
    (h : Guarded (permissionStep registry) Timely (.start db maxEntries ttlMs now) acts) :
    Along (permissionStep registry) (AnswersFresh registry) (.start db maxEntries ttlMs now) acts :=
  along_of_guarded (fun _ hinv => hinv.answersFresh) permissionStep_inv
    (PermissionState.start_inv db maxEntries ttlMs now) h

/-- A user who may view reports by the role. -/
def readerStore : PermissionStore :=
  { customRoleStore with
    users := [{ employee "alice" "EMP-1001-A1B2C3" with roleId := some "role-1" }] }

/-- A call that reads the database, up to where it stores the answer; and then an override denies the
permission. -/
def readThenDeny : List PermissionStep :=
  [.call "alice" "Reports" "View", .query 0, .resume 0, .query 0, .resume 0, .query 0,
    .mutate (.setUserPermissionOverride "alice" "Reports" "View" false), .execute 0, .execute 0, .execute 0]

/-- The answer is stored before the invalidation and removed by it; the role loses the permission as well,
and the next call is denied. -/
theorem answers_fresh_after_deny :
    Along (permissionStep reportsRegistry) (AnswersFresh reportsRegistry) (.start readerStore 1000 300000 0)
      (readThenDeny ++ [.resume 0, .invalidate 0, .finish 0,
        .mutate (.updateRolePermissions "role-1" [⟨"Reports", "View", false⟩]), .execute 1, .execute 1,
        .invalidate 1, .finish 1, .call "alice" "Reports" "View", .query 1, .resume 1, .query 1, .resume 1]) :=
  answers_fresh_along reportsRegistry readerStore 1000 300000 0 _ (by decide +kernel)

/-- The answer is stored after the invalidation: the override denies the permission, has returned, and a
call that begins then is allowed. -/
theorem stale_after_deny :
    ∃ s, run (permissionStep reportsRegistry) (.start readerStore 1000 300000 0)
        (readThenDeny ++ [.invalidate 0, .finish 0, .resume 0, .call "alice" "Reports" "View", .query 1,
          .resume 1]) = some s ∧
      s.calls[1]? = some ⟨"alice", "Reports", "View", 1, 1, .answered true⟩ ∧
      (s.history.drop 1).map (fun db => db.hasPermission reportsRegistry none "alice" "Reports" "View") =
        [false] ∧
      ¬ AnswersFresh reportsRegistry s := by
  obtain ⟨s, hrun, hcall, hdenied⟩ : ∃ s, run (permissionStep reportsRegistry)
      (.start readerStore 1000 300000 0) (readThenDeny ++ [.invalidate 0, .finish 0, .resume 0,
        .call "alice" "Reports" "View", .query 1, .resume 1]) = some s ∧
      s.calls[1]? = some ⟨"alice", "Reports", "View", 1, 1, .answered true⟩ ∧
      (s.history.drop 1).map (fun db => db.hasPermission reportsRegistry none "alice" "Reports" "View") =
        [false] :=
    ⟨_, rfl, rfl, by decide +kernel⟩
  refine ⟨s, hrun, hcall, hdenied, fun h => ?_⟩
  obtain ⟨j, hj, db, hdb, hanswer⟩ := h _ (List.mem_of_getElem? hcall) true rfl
  dsimp only at hj
  have hmem : db ∈ s.history.drop 1 := by
    refine List.mem_iff_getElem?.2 ⟨j - 1, ?_⟩
    rw [List.getElem?_drop, Nat.add_sub_cancel' hj]
    exact hdb
  have hin := List.mem_map_of_mem (f := fun db : PermissionStore =>
    db.hasPermission reportsRegistry none "alice" "Reports" "View") hmem
  rw [hdenied, hanswer] at hin
  exact absurd hin (by decide)

end AlsaqiBackend.Permissions
