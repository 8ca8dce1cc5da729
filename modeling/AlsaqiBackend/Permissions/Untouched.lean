import AlsaqiBackend.Permissions.Cache

/-!
# What a change leaves alone

`touches` says whom a change concerns, and in what. Every other answer of `hasPermission` stays as it was
(`hasPermission_of_not_touches`), in every run (`untouched_of_run`): the states after which the rule of
`CacheFreshness.lean` requires a fresh answer are all those in which an answer is another one than before.
-/

namespace AlsaqiBackend.Permissions

open AlsaqiBackend.Lib AlsaqiBackend.Users

def MutationPhase.permissionId : MutationPhase → Option String
  | .permissionFound permissionId | .writing permissionId _ => some permissionId
  | .begun | .committed _ | .invalidating _ _ | .returned _ | .failed _ => none

/-- The permission that a change has looked for has this id. -/
def Mutation.knowsPermission (mutation : Mutation) (db : PermissionTables) : Prop :=
  ∀ permissionId ∈ mutation.phase.permissionId, ∀ userId module action allowed,
    mutation.kind = .setUserPermissionOverride userId module action allowed →
      db.permissionId (module, action) = some permissionId

variable {registry : List ModuleDefinition} {store t : PermissionStore}
  {userId module action roleId permissionId : String}

/-! ## What an answer depends on -/

theorem notMem_rolePairs_none {db : PermissionTables} {pair : String × String} : pair ∉ db.rolePairs none := by
  intro h
  obtain ⟨permission, hmem, -⟩ := List.mem_map.1 h
  obtain ⟨-, row, -, -, hrole⟩ := mem_roleRows.1 hmem
  cases hrole

/-- The answer depends on the row of the user, the overrides for the action, and whether the role has it. -/
theorem hasPermission_congr (huser : t.user userId = store.user userId)
    (hoverrides : ∀ b, ((module, action), b) ∈ t.overrides userId ↔
      ((module, action), b) ∈ store.overrides userId)
    (hrole : ∀ user, store.user userId = some user → ∀ roleId, user.roleId = some roleId →
      ((module, action) ∈ t.rolePairs (some roleId) ↔ (module, action) ∈ store.rolePairs (some roleId))) :
    t.hasPermission registry none userId module action =
      store.hasPermission registry none userId module action := by
  have hlast : lastSays (t.overrides userId) (module, action) =
      lastSays (store.overrides userId) (module, action) := by
    refine Option.ext fun b => ?_
    rw [lastSays_eq_some_iff (overrides_nodup t userId),
      lastSays_eq_some_iff (overrides_nodup store userId), hoverrides]
  unfold PermissionTables.hasPermission
  rw [huser]
  cases hfound : store.user userId with
  | none => rfl
  | some user =>
    have hresolve : t.resolvePermission userId module action user.roleId =
        store.resolvePermission userId module action user.roleId := by
      rw [Bool.eq_iff_iff, resolvePermission_iff, resolvePermission_iff]
      unfold PermissionTables.allowed
      rw [mem_applyAll_iff, mem_applyAll_iff, hlast]
      cases hid : user.roleId with
      | none => exact or_congr_right (and_congr_right fun _ =>
          iff_of_false notMem_rolePairs_none notMem_rolePairs_none)
      | some roleId => rw [hrole user hfound roleId hid]
    dsimp only
    rw [hresolve]

/-- The overrides for an action depend on the rows of the user for its permission. -/
theorem mem_rowOverrides_congr {permissions : List Permission} {rows rows' : List UserPermission}
    (h : ∀ permission ∈ permissions, permission.key = (module, action) → ∀ row : UserPermission,
      row.permissionId = permission.id → row.userId = userId → (row ∈ rows' ↔ row ∈ rows)) (b : Bool) :
    ((module, action), b) ∈ rowOverrides permissions userId rows' ↔
      ((module, action), b) ∈ rowOverrides permissions userId rows := by
  unfold rowOverrides
  rw [Set.mem_ofPred_eq, Set.mem_ofPred_eq]
  refine exists_congr fun permission => and_congr_right fun hmem => and_congr_right fun hkey =>
    exists_congr fun row => ?_
  constructor
  · rintro ⟨hrow, hid, huser, hflag⟩
    exact ⟨(h permission hmem hkey row hid huser).1 hrow, hid, huser, hflag⟩
  · rintro ⟨hrow, hid, huser, hflag⟩
    exact ⟨(h permission hmem hkey row hid huser).2 hrow, hid, huser, hflag⟩

/-! ## The writes -/

/-- With the id of another permission, or for another user, no row for the action is written. -/
theorem ne_of_permissionId {u m a : String} (hfound : store.permissionId (m, a) = some permissionId)
    (hne : ¬ (u = userId ∧ m = module ∧ a = action)) {permission : Permission}
    (hmem : permission ∈ store.permissions) (hkey : permission.key = (module, action))
    {row : UserPermission} (hid : row.permissionId = permission.id) (huser : row.userId = userId) :
    ¬ (row.userId = u ∧ row.permissionId = permissionId) := by
  rintro ⟨rfl, hpermission⟩
  obtain ⟨found, hfind, rfl⟩ := Option.map_eq_some_iff.1 hfound
  obtain ⟨hfoundMem, hfoundKey⟩ := of_find?_key hfind
  have heq : permission = found := List.inj_on_of_nodup_map store.uniqueId hmem hfoundMem (hid.symm.trans hpermission)
  rw [heq, hfoundKey] at hkey
  obtain ⟨rfl, rfl⟩ := Prod.mk.inj hkey
  exact hne ⟨huser, rfl, rfl⟩

theorem hasPermission_updateOverride {u m a : String} {allowed : Bool}
    (hfound : store.permissionId (m, a) = some permissionId)
    (hne : ¬ (u = userId ∧ m = module ∧ a = action)) :
    (store.updateOverride u permissionId allowed).hasPermission registry none userId module action =
      store.hasPermission registry none userId module action := by
  refine hasPermission_congr rfl (fun b => ?_) fun _ _ _ _ => Iff.rfl
  rw [mem_overrides_iff, mem_overrides_iff]
  refine mem_rowOverrides_congr (fun permission hmem hkey row hid huser => ?_) b
  have hother := ne_of_permissionId hfound hne hmem hkey hid huser
  unfold PermissionStore.updateOverride
  dsimp only
  rw [List.mem_map]
  constructor
  · rintro ⟨old, hold, hrow⟩
    by_cases hhit : old.userId = u ∧ old.permissionId = permissionId
    · rw [if_pos hhit] at hrow
      subst hrow
      exact absurd hhit hother
    · rw [if_neg hhit] at hrow
      exact hrow ▸ hold
  · intro hrow
    exact ⟨row, hrow, if_neg hother⟩

theorem tables_insertOverride {u : String} {allowed : Bool}
    (h : store.insertOverride u permissionId allowed = some t) :
    t.toPermissionTables = { store.toPermissionTables with
      userPermissions := store.userPermissions ++ [⟨u, permissionId, if allowed then 1 else 0⟩] } := by
  unfold PermissionStore.insertOverride at h
  by_cases hmem : store.HasOverride u permissionId
  · rw [dif_pos hmem] at h
    cases h
  · rw [dif_neg hmem] at h
    obtain rfl := Option.some.inj h
    rfl

theorem hasPermission_insertOverride {u m a : String} {allowed : Bool}
    (hfound : store.permissionId (m, a) = some permissionId)
    (hne : ¬ (u = userId ∧ m = module ∧ a = action))
    (h : store.insertOverride u permissionId allowed = some t) :
    t.hasPermission registry none userId module action =
      store.hasPermission registry none userId module action := by
  have htables := tables_insertOverride h
  refine hasPermission_congr (by rw [htables]; rfl) (fun b => ?_) fun _ _ _ _ => by rw [htables]; rfl
  rw [mem_overrides_iff, mem_overrides_iff, htables]
  refine mem_rowOverrides_congr (fun permission hmem hkey row hid huser => ?_) b
  have hother := ne_of_permissionId hfound hne hmem hkey hid huser
  dsimp only
  rw [List.mem_append, List.mem_singleton]
  refine or_iff_left ?_
  rintro rfl
  exact hother ⟨rfl, rfl⟩

theorem hasPermission_updateRolePermissions {permissions : List PermissionUpdate}
    (hne : ∀ user, store.user userId = some user → user.roleId = some roleId →
      ∀ perm ∈ permissions, perm.key ≠ (module, action)) :
    (store.updateRolePermissions roleId permissions).hasPermission registry none userId module action =
      store.hasPermission registry none userId module action := by
  refine hasPermission_congr rfl (fun b => Iff.rfl) fun user huser other hother => ?_
  by_cases hrole : other = roleId
  · subst hrole
    have hnone : lastSays (storedItems store.toPermissionTables permissions) (module, action) = none := by
      rw [lastSays_eq_none_iff]
      intro hmem
      obtain ⟨item, hitem, hkey⟩ := List.mem_map.1 hmem
      obtain ⟨perm, hperm, rfl⟩ := List.mem_map.1 (List.mem_of_mem_filter hitem)
      exact hne user huser hother perm hperm hkey
    rw [rolePairs_updateRolePermissions, mem_applyAll_iff, hnone]
    simp
  · rw [rolePairs_updateRolePermissions_of_ne store permissions hrole]

theorem hasPermission_replaceOverrides {u : String} {overrides : List PermissionOverride} (hne : u ≠ userId)
    (h : store.replaceOverrides u overrides = some t) :
    t.hasPermission registry none userId module action =
      store.hasPermission registry none userId module action := by
  obtain ⟨htables, hoverrides⟩ := overrides_replaceOverrides h
  refine hasPermission_congr ?_ (fun b => ?_) fun _ _ roleId _ => ?_
  · rw [htables]
    rfl
  · rw [hoverrides, if_neg (Ne.symm hne)]
  · rw [htables]
    rfl

theorem hasPermission_changeRole {u role : String} {newRoleId : Option String} (hne : u ≠ userId) :
    (store.changeRole u role newRoleId).hasPermission registry none userId module action =
      store.hasPermission registry none userId module action := by
  refine hasPermission_congr ?_ (fun _ => Iff.rfl) fun _ _ _ _ => Iff.rfl
  unfold PermissionStore.changeRole PermissionTables.user
  dsimp only
  rw [List.find?_map]
  have hid : ((fun user : Employee => decide (user.id = userId)) ∘ fun user : Employee =>
      if user.id = u then { user with role := role, roleId := newRoleId } else user) =
        fun user : Employee => decide (user.id = userId) := by
    funext user
    dsimp only [Function.comp]
    split_ifs <;> rfl
  rw [hid]
  cases hfound : store.users.find? fun user => user.id = userId with
  | none => rfl
  | some user =>
    have huser : user.id = userId := (of_find?_key hfound).2
    rw [Option.map_some, if_neg (by rw [huser]; exact Ne.symm hne)]

/-! ## The changes -/

/-- A change that does not concern a user here leaves the answer as it was. -/
theorem hasPermission_of_not_touches {mutation : Mutation}
    (hknows : mutation.knowsPermission store.toPermissionTables)
    (hexecute : mutation.execute store = some (.wrote t))
    (htouches : mutation.kind.touches store.toPermissionTables userId module action = false) :
    t.hasPermission registry none userId module action =
      store.hasPermission registry none userId module action := by
  have hwrote : ∀ {written : Option PermissionStore}, Executed.ofWrite written = .wrote t →
      written = some t := by
    intro written h
    cases written with
    | none => cases h
    | some db => rw [Executed.wrote.inj h]
  unfold Mutation.execute at hexecute
  split at hexecute
  · split at hexecute
    · cases hexecute
    · cases hexecute
  · cases hexecute
  · rename_i permissionId existing u m a allowed hphase hkind
    rw [hkind] at htouches
    have hne : ¬ (u = userId ∧ m = module ∧ a = action) := by
      rintro ⟨rfl, rfl, rfl⟩
      simp [MutationKind.touches] at htouches
    have hfound := hknows permissionId (by rw [hphase]; rfl) u m a allowed hkind
    split_ifs at hexecute
    · obtain rfl := Executed.wrote.inj (Option.some.inj hexecute)
      exact hasPermission_updateOverride hfound hne
    · exact hasPermission_insertOverride hfound hne (hwrote (Option.some.inj hexecute))
  · rename_i roleId permissions hphase hkind
    rw [hkind] at htouches
    obtain rfl := Executed.wrote.inj (Option.some.inj hexecute)
    refine hasPermission_updateRolePermissions fun user huser hrole perm hperm hkey => ?_
    have hitem : (permissions.any fun perm => perm.key = (module, action)) = true :=
      List.any_eq_true.2 ⟨perm, hperm, decide_eq_true hkey⟩
    simp [MutationKind.touches, huser, hrole, hitem] at htouches
  · cases hexecute
  · rename_i u overrides hphase hkind
    rw [hkind] at htouches
    exact hasPermission_replaceOverrides (of_decide_eq_false htouches) (hwrote (Option.some.inj hexecute))
  · rename_i u role newRoleId hphase hkind
    rw [hkind] at htouches
    obtain rfl := Executed.wrote.inj (Option.some.inj hexecute)
    exact hasPermission_changeRole (of_decide_eq_false htouches)
  · cases hexecute

/-- No change writes to `permissions`. -/
theorem permissions_of_execute {mutation : Mutation} (h : mutation.execute store = some (.wrote t)) :
    t.permissions = store.permissions := by
  unfold Mutation.execute at h
  split at h
  · split at h
    · cases h
    · cases h
  · cases h
  · split_ifs at h
    · obtain rfl := Executed.wrote.inj (Option.some.inj h)
      rfl
    · cases hwritten : store.insertOverride _ _ _ with
      | none =>
        rw [hwritten] at h
        cases h
      | some db =>
        rw [hwritten] at h
        obtain rfl := Executed.wrote.inj (Option.some.inj h)
        rw [tables_insertOverride hwritten]
  · obtain rfl := Executed.wrote.inj (Option.some.inj h)
    rfl
  · cases h
  · cases hwritten : store.replaceOverrides _ _ with
    | none =>
      rw [hwritten] at h
      cases h
    | some db =>
      rw [hwritten] at h
      obtain rfl := Executed.wrote.inj (Option.some.inj h)
      rw [(overrides_replaceOverrides hwritten).1]
  · obtain rfl := Executed.wrote.inj (Option.some.inj h)
    rfl
  · cases h

/-! ## Runs -/

/-- The state before a commit and the one after it are in the history, and the change left alone in it what
it does not concern. -/
structure CommitInv (registry : List ModuleDefinition) (history : List PermissionStore) (kind : MutationKind)
    (commit : Commit) : Prop where
  pos : 0 < commit.index
  before : history[commit.index - 1]? = some commit.before
  untouched : ∀ userId module action,
    kind.touches commit.before.toPermissionTables userId module action = false →
      ∃ after, history[commit.index]? = some after ∧
        after.hasPermission registry none userId module action =
          commit.before.hasPermission registry none userId module action

/-- What is known of a change. -/
structure MutationInv (registry : List ModuleDefinition) (s : PermissionState) (mutation : Mutation) :
    Prop where
  knows : mutation.knowsPermission s.db.toPermissionTables
  commit : ∀ commit ∈ mutation.phase.commit, CommitInv registry s.history mutation.kind commit

variable {s s' : PermissionState} {mutation : Mutation} {phase : MutationPhase}

/-- Nothing of it changes when states are added. -/
theorem CommitInv.mono {history history' : List PermissionStore} {kind : MutationKind} {commit : Commit}
    (h : CommitInv registry history kind commit) (hhistory : history <+: history') :
    CommitInv registry history' kind commit where
  pos := h.pos
  before := getElem?_of_prefix hhistory h.before
  untouched := fun userId module action htouches => by
    obtain ⟨after, hafter, hanswer⟩ := h.untouched userId module action htouches
    exact ⟨after, getElem?_of_prefix hhistory hafter, hanswer⟩

/-- The change at one place moves on. -/
theorem forall_mutationInv_set {j : ℕ} (h : ∀ mutation ∈ s.mutations, MutationInv registry s mutation)
    (hmutation : MutationInv registry s mutation) :
    ∀ other ∈ s.mutations.set j mutation, MutationInv registry s other := by
  intro other hmem
  rcases List.mem_or_eq_of_mem_set hmem with hold | rfl
  · exact h other hold
  · exact hmutation

/-- A change that moves on without a statement has no use for the id. -/
theorem MutationInv.setPhase (h : MutationInv registry s mutation)
    (hcommit : phase.commit = mutation.phase.commit) (hpermission : phase.permissionId = none) :
    MutationInv registry s { mutation with phase := phase } where
  knows := fun permissionId hmem => by
    dsimp only at hmem
    rw [hpermission] at hmem
    cases hmem
  commit := fun commit hmem => h.commit commit (hcommit ▸ hmem)

/-- A statement of a change that writes nothing. -/
theorem MutationInv.read (h : MutationInv registry s mutation)
    (hexecute : mutation.execute s.db = some (.read phase)) :
    MutationInv registry s { mutation with phase := phase } := by
  have hwritten : ∀ {written : Option PermissionStore}, Executed.ofWrite written = .read phase →
      phase = .failed none := by
    intro written h
    cases written with
    | none => exact (Executed.read.inj h).symm
    | some db => cases h
  have hfailed : phase = .failed none → MutationInv registry s { mutation with phase := phase } := by
    rintro rfl
    exact ⟨fun _ hmem => (nomatch hmem), fun _ hmem => (nomatch hmem)⟩
  unfold Mutation.execute at hexecute
  split at hexecute
  · rename_i u m a allowed hphase hkind
    split at hexecute
    · exact hfailed (Executed.read.inj (Option.some.inj hexecute)).symm
    · rename_i permissionId hfound
      obtain rfl := Executed.read.inj (Option.some.inj hexecute)
      refine ⟨fun id hid u' m' a' allowed' hkind' => ?_, fun _ hmem => (nomatch hmem)⟩
      obtain rfl := Option.some.inj hid
      obtain ⟨rfl, rfl, rfl, rfl⟩ := MutationKind.setUserPermissionOverride.inj (hkind.symm.trans hkind')
      exact hfound
  · rename_i permissionId u m a allowed hphase hkind
    obtain rfl := Executed.read.inj (Option.some.inj hexecute)
    exact ⟨fun id hid => h.knows id (by rw [hphase]; exact hid), fun _ hmem => (nomatch hmem)⟩
  · split_ifs at hexecute
    · cases hexecute
    · exact hfailed (hwritten (Option.some.inj hexecute))
  · cases hexecute
  · rename_i commit roleId permissions hphase hkind
    obtain rfl := Executed.read.inj (Option.some.inj hexecute)
    exact h.setPhase (by rw [hphase]; rfl) rfl
  · exact hfailed (hwritten (Option.some.inj hexecute))
  · cases hexecute
  · cases hexecute

/-- The state before a commit and the one after it. -/
theorem commitInv_write (hknows : mutation.knowsPermission s.db.toPermissionTables)
    (hexecute : mutation.execute s.db = some (.wrote t)) :
    CommitInv registry (s.past ++ [s.db] ++ [t]) mutation.kind ⟨s.past.length + 1, s.db⟩ where
  pos := Nat.succ_pos _
  before := getElem?_of_prefix (List.prefix_append _ _) s.history_current
  untouched := fun _ _ _ htouches => by
    refine ⟨t, ?_, hasPermission_of_not_touches hknows hexecute htouches⟩
    show (s.past ++ [s.db] ++ [t])[s.past.length + 1]? = some t
    rw [List.getElem?_append_right (by simp)]
    simp

/-- What is known of a change stays so when states with the same permissions are added. -/
theorem MutationInv.mono (h : MutationInv registry s mutation)
    (hpermissions : s'.db.permissions = s.db.permissions) (hhistory : s.history <+: s'.history) :
    MutationInv registry s' mutation where
  knows := fun permissionId hmem userId module action allowed hkind => by
    unfold PermissionTables.permissionId
    rw [hpermissions]
    exact h.knows permissionId hmem userId module action allowed hkind
  commit := fun commit hmem => (h.commit commit hmem).mono hhistory

/-- A change that fails keeps its commit, and knows no id. -/
theorem commit_of_fail {old phase : MutationPhase} (h : old.fail = some phase) :
    phase.commit = old.commit ∧ phase.permissionId = none := by
  unfold MutationPhase.fail at h
  cases old with
  | begun | permissionFound | writing | committed =>
    obtain rfl := Option.some.inj h
    exact ⟨rfl, rfl⟩
  | invalidating | returned | failed => cases h

/-- A write of a change, which is the next state of the database. -/
theorem MutationInv.wrote (h : MutationInv registry s mutation) {db : PermissionStore} {j : ℕ}
    (hexecute : mutation.execute s.db = some (.wrote db)) :
    MutationInv registry { s.setMutation j { mutation with
        phase := mutation.kind.afterCommit ⟨s.past.length + 1, s.db⟩ } with past := s.past ++ [s.db], db := db }
      { mutation with phase := mutation.kind.afterCommit ⟨s.past.length + 1, s.db⟩ } := by
  have hphase : (mutation.kind.afterCommit ⟨s.past.length + 1, s.db⟩).permissionId = none ∧
      (mutation.kind.afterCommit ⟨s.past.length + 1, s.db⟩).commit = some ⟨s.past.length + 1, s.db⟩ := by
    cases mutation.kind <;> exact ⟨rfl, rfl⟩
  refine ⟨fun permissionId hid => ?_, fun commit hcommit => ?_⟩
  · dsimp only at hid
    rw [hphase.1] at hid
    cases hid
  · dsimp only at hcommit
    rw [hphase.2] at hcommit
    obtain rfl := Option.some.inj hcommit
    have hwrite : CommitInv registry (s.past ++ [s.db] ++ [db]) mutation.kind
        ⟨s.past.length + 1, s.db⟩ := commitInv_write h.knows hexecute
    exact hwrite

/-- Every step keeps what is known of the changes. -/
theorem permissionStep_mutationInv (s : PermissionState) (a : PermissionStep) (t : PermissionState)
    (h : ∀ mutation ∈ s.mutations, MutationInv registry s mutation)
    (hstep : permissionStep registry s a = some t) :
    ∀ mutation ∈ t.mutations, MutationInv registry t mutation := by
  have hmem : ∀ {j : ℕ} {mutation : Mutation}, s.mutations[j]? = some mutation →
      MutationInv registry s mutation := fun hj => h _ (List.mem_of_getElem? hj)
  -- A step that leaves the database alone.
  have hframe : ∀ {s' : PermissionState}, s'.past = s.past → s'.db = s.db →
      (∀ mutation ∈ s'.mutations, MutationInv registry s mutation) →
        ∀ mutation ∈ s'.mutations, MutationInv registry s' mutation := by
    intro s' hpast hdb hknown mutation hin
    have hsame : s'.history = s.history := by
      unfold PermissionState.history
      rw [hpast, hdb]
    exact (hknown mutation hin).mono (by rw [hdb]) ⟨[], by rw [List.append_nil, hsame]⟩
  unfold permissionStep at hstep
  cases a with
  | call userId module action =>
    obtain rfl := Option.some.inj hstep
    exact hframe rfl rfl h
  | query i =>
    obtain ⟨call, hcall, hstep⟩ := Option.bind_eq_some_iff.1 hstep
    obtain ⟨phase, hquery, hstep⟩ := Option.bind_eq_some_iff.1 hstep
    obtain rfl := Option.some.inj hstep
    exact hframe rfl rfl h
  | queryFail i =>
    obtain ⟨call, hcall, hstep⟩ := Option.bind_eq_some_iff.1 hstep
    obtain ⟨phase, hfail, hstep⟩ := Option.bind_eq_some_iff.1 hstep
    obtain rfl := Option.some.inj hstep
    exact hframe rfl rfl h
  | resume i =>
    obtain ⟨call, hcall, hstep⟩ := Option.bind_eq_some_iff.1 hstep
    obtain ⟨⟨phase, cache⟩, hresume, hstep⟩ := Option.bind_eq_some_iff.1 hstep
    obtain rfl := Option.some.inj hstep
    exact hframe rfl rfl h
  | mutate kind =>
    obtain rfl := Option.some.inj hstep
    refine hframe rfl rfl (List.forall_mem_append.2 ⟨h, List.forall_mem_singleton.2 ?_⟩)
    exact ⟨fun _ hmem => (nomatch hmem), fun _ hmem => (nomatch hmem)⟩
  | execute j =>
    obtain ⟨mutation, hmutation, hstep⟩ := Option.bind_eq_some_iff.1 hstep
    obtain ⟨executed, hexecute, hstep⟩ := Option.bind_eq_some_iff.1 hstep
    cases executed with
    | read phase =>
      obtain rfl := Option.some.inj hstep
      exact hframe rfl rfl (forall_mutationInv_set h ((hmem hmutation).read hexecute))
    | wrote db =>
      obtain rfl := Option.some.inj hstep
      intro other hother
      rcases List.mem_or_eq_of_mem_set hother with hold | rfl
      · exact (h other hold).mono (permissions_of_execute hexecute) (List.prefix_append _ _)
      · exact (hmem hmutation).wrote hexecute
  | fail j =>
    obtain ⟨mutation, hmutation, hstep⟩ := Option.bind_eq_some_iff.1 hstep
    obtain ⟨phase, hfail, hstep⟩ := Option.bind_eq_some_iff.1 hstep
    obtain rfl := Option.some.inj hstep
    have hphase := commit_of_fail hfail
    exact hframe rfl rfl (forall_mutationInv_set h ((hmem hmutation).setPhase hphase.1 hphase.2))
  | invalidate j | finish j =>
    obtain ⟨mutation, hmutation, hstep⟩ := Option.bind_eq_some_iff.1 hstep
    split at hstep
    · rename_i hphase
      obtain rfl := Option.some.inj hstep
      exact hframe rfl rfl
        (forall_mutationInv_set h ((hmem hmutation).setPhase (by rw [hphase]; rfl) rfl))
    · cases hstep
  | wait ms =>
    obtain rfl := Option.some.inj hstep
    exact hframe rfl rfl h

/-- In every run, a change leaves the answers alone that it does not concern: they are the same in the
state before it and in the state that it made. -/
theorem untouched_of_run {db : PermissionStore} {maxEntries : ℕ} {ttlMs now : ℤ} {acts : List PermissionStep}
    (h : run (permissionStep registry) (.start db maxEntries ttlMs now) acts = some s) :
    ∀ mutation ∈ s.mutations, ∀ commit ∈ mutation.phase.commit,
      CommitInv registry s.history mutation.kind commit := by
  have hstart : ∀ mutation ∈ (PermissionState.start db maxEntries ttlMs now).mutations,
      MutationInv registry (.start db maxEntries ttlMs now) mutation :=
    fun _ hmem => absurd hmem List.not_mem_nil
  intro mutation hmem
  exact (run_invariant permissionStep_mutationInv hstart h mutation hmem).commit

/-- An override takes from a user the permission to edit reports. -/
def denyEditing : List PermissionStep :=
  [.mutate (.setUserPermissionOverride "alice" "Reports" "Edit" false), .execute 0, .execute 0, .execute 0]

theorem untouched_denyEditing : ∃ s,
    run (permissionStep [⟨"Reports", ["View", "Edit"], rfl, rfl⟩]) (.start auditStore 1000 300000 0) denyEditing =
      some s ∧
    ∃ mutation ∈ s.mutations, ∃ commit ∈ mutation.phase.commit,
      CommitInv [⟨"Reports", ["View", "Edit"], rfl, rfl⟩] s.history mutation.kind commit := by
  have hrun : run (permissionStep [⟨"Reports", ["View", "Edit"], rfl, rfl⟩]) (.start auditStore 1000 300000 0)
      denyEditing = some _ := rfl
  exact ⟨_, hrun, _, List.mem_cons_self, _, rfl, untouched_of_run hrun _ List.mem_cons_self _ rfl⟩

end AlsaqiBackend.Permissions
