import AlsaqiBackend.Users.Identity

/-!
# The last administrator

The routes that change the status or the role of a user, or delete one, are to leave at least one Active
Admin. `lastAdminGuard` counts the others before a suspension, an archiving or a deletion; the update of
a user has no guard. A request reads and writes in statements of its own, and requests overlap.

`hasAdmin_iff_guarded` says when an Active Admin is left: exactly when every write leaves the row an
Active Admin, or comes at a moment when the guard would let it through, with the count as a number.
`passes_of_step` says that a request which the guard lets through is one that it would let through, when
the driver gives numbers. A count as a text is never `=== 0`.
-/

namespace AlsaqiBackend.Users

open AlsaqiBackend.Lib

/-! ## Requests -/

def UserRecord.isActiveAdmin (user : UserRecord) : Bool :=
  user.role = "Admin" && user.status = "Active"

/-- The value of `COUNT(*)` in a row that the driver returns. -/
inductive CountValue
  | number (n : ℕ)
  | text (decimal : String)
  deriving DecidableEq, Repr

/-- `count === 0`. -/
def CountValue.isZero : CountValue → Bool
  | .number n => n = 0
  | .text _ => false

/-- The count as a driver gives it: PGlite a number, `pg` the decimal digits of a `BIGINT`. -/
def countValue (asText : Bool) (n : ℕ) : CountValue :=
  if asText then .text (toString n) else .number n

/-- `STATUS_PERSIST_MAP[status] ?? status`. -/
def persistedStatus (status : String) : String :=
  if status = "Archived" ∨ status = "Disabled" then "Inactive" else status

/-- The routes below `/users/:id` that write the row. -/
inductive UserRoute
  /-- `PUT /`. -/
  | put (data : UserData)
  | suspend
  | archive
  | activate
  | delete
  deriving DecidableEq, Repr

/-- The route has `lastAdminGuard` before its handler. -/
def UserRoute.guarded : UserRoute → Bool
  | .suspend | .archive | .delete => true
  | .put _ | .activate => false

/-- What the transaction of a request writes. -/
inductive UserWrite
  /-- `updateUser`, which has read the old status. -/
  | update (data : UserData) (oldStatus : String)
  | setStatus (persisted : String)
  | activate
  | delete
  deriving DecidableEq, Repr

/-- Where a request is. -/
inductive RequestPhase
  /-- The guard, before `SELECT role FROM users WHERE id = ?`. -/
  | checkingRole
  /-- The guard, before the `COUNT`. -/
  | countingAdmins
  /-- The handler, before its first statement. -/
  | reading
  /-- `setStatus`, before its `SELECT`. -/
  | settingStatus (status : String)
  | writing (write : UserWrite)
  | finished (code : ℕ)
  deriving DecidableEq, Repr

/-- A request that `authenticate` and `checkPermission` have let through; `actor` is `req.user.id`. -/
structure UserRequest where
  actor : String
  target : String
  route : UserRoute
  phase : RequestPhase
  deriving DecidableEq, Repr

structure AdminState where
  users : List UserRecord
  requests : List UserRequest
  deriving DecidableEq, Repr

inductive AdminAction
  | request (actor target : String) (route : UserRoute)
  | checkRole (i : ℕ)
  | countAdmins (i : ℕ)
  | read (i : ℕ)
  | readUser (i : ℕ)
  /-- The write of a request, and the `COMMIT`. -/
  | write (i : ℕ)
  /-- A request fails, and its transaction is rolled back. -/
  | fail (i code : ℕ)
  deriving DecidableEq, Repr

namespace AdminState

def init (users : List UserRecord) : AdminState := ⟨users, []⟩

def setRequest (s : AdminState) (i : ℕ) (request : UserRequest) (phase : RequestPhase) : AdminState :=
  { s with requests := s.requests.set i { request with phase := phase } }

/-- `SELECT … FROM users WHERE id = ?`. -/
def user (s : AdminState) (id : String) : Option UserRecord := s.users.find? fun user => user.id = id

/-- `SELECT COUNT(*) FROM users WHERE role = 'Admin' AND status = 'Active' AND id != ?`. -/
def otherAdmins (s : AdminState) (id : String) : ℕ :=
  s.users.countP fun user => user.isActiveAdmin && user.id ≠ id

end AdminState

/-- The first statement of a handler is its own, or that of `setStatus`. -/
def UserRoute.handle : UserRoute → RequestPhase
  | .archive => .settingStatus "Archived"
  | .put _ | .suspend | .activate | .delete => .reading

/-- What a handler does with the row that it has read first. -/
def UserRoute.afterRead (user : UserRecord) : UserRoute → RequestPhase
  | .put data => .writing (.update data user.status)
  | .suspend => .settingStatus (if user.status = "Suspended" then "Active" else "Suspended")
  | .archive => .settingStatus "Archived"
  | .activate => .writing .activate
  | .delete => .writing .delete

variable (hash : String → String)

/-- What becomes of the row; `none` when it is deleted. -/
def UserWrite.row (user : UserRecord) : UserWrite → Option UserRecord
  | .update data oldStatus => some (updatedRow hash data oldStatus user)
  | .setStatus persisted => some { user with status := persisted }
  | .activate => some { user with status := "Active", failedAttempts := 0, lockedUntil := none }
  | .delete => none

/-- `UPDATE users … WHERE id = ?` and `DELETE FROM users WHERE id = ?`. -/
def UserWrite.apply (write : UserWrite) (id : String) (users : List UserRecord) : List UserRecord :=
  users.filterMap fun user => if user.id = id then write.row hash user else some user

variable (asText : Bool)

/-- One step; `none` when the action is not possible. -/
def adminStep (s : AdminState) : AdminAction → Option AdminState
  | .request actor target route =>
    let phase :=
      if route.guarded then if target = actor then .finished 403 else .checkingRole
      else route.handle
    some { s with requests := s.requests ++ [⟨actor, target, route, phase⟩] }
  | .checkRole i =>
    match s.requests[i]? with
    | some ⟨actor, target, route, .checkingRole⟩ =>
      some (s.setRequest i ⟨actor, target, route, .checkingRole⟩
        (if (s.user target).any fun user => user.role = "Admin" then .countingAdmins else route.handle))
    | _ => none
  | .countAdmins i =>
    match s.requests[i]? with
    | some ⟨actor, target, route, .countingAdmins⟩ =>
      some (s.setRequest i ⟨actor, target, route, .countingAdmins⟩
        (if (countValue asText (s.otherAdmins target)).isZero then .finished 403 else route.handle))
    | _ => none
  | .read i =>
    match s.requests[i]? with
    | some ⟨actor, target, route, .reading⟩ =>
      some (s.setRequest i ⟨actor, target, route, .reading⟩
        (match s.user target with
        | none => .finished 404
        | some user => route.afterRead user))
    | _ => none
  | .readUser i =>
    match s.requests[i]? with
    | some ⟨actor, target, route, .settingStatus status⟩ =>
      some (s.setRequest i ⟨actor, target, route, .settingStatus status⟩
        (match s.user target with
        | none => .finished 404
        | some _ => .writing (.setStatus (persistedStatus status))))
    | _ => none
  | .write i =>
    match s.requests[i]? with
    | some ⟨actor, target, route, .writing write⟩ =>
      let users := write.apply hash target s.users
      some ({ s with users }.setRequest i ⟨actor, target, route, .writing write⟩ (.finished 200))
    | _ => none
  | .fail i code =>
    match s.requests[i]? with
    | some ⟨_, _, _, .finished _⟩ => none
    | some request => some (s.setRequest i request (.finished code))
    | none => none

/-! ## An Active Admin is left -/

/-- There is an Active Admin. -/
def HasAdmin (s : AdminState) : Prop := ∃ user ∈ s.users, user.isActiveAdmin = true

/-- The guard would let a request on this user through, with the count as a number. -/
def guardPasses (s : AdminState) (id : String) : Bool :=
  !((s.user id).any fun user => user.role = "Admin") || s.otherAdmins id ≠ 0

/-- A write leaves the row an Active Admin, or the guard would let it through at that moment. -/
def guardedAtWrite (s : AdminState) : AdminAction → Bool
  | .write i =>
    match s.requests[i]? with
    | some ⟨_, target, _, .writing write⟩ =>
      (s.user target).any (fun user => (write.row hash user).any UserRecord.isActiveAdmin) ||
        guardPasses s target
    | _ => true
  | _ => true

instance (s : AdminState) : Decidable (HasAdmin s) := inferInstanceAs (Decidable (∃ user ∈ s.users, _))

variable {hash asText} {s t : AdminState}

/-- A request that the guard lets through with a number is one that it would let through. -/
theorem passes_of_step {i : ℕ} {request : UserRequest} {a : AdminAction}
    (hrequest : s.requests[i]? = some request)
    (ha : (a = .checkRole i ∧ request.phase = .checkingRole) ∨
      (a = .countAdmins i ∧ request.phase = .countingAdmins))
    (hstep : adminStep hash false s a = some t)
    (hpasses : t.requests[i]? = some { request with phase := request.route.handle }) :
    guardPasses s request.target = true := by
  obtain ⟨actor, target, route, phase⟩ := request
  have hlt : i < s.requests.length := (List.getElem?_eq_some_iff.1 hrequest).1
  unfold guardPasses
  rcases ha with ⟨rfl, rfl⟩ | ⟨rfl, rfl⟩
  · simp only [adminStep, hrequest] at hstep
    rw [← Option.some.inj hstep, AdminState.setRequest, List.getElem?_set_self hlt] at hpasses
    split_ifs at hpasses with hadmin
    · cases route <;> cases hpasses
    · simp [hadmin]
  · simp only [adminStep, hrequest, countValue, CountValue.isZero] at hstep
    rw [← Option.some.inj hstep, AdminState.setRequest, List.getElem?_set_self hlt] at hpasses
    by_cases hnone : s.otherAdmins target = 0
    · cases route <;> simp [hnone, UserRoute.handle] at hpasses
    · simp [hnone]

/-- A step leaves the table, or writes the row of a request. -/
theorem adminStep_cases {a : AdminAction} (h : adminStep hash asText s a = some t) :
    (t.users = s.users ∧ guardedAtWrite hash s a = true) ∨
      ∃ (id : String) (write : UserWrite), t.users = write.apply hash id s.users ∧
        guardedAtWrite hash s a =
          ((s.user id).any (fun user => (write.row hash user).any UserRecord.isActiveAdmin) ||
            guardPasses s id) := by
  unfold adminStep at h
  cases a with
  | request actor target route =>
    obtain rfl := Option.some.inj h
    exact Or.inl ⟨rfl, rfl⟩
  | checkRole i | countAdmins i | read i | readUser i =>
    dsimp only at h
    split at h
    · obtain rfl := Option.some.inj h
      exact Or.inl ⟨rfl, rfl⟩
    · cases h
  | write i =>
    dsimp only at h
    split at h
    · next actor target route write hrequest =>
      obtain rfl := Option.some.inj h
      refine Or.inr ⟨target, write, rfl, ?_⟩
      simp only [guardedAtWrite, hrequest]
    · cases h
  | fail i code =>
    dsimp only at h
    split at h
    · cases h
    · obtain rfl := Option.some.inj h
      exact Or.inl ⟨rfl, rfl⟩
    · cases h

/-- A write keeps the id of the row. -/
theorem UserWrite.row_id {write : UserWrite} {user user' : UserRecord}
    (h : write.row hash user = some user') : user'.id = user.id := by
  cases write with
  | update data oldStatus => rw [← Option.some.inj h, updatedRow_id]
  | setStatus persisted => rw [← Option.some.inj h]
  | activate => rw [← Option.some.inj h]
  | delete => cases h

/-- The ids stay different. -/
theorem adminStep_ids (s : AdminState) (a : AdminAction) (t : AdminState)
    (h : (s.users.map fun user => user.id).Nodup) (hstep : adminStep hash asText s a = some t) :
    (t.users.map fun user => user.id).Nodup := by
  rcases adminStep_cases hstep with ⟨husers, -⟩ | ⟨id, write, husers, -⟩
  · rw [husers]
    exact h
  · rw [husers]
    refine h.sublist ?_
    unfold UserWrite.apply
    induction s.users with
    | nil => exact List.Sublist.refl _
    | cons user users ih =>
      rw [List.filterMap_cons]
      split
      · exact ih.trans (List.sublist_cons_self _ _)
      · next user' hrow =>
        have hid : user'.id = user.id := by
          split_ifs at hrow
          · exact UserWrite.row_id hrow
          · rw [Option.some.inj hrow]
        rw [List.map_cons, List.map_cons, hid]
        exact ih.cons_cons _

/-- With one row for each id, the row of a user is the one that a lookup finds. -/
theorem user_of_mem (hids : (s.users.map fun user => user.id).Nodup) {user : UserRecord}
    (hmem : user ∈ s.users) : s.user user.id = some user := find?_key_of_mem hids hmem rfl

theorem user_eq_some {id : String} {user : UserRecord} (h : s.user id = some user) :
    user ∈ s.users ∧ user.id = id := of_find?_key h

theorem otherAdmins_ne_zero_iff {id : String} :
    s.otherAdmins id ≠ 0 ↔ ∃ user ∈ s.users, user.isActiveAdmin = true ∧ user.id ≠ id := by
  unfold AdminState.otherAdmins
  rw [← Nat.pos_iff_ne_zero, List.countP_pos_iff]
  simp only [Bool.and_eq_true, decide_eq_true_eq]

/-- There is an Active Admin after a write exactly when there is another one, or the row becomes or stays
one. -/
theorem hasAdmin_apply_iff (hids : (s.users.map fun user => user.id).Nodup) {id : String}
    {write : UserWrite} (husers : t.users = write.apply hash id s.users) :
    HasAdmin t ↔ s.otherAdmins id ≠ 0 ∨
      (s.user id).any (fun user => (write.row hash user).any UserRecord.isActiveAdmin) = true := by
  unfold HasAdmin
  rw [husers, otherAdmins_ne_zero_iff, Option.any_eq_true]
  unfold UserWrite.apply
  simp only [List.mem_filterMap]
  constructor
  · rintro ⟨user', ⟨user, hmem, hrow⟩, hadmin⟩
    split_ifs at hrow with hid
    · refine Or.inr ⟨user, hid ▸ user_of_mem hids hmem, ?_⟩
      rw [hrow]
      exact hadmin
    · rw [Option.some.injEq] at hrow
      exact Or.inl ⟨user, hmem, hrow ▸ hadmin, hid⟩
  · rintro (⟨user, hmem, hadmin, hid⟩ | ⟨user, huser, hany⟩)
    · exact ⟨user, ⟨user, hmem, if_neg hid⟩, hadmin⟩
    · obtain ⟨user', hrow, hadmin⟩ := (Option.any_eq_true _ _).1 hany
      obtain ⟨hmem, hid⟩ := user_eq_some huser
      exact ⟨user', ⟨user, hmem, by rw [if_pos hid, hrow]⟩, hadmin⟩

/-- A step leaves an Active Admin exactly when it is guarded. -/
theorem adminStep_hasAdmin_iff (s : AdminState) (a : AdminAction) (t : AdminState)
    (hids : (s.users.map fun user => user.id).Nodup) (h : HasAdmin s)
    (hstep : adminStep hash asText s a = some t) :
    HasAdmin t ↔ guardedAtWrite hash s a = true := by
  rcases adminStep_cases hstep with ⟨husers, hguarded⟩ | ⟨id, write, husers, hguarded⟩
  · rw [hguarded]
    refine iff_of_true ?_ rfl
    unfold HasAdmin
    rw [husers]
    exact h
  · rw [hasAdmin_apply_iff hids husers, hguarded, guardPasses]
    rw [Bool.or_eq_true, Bool.or_eq_true, Bool.not_eq_true', decide_eq_true_eq]
    constructor
    · rintro (hother | hrow)
      · exact Or.inr (Or.inr hother)
      · exact Or.inl hrow
    · rintro (hrow | hrole | hother)
      · exact Or.inr hrow
      · -- The user is no Admin, so the Active Admin that there is has another id.
        obtain ⟨admin, hmem, hadmin⟩ := h
        refine Or.inl (otherAdmins_ne_zero_iff.2 ⟨admin, hmem, hadmin, fun hid => ?_⟩)
        have huser : s.user id = some admin := hid ▸ user_of_mem hids hmem
        have hisAdmin : admin.role = "Admin" := by
          unfold UserRecord.isActiveAdmin at hadmin
          rw [Bool.and_eq_true, decide_eq_true_eq] at hadmin
          exact hadmin.1
        rw [huser, Option.any_some, decide_eq_false_iff_not] at hrole
        exact hrole hisAdmin
      · exact Or.inl hother

/-- Along a run an Active Admin is left exactly when every write is guarded at its moment. -/
theorem hasAdmin_iff_guarded (hash : String → String) (asText : Bool) {users : List UserRecord}
    (hids : (users.map fun user => user.id).Nodup) (hadmin : HasAdmin (.init users))
    (as : List AdminAction) :
    Along (adminStep hash asText) HasAdmin (.init users) as ↔
      Guarded (adminStep hash asText) (fun s a => guardedAtWrite hash s a = true) (.init users) as :=
  along_iff_guarded adminStep_ids adminStep_hasAdmin_iff as hids hadmin

/-- The Admins of the examples, and a manager. -/
def adminUser (id role : String) : UserRecord where
  toAccountRow := ⟨id, id, role, "Active", some 1⟩
  password := "hash"
  name := id
  email := none
  department := none
  requiresPasswordChange := false
  requires2faSetup := false
  passwordLastChanged := none
  failedAttempts := 0
  lockedUntil := none
  lastLogin := none

/-- The `i`-th request, a suspension, with no other between its statements. -/
def suspendSteps (i : ℕ) (actor target : String) : List AdminAction :=
  [.request actor target .suspend, .checkRole i, .countAdmins i, .read i, .readUser i, .write i]

/-- One Admin suspends another. -/
theorem hasAdmin_iff_guarded_suspended :
    Along (adminStep id false) HasAdmin (.init [adminUser "admin-1" "Admin", adminUser "admin-2" "Admin"])
      (suspendSteps 0 "admin-1" "admin-2") :=
  (hasAdmin_iff_guarded id false (by decide) (by decide) _).2 (by decide)

/-- The only Admin suspends itself by `PUT /users/:id`. -/
def onlyAdminPut : List AdminAction :=
  [.request "admin-1" "admin-1"
      (.put ⟨"admin-1", "", "admin-1", none, none, "Admin", some "Suspended"⟩),
    .read 0, .write 0]

/-- Two Admins suspend each other, and both counts come before both writes. -/
def mutualSuspension : List AdminAction :=
  [.request "admin-1" "admin-2" .suspend, .request "admin-2" "admin-1" .suspend,
    .checkRole 0, .countAdmins 0, .checkRole 1, .countAdmins 1,
    .read 0, .readUser 0, .write 0, .read 1, .readUser 1, .write 1]

/-- No Active Admin is left after these two runs, nor where counts are texts, after a manager suspends the
only Admin. -/
theorem no_admin_left :
    (∃ s, run (adminStep id false) (.init [adminUser "admin-1" "Admin"]) onlyAdminPut = some s ∧
      ¬ HasAdmin s) ∧
    (∃ s, run (adminStep id false)
      (.init [adminUser "admin-1" "Admin", adminUser "admin-2" "Admin"]) mutualSuspension = some s ∧
      ¬ HasAdmin s) ∧
    ∃ s, run (adminStep id true) (.init [adminUser "admin-1" "Admin", adminUser "manager-1" "Manager"])
      (suspendSteps 0 "manager-1" "admin-1") = some s ∧ ¬ HasAdmin s := by
  have hleft : ∀ (asText : Bool) (users : List UserRecord) (as : List AdminAction),
      ((run (adminStep id asText) (.init users) as).map fun s =>
        s.users.any UserRecord.isActiveAdmin) = some false →
      ∃ s, run (adminStep id asText) (.init users) as = some s ∧ ¬ HasAdmin s := by
    intro asText users as hnone
    obtain ⟨s, hs, hany⟩ := Option.map_eq_some_iff.1 hnone
    refine ⟨s, hs, ?_⟩
    rw [HasAdmin, ← List.any_eq_true, hany]
    exact Bool.false_ne_true
  exact ⟨hleft _ _ _ (by decide +kernel), hleft _ _ _ (by decide +kernel),
    hleft _ _ _ (by decide +kernel)⟩

end AlsaqiBackend.Users
