import AlsaqiBackend.Auth.Tokens
import AlsaqiBackend.Lib.Modify
import AlsaqiBackend.Lib.Run
import Mathlib.Algebra.Order.Ring.Int

/-!
# Failed logins of one account

Any number of calls of `AuthService.login` with a wrong password run at once. Each call reads the row of
the user in a transaction that is rolled back, and then carries on in `handleFailedLogin`, where every
statement is a step of its own: count the failure, read the threshold, lock the account or extend its
lock, and notify the administrators.

The count that the lock is decided with is meant to be the one that the first statement returns. But
`DBWrapper.run` returns no rows, and so it is the number that was read at the very beginning, plus one.
`locked_iff_read_at_threshold` says when that is enough: exactly when one of the calls has read a number
that is one less than the threshold, or larger. Statements do not fail here, but for the settings and
the notifications.
-/

namespace AlsaqiBackend.Login

open AlsaqiBackend.Lib AlsaqiBackend.Auth

/-! ## The functions of a failed login -/

/-- The value of `db.prepare(…).run(…)`, with the fields that `handleFailedLogin` looks for. -/
structure IncrementResult where
  failedAttempts : Option ℕ
  rows : Option (List ℕ)
  lastInsertRowid : ℕ
  changes : ℕ
  deriving DecidableEq, Repr

/-- `DBWrapper.run` for a statement that is not an `INSERT`: the rows that it returns are dropped. -/
def runUpdate (rows : List ℕ) : IncrementResult := ⟨none, none, 0, rows.length⟩

/-- `incrementResult?.failed_attempts ?? incrementResult?.rows?.[0]?.failed_attempts ??
(user.failed_attempts + 1)`. -/
def authoritativeCount (incrementResult : IncrementResult) (failedAttempts : ℕ) : ℕ :=
  (incrementResult.failedAttempts.or (incrementResult.rows.bind List.head?)).getD (failedAttempts + 1)

@[simp] theorem authoritativeCount_runUpdate (rows : List ℕ) (failedAttempts : ℕ) :
    authoritativeCount (runUpdate rows) failedAttempts = failedAttempts + 1 := rfl

/-- The threshold. `none` is a query that fails, and `some none` a missing row or value. -/
def lockThreshold (settings : Option (Option ℤ)) : ℤ :=
  match settings with
  | some (some failedLoginThreshold) => if failedLoginThreshold ≠ 0 then failedLoginThreshold else 5
  | _ => 5

/-- Fifteen minutes after a reading of the clock. -/
def newLockUntil (dateNow : ℤ) : ℤ := dateNow + 15 * 60 * 1000

/-- A row of `notifications`; `event` is the call that has inserted it. -/
structure Notification where
  event : ℕ
  userId : String
  eventType : String
  description : String
  relatedModule : String
  link : String
  status : String
  actorId : String
  entityType : String
  deriving DecidableEq, Repr

/-! ## Calls -/

/-- Where a failed login stands. `attempts` is the `failed_attempts` that it has read, `reached` what
the column was after its own increment, and `dateNow` the reading of the clock in `handleFailedLogin`. -/
inductive FailedPhase
  | reading
  | counting (attempts : ℕ)
  | deciding (attempts reached : ℕ) (incrementResult : IncrementResult)
  | locking (attempts reached count : ℕ) (dateNow : ℤ)
  | sliding (attempts reached : ℕ) (dateNow : ℤ)
  | notifying (attempts reached count : ℕ) (dateNow : ℤ)
  /-- Returned, the threshold not reached. -/
  | below (attempts reached : ℕ)
  /-- Returned, with the lock extended. -/
  | slid (attempts reached : ℕ) (dateNow : ℤ)
  /-- Returned from the notification of these administrators, which may have failed. -/
  | notified (attempts reached : ℕ) (dateNow : ℤ) (admins : List String) (failed : Bool)
  deriving DecidableEq, Repr

namespace FailedPhase

def finished : FailedPhase → Bool
  | below _ _ | slid _ _ _ | notified _ _ _ _ _ => true
  | _ => false

/-- The number that the call has read. -/
def attempts? : FailedPhase → Option ℕ
  | reading => none
  | counting attempts | deciding attempts _ _ | locking attempts _ _ _ | sliding attempts _ _
  | notifying attempts _ _ _ | below attempts _ | slid attempts _ _ | notified attempts _ _ _ _ =>
    some attempts

/-- What the column was after the increment of the call. -/
def reached? : FailedPhase → Option ℕ
  | reading | counting _ => none
  | deciding _ reached _ | locking _ reached _ _ | sliding _ reached _ | notifying _ reached _ _
  | below _ reached | slid _ reached _ | notified _ reached _ _ _ => some reached

/-- When the call has decided to lock the account. -/
def dateNow? : FailedPhase → Option ℤ
  | locking _ _ _ dateNow | sliding _ _ dateNow | notifying _ _ _ dateNow | slid _ _ dateNow
  | notified _ _ dateNow _ _ => some dateNow
  | _ => none

/-- The call has written `locked_until`. -/
def written : FailedPhase → Bool
  | notifying _ _ _ _ | slid _ _ _ | notified _ _ _ _ _ => true
  | _ => false

end FailedPhase

structure FailedCall where
  ipAddress : Option String
  phase : FailedPhase
  deriving DecidableEq, Repr

/-- The account with its columns in `users`, the settings, the other accounts, the notifications, the
clock, and the calls. -/
structure AccountState where
  id : String
  username : String
  failedAttempts : ℕ
  lockedUntil : Option ℤ
  settings : Option (Option ℤ)
  accounts : List AccountRow
  notifications : List Notification
  now : ℤ
  calls : List FailedCall
  deriving DecidableEq, Repr

/-- The steps of failed logins. -/
inductive FailedAction
  | tick (ms : ℕ)
  | call (ipAddress : Option String)
  /-- `SELECT * FROM users`. The password is wrong, and the transaction is rolled back. -/
  | readUser (i : ℕ)
  /-- `UPDATE users SET failed_attempts = failed_attempts + 1`. -/
  | increment (i : ℕ)
  /-- Read the threshold, and the clock. -/
  | decide (i : ℕ)
  /-- The `UPDATE` of `locked_until` under a condition. -/
  | lock (i : ℕ)
  /-- The `UPDATE` of `locked_until` without one. -/
  | slide (i : ℕ)
  /-- `notifyAdminsOfLockout`, which may fail. -/
  | notify (i : ℕ) (failed : Bool)
  deriving DecidableEq, Repr

namespace AccountState

/-- `new Date(user.locked_until) > new Date()`. -/
def locked (s : AccountState) : Bool := s.lockedUntil.any (s.now < ·)

/-- `SELECT id FROM users WHERE role = ? AND status = 'Active'`. -/
def activeAdmins (s : AccountState) : List String :=
  (s.accounts.filter fun account => account.role = "Admin" ∧ account.status = "Active").map AccountRow.id

def setCall (s : AccountState) (i : ℕ) (call : FailedCall) : AccountState :=
  { s with calls := s.calls.set i call }

/-- The `INSERT` of `notifyAdminsOfLockout`. -/
def insertNotifications (s : AccountState) (event : ℕ) (ipAddress : Option String) (count : ℕ) :
    AccountState :=
  let ip := match ipAddress with
    | some ip => if ip = "" then "Unknown" else ip
    | none => "Unknown"
  let description :=
    "Account \"" ++ s.username ++ "\" locked after " ++ toString count ++ " failed login attempts (IP: " ++
      ip ++ ")"
  { s with notifications := s.notifications ++ s.activeAdmins.map fun admin =>
      ⟨event, admin, "account_locked", description, "Security", "/users", "Unread", s.id, "user"⟩ }

end AccountState

/-- One step of the failed logins; `none` when it is not possible. -/
def failedStep (s : AccountState) : FailedAction → Option AccountState
  | .tick ms => some { s with now := s.now + ms }
  | .call ipAddress => some { s with calls := s.calls ++ [⟨ipAddress, .reading⟩] }
  | .readUser i =>
    match s.calls[i]? with
    | some ⟨ipAddress, .reading⟩ => some (s.setCall i ⟨ipAddress, .counting s.failedAttempts⟩)
    | _ => none
  | .increment i =>
    match s.calls[i]? with
    | some ⟨ipAddress, .counting attempts⟩ =>
      -- The statement returns the new number, and `run` drops it.
      let failedAttempts := s.failedAttempts + 1
      some ({ s with failedAttempts }.setCall i
        ⟨ipAddress, .deciding attempts failedAttempts (runUpdate [failedAttempts])⟩)
    | _ => none
  | .decide i =>
    match s.calls[i]? with
    | some ⟨ipAddress, .deciding attempts reached incrementResult⟩ =>
      let count := authoritativeCount incrementResult attempts
      if lockThreshold s.settings ≤ count then
        some (s.setCall i ⟨ipAddress, .locking attempts reached count s.now⟩)
      else some (s.setCall i ⟨ipAddress, .below attempts reached⟩)
    | _ => none
  | .lock i =>
    match s.calls[i]? with
    | some ⟨ipAddress, .locking attempts reached count dateNow⟩ =>
      -- `locked_until IS NULL OR locked_until < CURRENT_TIMESTAMP`
      if s.lockedUntil.all (· < s.now) then
        some ({ s with lockedUntil := some (newLockUntil dateNow) }.setCall i
          ⟨ipAddress, .notifying attempts reached count dateNow⟩)
      else some (s.setCall i ⟨ipAddress, .sliding attempts reached dateNow⟩)
    | _ => none
  | .slide i =>
    match s.calls[i]? with
    | some ⟨ipAddress, .sliding attempts reached dateNow⟩ =>
      some ({ s with lockedUntil := some (newLockUntil dateNow) }.setCall i
        ⟨ipAddress, .slid attempts reached dateNow⟩)
    | _ => none
  | .notify i failed =>
    match s.calls[i]? with
    | some ⟨ipAddress, .notifying attempts reached count dateNow⟩ =>
      some ((if failed then s else s.insertNotifications i ipAddress count).setCall i
        ⟨ipAddress, .notified attempts reached dateNow s.activeAdmins failed⟩)
    | _ => none

/-! ## What a step does -/

/-- The steps that are possible, each with what it does. -/
inductive FailedChange (s : AccountState) : FailedAction → AccountState → Prop
  | tick (ms : ℕ) : FailedChange s (.tick ms) { s with now := s.now + ms }
  | call (ipAddress : Option String) :
    FailedChange s (.call ipAddress) { s with calls := s.calls ++ [⟨ipAddress, .reading⟩] }
  | read {i : ℕ} {ipAddress : Option String} (hcall : s.calls[i]? = some ⟨ipAddress, .reading⟩) :
    FailedChange s (.readUser i) (s.setCall i ⟨ipAddress, .counting s.failedAttempts⟩)
  | counted {i : ℕ} {ipAddress : Option String} {attempts : ℕ}
    (hcall : s.calls[i]? = some ⟨ipAddress, .counting attempts⟩) :
    FailedChange s (.increment i) ({ s with failedAttempts := s.failedAttempts + 1 }.setCall i
      ⟨ipAddress, .deciding attempts (s.failedAttempts + 1) (runUpdate [s.failedAttempts + 1])⟩)
  | reached {i : ℕ} {ipAddress : Option String} {attempts reached : ℕ} {incrementResult : IncrementResult}
    (hcall : s.calls[i]? = some ⟨ipAddress, .deciding attempts reached incrementResult⟩)
    (h : lockThreshold s.settings ≤ authoritativeCount incrementResult attempts) :
    FailedChange s (.decide i) (s.setCall i
      ⟨ipAddress, .locking attempts reached (authoritativeCount incrementResult attempts) s.now⟩)
  | below {i : ℕ} {ipAddress : Option String} {attempts reached : ℕ} {incrementResult : IncrementResult}
    (hcall : s.calls[i]? = some ⟨ipAddress, .deciding attempts reached incrementResult⟩)
    (h : ¬ lockThreshold s.settings ≤ authoritativeCount incrementResult attempts) :
    FailedChange s (.decide i) (s.setCall i ⟨ipAddress, .below attempts reached⟩)
  | locked {i : ℕ} {ipAddress : Option String} {attempts reached count : ℕ} {dateNow : ℤ}
    (hcall : s.calls[i]? = some ⟨ipAddress, .locking attempts reached count dateNow⟩)
    (h : s.lockedUntil.all (· < s.now) = true) :
    FailedChange s (.lock i) ({ s with lockedUntil := some (newLockUntil dateNow) }.setCall i
      ⟨ipAddress, .notifying attempts reached count dateNow⟩)
  | held {i : ℕ} {ipAddress : Option String} {attempts reached count : ℕ} {dateNow : ℤ}
    (hcall : s.calls[i]? = some ⟨ipAddress, .locking attempts reached count dateNow⟩)
    (h : ¬ s.lockedUntil.all (· < s.now) = true) :
    FailedChange s (.lock i) (s.setCall i ⟨ipAddress, .sliding attempts reached dateNow⟩)
  | slid {i : ℕ} {ipAddress : Option String} {attempts reached : ℕ} {dateNow : ℤ}
    (hcall : s.calls[i]? = some ⟨ipAddress, .sliding attempts reached dateNow⟩) :
    FailedChange s (.slide i) ({ s with lockedUntil := some (newLockUntil dateNow) }.setCall i
      ⟨ipAddress, .slid attempts reached dateNow⟩)
  | notified {i : ℕ} {failed : Bool} {ipAddress : Option String} {attempts reached count : ℕ} {dateNow : ℤ}
    (hcall : s.calls[i]? = some ⟨ipAddress, .notifying attempts reached count dateNow⟩) :
    FailedChange s (.notify i failed)
      ((if failed then s else s.insertNotifications i ipAddress count).setCall i
        ⟨ipAddress, .notified attempts reached dateNow s.activeAdmins failed⟩)

variable {s t : AccountState}

theorem failedStep_change {a : FailedAction} (h : failedStep s a = some t) : FailedChange s a t := by
  unfold failedStep at h
  cases a with
  | tick ms =>
    obtain rfl := Option.some.inj h
    exact .tick ms
  | call ipAddress =>
    obtain rfl := Option.some.inj h
    exact .call ipAddress
  | readUser i =>
    dsimp only at h
    split at h
    · obtain rfl := Option.some.inj h
      exact .read ‹_›
    · cases h
  | increment i =>
    dsimp only at h
    split at h
    · obtain rfl := Option.some.inj h
      exact .counted ‹_›
    · cases h
  | decide i =>
    dsimp only at h
    split at h
    · split_ifs at h with hthreshold
      · obtain rfl := Option.some.inj h
        exact .reached ‹_› hthreshold
      · obtain rfl := Option.some.inj h
        exact .below ‹_› hthreshold
    · cases h
  | lock i =>
    dsimp only at h
    split at h
    · split_ifs at h with hfree
      · obtain rfl := Option.some.inj h
        exact .locked ‹_› hfree
      · obtain rfl := Option.some.inj h
        exact .held ‹_› hfree
    · cases h
  | slide i =>
    dsimp only at h
    split at h
    · obtain rfl := Option.some.inj h
      exact .slid ‹_›
    · cases h
  | notify i failed =>
    dsimp only at h
    split at h
    · obtain rfl := Option.some.inj h
      exact .notified ‹_›
    · cases h

/-! ## Calls that have read the threshold -/

/-- A call has read a number that is one less than the threshold `K`, or larger. -/
def HasReadThreshold (K : ℤ) (s : AccountState) : Prop :=
  ∃ call ∈ s.calls, ∃ attempts, call.phase.attempts? = some attempts ∧ K ≤ attempts + 1

/-- The step reads `failed_attempts` when it is one less than the threshold, or larger. -/
def readsThreshold (s : AccountState) : FailedAction → Bool
  | .readUser _ => lockThreshold s.settings ≤ s.failedAttempts + 1
  | _ => false

theorem hasReadThreshold_set {K : ℤ} {i : ℕ} {old new : FailedCall} (hcall : s.calls[i]? = some old)
    (hcalls : t.calls = s.calls.set i new) (hattempts : new.phase.attempts? = old.phase.attempts?) :
    HasReadThreshold K t ↔ HasReadThreshold K s := by
  unfold HasReadThreshold
  rw [hcalls, exists_mem_set_iff hcall (by rw [hattempts]; exact id), hattempts]
  exact ⟨fun h => h.elim id fun h => ⟨old, List.mem_of_getElem? hcall, h⟩, Or.inl⟩

@[simp] theorem insertNotifications_calls (i : ℕ) (ipAddress : Option String) (count : ℕ) :
    (s.insertNotifications i ipAddress count).calls = s.calls := rfl

theorem notify_calls {failed : Bool} {i : ℕ} {ipAddress : Option String} {count : ℕ} {call : FailedCall} :
    ((if failed then s else s.insertNotifications i ipAddress count).setCall i call).calls =
      s.calls.set i call := by
  cases failed <;> rfl

/-- Only a step that reads the threshold makes it read. -/
theorem failedStep_hasReadThreshold {K : ℤ} {a : FailedAction} (hK : lockThreshold s.settings = K)
    (h : failedStep s a = some t) :
    HasReadThreshold K t ↔ HasReadThreshold K s ∨ readsThreshold s a = true := by
  have hsame : ∀ a, readsThreshold s a = false →
      (HasReadThreshold K s ↔ HasReadThreshold K s ∨ readsThreshold s a = true) := by
    intro a ha
    rw [ha]
    simp
  cases failedStep_change h with
  | tick ms => exact hsame (.tick ms) rfl
  | call ipAddress =>
    rw [← hsame _ rfl]
    unfold HasReadThreshold
    simp [FailedPhase.attempts?]
  | read hcall =>
    unfold HasReadThreshold readsThreshold AccountState.setCall
    rw [exists_mem_set_iff hcall (by simp [FailedPhase.attempts?])]
    simp [FailedPhase.attempts?, hK]
  | counted hcall | reached hcall _ | below hcall _ | locked hcall _ | held hcall _ | slid hcall =>
    rw [hasReadThreshold_set hcall rfl (by rfl)]
    exact hsame _ rfl
  | notified hcall =>
    rw [hasReadThreshold_set hcall notify_calls (by rfl)]
    exact hsame _ rfl

/-! ## What the calls know -/

/-- What a call knows of the account, where the threshold is `K` and `failed_attempts` has reached `n`:
what it has read is less than what it has reached, and it locks only with the threshold read. -/
def CallInv (K : ℤ) (n : ℕ) : FailedPhase → Prop
  | .reading => True
  | .counting attempts => attempts ≤ n
  | .deciding attempts reached incrementResult =>
    attempts + 1 ≤ reached ∧ incrementResult = runUpdate [reached]
  | .locking attempts reached _ _ | .sliding attempts reached _ | .notifying attempts reached _ _
  | .slid attempts reached _ | .notified attempts reached _ _ _ =>
    attempts + 1 ≤ reached ∧ K ≤ attempts + 1
  | .below attempts reached => attempts + 1 ≤ reached ∧ ¬ K ≤ attempts + 1

theorem CallInv.mono {K : ℤ} {n m : ℕ} {phase : FailedPhase} (h : CallInv K n phase) (hnm : n ≤ m) :
    CallInv K m phase := by
  cases phase with
  | counting attempts => exact le_trans h hnm
  | _ => exact h

/-- The account is locked until 15 minutes after a call has decided so. -/
def LockedByCall (s : AccountState) : Prop :=
  ∃ call ∈ s.calls, ∃ dateNow, call.phase.dateNow? = some dateNow ∧
    s.lockedUntil = some (newLockUntil dateNow)

/-- The invariant of failed logins only: the threshold stays, each failure is counted once, and where a
call has written `locked_until`, it holds what one of them has written. -/
structure AttemptsInv (K : ℤ) (start : ℕ) (s : AccountState) : Prop where
  threshold : lockThreshold s.settings = K
  count : s.failedAttempts = start + s.calls.countP fun call => call.phase.reached?.isSome
  calls : ∀ call ∈ s.calls, CallInv K s.failedAttempts call.phase
  lockedUntil : (∃ call ∈ s.calls, call.phase.written = true) → LockedByCall s

/-- A step of one call that counts no failure. -/
theorem AttemptsInv.setCall {K : ℤ} {start i : ℕ} {old new : FailedCall} (h : AttemptsInv K start s)
    (hcall : s.calls[i]? = some old) (hsettings : t.settings = s.settings)
    (hattempts : t.failedAttempts = s.failedAttempts) (hcalls : t.calls = s.calls.set i new)
    (hreached : new.phase.reached?.isSome = old.phase.reached?.isSome)
    (hnew : CallInv K s.failedAttempts new.phase)
    (hlocked : (∃ call ∈ t.calls, call.phase.written = true) → LockedByCall t) :
    AttemptsInv K start t where
  threshold := by rw [hsettings, h.threshold]
  count := by rw [hattempts, hcalls, countP_set_of_eq hcall hreached, h.count]
  calls := by
    intro call hmem
    rw [hattempts]
    rcases List.mem_or_eq_of_mem_set (hcalls ▸ hmem) with hold | rfl
    · exact h.calls call hold
    · exact hnew
  lockedUntil := hlocked

/-- A step of one call that leaves the lock, and the reading of the clock if there is one. -/
theorem AttemptsInv.keepsLock {K : ℤ} {start i : ℕ} {old new : FailedCall} (h : AttemptsInv K start s)
    (hcall : s.calls[i]? = some old) (hlock : t.lockedUntil = s.lockedUntil)
    (hcalls : t.calls = s.calls.set i new) (hwritten : new.phase.written = old.phase.written)
    (hdateNow : ∀ dateNow, old.phase.dateNow? = some dateNow → new.phase.dateNow? = some dateNow) :
    (∃ call ∈ t.calls, call.phase.written = true) → LockedByCall t := by
  -- The call that has locked the account still stands there, unless it is the one that moves.
  unfold LockedByCall
  rw [hcalls, hlock, exists_mem_set_iff hcall (by rw [hwritten]; exact id)]
  have hkeep : ∀ z : FailedCall, z = old → (∃ dateNow, z.phase.dateNow? = some dateNow ∧
      s.lockedUntil = some (newLockUntil dateNow)) → ∃ dateNow, new.phase.dateNow? = some dateNow ∧
      s.lockedUntil = some (newLockUntil dateNow) := by
    rintro z rfl ⟨dateNow, hz, hlocked⟩
    exact ⟨dateNow, hdateNow dateNow hz, hlocked⟩
  intro hsome
  have hold : ∃ call ∈ s.calls, call.phase.written = true := by
    rcases hsome with hold | hnew
    · exact hold
    · exact ⟨old, List.mem_of_getElem? hcall, hwritten ▸ hnew⟩
  exact (exists_mem_set_iff hcall (hkeep old rfl)).2 (Or.inl (h.lockedUntil hold))

/-- A step of one call that writes its lock. -/
theorem lockedByCall_of_set {i : ℕ} {old new : FailedCall} {dateNow : ℤ} (hcall : s.calls[i]? = some old)
    (hcalls : t.calls = s.calls.set i new) (hdateNow : new.phase.dateNow? = some dateNow)
    (hlock : t.lockedUntil = some (newLockUntil dateNow)) : LockedByCall t := by
  have hi : i < s.calls.length := (List.getElem?_eq_some_iff.1 hcall).1
  exact ⟨new, hcalls ▸ List.mem_set hi new, dateNow, hdateNow, hlock⟩

theorem AttemptsInv.callInv {K : ℤ} {start i : ℕ} {call : FailedCall} (h : AttemptsInv K start s)
    (hcall : s.calls[i]? = some call) : CallInv K s.failedAttempts call.phase :=
  h.calls call (List.mem_of_getElem? hcall)

theorem failedStep_inv {K : ℤ} {start : ℕ} (s : AccountState) (a : FailedAction) (t : AccountState)
    (h : AttemptsInv K start s) (hstep : failedStep s a = some t) : AttemptsInv K start t := by
  cases failedStep_change hstep with
  | tick ms => exact ⟨h.threshold, h.count, h.calls, h.lockedUntil⟩
  | call ipAddress =>
    refine ⟨h.threshold, ?_, ?_, ?_⟩
    · rw [List.countP_append, ← add_assoc, ← h.count]
      rfl
    · intro call hmem
      rcases List.mem_append.1 hmem with hold | hnew
      · exact h.calls call hold
      · rw [List.mem_singleton.1 hnew]
        trivial
    · rintro ⟨call, hmem, hwritten⟩
      rcases List.mem_append.1 hmem with hold | hnew
      · obtain ⟨other, hother, hlocked⟩ := h.lockedUntil ⟨call, hold, hwritten⟩
        exact ⟨other, List.mem_append_left _ hother, hlocked⟩
      · rw [List.mem_singleton.1 hnew] at hwritten
        cases hwritten
  | read hcall =>
    exact h.setCall hcall rfl rfl rfl rfl le_rfl (h.keepsLock hcall rfl rfl rfl nofun)
  | counted hcall =>
    have hread := h.callInv hcall
    refine ⟨h.threshold, ?_, ?_, h.keepsLock hcall rfl rfl rfl nofun⟩
    · show s.failedAttempts + 1 = start + List.countP _ (s.calls.set _ _)
      rw [countP_set_of_new hcall rfl rfl, h.count]
      rfl
    · intro call hmem
      rcases List.mem_or_eq_of_mem_set hmem with hold | rfl
      · exact (h.calls call hold).mono (Nat.le_succ _)
      · exact ⟨Nat.succ_le_succ hread, rfl⟩
  | reached hcall hthreshold =>
    -- The count is one more than what the call has read, so it has read the threshold.
    obtain ⟨hreached, rfl⟩ := h.callInv hcall
    rw [h.threshold, authoritativeCount_runUpdate, Nat.cast_succ] at hthreshold
    exact h.setCall hcall rfl rfl rfl rfl ⟨hreached, hthreshold⟩ (h.keepsLock hcall rfl rfl rfl nofun)
  | below hcall hthreshold =>
    obtain ⟨hreached, rfl⟩ := h.callInv hcall
    rw [h.threshold, authoritativeCount_runUpdate, Nat.cast_succ] at hthreshold
    exact h.setCall hcall rfl rfl rfl rfl ⟨hreached, hthreshold⟩ (h.keepsLock hcall rfl rfl rfl nofun)
  | locked hcall _ =>
    -- What is written is the lock of this call, whatever stood there.
    have hknown := h.callInv hcall
    exact h.setCall hcall rfl rfl rfl rfl hknown fun _ =>
      lockedByCall_of_set hcall rfl rfl rfl
  | held hcall _ =>
    have hknown := h.callInv hcall
    exact h.setCall hcall rfl rfl rfl rfl hknown (h.keepsLock hcall rfl rfl rfl fun _ => id)
  | slid hcall =>
    have hknown := h.callInv hcall
    exact h.setCall hcall rfl rfl rfl rfl hknown fun _ =>
      lockedByCall_of_set hcall rfl rfl rfl
  | @notified i failed =>
    rename_i hcall
    have hknown := h.callInv hcall
    cases failed with
    | true =>
      exact h.setCall hcall rfl rfl rfl rfl hknown (h.keepsLock hcall rfl rfl rfl fun _ => id)
    | false =>
      exact h.setCall hcall rfl rfl rfl rfl hknown (h.keepsLock hcall rfl rfl rfl fun _ => id)

theorem CallInv.of_dateNow {K : ℤ} {n : ℕ} {phase : FailedPhase} {dateNow : ℤ} (h : CallInv K n phase)
    (hdateNow : phase.dateNow? = some dateNow) :
    ∃ attempts reached, phase.attempts? = some attempts ∧ phase.reached? = some reached ∧
      K ≤ attempts + 1 ∧ K ≤ reached := by
  have hle : ∀ {attempts reached : ℕ}, attempts + 1 ≤ reached ∧ K ≤ attempts + 1 →
      K ≤ attempts + 1 ∧ K ≤ reached := by
    intro attempts reached hboth
    omega
  cases phase with
  | locking attempts reached _ _ => exact ⟨attempts, reached, rfl, rfl, hle h⟩
  | sliding attempts reached _ => exact ⟨attempts, reached, rfl, rfl, hle h⟩
  | notifying attempts reached _ _ => exact ⟨attempts, reached, rfl, rfl, hle h⟩
  | slid attempts reached _ => exact ⟨attempts, reached, rfl, rfl, hle h⟩
  | notified attempts reached _ _ _ => exact ⟨attempts, reached, rfl, rfl, hle h⟩
  | _ => cases hdateNow

/-- A call that has read the threshold and has returned has written the lock. -/
theorem CallInv.written_of_finished {K : ℤ} {n attempts : ℕ} {phase : FailedPhase} (h : CallInv K n phase)
    (hfinished : phase.finished = true) (hattempts : phase.attempts? = some attempts)
    (hread : K ≤ attempts + 1) : phase.written = true := by
  cases phase with
  | below _ _ =>
    obtain rfl := Option.some.inj hattempts
    exact absurd hread h.2
  | slid _ _ _ => rfl
  | notified _ _ _ _ _ => rfl
  | _ => cases hfinished

theorem reached_of_finished {phase : FailedPhase} (h : phase.finished = true) :
    phase.reached?.isSome = true := by
  cases phase with
  | below _ _ => rfl
  | slid _ _ _ => rfl
  | notified _ _ _ _ _ => rfl
  | _ => cases h

/-! ## Locked by the failure that reaches the threshold -/

/-- `failed_attempts` has grown by the number of the calls, and if it has reached the threshold, the
account is locked until 15 minutes after a failure that reached it or a later one. -/
structure LocksAtThreshold (start : ℕ) (s : AccountState) : Prop where
  counted : s.failedAttempts = start + s.calls.length
  locked : lockThreshold s.settings ≤ s.failedAttempts → ∃ call ∈ s.calls, ∃ reached dateNow,
    call.phase.reached? = some reached ∧ lockThreshold s.settings ≤ reached ∧
      call.phase.dateNow? = some dateNow ∧ s.lockedUntil = some (newLockUntil dateNow)

/-- When all calls have returned, the account is as it should be exactly when the failures do not reach
the threshold, or some call has read a number that is one less than it, or larger. -/
theorem locked_iff_read_at_threshold (s t : AccountState) (as : List FailedAction) (hcalls : s.calls = [])
    (hrun : run failedStep s as = some t) (hfinished : ∀ call ∈ t.calls, call.phase.finished = true) :
    LocksAtThreshold s.failedAttempts t ↔
      (s.failedAttempts + t.calls.length : ℤ) < lockThreshold s.settings ∨
        Sometime failedStep (fun s a => readsThreshold s a = true) s as := by
  have hstart : AttemptsInv (lockThreshold s.settings) s.failedAttempts s := by
    refine ⟨rfl, by rw [hcalls]; rfl, ?_, ?_⟩
    · rw [hcalls]
      exact nofun
    · rw [hcalls]
      exact nofun
  have hinv := run_invariant failedStep_inv hstart hrun
  have hnone : ¬ HasReadThreshold (lockThreshold s.settings) s := by
    unfold HasReadThreshold
    rw [hcalls]
    exact nofun
  have hread := run_iff_sometime failedStep_inv
    (fun _ _ _ hI => failedStep_hasReadThreshold hI.threshold) hstart hrun
  rw [or_iff_right hnone] at hread
  rw [← hread]
  have hcounted : t.failedAttempts = s.failedAttempts + t.calls.length := by
    rw [hinv.count, List.countP_eq_length.2 fun call hmem => reached_of_finished (hfinished call hmem)]
  constructor
  · intro h
    by_cases hreaches : lockThreshold t.settings ≤ t.failedAttempts
    · -- The call that has locked the account has read the threshold.
      obtain ⟨call, hmem, _, dateNow, -, -, hdateNow, -⟩ := h.locked hreaches
      obtain ⟨attempts, _, hattempts, -, hle, -⟩ := (hinv.calls call hmem).of_dateNow hdateNow
      exact Or.inr ⟨call, hmem, attempts, hattempts, hle⟩
    · rw [hinv.threshold, hcounted] at hreaches
      push_cast at hreaches
      exact Or.inl (by omega)
  · intro h
    refine ⟨hcounted, fun hreaches => ?_⟩
    rw [hinv.threshold] at hreaches ⊢
    rcases h with hbelow | ⟨call, hmem, attempts, hattempts, hle⟩
    · rw [hcounted] at hreaches
      push_cast at hreaches
      omega
    · -- A call that has read the threshold has written the lock, and the lock is that of some call.
      have hwritten := (hinv.calls call hmem).written_of_finished (hfinished call hmem) hattempts hle
      obtain ⟨other, hother, dateNow, hdateNow, hlocked⟩ := hinv.lockedUntil ⟨call, hmem, hwritten⟩
      obtain ⟨_, reached, -, hreached, -, hle'⟩ := (hinv.calls other hother).of_dateNow hdateNow
      exact ⟨other, hother, reached, dateNow, hreached, hle', hdateNow, hlocked⟩

/-- An account without failures, with the threshold 3. -/
def threeAttempts : AccountState := ⟨"user-1", "user", 0, none, some (some 3), [], [], 0, []⟩

/-- A failed login after the others, which does not lock the account. -/
def failedLogin (i : ℕ) : List FailedAction :=
  [.call none, .readUser i, .increment i, .decide i]

/-- Three failed logins, one after the other. -/
def failuresInTurn : List FailedAction :=
  failedLogin 0 ++ failedLogin 1 ++ failedLogin 2 ++ [.lock 2, .notify 2 false]

/-- Three failed logins that all read the row before any of them counts its failure. -/
def overlappingFailures : List FailedAction :=
  [.call none, .call none, .call none, .readUser 0, .readUser 1, .readUser 2, .increment 0, .increment 1,
    .increment 2, .decide 0, .decide 1, .decide 2]

/-- In turn the third failure locks the account. -/
theorem locked_after_failuresInTurn :
    ∃ t, run failedStep threeAttempts failuresInTurn = some t ∧ t.lockedUntil = some 900000 ∧
      (LocksAtThreshold 0 t ↔ ((0 : ℕ) + t.calls.length : ℤ) < 3 ∨
        Sometime failedStep (fun s a => readsThreshold s a = true) threeAttempts failuresInTurn) := by
  have hrun : run failedStep threeAttempts failuresInTurn = some
      ⟨"user-1", "user", 3, some 900000, some (some 3), [], [], 0,
        [⟨none, .below 0 1⟩, ⟨none, .below 1 2⟩, ⟨none, .notified 2 3 0 [] false⟩]⟩ := by decide +kernel
  exact ⟨_, hrun, rfl, locked_iff_read_at_threshold threeAttempts _ failuresInTurn rfl hrun (by decide)⟩

/-- When they overlap, three failures are counted and the account is not locked. -/
theorem not_locked_after_overlappingFailures :
    ∃ t, run failedStep threeAttempts overlappingFailures = some t ∧
      (∀ call ∈ t.calls, call.phase.finished = true) ∧ t.failedAttempts = 3 ∧ t.lockedUntil = none ∧
      ¬ LocksAtThreshold 0 t := by
  have hrun : run failedStep threeAttempts overlappingFailures = some
      ⟨"user-1", "user", 3, none, some (some 3), [], [], 0,
        [⟨none, .below 0 1⟩, ⟨none, .below 0 2⟩, ⟨none, .below 0 3⟩]⟩ := by decide +kernel
  refine ⟨_, hrun, by decide, rfl, rfl, fun h => ?_⟩
  obtain ⟨_, _, _, _, _, _, _, hlocked⟩ := h.locked (by decide)
  cases hlocked

end AlsaqiBackend.Login
