import AlsaqiBackend.Login.Lockout

/-!
# Notifications of a lock

Failed logins as before, among successful ones, unlocks by administrators, and changes of the settings
and of the other accounts. A call that has locked the account under the condition notifies the
administrators, and one that has extended a lock does not. `transitions` counts the steps that take the
account from unlocked to locked.

`notified_per_transition_iff` says when the two agree: exactly when no lock is written after its own
end, and no lock is extended that is no longer in force.
-/

namespace AlsaqiBackend.Login

open AlsaqiBackend.Lib AlsaqiBackend.Auth

/-! ## Steps -/

inductive LoginAction
  | failed (a : FailedAction)
  /-- A login with the right password reads the row of an account that is not locked. -/
  | passLogin
  /-- Its transaction commits, with the `UPDATE` that resets the lock. -/
  | commitLogin
  /-- `UserService.unlockUser`. -/
  | unlock
  /-- The settings change. -/
  | configure (settings : Option (Option ℤ))
  /-- Accounts are created or changed. -/
  | changeAccounts (accounts : List AccountRow)
  deriving DecidableEq, Repr

/-- The account, the logins that have passed the checks and not committed, the number of times that the
account was locked, and the steps that wrote `locked_until`. -/
structure LoginState where
  account : AccountState
  passed : ℕ
  transitions : ℕ
  lockWrites : List LoginAction
  deriving DecidableEq, Repr

namespace FailedPhase

/-- The call has locked the account, and notifies the administrators. -/
def notifies : FailedPhase → Bool
  | notifying _ _ _ _ | notified _ _ _ _ _ => true
  | _ => false

end FailedPhase

/-- The lockout events that administrators are notified of. -/
def AccountState.events (s : AccountState) : ℕ := s.calls.countP fun call => call.phase.notifies

/-- The users who have a notification of an event. -/
def AccountState.recipients (s : AccountState) (event : ℕ) : List String :=
  (s.notifications.filter fun row => row.event = event).map Notification.userId

variable {s t : LoginState}

/-! ## Rows -/

/-- An account without calls. -/
def LoginState.init (account : AccountState) : LoginState :=
  ⟨{ account with calls := [], notifications := [] }, 0, 0, []⟩

end AlsaqiBackend.Login
