import AlsaqiBackend.Lib.JsString
import Mathlib.Algebra.Order.Ring.Int

/-!
# One-time codes

`TOTPServiceImpl.verify` for one user with a secret. `code` gives the code of every time step of 30
seconds for that secret, as `OTPAuth` generates it. Times are milliseconds, and a call reads the clock
several times: at the lock, three times while it checks the code, and when it records the outcome.
-/

namespace AlsaqiBackend.TwoFactor

open AlsaqiBackend.Lib

def TOTP_PERIOD : ℤ := 30

def TOTP_DIGITS : ℕ := 6

/-- `MAX_2FA_ATTEMPTS`. -/
def MAX_2FA_ATTEMPTS : ℕ := 5

/-- `ATTEMPT_WINDOW_MINUTES`. -/
def ATTEMPT_WINDOW_MINUTES : ℤ := 15

/-- The time step of a time: `Math.floor(Date.now() / 1000 / TOTP_PERIOD)`. -/
def stepAt (now : ℤ) : ℤ := now / (1000 * TOTP_PERIOD)

/-- When a step begins. -/
def stepStart (step : ℤ) : ℤ := step * TOTP_PERIOD * 1000

theorem stepStart_lt {a b : ℤ} : stepStart a < stepStart b ↔ a < b := by
  unfold stepStart TOTP_PERIOD
  omega

/-- `text.padStart(length, '0')`. -/
def padStart (length : ℕ) (text : String) : String :=
  String.ofList (List.replicate (length - utf16Length text) '0') ++ text

/-! ## The check of a code -/

/-- The three times at which a call reads the clock while it checks a code. -/
structure Readings where
  validated : ℤ
  generated : ℤ
  compared : ℤ
  deriving DecidableEq, Repr

/-- The readings, with the times that pass before each of them. -/
def readingsFrom (now : ℤ) (a b c : ℕ) : Readings := ⟨now + a, now + a + b, now + a + b + c⟩

/-- A code that passes the check: the step whose code it is, and the step that its start is computed
from. They differ when a step ends between the first reading of the clock and the last one. -/
structure Matched where
  step : ℤ
  counter : ℤ
  deriving DecidableEq, Repr

variable (code : ℤ → String)

/-- `totp.validate({ token, window: 1 })`: how many steps the code is away from the current one. -/
def validate (token : String) (now : ℤ) : Option ℤ :=
  [0, -1, 1].find? fun delta => code (stepAt now + delta) = token

/-- What `verify` does with a code, between the row of `user_totp` and the next statement. -/
def checkCode (lastUsedAt : Option ℤ) (token : String) (r : Readings) : Option Matched :=
  match validate code token r.validated with
  | none => none
  | some delta =>
    let expectedToken := code (stepAt (r.generated + delta * TOTP_PERIOD * 1000))
    if padStart TOTP_DIGITS token ≠ padStart TOTP_DIGITS expectedToken then none
    else
      let matchedCounter := stepAt r.compared + delta
      if lastUsedAt.any fun lastUsed => lastUsed ≥ stepStart matchedCounter then none
      else some ⟨stepAt r.validated + delta, matchedCounter⟩

variable {code}

/-- A code that passes is that of its step, at most one step away from the current one, and the last
success was before the start that is computed for it. -/
theorem checkCode_eq_some {lastUsedAt : Option ℤ} {token : String} {r : Readings} {m : Matched}
    (h : checkCode code lastUsedAt token r = some m) :
    code m.step = token ∧ stepAt r.validated - 1 ≤ m.step ∧ m.step ≤ stepAt r.validated + 1 ∧
      m.counter - stepAt r.compared = m.step - stepAt r.validated ∧
      ∀ lastUsed, lastUsedAt = some lastUsed → lastUsed < stepStart m.counter := by
  unfold checkCode at h
  cases hvalidate : validate code token r.validated with
  | none => simp [hvalidate] at h
  | some delta =>
    simp only [hvalidate] at h
    split_ifs at h with hmatch hreplay
    obtain rfl := Option.some.inj h
    have hmem := List.mem_of_find?_eq_some hvalidate
    have hcode := List.find?_some hvalidate
    simp only [decide_eq_true_eq] at hcode
    have hdelta : -1 ≤ delta ∧ delta ≤ 1 := by
      simp only [List.mem_cons, List.not_mem_nil, or_false] at hmem
      omega
    dsimp only
    refine ⟨hcode, by omega, by omega, by omega, fun lastUsed hlast => ?_⟩
    rw [hlast, Option.any_some, decide_eq_true_eq] at hreplay
    omega

/-! ## Whole calls -/

/-- What is stored for a user: when the last code was used, and the columns `totp_failed_attempts` and
`totp_locked_until`. -/
structure TotpState where
  lastUsedAt : Option ℤ
  failedAttempts : ℕ
  lockedUntil : Option ℤ
  deriving DecidableEq, Repr

namespace TotpState

def init : TotpState := ⟨none, 0, none⟩

def lockedAt (s : TotpState) (now : ℤ) : Bool := s.lockedUntil.any fun lockedUntil => lockedUntil > now

/-- `recordFailed2FAAttempt` at the time `now`. -/
def recordFailed2FAAttempt (s : TotpState) (now : ℤ) : TotpState :=
  { s with
    failedAttempts := s.failedAttempts + 1
    lockedUntil := if s.failedAttempts + 1 ≥ MAX_2FA_ATTEMPTS then
        some (now + ATTEMPT_WINDOW_MINUTES * 60 * 1000)
      else s.lockedUntil }

/-- The two statements of `verify` after a success. -/
def recordSuccess (s : TotpState) (now : ℤ) : TotpState :=
  { s with lastUsedAt := some now, failedAttempts := 0, lockedUntil := none }

end TotpState

variable (code)

/-- `TOTPServiceImpl.verify`, where no other statement comes between its own: the lock is read at the
time `now`, and the outcome recorded at the time `recorded`. -/
def verify (s : TotpState) (token : String) (now : ℤ) (r : Readings) (recorded : ℤ) :
    TotpState × Bool :=
  if s.lockedAt now then (s, false)
  else
    match checkCode code s.lastUsedAt token r with
    | none => (s.recordFailed2FAAttempt recorded, false)
    | some _ => (s.recordSuccess recorded, true)

/-- A code of six digits for every step. -/
def sixDigits (step : ℤ) : String := toString (100000 + step % 900000)

end AlsaqiBackend.TwoFactor
