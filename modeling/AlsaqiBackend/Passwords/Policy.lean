import AlsaqiBackend.Lib.JsString
import Mathlib.Algebra.Order.Group.Int

/-!
# The password policy

`validatePasswordPolicy` compares a new password with the row of `user_management_settings`. Without the
row, or when it cannot be read, every password passes.
-/

namespace AlsaqiBackend.Passwords

open AlsaqiBackend.Lib

def DEFAULT_PASSWORD_MIN_LENGTH : ℤ := 8

/-- The columns that the policy reads; the flags are numbers there, and any but 0 is true. -/
structure PolicySettings where
  passwordMinLength : Option ℤ
  requireUppercase : Bool
  requireLowercase : Bool
  requireNumbers : Bool
  requireSymbols : Bool
  deriving DecidableEq, Repr

/-- `settings.password_min_length || DEFAULT_PASSWORD_MIN_LENGTH`. -/
def PolicySettings.minLength (settings : PolicySettings) : ℤ :=
  (settings.passwordMinLength.filter (· ≠ 0)).getD DEFAULT_PASSWORD_MIN_LENGTH

/-- The characters that count as symbols. -/
def isSymbol (c : Char) : Bool := "!@#$%^&*()_+-=[]\x7b\x7d;':\"\\|,.<>/?".toList.contains c

/-- Some character of the password is in the class. -/
def testClass (inClass : Char → Bool) (password : String) : Bool := password.toList.any inClass

/-- The policy; `none` stands for a missing row and for a query that fails. -/
def validatePasswordPolicy : Option PolicySettings → String → Except String Unit
  | none, _ => .ok ()
  | some settings, password =>
    if utf16Length password < settings.minLength then
      .error ("Password must be at least " ++ toString settings.minLength ++ " characters")
    else if settings.requireUppercase && !testClass Char.isUpper password then
      .error "Password must contain at least one uppercase letter"
    else if settings.requireLowercase && !testClass Char.isLower password then
      .error "Password must contain at least one lowercase letter"
    else if settings.requireNumbers && !testClass Char.isDigit password then
      .error "Password must contain at least one number"
    else if settings.requireSymbols && !testClass isSymbol password then
      .error "Password must contain at least one special character"
    else .ok ()

/-- What the policy asks of a password. -/
structure MeetsPolicy (settings : PolicySettings) (password : String) : Prop where
  length : settings.minLength ≤ utf16Length password
  uppercase : settings.requireUppercase → testClass Char.isUpper password
  lowercase : settings.requireLowercase → testClass Char.isLower password
  numbers : settings.requireNumbers → testClass Char.isDigit password
  symbols : settings.requireSymbols → testClass isSymbol password

/-- A password passes exactly when it meets the policy of the row, if there is one. -/
theorem validatePasswordPolicy_iff {settings : Option PolicySettings} {password : String} :
    validatePasswordPolicy settings password = .ok () ↔
      ∀ row, settings = some row → MeetsPolicy row password := by
  cases settings with
  | none => exact iff_of_true rfl (fun _ h => nomatch h)
  | some row =>
    simp only [validatePasswordPolicy, Option.some.injEq, forall_eq']
    split_ifs with hlength hupper hlower hnumber hsymbol
    · exact iff_of_false (by simp) fun h => absurd h.length (not_le.2 hlength)
    · rw [Bool.and_eq_true, Bool.not_eq_true'] at hupper
      exact iff_of_false (by simp) fun h => by simp [h.uppercase hupper.1] at hupper
    · rw [Bool.and_eq_true, Bool.not_eq_true'] at hlower
      exact iff_of_false (by simp) fun h => by simp [h.lowercase hlower.1] at hlower
    · rw [Bool.and_eq_true, Bool.not_eq_true'] at hnumber
      exact iff_of_false (by simp) fun h => by simp [h.numbers hnumber.1] at hnumber
    · rw [Bool.and_eq_true, Bool.not_eq_true'] at hsymbol
      exact iff_of_false (by simp) fun h => by simp [h.symbols hsymbol.1] at hsymbol
    · simp only [Bool.and_eq_true, Bool.not_eq_true', not_and, Bool.not_eq_false] at hupper hlower hnumber hsymbol
      exact iff_of_true rfl ⟨not_lt.1 hlength, hupper, hlower, hnumber, hsymbol⟩

end AlsaqiBackend.Passwords
