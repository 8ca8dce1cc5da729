import Mathlib.Data.List.Basic

/-!
# Bytes in base64url

The texts of `buffer.toString('base64url')`, without padding, and the reader of
`Buffer.from(text, 'base64url')`, which takes the digits of both alphabets and skips everything else.
`base64UrlDecode_encode` says that it reads the bytes of an encoded text back.
-/

namespace AlsaqiBackend.Lib

/-- The digit of six bits. -/
def base64UrlDigit (n : ℕ) : Char :=
  if n < 26 then Char.ofNat (65 + n)
  else if n < 52 then Char.ofNat (71 + n)
  else if n < 62 then Char.ofNat (n - 4)
  else if n = 62 then '-'
  else '_'

/-- The six bits of a digit of either alphabet. -/
def base64Value (c : Char) : Option ℕ :=
  if 'A' ≤ c ∧ c ≤ 'Z' then some (c.toNat - 65)
  else if 'a' ≤ c ∧ c ≤ 'z' then some (c.toNat - 71)
  else if '0' ≤ c ∧ c ≤ '9' then some (c.toNat + 4)
  else if c = '-' ∨ c = '+' then some 62
  else if c = '_' ∨ c = '/' then some 63
  else none

/-- Three bytes are four digits, and what is left over has one digit more than bytes. -/
def base64UrlEncode : List ℕ → List Char
  | [] => []
  | [a] => [base64UrlDigit (a / 4), base64UrlDigit (a % 4 * 16)]
  | [a, b] =>
    [base64UrlDigit (a / 4), base64UrlDigit (a % 4 * 16 + b / 16), base64UrlDigit (b % 16 * 4)]
  | a :: b :: c :: rest =>
    base64UrlDigit (a / 4) :: base64UrlDigit (a % 4 * 16 + b / 16) ::
      base64UrlDigit (b % 16 * 4 + c / 64) :: base64UrlDigit (c % 64) :: base64UrlEncode rest

/-- The bytes of digits. -/
def bytesOfDigits : List ℕ → List ℕ
  | [] => []
  | [_] => []
  | [a, b] => [a * 4 + b / 16]
  | [a, b, c] => [a * 4 + b / 16, b % 16 * 16 + c / 4]
  | a :: b :: c :: d :: rest =>
    (a * 4 + b / 16) :: (b % 16 * 16 + c / 4) :: (c % 4 * 64 + d) :: bytesOfDigits rest

def base64UrlDecode (text : List Char) : List ℕ := bytesOfDigits (text.filterMap base64Value)

/-- A digit is read as its six bits. -/
theorem base64Value_digit {n : ℕ} (h : n < 64) : base64Value (base64UrlDigit n) = some n := by
  have hall : ∀ n < 64, base64Value (base64UrlDigit n) = some n := by decide
  exact hall n h

/-- The digits of a text that begins with one. -/
theorem filterMap_digit_cons {n : ℕ} (h : n < 64) (text : List Char) :
    (base64UrlDigit n :: text).filterMap base64Value = n :: text.filterMap base64Value :=
  List.filterMap_cons_some (base64Value_digit h)

/-- The bytes of an encoded text are read back. -/
theorem base64UrlDecode_encode : ∀ (bytes : List ℕ), (∀ b ∈ bytes, b < 256) →
    base64UrlDecode (base64UrlEncode bytes) = bytes
  | [], _ => rfl
  | [a], h => by
    have ha : a < 256 := h a (by simp)
    unfold base64UrlDecode base64UrlEncode
    rw [filterMap_digit_cons (by omega), filterMap_digit_cons (by omega), List.filterMap_nil]
    unfold bytesOfDigits
    congr 1
    omega
  | [a, b], h => by
    have ha : a < 256 := h a (by simp)
    have hb : b < 256 := h b (by simp)
    unfold base64UrlDecode base64UrlEncode
    rw [filterMap_digit_cons (by omega), filterMap_digit_cons (by omega),
      filterMap_digit_cons (by omega), List.filterMap_nil]
    unfold bytesOfDigits
    have hfirst : a / 4 * 4 + (a % 4 * 16 + b / 16) / 16 = a := by omega
    have hsecond : (a % 4 * 16 + b / 16) % 16 * 16 + b % 16 * 4 / 4 = b := by omega
    rw [hfirst, hsecond]
  | a :: b :: c :: rest, h => by
    have ha : a < 256 := h a (by simp)
    have hb : b < 256 := h b (by simp)
    have hc : c < 256 := h c (by simp)
    have hrest := base64UrlDecode_encode rest fun x hx => h x (by simp [hx])
    unfold base64UrlDecode at hrest ⊢
    unfold base64UrlEncode
    rw [filterMap_digit_cons (by omega), filterMap_digit_cons (by omega),
      filterMap_digit_cons (by omega), filterMap_digit_cons (by omega)]
    unfold bytesOfDigits
    have hfirst : a / 4 * 4 + (a % 4 * 16 + b / 16) / 16 = a := by omega
    have hsecond : (a % 4 * 16 + b / 16) % 16 * 16 + (b % 16 * 4 + c / 64) / 4 = b := by omega
    have hthird : (b % 16 * 4 + c / 64) % 4 * 64 + c % 64 = c := by omega
    rw [hfirst, hsecond, hthird, hrest]

end AlsaqiBackend.Lib
