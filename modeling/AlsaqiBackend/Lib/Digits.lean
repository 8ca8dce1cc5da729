import Mathlib.Data.Nat.Digits.Defs

/-!
# Numbers in a fixed number of digits

`fixedDigits b w n` writes the `w` low digits of `n` in base `b`, with leading zeros. A number that
fits in `w` digits is determined by them (`fixedDigits_inj`).
-/

namespace AlsaqiBackend.Lib

/-- The `w` low digits of `n` in base `b`, the most significant first. -/
def fixedDigits (b : ℕ) : ℕ → ℕ → List Char
  | 0, _ => []
  | w + 1, n => fixedDigits b w (n / b) ++ [Nat.digitChar (n % b)]

@[simp]
theorem fixedDigits_length (b w n : ℕ) : (fixedDigits b w n).length = w := by
  induction w generalizing n with
  | zero => rfl
  | succ w ih => simp [fixedDigits, ih]

/-- A character that is the character of no digit does not occur in the digits. -/
theorem notMem_fixedDigits {c : Char} (hc : ∀ d, Nat.digitChar d ≠ c) (b w n : ℕ) :
    c ∉ fixedDigits b w n := by
  induction w generalizing n with
  | zero => exact List.not_mem_nil
  | succ w ih =>
    rw [fixedDigits, List.mem_append, List.mem_singleton, not_or]
    exact ⟨ih (n / b), (hc _).symm⟩

/-- A character is that of no number when it is that of no digit and not the star, which stands for
the numbers from sixteen on. -/
theorem digitChar_ne {c : Char} (hdigit : ∀ d < 16, Nat.digitChar d ≠ c) (hstar : c ≠ '*') (d : ℕ) :
    Nat.digitChar d ≠ c := by
  by_cases hd : d < 16
  · exact hdigit d hd
  · rw [Nat.digitChar_eq_star.2 (not_lt.1 hd)]
    exact hstar.symm

/-- The characters of the sixteen digits are different. -/
theorem digitChar_inj {i j : ℕ} (hi : i < 16) (hj : j < 16)
    (h : Nat.digitChar i = Nat.digitChar j) : i = j := by
  have hall : ∀ i < 16, ∀ j < 16, Nat.digitChar i = Nat.digitChar j → i = j := by decide
  exact hall i hi j hj h

/-- Numbers that fit in `w` digits of a base up to sixteen are equal when their digits are. -/
theorem fixedDigits_inj {b : ℕ} (hb : 0 < b) (hb16 : b ≤ 16) (w : ℕ) {m n : ℕ} (hm : m < b ^ w)
    (hn : n < b ^ w) (h : fixedDigits b w m = fixedDigits b w n) : m = n := by
  induction w generalizing m n with
  | zero =>
    rw [pow_zero] at hm hn
    omega
  | succ w ih =>
    simp only [fixedDigits] at h
    obtain ⟨hhigh, hlow⟩ := List.append_inj h (by simp)
    rw [pow_succ] at hm hn
    have hdiv : m / b = n / b :=
      ih (Nat.div_lt_of_lt_mul (by rwa [mul_comm])) (Nat.div_lt_of_lt_mul (by rwa [mul_comm])) hhigh
    have hmod : m % b = n % b :=
      digitChar_inj ((Nat.mod_lt m hb).trans_le hb16) ((Nat.mod_lt n hb).trans_le hb16)
        (List.singleton_inj.1 hlow)
    rw [← Nat.div_add_mod m b, ← Nat.div_add_mod n b, hdiv, hmod]

end AlsaqiBackend.Lib
