import AlsaqiBackend.Lib.JsString
import Mathlib.Data.Nat.Digits.Defs
import Mathlib.Data.List.TakeWhile
import Mathlib.Tactic.Ring

/-!
# Decimal numerals with leading zeros

`padded w n` writes `n` with zeros on the left up to `w` characters, and with all its digits when they are
more. It stands for `n` whatever the width is (`ofDigitChars_padded`), so that a numeral determines its
number (`padded_inj`). Numerals of one length are in the order of their numbers (`padded_lt_padded`).
-/

namespace AlsaqiBackend.Lib

/-- `text.padStart(w, '0')`, for a text of characters of one unit. -/
def padZeros (w : ℕ) (text : List Char) : List Char := List.replicate (w - text.length) '0' ++ text

/-- `String(n).padStart(w, '0')`. -/
def padded (w n : ℕ) : List Char := padZeros w (Nat.toDigits 10 n)

variable {w m n : ℕ}

theorem ofDigitChars_padded : Nat.ofDigitChars 10 (padded w n) 0 = n := by
  unfold padded padZeros
  rw [Nat.ofDigitChars_append, Nat.ofDigitChars_replicate_zero, mul_zero, Nat.ofDigitChars_ten_toDigits]

/-- A numeral determines its number, also when it is padded otherwise. -/
theorem padded_inj {v : ℕ} (h : padded v m = padded w n) : m = n := by
  calc m = Nat.ofDigitChars 10 (padded v m) 0 := ofDigitChars_padded.symm
    _ = Nat.ofDigitChars 10 (padded w n) 0 := by rw [h]
    _ = n := ofDigitChars_padded

theorem toDigits_inj (h : Nat.toDigits 10 m = Nat.toDigits 10 n) : m = n := by
  have hpadded : padded 0 m = padded 0 n := by
    unfold padded
    rw [h]
  exact padded_inj hpadded

/-- There are only digits in a numeral. -/
theorem isDigit_of_mem_padded {c : Char} (hc : c ∈ padded w n) : c.isDigit = true := by
  unfold padded padZeros at hc
  rcases List.mem_append.1 hc with hzero | hdigit
  · rw [List.eq_of_mem_replicate hzero]
    rfl
  · exact Nat.isDigit_of_mem_toDigits (by decide) (by decide) hdigit

theorem notMem_padded {c : Char} (hc : c.isDigit = false) : c ∉ padded w n := by
  intro hmem
  rw [isDigit_of_mem_padded hmem] at hc
  cases hc

theorem padded_ne_nil : padded w n ≠ [] := by
  unfold padded padZeros
  have hdigits : Nat.toDigits 10 n ≠ [] := Nat.toDigits_ne_nil
  exact List.append_ne_nil_of_right_ne_nil _ hdigits

theorem length_padded (hw : 0 < w) (h : n < 10 ^ w) : (padded w n).length = w := by
  have hle : (Nat.toDigits 10 n).length ≤ w := (Nat.length_toDigits_le_iff (by decide) hw).2 h
  unfold padded padZeros
  rw [List.length_append, List.length_replicate]
  omega

/-- `parseInt` reads a numeral. -/
theorem parseInt10_padded : parseInt10 (padded w n) = some (n : ℤ) := by
  have hdigits : ∀ c ∈ padded w n, c.isDigit = true := fun c => isDigit_of_mem_padded
  have hvalue := ofDigitChars_padded (w := w) (n := n)
  unfold parseInt10
  cases hpadded : padded w n with
  | nil => exact absurd hpadded padded_ne_nil
  | cons c cs =>
    rw [hpadded] at hdigits hvalue
    have hc : c.isDigit = true := hdigits c List.mem_cons_self
    obtain ⟨hge, hle⟩ : 48 ≤ c.toNat ∧ c.toNat ≤ 57 := by
      simpa [Char.isDigit, UInt32.le_iff_toNat_le] using hc
    have hspace : isJsWhitespace c = false := by
      simp [isJsWhitespace]
      omega
    rw [List.dropWhile_cons_of_neg (by simp [hspace])]
    have htake : (c :: cs).takeWhile Char.isDigit = c :: cs := List.takeWhile_eq_self_iff.2 hdigits
    have hread : digitsValue (c :: cs) = some n := by
      rw [← hvalue, Nat.ofDigitChars_eq_foldl]
      rfl
    -- The first character is no sign.
    split
    · rename_i heq
      obtain rfl := (List.cons.inj heq).1
      cases hc
    · rename_i heq
      obtain rfl := (List.cons.inj heq).1
      cases hc
    · rw [htake, hread]
      rfl

/-! ## Integers -/

/-- `String(n)`, for an integer. -/
def intText : ℤ → List Char
  | .ofNat n => padded 0 n
  | .negSucc n => '-' :: padded 0 (n + 1)

/-- There are only digits and the sign in the text of an integer. -/
theorem notMem_intText {c : Char} (hc : c.isDigit = false) (hsign : c ≠ '-') (n : ℤ) :
    c ∉ intText n := by
  cases n with
  | ofNat n => exact notMem_padded hc
  | negSucc n => exact List.not_mem_cons_of_ne_of_not_mem hsign (notMem_padded hc)

/-- `parseInt` reads the text of a number. -/
theorem parseInt10_intText (n : ℕ) : parseInt10 (intText n) = some (n : ℤ) := parseInt10_padded

theorem intText_inj {m n : ℤ} (h : intText m = intText n) : m = n := by
  have hsign : ∀ m n, padded 0 m ≠ '-' :: padded 0 n := by
    intro m n heq
    exact notMem_padded (by decide) (heq ▸ List.mem_cons_self)
  cases m with
  | ofNat m =>
    cases n with
    | ofNat n => exact congrArg Int.ofNat (padded_inj h)
    | negSucc n => exact absurd h (hsign _ _)
  | negSucc m =>
    cases n with
    | ofNat n => exact absurd h.symm (hsign _ _)
    | negSucc n =>
      have hdigits := padded_inj (List.cons.inj h).2
      rw [Nat.add_right_cancel_iff.1 hdigits]

/-! ## Order -/

theorem ofDigitChars_lt {l : List Char} (h : ∀ c ∈ l, c.isDigit = true) :
    Nat.ofDigitChars 10 l 0 < 10 ^ l.length := by
  induction l with
  | nil => decide
  | cons c l ih =>
    have hlt := ih fun d hd => h d (List.mem_cons_of_mem c hd)
    have hc : c.toNat ≤ 57 := by
      have hdigit := h c List.mem_cons_self
      simp only [Char.isDigit, Bool.and_eq_true, decide_eq_true_eq] at hdigit
      exact hdigit.2
    rw [Nat.ofDigitChars_cons, Nat.ofDigitChars_eq_ofDigitChars_zero, List.length_cons, pow_succ]
    have hdigit : 10 * 0 + (c.toNat - '0'.toNat) ≤ 9 := by
      show 10 * 0 + (c.toNat - 48) ≤ 9
      omega
    calc 10 ^ l.length * (10 * 0 + (c.toNat - '0'.toNat)) + Nat.ofDigitChars 10 l 0
        < 10 ^ l.length * 9 + 10 ^ l.length :=
          Nat.add_lt_add_of_le_of_lt (Nat.mul_le_mul_left _ hdigit) hlt
      _ = 10 ^ l.length * 10 := by ring

/-- Of two numerals of one length, that of the smaller number comes first. -/
theorem lt_of_ofDigitChars_lt {l l' : List Char} (hlength : l.length = l'.length)
    (hl : ∀ c ∈ l, c.isDigit = true) (hl' : ∀ c ∈ l', c.isDigit = true)
    (h : Nat.ofDigitChars 10 l 0 < Nat.ofDigitChars 10 l' 0) : l < l' := by
  induction l generalizing l' with
  | nil =>
    rw [List.length_nil] at hlength
    rw [List.length_eq_zero_iff.1 hlength.symm] at h
    exact absurd h (lt_irrefl _)
  | cons c l ih =>
    cases l' with
    | nil => exact absurd hlength (by simp)
    | cons c' l' =>
      rw [List.length_cons, List.length_cons, Nat.add_right_cancel_iff] at hlength
      have hrest := fun d hd => hl d (List.mem_cons_of_mem c hd)
      have hrest' := fun d hd => hl' d (List.mem_cons_of_mem c' hd)
      rw [Nat.ofDigitChars_cons, Nat.ofDigitChars_cons, Nat.ofDigitChars_eq_ofDigitChars_zero,
        Nat.ofDigitChars_eq_ofDigitChars_zero (l := l'), ← hlength] at h
      have hlt := ofDigitChars_lt hrest
      have hlt' := ofDigitChars_lt hrest'
      rw [← hlength] at hlt'
      have hge : ∀ d, d ∈ [c, c'] → 48 ≤ d.toNat := by
        intro d hd
        have hdigit : d.isDigit = true := by
          rcases List.mem_cons.1 hd with rfl | hd
          · exact hl d List.mem_cons_self
          · rw [List.mem_singleton.1 hd]
            exact hl' c' List.mem_cons_self
        simp only [Char.isDigit, Bool.and_eq_true, decide_eq_true_eq] at hdigit
        exact hdigit.1
      have hc := hge c (by simp)
      have hc' := hge c' (by simp)
      rw [List.cons_lt_cons_iff]
      rcases lt_trichotomy c.toNat c'.toNat with hless | heq | hgreater
      · exact Or.inl hless
      · obtain rfl := Char.toNat_inj.1 heq
        exact Or.inr ⟨rfl, ih hlength hrest hrest' (by omega)⟩
      · -- A greater first digit makes the number greater.
        refine absurd h (not_lt.2 ?_)
        have hstep : 10 * 0 + (c'.toNat - '0'.toNat) + 1 ≤ 10 * 0 + (c.toNat - '0'.toNat) := by
          show 10 * 0 + (c'.toNat - 48) + 1 ≤ 10 * 0 + (c.toNat - 48)
          omega
        calc 10 ^ l.length * (10 * 0 + (c'.toNat - '0'.toNat)) + Nat.ofDigitChars 10 l' 0
            ≤ 10 ^ l.length * (10 * 0 + (c'.toNat - '0'.toNat)) + 10 ^ l.length :=
              Nat.add_le_add_left hlt'.le _
          _ = 10 ^ l.length * (10 * 0 + (c'.toNat - '0'.toNat) + 1) := by ring
          _ ≤ 10 ^ l.length * (10 * 0 + (c.toNat - '0'.toNat)) := Nat.mul_le_mul_left _ hstep
          _ ≤ _ := Nat.le_add_right _ _

/-- Numerals that fit in the width are in the order of their numbers. -/
theorem padded_lt_padded (hw : 0 < w) (hn : n < 10 ^ w) (h : m < n) : padded w m < padded w n := by
  apply lt_of_ofDigitChars_lt
  · rw [length_padded hw (h.trans hn), length_padded hw hn]
  · exact fun c => isDigit_of_mem_padded
  · exact fun c => isDigit_of_mem_padded
  · rwa [ofDigitChars_padded, ofDigitChars_padded]

end AlsaqiBackend.Lib
