import AlsaqiBackend.Lib.Sha256

/-!
# Texts in UTF-8

The decoder of `buffer.toString('utf-8')`, which puts a replacement character where bytes are no
UTF-8. It reads every encoded text back (`decodeUtf8_encodeUtf8`).
-/

namespace AlsaqiBackend.Lib

open Sha256 (utf8Bytes)

/-- The bytes of a text. -/
def encodeUtf8 (text : List Char) : List ℕ := text.flatMap utf8Bytes

/-- The middle of a character: how many bytes are still to come, the bounds of the next one, and the
bits so far. -/
structure PartialChar where
  needed : ℕ
  lower : ℕ
  upper : ℕ
  code : ℕ

/-- The replacement character. -/
def replacementChar : Char := Char.ofNat 0xFFFD

/-- A byte between characters: what is put out, and the character that it begins. -/
def leadByte (b : ℕ) : List Char × Option PartialChar :=
  if b < 0x80 then ([Char.ofNat b], none)
  else if b < 0xC2 then ([replacementChar], none)
  else if b < 0xE0 then ([], some ⟨1, 0x80, 0xBF, b - 0xC0⟩)
  else if b < 0xF0 then
    ([], some ⟨2, if b = 0xE0 then 0xA0 else 0x80, if b = 0xED then 0x9F else 0xBF, b - 0xE0⟩)
  else if b < 0xF5 then
    ([], some ⟨3, if b = 0xF0 then 0x90 else 0x80, if b = 0xF4 then 0x8F else 0xBF, b - 0xF0⟩)
  else ([replacementChar], none)

/-- A byte of a text. One that does not go on with a character is looked at again as a first one. -/
def utf8Step : Option PartialChar → ℕ → List Char × Option PartialChar
  | none, b => leadByte b
  | some p, b =>
    if p.lower ≤ b ∧ b ≤ p.upper then
      let code := 64 * p.code + (b - 0x80)
      if p.needed = 1 then ([Char.ofNat code], none)
      else ([], some ⟨p.needed - 1, 0x80, 0xBF, code⟩)
    else (replacementChar :: (leadByte b).1, (leadByte b).2)

/-- The text of bytes, from the middle of a character on. -/
def decodeUtf8From : Option PartialChar → List ℕ → List Char
  | none, [] => []
  | some _, [] => [replacementChar]
  | p, b :: bytes => (utf8Step p b).1 ++ decodeUtf8From (utf8Step p b).2 bytes

/-- `buffer.toString('utf-8')`. -/
def decodeUtf8 (bytes : List ℕ) : List Char := decodeUtf8From none bytes

/-- A first byte of a character of several bytes. -/
theorem decodeUtf8From_lead {b : ℕ} {p : PartialChar} (h : leadByte b = ([], some p))
    (bytes : List ℕ) : decodeUtf8From none (b :: bytes) = decodeUtf8From (some p) bytes := by
  rw [decodeUtf8From, utf8Step, h]
  rfl

/-- A byte in the middle of a character. -/
theorem decodeUtf8From_middle {p : PartialChar} {b : ℕ} (hb : p.lower ≤ b ∧ b ≤ p.upper)
    (hneeded : p.needed ≠ 1) (bytes : List ℕ) :
    decodeUtf8From (some p) (b :: bytes) =
      decodeUtf8From (some ⟨p.needed - 1, 0x80, 0xBF, 64 * p.code + (b - 0x80)⟩) bytes := by
  rw [decodeUtf8From, utf8Step, if_pos hb, if_neg hneeded]
  rfl

/-- The last byte of a character. -/
theorem decodeUtf8From_last {p : PartialChar} {b : ℕ} (hb : p.lower ≤ b ∧ b ≤ p.upper)
    (hneeded : p.needed = 1) (bytes : List ℕ) :
    decodeUtf8From (some p) (b :: bytes) =
      Char.ofNat (64 * p.code + (b - 0x80)) :: decodeUtf8From none bytes := by
  rw [decodeUtf8From, utf8Step, if_pos hb, if_pos hneeded]
  rfl

/-- The numbers of characters leave out the surrogates. -/
theorem toNat_range (c : Char) : c.toNat < 0xD800 ∨ 0xDFFF < c.toNat ∧ c.toNat < 0x110000 := c.valid

/-- The decoder reads one character. -/
theorem decodeUtf8From_utf8Bytes (c : Char) (bytes : List ℕ) :
    decodeUtf8From none (utf8Bytes c ++ bytes) = c :: decodeUtf8From none bytes := by
  have hrange := toNat_range c
  have hchar : ∀ n, n = c.toNat → Char.ofNat n = c := fun n hn => hn ▸ Char.ofNat_toNat c
  unfold utf8Bytes
  simp only
  -- One case for each length of the encoding.
  split_ifs with h1 h2 h3
  · rw [List.singleton_append, decodeUtf8From, utf8Step, leadByte, if_pos h1, hchar _ rfl]
    rfl
  · have hlead : leadByte (0xc0 + c.toNat / 64) = ([], some ⟨1, 0x80, 0xBF, c.toNat / 64⟩) := by
      rw [leadByte, if_neg (by omega), if_neg (by omega), if_pos (by omega), Nat.add_sub_cancel_left]
    simp only [List.cons_append, List.nil_append]
    rw [decodeUtf8From_lead hlead, decodeUtf8From_last ⟨by simp, by simp; omega⟩ rfl]
    rw [hchar _ (by simp only; omega)]
  · have hlead : leadByte (0xe0 + c.toNat / 4096) =
        ([], some ⟨2, if 0xe0 + c.toNat / 4096 = 0xE0 then 0xA0 else 0x80,
          if 0xe0 + c.toNat / 4096 = 0xED then 0x9F else 0xBF, c.toNat / 4096⟩) := by
      rw [leadByte, if_neg (by omega), if_neg (by omega), if_neg (by omega), if_pos (by omega),
        Nat.add_sub_cancel_left]
    simp only [List.cons_append, List.nil_append]
    rw [decodeUtf8From_lead hlead,
      decodeUtf8From_middle ⟨by simp only; split_ifs <;> omega, by simp only; split_ifs <;> omega⟩
        (by simp),
      decodeUtf8From_last ⟨by simp, by simp only; omega⟩ rfl, hchar _ (by simp only; omega)]
  · have hlead : leadByte (0xf0 + c.toNat / 262144) =
        ([], some ⟨3, if 0xf0 + c.toNat / 262144 = 0xF0 then 0x90 else 0x80,
          if 0xf0 + c.toNat / 262144 = 0xF4 then 0x8F else 0xBF, c.toNat / 262144⟩) := by
      rw [leadByte, if_neg (by omega), if_neg (by omega), if_neg (by omega), if_neg (by omega),
        if_pos (by omega), Nat.add_sub_cancel_left]
    simp only [List.cons_append, List.nil_append]
    rw [decodeUtf8From_lead hlead,
      decodeUtf8From_middle ⟨by simp only; split_ifs <;> omega, by simp only; split_ifs <;> omega⟩
        (by simp),
      decodeUtf8From_middle ⟨by simp, by simp only; omega⟩ (by simp),
      decodeUtf8From_last ⟨by simp, by simp only; omega⟩ rfl, hchar _ (by simp only; omega)]

/-- An encoded text is read back. -/
theorem decodeUtf8_encodeUtf8 (text : List Char) : decodeUtf8 (encodeUtf8 text) = text := by
  unfold decodeUtf8 encodeUtf8
  induction text with
  | nil => rfl
  | cons c text ih => rw [List.flatMap_cons, decodeUtf8From_utf8Bytes, ih]

/-- The bytes of a text are bytes. -/
theorem encodeUtf8_lt {text : List Char} {b : ℕ} (hb : b ∈ encodeUtf8 text) : b < 256 := by
  obtain ⟨c, -, hbc⟩ := List.mem_flatMap.1 hb
  have hrange := toNat_range c
  unfold utf8Bytes at hbc
  simp only at hbc
  split_ifs at hbc with h1 h2 h3
  · rw [List.mem_singleton] at hbc
    omega
  · simp only [List.mem_cons, List.not_mem_nil, or_false] at hbc
    omega
  · simp only [List.mem_cons, List.not_mem_nil, or_false] at hbc
    omega
  · simp only [List.mem_cons, List.not_mem_nil, or_false] at hbc
    omega

end AlsaqiBackend.Lib
