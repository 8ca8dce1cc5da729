import AlsaqiBackend.Lib.Json
import AlsaqiBackend.Lib.Utf8

/-!
# Bytes and texts in hexadecimal digits

`toHex` and `fromHex` are the two directions of the encoding `'hex'` of buffers (`fromHex_toHex`).
`encodeURIComponent` writes the bytes of the characters that a URL does not leave as they are with a
percent sign before each one, and `decodeURIComponent` reads them (`decodeURIComponent_encodeURIComponent`).
An encoded text is no shorter than the text and has none of the characters that separate the parts of
a URL.
-/

namespace AlsaqiBackend.Lib

open Sha256 (utf8Bytes)

/-! ## Buffers in hexadecimal -/

/-- `buffer.toString('hex')`. -/
def toHex (bytes : List ℕ) : List Char := bytes.flatMap (fixedDigits 16 2)

/-- The byte of two digits. -/
def hexPair (a b : Char) : Option ℕ := do
  let high ← hexValue a
  let low ← hexValue b
  return 16 * high + low

/-- `Buffer.from(text, 'hex')`: the bytes up to the first pair of characters that is none. -/
def fromHex : List Char → List ℕ
  | a :: b :: rest =>
    match hexPair a b with
    | some byte => byte :: fromHex rest
    | none => []
  | _ => []

/-- The two digits of a byte are read back. -/
theorem hexPair_digits {n : ℕ} (hn : n < 256) :
    hexPair (Nat.digitChar (n / 16 % 16)) (Nat.digitChar (n % 16)) = some n := by
  have hvalue : ∀ d < 16, hexValue (Nat.digitChar d) = some d := by decide
  unfold hexPair
  rw [hvalue _ (Nat.mod_lt _ (by decide)), hvalue _ (Nat.mod_lt _ (by decide))]
  show some (16 * (n / 16 % 16) + n % 16) = some n
  rw [Option.some.injEq]
  omega

/-- Bytes are read back from their digits. -/
theorem fromHex_toHex {bytes : List ℕ} (h : ∀ b ∈ bytes, b < 256) : fromHex (toHex bytes) = bytes := by
  unfold toHex
  induction bytes with
  | nil => rfl
  | cons b bytes ih =>
    have hb := h b List.mem_cons_self
    have hrest := ih fun b' hb' => h b' (List.mem_cons_of_mem b hb')
    rw [List.flatMap_cons]
    show fromHex (Nat.digitChar (b / 16 % 16) :: Nat.digitChar (b % 16) :: _) = _
    rw [fromHex, hexPair_digits hb]
    exact congrArg (b :: ·) hrest

/-- There are only hexadecimal digits. -/
theorem notMem_toHex {c : Char} (hc : ∀ d < 16, Nat.digitChar d ≠ c) (hstar : c ≠ '*')
    (bytes : List ℕ) : c ∉ toHex bytes := by
  intro hmem
  obtain ⟨b, -, hb⟩ := List.mem_flatMap.1 hmem
  exact notMem_fixedDigits (digitChar_ne hc hstar) 16 2 b hb

/-! ## Components of a URL -/

/-- The characters that `encodeURIComponent` leaves as they are. -/
def isUnreserved (c : Char) : Bool :=
  c.isAlphanum || c ∈ ['-', '_', '.', '!', '~', '*', '\'', '(', ')']

/-- The digit of a number below 16, in capital letters. -/
def upperDigit (d : ℕ) : Char := if d < 10 then Char.ofNat (48 + d) else Char.ofNat (55 + d)

/-- A percent sign and the two digits of a byte. -/
def percentByte (b : ℕ) : List Char := ['%', upperDigit (b / 16 % 16), upperDigit (b % 16)]

/-- A character of a component. -/
def percentChar (c : Char) : List Char :=
  if isUnreserved c then [c] else (utf8Bytes c).flatMap percentByte

/-- `encodeURIComponent`. -/
def encodeURIComponent (text : List Char) : List Char := text.flatMap percentChar

/-- The bytes that a component stands for; `none` where a percent sign has no two digits after it. -/
def percentBytes : List Char → Option (List ℕ)
  | [] => some []
  | c :: rest =>
    if c = '%' then
      match rest with
      | a :: b :: rest =>
        match hexPair a b with
        | some byte => (percentBytes rest).map (byte :: ·)
        | none => none
      | _ => none
    else (percentBytes rest).map (utf8Bytes c ++ ·)

/-- `decodeURIComponent`; `none` when it throws. -/
def decodeURIComponent (text : List Char) : Option (List Char) :=
  match percentBytes text with
  | none => none
  | some bytes => if encodeUtf8 (decodeUtf8 bytes) = bytes then some (decodeUtf8 bytes) else none

/-- A character that is no percent sign stands for its own bytes. -/
theorem percentBytes_cons {c : Char} (hc : c ≠ '%') (text : List Char) :
    percentBytes (c :: text) = (percentBytes text).map (utf8Bytes c ++ ·) := by
  rw [percentBytes.eq_def]
  simp only [if_neg hc]

/-- The two digits after a percent sign are read back. -/
theorem percentBytes_percentByte {b : ℕ} (hb : b < 256) (text : List Char) :
    percentBytes (percentByte b ++ text) = (percentBytes text).map (b :: ·) := by
  have hvalue : ∀ d < 16, hexValue (upperDigit d) = some d := by decide
  have hpair : hexPair (upperDigit (b / 16 % 16)) (upperDigit (b % 16)) = some b := by
    unfold hexPair
    rw [hvalue _ (Nat.mod_lt _ (by decide)), hvalue _ (Nat.mod_lt _ (by decide))]
    show some (16 * (b / 16 % 16) + b % 16) = some b
    rw [Option.some.injEq]
    omega
  show percentBytes ('%' :: upperDigit (b / 16 % 16) :: upperDigit (b % 16) :: text) = _
  rw [percentBytes, if_pos rfl]
  simp only [hpair]

/-- Bytes are read back from their percent signs and digits. -/
theorem percentBytes_flatMap {bytes : List ℕ} (h : ∀ b ∈ bytes, b < 256) (text : List Char) :
    percentBytes (bytes.flatMap percentByte ++ text) = (percentBytes text).map (bytes ++ ·) := by
  induction bytes with
  | nil =>
    rw [List.flatMap_nil, List.nil_append]
    exact (Option.map_id' (x := percentBytes text)).symm
  | cons b bytes ih =>
    have hrest := ih fun b' hb' => h b' (List.mem_cons_of_mem b hb')
    rw [List.flatMap_cons, List.append_assoc, percentBytes_percentByte (h b List.mem_cons_self),
      hrest, Option.map_map]
    rfl

/-- The bytes of a component are those of its text. -/
theorem percentBytes_encodeURIComponent (text : List Char) :
    percentBytes (encodeURIComponent text) = some (encodeUtf8 text) := by
  unfold encodeURIComponent encodeUtf8
  induction text with
  | nil => rfl
  | cons c text ih =>
    rw [List.flatMap_cons, List.flatMap_cons, percentChar]
    split_ifs with hc
    · have hpercent : c ≠ '%' := by
        rintro rfl
        exact absurd hc (by decide)
      rw [List.singleton_append, percentBytes_cons hpercent, ih]
      rfl
    · have hbytes : ∀ b ∈ utf8Bytes c, b < 256 := by
        intro b hb
        have hmem : b ∈ encodeUtf8 [c] := by rwa [encodeUtf8, List.flatMap_singleton]
        exact encodeUtf8_lt hmem
      rw [percentBytes_flatMap hbytes, ih]
      rfl

/-- A component is read back. -/
theorem decodeURIComponent_encodeURIComponent (text : List Char) :
    decodeURIComponent (encodeURIComponent text) = some text := by
  unfold decodeURIComponent
  rw [percentBytes_encodeURIComponent]
  simp only
  rw [decodeUtf8_encodeUtf8, if_pos rfl]

/-- A text without percent signs is its own value. -/
theorem decodeURIComponent_of_notMem {text : List Char} (h : '%' ∉ text) :
    decodeURIComponent text = some text := by
  have hbytes : percentBytes text = some (encodeUtf8 text) := by
    induction text with
    | nil => rfl
    | cons c text ih =>
      rw [List.mem_cons, not_or] at h
      rw [percentBytes_cons (Ne.symm h.1), ih h.2]
      rfl
  unfold decodeURIComponent
  rw [hbytes]
  simp only
  rw [decodeUtf8_encodeUtf8, if_pos rfl]

/-- The digits after a percent sign are no separators. -/
theorem upperDigit_ne {c : Char} (h : c.isAlphanum = false) {d : ℕ} (hd : d < 16) :
    upperDigit d ≠ c := by
  have hall : ∀ d < 16, (upperDigit d).isAlphanum = true := by decide
  intro heq
  have hdigit := hall d hd
  rw [heq, h] at hdigit
  cases hdigit

/-- A character that is not left as it is does not occur in a component, except the percent sign. -/
theorem notMem_encodeURIComponent {c : Char} (hc : isUnreserved c = false) (hpercent : c ≠ '%')
    (text : List Char) : c ∉ encodeURIComponent text := by
  intro hmem
  obtain ⟨c', -, hc'⟩ := List.mem_flatMap.1 hmem
  unfold percentChar at hc'
  split_ifs at hc' with hkept
  · rw [List.mem_singleton] at hc'
    rw [← hc', hc] at hkept
    cases hkept
  · obtain ⟨b, -, hb⟩ := List.mem_flatMap.1 hc'
    have halnum : c.isAlphanum = false := by
      unfold isUnreserved at hc
      exact (Bool.or_eq_false_iff.1 hc).1
    simp only [percentByte, List.mem_cons, List.not_mem_nil, or_false] at hb
    rcases hb with h | h | h
    · exact hpercent h
    · exact upperDigit_ne halnum (Nat.mod_lt _ (by decide)) h.symm
    · exact upperDigit_ne halnum (Nat.mod_lt _ (by decide)) h.symm

/-- Every character takes one place at least. -/
theorem length_percentChar (c : Char) : 1 ≤ (percentChar c).length := by
  unfold percentChar utf8Bytes
  simp only
  split_ifs <;> simp [percentByte]

/-- A component is no shorter than its text. -/
theorem length_le_encodeURIComponent (text : List Char) :
    text.length ≤ (encodeURIComponent text).length := by
  unfold encodeURIComponent
  induction text with
  | nil => exact le_rfl
  | cons c text ih =>
    have hc := length_percentChar c
    rw [List.flatMap_cons, List.length_append, List.length_cons]
    omega

end AlsaqiBackend.Lib
