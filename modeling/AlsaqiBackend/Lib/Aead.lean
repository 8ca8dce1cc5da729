import Mathlib.Data.List.Basic

/-!
# Authenticated encryption with a header

An authenticated cipher as a program sees it (`Aead`): what `update` gives for a plaintext or a
ciphertext, the tag that encryption computes, and whether the tag is accepted at the end. A wrapped
text is the initialization vector and the tag as a header of fixed length, followed by the
ciphertext (`Aead.wrap`); it is opened with one key (`Aead.unwrap`), or with the first of several
keys that opens it (`Aead.unwrapWith`). For a cipher that authenticates its keys
(`Aead.Authenticating`), what has been wrapped is opened by a list of keys exactly when its own key is
one of them (`Aead.unwrapWith_wrap`).
-/

namespace AlsaqiBackend.Lib

/-- Bytes of a fixed number. -/
abbrev Block (n : ℕ) := {b : List UInt8 // b.length = n}

/-- An authenticated cipher with initialization vectors of `ivLength` bytes and tags of `tagLength`
bytes. Decryption takes any bytes for them, since they come out of a file. -/
structure Aead (Key : Type) (ivLength tagLength : ℕ) where
  /-- What the cipher gives for a plaintext. -/
  encrypt : Key → Block ivLength → List UInt8 → List UInt8
  /-- The tag of a plaintext, after the last byte of it. -/
  tag : Key → Block ivLength → List UInt8 → Block tagLength
  /-- What the decipher gives for a ciphertext, before the tag has been looked at. -/
  decrypt : Key → List UInt8 → List UInt8 → List UInt8
  /-- Whether the decipher takes the vector and the tag, and accepts the tag at the end. -/
  accepts : Key → List UInt8 → List UInt8 → List UInt8 → Bool
  decrypt_encrypt : ∀ k iv p, decrypt k iv.1 (encrypt k iv p) = p
  accepts_encrypt : ∀ k iv p, accepts k iv.1 (tag k iv p).1 (encrypt k iv p) = true

namespace Aead

variable {Key : Type} {ivLength tagLength : ℕ} (A : Aead Key ivLength tagLength)

/-- No other key accepts what has been encrypted under a key. -/
def Authenticating : Prop :=
  ∀ k k' iv p, A.accepts k' iv.1 (A.tag k iv p).1 (A.encrypt k iv p) = true → k' = k

/-- Encrypt, with the vector and the tag in front. -/
def wrap (k : Key) (iv : Block ivLength) (p : List UInt8) : List UInt8 :=
  iv.1 ++ (A.tag k iv p).1 ++ A.encrypt k iv p

/-- The three parts of a wrapped text, as far as it goes. -/
def parts (ivLength tagLength : ℕ) (data : List UInt8) : List UInt8 × List UInt8 × List UInt8 :=
  (data.take ivLength, (data.drop ivLength).take tagLength, data.drop (ivLength + tagLength))

/-- Decrypt a wrapped text with a key; `none` when its tag is not accepted. -/
def unwrap (k : Key) (data : List UInt8) : Option (List UInt8) :=
  let (iv, tag, ciphertext) := parts ivLength tagLength data
  if A.accepts k iv tag ciphertext then some (A.decrypt k iv ciphertext) else none

/-- Decrypt with the first of the keys that opens the text. -/
def unwrapWith (keys : List Key) (data : List UInt8) : Option (List UInt8) :=
  keys.findSome? fun k => A.unwrap k data

variable {A}

/-- A wrapped text falls into its parts. -/
theorem parts_wrap (k : Key) (iv : Block ivLength) (p : List UInt8) :
    parts ivLength tagLength (A.wrap k iv p) = (iv.1, (A.tag k iv p).1, A.encrypt k iv p) := by
  have hiv : iv.1.length = ivLength := iv.2
  have htag : (A.tag k iv p).1.length = tagLength := (A.tag k iv p).2
  have htake : (A.wrap k iv p).take ivLength = iv.1 := by
    rw [wrap, List.append_assoc, List.take_left' hiv]
  have hdrop : (A.wrap k iv p).drop ivLength = (A.tag k iv p).1 ++ A.encrypt k iv p := by
    rw [wrap, List.append_assoc, List.drop_left' hiv]
  have hrest : (A.wrap k iv p).drop (ivLength + tagLength) = A.encrypt k iv p := by
    rw [← List.drop_drop, hdrop, List.drop_left' htag]
  rw [parts, htake, hdrop, hrest, List.take_left' htag]

/-- What is opened with the key under which it was wrapped is the plaintext. -/
theorem unwrap_wrap (k : Key) (iv : Block ivLength) (p : List UInt8) :
    A.unwrap k (A.wrap k iv p) = some p := by
  rw [unwrap, parts_wrap]
  show (if A.accepts k iv.1 _ _ then some (A.decrypt k iv.1 _) else none) = some p
  rw [A.accepts_encrypt, if_pos rfl, A.decrypt_encrypt]

/-- Another key does not open it. -/
theorem unwrap_wrap_of_ne (hA : A.Authenticating) {k k' : Key} (hk : k' ≠ k)
    (iv : Block ivLength) (p : List UInt8) : A.unwrap k' (A.wrap k iv p) = none := by
  rw [unwrap, parts_wrap]
  exact if_neg fun h => hk (hA k k' iv p h)

/-- The text wrapped with one vector differs from the one wrapped with another. -/
theorem wrap_ne {iv iv' : Block ivLength} (h : iv ≠ iv') (k k' : Key) (p p' : List UInt8) :
    A.wrap k iv p ≠ A.wrap k' iv' p' := by
  intro heq
  have hparts := parts_wrap (A := A) k iv p
  rw [heq, parts_wrap, Prod.mk.injEq] at hparts
  exact h (Subtype.ext hparts.1.symm)

/-- The first key opens the text, or the others are tried. -/
theorem unwrapWith_cons (k : Key) (keys : List Key) (data : List UInt8) :
    A.unwrapWith (k :: keys) data = (A.unwrap k data).or (A.unwrapWith keys data) := by
  rw [unwrapWith, unwrapWith, List.findSome?_cons]
  cases A.unwrap k data with
  | none => rfl
  | some p => rfl

theorem unwrapWith_cons_of_some {k : Key} {data p : List UInt8} (h : A.unwrap k data = some p)
    (keys : List Key) : A.unwrapWith (k :: keys) data = some p := by
  rw [unwrapWith_cons, h, Option.some_or]

theorem unwrapWith_cons_of_none {k : Key} {data : List UInt8} (h : A.unwrap k data = none)
    (keys : List Key) : A.unwrapWith (k :: keys) data = A.unwrapWith keys data := by
  rw [unwrapWith_cons, h, Option.none_or]

/-- Under a list of keys, a wrapped text is opened exactly when its key is one of them, and then to
the plaintext. -/
theorem unwrapWith_wrap (hA : A.Authenticating) [DecidableEq Key] (keys : List Key) (k : Key)
    (iv : Block ivLength) (p : List UInt8) :
    A.unwrapWith keys (A.wrap k iv p) = if k ∈ keys then some p else none := by
  induction keys with
  | nil => rfl
  | cons k' keys ih =>
    by_cases hk : k' = k
    · subst hk
      rw [unwrapWith_cons_of_some (unwrap_wrap k' iv p), if_pos List.mem_cons_self]
    · rw [unwrapWith_cons_of_none (unwrap_wrap_of_ne hA hk iv p), ih]
      simp [Ne.symm hk]

end Aead

end AlsaqiBackend.Lib
