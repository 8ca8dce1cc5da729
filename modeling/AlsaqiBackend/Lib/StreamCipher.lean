import AlsaqiBackend.Lib.Aead

/-!
# Ciphers over streams

A stream hands its bytes on in chunks, cut where it likes (`Chunking`). An authenticated cipher that takes
them byte by byte (`StreamAead`) gives the same bytes and the same tag for every cut (`pipe_spec`), and
deciphering undoes enciphering from the same key and vector, whatever the two cuts are (`decipher_encipher`).
-/

namespace AlsaqiBackend.Lib

/-- A way to cut bytes into chunks. -/
structure Chunking where
  cut : List UInt8 → List (List UInt8)
  flatten_cut : ∀ bytes, (cut bytes).flatten = bytes

/-- A transformation that keeps a state between the bytes. -/
abbrev ByteStep (State : Type) := State → UInt8 → State × UInt8

namespace ByteStep

variable {State : Type} (step : ByteStep State)

/-- `update` with one chunk. -/
def update (s : State) : List UInt8 → State × List UInt8
  | [] => (s, [])
  | b :: bytes =>
    let rest := update (step s b).1 bytes
    (rest.1, (step s b).2 :: rest.2)

/-- A stream piped through: one `update` for each chunk. -/
def pipe (s : State) : List (List UInt8) → State × List (List UInt8)
  | [] => (s, [])
  | chunk :: chunks =>
    let rest := pipe (update step s chunk).1 chunks
    (rest.1, (update step s chunk).2 :: rest.2)

variable (s : State)

theorem update_append (bytes bytes' : List UInt8) :
    update step s (bytes ++ bytes') =
      ((update step (update step s bytes).1 bytes').1,
        (update step s bytes).2 ++ (update step (update step s bytes).1 bytes').2) := by
  induction bytes generalizing s with
  | nil => rfl
  | cons b bytes ih =>
    dsimp only [List.cons_append, update]
    rw [ih]

/-- The cut into chunks does not matter. -/
theorem pipe_spec (chunks : List (List UInt8)) :
    (pipe step s chunks).1 = (update step s chunks.flatten).1 ∧
      (pipe step s chunks).2.flatten = (update step s chunks.flatten).2 := by
  induction chunks generalizing s with
  | nil => exact ⟨rfl, rfl⟩
  | cons chunk chunks ih =>
    obtain ⟨hstate, hbytes⟩ := ih (update step s chunk).1
    dsimp only [pipe]
    rw [List.flatten_cons, List.flatten_cons, update_append, hstate, hbytes]
    exact ⟨rfl, rfl⟩

theorem length_update (bytes : List UInt8) : (update step s bytes).2.length = bytes.length := by
  induction bytes generalizing s with
  | nil => rfl
  | cons b bytes ih =>
    dsimp only [update]
    rw [List.length_cons, List.length_cons, ih]

end ByteStep

/-- An authenticated cipher over a stream of bytes. Both directions keep one and the same state, from which
the tag is taken at the end. -/
structure StreamAead (Key : Type) (ivLength tagLength : ℕ) where
  State : Type
  start : Key → Block ivLength → State
  encryptStep : ByteStep State
  decryptStep : ByteStep State
  tag : State → Block tagLength
  decryptStep_encryptStep : ∀ s b, decryptStep s (encryptStep s b).2 = ((encryptStep s b).1, b)

namespace StreamAead

variable {Key : Type} {ivLength tagLength : ℕ} (A : StreamAead Key ivLength tagLength)

/-- The tag of a ciphertext under a key and a vector is this one. -/
def Accepts (k : Key) (iv : Block ivLength) (tag : List UInt8) (ciphertext : List UInt8) : Prop :=
  (A.tag (A.decryptStep.update (A.start k iv) ciphertext).1).1 = tag

instance (k : Key) (iv : Block ivLength) (tag ciphertext : List UInt8) :
    Decidable (A.Accepts k iv tag ciphertext) := by
  unfold Accepts
  infer_instance

variable {A}

/-- Deciphering from the same state undoes enciphering, and ends in the same state. -/
theorem decipher_encipher (s : A.State) (bytes : List UInt8) :
    A.decryptStep.update s (A.encryptStep.update s bytes).2 = ((A.encryptStep.update s bytes).1, bytes) := by
  induction bytes generalizing s with
  | nil => rfl
  | cons b bytes ih =>
    dsimp only [ByteStep.update]
    rw [A.decryptStep_encryptStep, ih]

/-- What has been enciphered is accepted with the tag of the cipher. -/
theorem accepts_encipher (k : Key) (iv : Block ivLength) (bytes : List UInt8) :
    A.Accepts k iv (A.tag (A.encryptStep.update (A.start k iv) bytes).1).1
      (A.encryptStep.update (A.start k iv) bytes).2 := by
  unfold Accepts
  rw [decipher_encipher]

end StreamAead

end AlsaqiBackend.Lib
