import AlsaqiBackend.Lib.Digits

/-!
# SHA-256

The hash function of FIPS 180-4 on byte strings, over natural numbers below `2^32` so that the
kernel can evaluate it, and its digest of a text in hexadecimal. What the proofs use of the digest
is its form: 64 hexadecimal digits (`sha256Hex_length`, `notMem_sha256Hex`).
-/

namespace AlsaqiBackend.Lib.Sha256

/-- The round constants. -/
def roundConstants : List ℕ := [
  0x428a2f98, 0x71374491, 0xb5c0fbcf, 0xe9b5dba5, 0x3956c25b, 0x59f111f1, 0x923f82a4, 0xab1c5ed5,
  0xd807aa98, 0x12835b01, 0x243185be, 0x550c7dc3, 0x72be5d74, 0x80deb1fe, 0x9bdc06a7, 0xc19bf174,
  0xe49b69c1, 0xefbe4786, 0x0fc19dc6, 0x240ca1cc, 0x2de92c6f, 0x4a7484aa, 0x5cb0a9dc, 0x76f988da,
  0x983e5152, 0xa831c66d, 0xb00327c8, 0xbf597fc7, 0xc6e00bf3, 0xd5a79147, 0x06ca6351, 0x14292967,
  0x27b70a85, 0x2e1b2138, 0x4d2c6dfc, 0x53380d13, 0x650a7354, 0x766a0abb, 0x81c2c92e, 0x92722c85,
  0xa2bfe8a1, 0xa81a664b, 0xc24b8b70, 0xc76c51a3, 0xd192e819, 0xd6990624, 0xf40e3585, 0x106aa070,
  0x19a4c116, 0x1e376c08, 0x2748774c, 0x34b0bcb5, 0x391c0cb3, 0x4ed8aa4a, 0x5b9cca4f, 0x682e6ff3,
  0x748f82ee, 0x78a5636f, 0x84c87814, 0x8cc70208, 0x90befffa, 0xa4506ceb, 0xbef9a3f7, 0xc67178f2]

/-- The eight words of the hash state. -/
structure State where
  a : ℕ
  b : ℕ
  c : ℕ
  d : ℕ
  e : ℕ
  f : ℕ
  g : ℕ
  h : ℕ

/-- The initial hash value. -/
def State.init : State :=
  ⟨0x6a09e667, 0xbb67ae85, 0x3c6ef372, 0xa54ff53a, 0x510e527f, 0x9b05688c, 0x1f83d9ab, 0x5be0cd19⟩

/-- The rotation of a word to the right by `n` bits. -/
def rotr (n x : ℕ) : ℕ := (x >>> n) ||| (x <<< (32 - n)) % 2^32

/-- One round, with the round constant and the word of the schedule already added. -/
def round (s : State) (kw : ℕ) : State :=
  let sum1 := rotr 6 s.e ^^^ rotr 11 s.e ^^^ rotr 25 s.e
  let ch := (s.e &&& s.f) ^^^ ((s.e ^^^ 0xffffffff) &&& s.g)
  let t1 := (s.h + sum1 + ch + kw) % 2^32
  let sum0 := rotr 2 s.a ^^^ rotr 13 s.a ^^^ rotr 22 s.a
  let maj := (s.a &&& s.b) ^^^ (s.a &&& s.c) ^^^ (s.b &&& s.c)
  ⟨(t1 + sum0 + maj) % 2^32, s.a, s.b, s.c, (s.d + t1) % 2^32, s.e, s.f, s.g⟩

/-- The next `n` words of the message schedule, from the sixteen words before them. -/
def schedule : ℕ → List ℕ → List ℕ
  | n + 1, w :: ws =>
    let w1 := ws.getD 0 0
    let w9 := ws.getD 8 0
    let w14 := ws.getD 13 0
    let sigma0 := rotr 7 w1 ^^^ rotr 18 w1 ^^^ (w1 >>> 3)
    let sigma1 := rotr 17 w14 ^^^ rotr 19 w14 ^^^ (w14 >>> 10)
    w :: schedule n (ws ++ [(w + sigma0 + w9 + sigma1) % 2^32])
  | _, _ => []

/-- The compression function on a block of sixteen words. -/
def compress (s : State) (block : List ℕ) : State :=
  let r := (List.zipWith (· + ·) roundConstants (schedule 64 block)).foldl round s
  ⟨(s.a + r.a) % 2^32, (s.b + r.b) % 2^32, (s.c + r.c) % 2^32, (s.d + r.d) % 2^32,
    (s.e + r.e) % 2^32, (s.f + r.f) % 2^32, (s.g + r.g) % 2^32, (s.h + r.h) % 2^32⟩

/-- The `w` low bytes of `n`, the most significant first. -/
def bytesOfNat : ℕ → ℕ → List ℕ
  | 0, _ => []
  | w + 1, n => bytesOfNat w (n / 256) ++ [n % 256]

/-- The message with its padding: a one bit, zeros, and the length in bits. -/
def pad (m : List ℕ) : List ℕ :=
  m ++ [0x80] ++ List.replicate ((119 - m.length % 64) % 64) 0 ++ bytesOfNat 8 (8 * m.length)

/-- Bytes as big-endian words. -/
def words : List ℕ → List ℕ
  | b0 :: b1 :: b2 :: b3 :: bs => (b0 * 2^24 + b1 * 2^16 + b2 * 2^8 + b3) :: words bs
  | _ => []

/-- The first `n` blocks of sixteen words. -/
def blocks : ℕ → List ℕ → List (List ℕ)
  | 0, _ => []
  | n + 1, ws => ws.take 16 :: blocks n (ws.drop 16)

/-- The hash state after the whole message. -/
def hash (m : List ℕ) : State :=
  let ws := words (pad m)
  (blocks (ws.length / 16) ws).foldl compress State.init

/-- The bytes of a character in UTF-8. -/
def utf8Bytes (c : Char) : List ℕ :=
  let n := c.toNat
  if n < 0x80 then [n]
  else if n < 0x800 then [0xc0 + n / 64, 0x80 + n % 64]
  else if n < 0x10000 then [0xe0 + n / 4096, 0x80 + n / 64 % 64, 0x80 + n % 64]
  else [0xf0 + n / 262144, 0x80 + n / 4096 % 64, 0x80 + n / 64 % 64, 0x80 + n % 64]

/-- A word in eight hexadecimal digits. -/
def hexWord (n : ℕ) : List Char := fixedDigits 16 8 n

/-- The hash state in hexadecimal. -/
def hexChars (s : State) : List Char :=
  hexWord s.a ++ hexWord s.b ++ hexWord s.c ++ hexWord s.d ++ hexWord s.e ++ hexWord s.f ++
    hexWord s.g ++ hexWord s.h

end Sha256

open Sha256 in
/-- `crypto.createHash('sha256').update(text).digest('hex')`. -/
def sha256Hex (text : String) : String :=
  String.ofList (hexChars (hash (text.toList.flatMap utf8Bytes)))

/-- A digest has 64 characters. -/
theorem sha256Hex_length (text : String) : (sha256Hex text).toList.length = 64 := by
  simp [sha256Hex, Sha256.hexChars, Sha256.hexWord]

/-- A character that is no digit is not in a digest. -/
theorem notMem_sha256Hex {c : Char} (hc : ∀ d, Nat.digitChar d ≠ c) (text : String) :
    c ∉ (sha256Hex text).toList := by
  simp [sha256Hex, Sha256.hexChars, Sha256.hexWord, notMem_fixedDigits hc]

example : sha256Hex "abc" =
    "ba7816bf8f01cfea414140de5dae2223b00361a396177a9cb410ff61f20015ad" := by decide +kernel

end AlsaqiBackend.Lib
