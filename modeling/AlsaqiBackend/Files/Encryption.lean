import AlsaqiBackend.Lib.Aead
import AlsaqiBackend.Lib.OrderedMap
import AlsaqiBackend.Lib.Sha256

/-!
# The file encryption service

`FileEncryptionService` keeps uploaded files under `uploadDir`: as they are under the name of their
`fileId` where no key is set, and otherwise as `[IV][AuthTag][Ciphertext]` under that name with
`.enc`. Which of the two is read back is told from the metadata: an empty `iv` or the key version 0
means the plain file (`EncryptionMetadata.isPlain`).

`encryptFile` under a key records the key version of its caller, so with the version 0 the file that
it writes is not the one that `decryptFile` reads: `encryptFile_roundTrip_iff` says when a file is
read back as it was written.

AES-256-GCM is the parameter `A : Gcm Key`, and the derivation of keys the parameter
`deriveKey`. A random vector and the time of an operation are its arguments.
-/

namespace AlsaqiBackend.Files

open Lib

/-- `IV_LENGTH`. -/
abbrev ivLength : ℕ := 12

/-- `AUTH_TAG_LENGTH`. -/
abbrev authTagLength : ℕ := 16

/-- `HEADER_LENGTH`. -/
def headerLength : ℕ := ivLength + authTagLength

/-- AES-256-GCM. -/
abbrev Gcm (Key : Type) := Aead Key ivLength authTagLength

/-! ## Metadata and files -/

/-- Whether a text names a file of a directory. -/
def isFileName (name : String) : Bool :=
  name ≠ "" && name ≠ "." && name ≠ ".." &&
    !name.toList.contains '/' && !name.toList.contains (Char.ofNat 0)

/-- A `fileId` that can be used as the name of a file. -/
structure FileId where
  name : String
  usable : isFileName name = true
  deriving DecidableEq

/-- The name of the encrypted file. -/
def FileId.encName (fileId : FileId) : String := fileId.name ++ ".enc"

/-- Two files have two encrypted names. -/
theorem FileId.encName_inj {f g : FileId} : f.encName = g.encName ↔ f = g := by
  constructor
  · intro h
    have hname : f.name = g.name := String.append_left_inj ".enc" |>.1 h
    cases f
    cases g
    simp_all
  · rintro rfl
    rfl

/-- An encrypted name is longer than the plain one. -/
theorem FileId.encName_ne_name (f : FileId) : f.encName ≠ f.name := by
  intro h
  have hlength := congrArg String.length h
  rw [encName, String.length_append] at hlength
  have henc : (".enc" : String).length = 4 := by decide
  omega

/-- The characters of the base64 alphabet. -/
def base64Char (n : ℕ) : Char :=
  "ABCDEFGHIJKLMNOPQRSTUVWXYZabcdefghijklmnopqrstuvwxyz0123456789+/".toList.getD n '='

/-- Three bytes in four characters, with `=` for what is missing of the last three. -/
def base64Chars : List UInt8 → List Char
  | a :: b :: c :: rest =>
    base64Char (a.toNat / 4) :: base64Char (a.toNat % 4 * 16 + b.toNat / 16) ::
      base64Char (b.toNat % 16 * 4 + c.toNat / 64) :: base64Char (c.toNat % 64) :: base64Chars rest
  | [a, b] =>
    [base64Char (a.toNat / 4), base64Char (a.toNat % 4 * 16 + b.toNat / 16),
      base64Char (b.toNat % 16 * 4), '=']
  | [a] => [base64Char (a.toNat / 4), base64Char (a.toNat % 4 * 16), '=', '=']
  | [] => []

/-- `buffer.toString('base64')`. -/
def base64 (b : List UInt8) : String := String.ofList (base64Chars b)

/-- Bytes in base64 are no empty text. -/
theorem base64_ne_empty {b : List UInt8} (hb : b ≠ []) : base64 b ≠ "" := by
  intro h
  have hchars : base64Chars b = [] := by
    have hlist := congrArg String.toList h
    simpa [base64] using hlist
  match b with
  | [] => exact hb rfl
  | [_] => simp [base64Chars] at hchars
  | [_, _] => simp [base64Chars] at hchars
  | _ :: _ :: _ :: _ => simp [base64Chars] at hchars

/-- The text of a vector is not empty. -/
theorem base64_iv_ne_empty (iv : Block ivLength) : base64 iv.1 ≠ "" := by
  refine base64_ne_empty fun h => ?_
  have hlength : iv.1.length = 12 := iv.2
  rw [h] at hlength
  exact absurd hlength (by decide)

/-- `crypto.createHash('sha256').update(buffer).digest('hex')`. -/
def checksumOf (buffer : List UInt8) : String :=
  String.ofList (Sha256.hexChars (Sha256.hash (buffer.map UInt8.toNat)))

/-- `EncryptionMetadata`. -/
structure EncryptionMetadata where
  fileId : FileId
  originalName : String
  mimeType : String
  size : ℕ
  iv : String
  authTag : String
  encryptedAt : String
  checksum : String
  keyVersion : ℤ
  deriving DecidableEq

/-- `!metadata.iv || metadata.keyVersion === 0`: the file is stored unencrypted. -/
def EncryptionMetadata.isPlain (m : EncryptionMetadata) : Bool := m.iv = "" || m.keyVersion = 0

/-- `EncryptFileInput`. -/
structure EncryptFileInput where
  fileId : FileId
  originalName : String
  mimeType : String
  size : ℕ
  keyVersion : ℤ

/-- What a name of the upload directory stands for: no file that can be accessed, one whose contents
cannot be read, or a file. -/
inductive Stored where
  | absent
  | unreadable
  | bytes (b : List UInt8)
  deriving DecidableEq

/-- The upload directory, with the names under which a file can be written. -/
structure Disk where
  stored : String → Stored
  writable : String → Bool

/-- `fs.promises.readFile`. -/
def Disk.readFile (d : Disk) (name : String) : Option (List UInt8) :=
  match d.stored name with
  | .bytes b => some b
  | _ => none

/-- What a write leaves. -/
def Disk.put (d : Disk) (name : String) (b : List UInt8) : Disk :=
  { d with stored := Function.update d.stored name (.bytes b) }

/-- `fs.promises.writeFile`: the whole file or nothing. -/
def Disk.writeFile (d : Disk) (name : String) (b : List UInt8) : Option Disk :=
  if d.writable name then some (d.put name b) else none

@[simp]
theorem Disk.readFile_put_self (d : Disk) (name : String) (b : List UInt8) :
    (d.put name b).readFile name = some b := by
  simp [readFile, put]

theorem Disk.stored_put_of_ne (d : Disk) {name name' : String} (h : name' ≠ name) (b : List UInt8) :
    (d.put name b).stored name' = d.stored name' := by
  simp [put, h]

theorem Disk.readFile_put_of_ne (d : Disk) {name name' : String} (h : name' ≠ name)
    (b : List UInt8) : (d.put name b).readFile name' = d.readFile name' := by
  rw [readFile, stored_put_of_ne d h, readFile]

/-- Why an operation throws: metadata that is missing, a key that is not set, a file that cannot be
read or written, a decipher that does not accept, a header that is incomplete, or a checksum that does
not match. -/
inductive FileError where
  | metadataNotFound (fileId : FileId)
  | keyNotSet
  | io (name : String)
  | cipher (fileId : FileId)
  | truncated (fileId : FileId)
  | checksumMismatch (fileId : FileId)
  deriving DecidableEq

/-- The message of an error that the service words itself; the others come from the runtime. -/
def FileError.message : FileError → Option String
  | .metadataNotFound fileId => some ("File metadata not found for fileId: " ++ fileId.name)
  | .keyNotSet =>
    some "Cannot decrypt file: FILE_ENCRYPTION_KEY is not set but file was encrypted."
  | .truncated fileId =>
    some ("Encrypted file is truncated for fileId: " ++ fileId.name ++ " (header incomplete).")
  | .checksumMismatch fileId =>
    some ("Integrity check failed for fileId: " ++ fileId.name ++ ". Checksum mismatch.")
  | .io _ => none
  | .cipher _ => none

/-- The state of a `FileEncryptionService`, with its directory. -/
structure Service (Key : Type) where
  encryptionKey : Option Key
  previousEncryptionKey : Option Key
  metadataStore : OrderedMap FileId EncryptionMetadata
  disk : Disk

/-! ## Encryption and decryption -/

variable {Key : Type} (A : Gcm Key)

/-- `encryptFile`. -/
def Service.encryptFile (s : Service Key) (buffer : List UInt8) (input : EncryptFileInput)
    (iv : Block ivLength) (now : String) :
    Except FileError (EncryptionMetadata × Service Key) :=
  let checksum := checksumOf buffer
  match s.encryptionKey with
  | none =>
    match s.disk.writeFile input.fileId.name buffer with
    | none => .error (.io input.fileId.name)
    | some disk =>
      let metadata : EncryptionMetadata :=
        ⟨input.fileId, input.originalName, input.mimeType, input.size, "", "", now, checksum, 0⟩
      .ok (metadata,
        { s with disk := disk, metadataStore := s.metadataStore.set input.fileId metadata })
  | some key =>
    match s.disk.writeFile input.fileId.encName (A.wrap key iv buffer) with
    | none => .error (.io input.fileId.encName)
    | some disk =>
      let metadata : EncryptionMetadata :=
        ⟨input.fileId, input.originalName, input.mimeType, input.size, base64 iv.1,
          base64 (A.tag key iv buffer).1, now, checksum, input.keyVersion⟩
      .ok (metadata,
        { s with disk := disk, metadataStore := s.metadataStore.set input.fileId metadata })

/-- The keys that `decryptWithFallback` tries: the current one, then the previous one. -/
def Service.decryptionKeys (s : Service Key) (current : Key) : List Key :=
  current :: s.previousEncryptionKey.toList

/-- What `decryptFile` reads of a file with its metadata. -/
def Service.fileContent (s : Service Key) (fileId : FileId) (metadata : EncryptionMetadata) :
    Except FileError (List UInt8) :=
  if metadata.isPlain then
    match s.disk.readFile fileId.name with
    | none => .error (.io fileId.name)
    | some buffer => .ok buffer
  else
    match s.encryptionKey with
    | none => .error .keyNotSet
    | some key =>
      match s.disk.readFile fileId.encName with
      | none => .error (.io fileId.encName)
      | some fileData =>
        match A.unwrapWith (s.decryptionKeys key) fileData with
        | none => .error (.cipher fileId)
        | some decrypted =>
          if checksumOf decrypted = metadata.checksum then .ok decrypted
          else .error (.checksumMismatch fileId)

/-- `decryptFile`. -/
def Service.decryptFile (s : Service Key) (fileId : FileId) :
    Except FileError (List UInt8 × EncryptionMetadata) :=
  match s.metadataStore.get fileId with
  | none => .error (.metadataNotFound fileId)
  | some metadata => (s.fileContent A fileId metadata).map fun buffer => (buffer, metadata)

/-- `verifyIntegrity`. -/
def Service.verifyIntegrity (s : Service Key) (fileId : FileId) : Bool :=
  match s.decryptFile A fileId with
  | .error _ => false
  | .ok (buffer, metadata) => checksumOf buffer = metadata.checksum

/-- `decryptFile` returns these bytes. -/
def Service.Reads (s : Service Key) (fileId : FileId) (b : List UInt8) : Prop :=
  (s.decryptFile A fileId).map Prod.fst = .ok b

variable {A}

/-- What reading a file gives is one content. -/
theorem Service.Reads.unique {s : Service Key} {fileId : FileId} {b b' : List UInt8}
    (h : s.Reads A fileId b) (h' : s.Reads A fileId b') : b = b' := by
  rw [Reads, h] at h'
  exact Except.ok.inj h'

/-- A file without metadata is not read. -/
theorem Service.not_reads_of_get_eq_none {s : Service Key} {fileId : FileId}
    (hget : s.metadataStore.get fileId = none) (b : List UInt8) : ¬s.Reads A fileId b := by
  simp [Reads, decryptFile, hget, Except.map]

theorem Service.decryptFile_of_get {s : Service Key} {fileId : FileId} {m : EncryptionMetadata}
    (hget : s.metadataStore.get fileId = some m) :
    s.decryptFile A fileId = (s.fileContent A fileId m).map fun buffer => (buffer, m) := by
  rw [decryptFile, hget]

/-- Reading a file with metadata. -/
theorem Service.reads_iff {s : Service Key} {fileId : FileId} {m : EncryptionMetadata}
    (hget : s.metadataStore.get fileId = some m) (b : List UInt8) :
    s.Reads A fileId b ↔ s.fileContent A fileId m = .ok b := by
  rw [Reads, decryptFile_of_get hget]
  cases s.fileContent A fileId m with
  | error e => simp [Except.map]
  | ok b' => simp [Except.map]

/-- Reading a file that the metadata says is plain. -/
theorem Service.reads_of_isPlain {s : Service Key} {fileId : FileId} {m : EncryptionMetadata}
    (hget : s.metadataStore.get fileId = some m) (hplain : m.isPlain = true) (b : List UInt8) :
    s.Reads A fileId b ↔ s.disk.readFile fileId.name = some b := by
  rw [reads_iff hget, fileContent, if_pos hplain]
  cases s.disk.readFile fileId.name with
  | none => simp
  | some buffer => simp

/-- Reading a file that the metadata says is encrypted. -/
theorem Service.reads_of_encrypted {s : Service Key} {fileId : FileId} {m : EncryptionMetadata}
    (hget : s.metadataStore.get fileId = some m) (hplain : m.isPlain = false) (b : List UInt8) :
    s.Reads A fileId b ↔
      ∃ key, s.encryptionKey = some key ∧ ∃ data, s.disk.readFile fileId.encName = some data ∧
        A.unwrapWith (s.decryptionKeys key) data = some b ∧ checksumOf b = m.checksum := by
  rw [reads_iff hget, fileContent, if_neg (by simp [hplain])]
  cases s.encryptionKey with
  | none => simp
  | some key =>
    cases s.disk.readFile fileId.encName with
    | none => simp
    | some data =>
      simp only [Option.some.injEq, exists_eq_left']
      cases A.unwrapWith (s.decryptionKeys key) data with
      | none => simp
      | some decrypted =>
        simp only [Option.some.injEq]
        by_cases hsum : checksumOf decrypted = m.checksum
        · rw [if_pos hsum, Except.ok.injEq]
          exact ⟨fun h => ⟨h, h ▸ hsum⟩, fun h => h.1⟩
        · rw [if_neg hsum]
          simp only [reduceCtorEq, false_iff, not_and]
          exact fun h => h ▸ hsum

/-- Of a file that is read, `verifyIntegrity` says whether its checksum is the recorded one. -/
theorem Service.Reads.verifyIntegrity {s : Service Key} {fileId : FileId} {m : EncryptionMetadata}
    {b : List UInt8} (h : s.Reads A fileId b) (hget : s.metadataStore.get fileId = some m) :
    s.verifyIntegrity A fileId = decide (checksumOf b = m.checksum) := by
  rw [reads_iff hget] at h
  rw [Service.verifyIntegrity, decryptFile_of_get hget, h]
  rfl

/-! ## The round trip -/

/-- The metadata of a file that is stored as it is. -/
def plainMetadata (buffer : List UInt8) (input : EncryptFileInput) (now : String) :
    EncryptionMetadata :=
  ⟨input.fileId, input.originalName, input.mimeType, input.size, "", "", now, checksumOf buffer, 0⟩

/-- The metadata of a file that is encrypted under a key. -/
def encryptedMetadata (A : Gcm Key) (key : Key) (buffer : List UInt8) (input : EncryptFileInput)
    (iv : Block ivLength) (now : String) : EncryptionMetadata :=
  ⟨input.fileId, input.originalName, input.mimeType, input.size, base64 iv.1,
    base64 (A.tag key iv buffer).1, now, checksumOf buffer, input.keyVersion⟩

/-- What `encryptFile` does when it resolves. -/
theorem encryptFile_cases {s s' : Service Key} {buffer : List UInt8} {input : EncryptFileInput}
    {iv : Block ivLength} {now : String} {metadata : EncryptionMetadata}
    (h : s.encryptFile A buffer input iv now = .ok (metadata, s')) :
    s' = { s with disk := s'.disk, metadataStore := s.metadataStore.set input.fileId metadata } ∧
      ((s.encryptionKey = none ∧ metadata = plainMetadata buffer input now ∧
          s'.disk = s.disk.put input.fileId.name buffer) ∨
        ∃ key, s.encryptionKey = some key ∧ metadata = encryptedMetadata A key buffer input iv now ∧
          s'.disk = s.disk.put input.fileId.encName (A.wrap key iv buffer)) := by
  rw [Service.encryptFile] at h
  cases hkey : s.encryptionKey with
  | none =>
    simp only [hkey, Disk.writeFile] at h
    split_ifs at h with hwritable
    simp only [Except.ok.injEq, Prod.mk.injEq] at h
    obtain ⟨rfl, rfl⟩ := h
    exact ⟨rfl, Or.inl ⟨rfl, rfl, rfl⟩⟩
  | some key =>
    simp only [hkey, Disk.writeFile] at h
    split_ifs at h with hwritable
    simp only [Except.ok.injEq, Prod.mk.injEq] at h
    obtain ⟨rfl, rfl⟩ := h
    exact ⟨rfl, Or.inr ⟨key, rfl, rfl, rfl⟩⟩

/-- Right after `encryptFile`, the file is read back as it was written and its integrity is
confirmed, exactly when no key is set, or the key version is not 0, or the plain name of the file
already held these bytes. -/
theorem encryptFile_roundTrip_iff (A : Gcm Key) (s s' : Service Key) (buffer : List UInt8)
    (input : EncryptFileInput) (iv : Block ivLength) (now : String) (metadata : EncryptionMetadata)
    (h : s.encryptFile A buffer input iv now = .ok (metadata, s')) :
    s'.Reads A input.fileId buffer ∧ s'.verifyIntegrity A input.fileId = true ↔
      s.encryptionKey = none ∨ input.keyVersion ≠ 0 ∨
        s.disk.readFile input.fileId.name = some buffer := by
  obtain ⟨hs', hcases⟩ := encryptFile_cases h
  have hget : s'.metadataStore.get input.fileId = some metadata := by
    rw [hs', OrderedMap.get_set, if_pos rfl]
  have hsum : metadata.checksum = checksumOf buffer := by
    rcases hcases with ⟨-, rfl, -⟩ | ⟨key, -, rfl, -⟩
    · rfl
    · rfl
  have hverify : s'.Reads A input.fileId buffer → s'.verifyIntegrity A input.fileId = true := by
    intro hread
    rw [hread.verifyIntegrity hget, hsum]
    exact decide_eq_true rfl
  rw [and_iff_left_of_imp hverify]
  rcases hcases with ⟨hkey, hm, hdisk⟩ | ⟨key, hkey, hm, hdisk⟩
  · have hplain : metadata.isPlain = true := by rw [hm]; rfl
    rw [Service.reads_of_isPlain hget hplain, hdisk, Disk.readFile_put_self]
    simp [hkey]
  · have hiv := base64_iv_ne_empty iv
    by_cases hv : input.keyVersion = 0
    · -- The version 0 says that the file is plain, and the plain name has not been written.
      have hplain : metadata.isPlain = true := by
        simp [hm, encryptedMetadata, EncryptionMetadata.isPlain, hv]
      rw [Service.reads_of_isPlain hget hplain, hdisk,
        Disk.readFile_put_of_ne _ (Ne.symm input.fileId.encName_ne_name)]
      simp [hkey, hv]
    · have hplain : metadata.isPlain = false := by
        simp [hm, encryptedMetadata, EncryptionMetadata.isPlain, hv, hiv]
      have hopen : A.unwrapWith (s'.decryptionKeys key) (A.wrap key iv buffer) = some buffer :=
        Aead.unwrapWith_cons_of_some (Aead.unwrap_wrap key iv buffer) _
      have hkey' : s'.encryptionKey = some key := by rw [hs', ← hkey]
      have hread : s'.Reads A input.fileId buffer := by
        rw [Service.reads_of_encrypted hget hplain, hdisk, Disk.readFile_put_self]
        exact ⟨key, hkey', _, rfl, hopen, hsum.symm⟩
      simp [hread, hv]

/-- A cipher for runs on concrete inputs: every byte is shifted by the key, and the tag repeats the
key. -/
def shiftCipher : Gcm UInt8 where
  encrypt k _ p := p.map (· + k)
  tag k _ _ := ⟨List.replicate authTagLength k, List.length_replicate⟩
  decrypt k _ c := c.map (· - k)
  accepts k _ tag _ := tag = List.replicate authTagLength k
  decrypt_encrypt k _ p := by simp [Function.comp_def]
  accepts_encrypt k _ _ := by simp

/-- The cipher for concrete inputs authenticates its keys. -/
theorem shiftCipher_authenticating : shiftCipher.Authenticating := by
  intro k k' iv p h
  have htag : some k = some k' := congrArg List.head? (of_decide_eq_true h)
  exact (Option.some.inj htag).symm

/-- A directory without files. -/
def emptyDisk : Disk := ⟨fun _ => .absent, fun _ => true⟩

/-- A vector of zeros. -/
def zeroIv : Block ivLength := ⟨List.replicate ivLength 0, List.length_replicate⟩

/-- A file for runs on concrete inputs. -/
def fileA : FileId := ⟨"a", by decide⟩

/-- A service with a key and without files. -/
def keyedService : Service UInt8 := ⟨some 7, none, OrderedMap.empty, emptyDisk⟩

/-- The round trip of a file with a key version. -/
theorem encryptFile_roundTrip_version :
    let input : EncryptFileInput := ⟨fileA, "a.txt", "text/plain", 2, 1⟩
    let s' : Service UInt8 := { keyedService with
      disk := emptyDisk.put "a.enc" (shiftCipher.wrap 7 zeroIv [1, 2])
      metadataStore := OrderedMap.empty.set fileA
        (encryptedMetadata shiftCipher 7 [1, 2] input zeroIv "now") }
    s'.Reads shiftCipher fileA [1, 2] ∧ s'.verifyIntegrity shiftCipher fileA = true :=
  (encryptFile_roundTrip_iff shiftCipher keyedService _ [1, 2]
    ⟨fileA, "a.txt", "text/plain", 2, 1⟩ zeroIv "now" _ rfl).2 (Or.inr (Or.inl (by decide)))

/-- Under a key, a file with the key version 0 is not read back: its metadata sends `decryptFile` to
a plain file that nobody has written. -/
theorem encryptFile_version_zero_lost :
    ¬∀ (A : Gcm UInt8) (s s' : Service UInt8) (buffer : List UInt8) (input : EncryptFileInput)
      (iv : Block ivLength) (now : String) (metadata : EncryptionMetadata),
      s.encryptFile A buffer input iv now = .ok (metadata, s') →
        s'.Reads A input.fileId buffer ∧ s'.verifyIntegrity A input.fileId = true := by
  intro hall
  have hread := (hall shiftCipher keyedService _ [1, 2] ⟨fileA, "a.txt", "text/plain", 2, 0⟩ zeroIv
    "now" _ rfl).1
  rw [Service.reads_of_isPlain (OrderedMap.get_set _ _ _ _) rfl] at hread
  cases hread

end AlsaqiBackend.Files
