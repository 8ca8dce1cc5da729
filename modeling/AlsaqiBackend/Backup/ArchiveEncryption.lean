import AlsaqiBackend.Lib.StreamCipher

/-!
# Encryption of backup archives

`encryptFileAtRest` writes an archive as `[IV][Ciphertext][AuthTag]`, with the tag behind the ciphertext since
the cipher gives it last. `decryptBackupArchive` of the restore drill is another program, with constants of
its own: it reads the vector from the start of the file, the tag from its end, and streams what is between
them, up to an index that it includes.

With nothing between the two that index stands before the first one, and `createReadStream` takes no such
range. So the drill opens what the writer has written exactly when there is a byte in it
(`archiveRoundTrip_iff`). Files that do not authenticate are all rejected (`decryptBackupArchive_eq_ok_iff`).
-/

namespace AlsaqiBackend.Backup

open Lib

/-! ## The writer -/

/-- `BACKUP_ENC_IV_LENGTH`. -/
def ivLength : ℕ := 12

/-- `BACKUP_ENC_AUTH_TAG_LENGTH`. -/
def authTagLength : ℕ := 16

/-- The arguments of `crypto.hkdfSync`. -/
structure HkdfArgs where
  digest : String
  ikm : String
  salt : String
  info : String
  keylen : ℕ
deriving DecidableEq

/-- The environment of a process. -/
abbrev Env := String → Option String

/-- `process.env.A || process.env.B`: an empty text counts as none. -/
def orElse (env : Env) (a b : String) : Option String :=
  ((env a).filter (· ≠ "")).or ((env b).filter (· ≠ ""))

/-- AES-256-GCM, as the streams of `crypto` use it. -/
abbrev Gcm (Key : Type) := StreamAead Key ivLength authTagLength

variable {Key : Type} (hkdfSync : HkdfArgs → Key) (A : Gcm Key)

def getBackupEncryptionKey (env : Env) : Option Key :=
  (orElse env "FILE_ENCRYPTION_KEY" "FILE_ACCESS_SECRET").map fun rawKey =>
    hkdfSync
      { digest := "sha256"
        ikm := rawKey
        salt := "alsaqi-backup-enc-salt"
        info := "alsaqi-backup-encryption"
        keylen := 32 }

/-- The bytes that `encryptFileAtRest` has written when its promise is resolved: the vector, one write for
each chunk of the source, and the tag. -/
def encryptFileAtRest (iv : Block ivLength) (input : List (List UInt8)) (key : Key) : List UInt8 :=
  let (state, output) := A.encryptStep.pipe (A.start key iv) input
  iv.1 ++ output.flatten ++ (A.tag state).1

/-! ## The reader -/

namespace RestoreDrill

/-- `BACKUP_ENC_IV_LENGTH` of the drill. -/
def ivLength : ℕ := 12

/-- `BACKUP_ENC_AUTH_TAG_LENGTH` of the drill. -/
def authTagLength : ℕ := 16

end RestoreDrill

/-- Why an archive is rejected. -/
inductive DrillError where
  | tooSmall
  | outOfRange (start : ℕ)
  | unauthenticated
deriving DecidableEq

def getBackupDecryptionKey (env : Env) : Option Key :=
  (orElse env "FILE_ENCRYPTION_KEY" "FILE_ACCESS_SECRET").map fun rawKey =>
    hkdfSync
      { digest := "sha256"
        ikm := rawKey
        salt := "alsaqi-backup-enc-salt"
        info := "alsaqi-backup-encryption"
        keylen := 32 }

/-- `fs.createReadStream(path, { start, end })`: the bytes from the first index to the last, which is
included. -/
def createReadStream (file : List UInt8) (start stop : ℕ) : Except DrillError (List UInt8) :=
  if start > stop then .error (.outOfRange start)
  else .ok ((file.drop start).take (stop + 1 - start))

/-- `fd.read` of so many bytes at a position. -/
def readAt (file : List UInt8) (position length : ℕ) (h : position + length ≤ file.length) : Block length :=
  ⟨(file.drop position).take length, by rw [List.length_take, List.length_drop]; omega⟩

/-- What `decryptBackupArchive` has written to its destination when it does not throw. -/
def decryptBackupArchive (chunking : Chunking) (file : List UInt8) (key : Key) :
    Except DrillError (List UInt8) :=
  let minSize := RestoreDrill.ivLength + RestoreDrill.authTagLength
  if hsize : file.length < minSize then .error .tooSmall
  else
    let iv := readAt file 0 RestoreDrill.ivLength (by omega)
    let authTag := readAt file (file.length - RestoreDrill.authTagLength) RestoreDrill.authTagLength (by omega)
    let cipherStart := RestoreDrill.ivLength
    let cipherEnd := file.length - RestoreDrill.authTagLength - 1
    match createReadStream file cipherStart cipherEnd with
    | .error e => .error e
    | .ok bytes =>
      let (state, output) := A.decryptStep.pipe (A.start key iv) (chunking.cut bytes)
      -- `final` compares the tag, and fails the stream where it is another one.
      if (A.tag state).1 = authTag.1 then .ok output.flatten else .error .unauthenticated

/-! ## The round trip -/

/-- A file in the form of the writer that authenticates under the key. -/
def Authentic (key : Key) (file : List UInt8) : Prop :=
  ∃ (iv : Block ivLength) (ciphertext : List UInt8) (tag : Block authTagLength),
    file = iv.1 ++ ciphertext ++ tag.1 ∧ A.Accepts key iv tag.1 ciphertext

/-- The drill opens what the writer has written for these bytes to exactly these bytes, under the same
environment, and rejects every file that is not authentic. -/
def ArchiveRoundTrip (env : Env) (x : List UInt8) : Prop :=
  (∀ key, getBackupEncryptionKey hkdfSync env = some key →
    ∀ (iv : Block ivLength) (input : List (List UInt8)) (chunking : Chunking), input.flatten = x →
      ∃ key', getBackupDecryptionKey hkdfSync env = some key' ∧
        decryptBackupArchive A chunking (encryptFileAtRest A iv input key) key' = .ok x) ∧
  ∀ key', getBackupDecryptionKey hkdfSync env = some key' →
    ∀ (chunking : Chunking) (file : List UInt8), ¬Authentic A key' file →
      ∃ e, decryptBackupArchive A chunking file key' = .error e

variable {hkdfSync A} {key : Key}

/-- The two programs derive one key. -/
theorem getBackupDecryptionKey_eq (env : Env) :
    getBackupDecryptionKey hkdfSync env = getBackupEncryptionKey hkdfSync env := rfl

/-- What has been written, for all cuts of the source. -/
theorem encryptFileAtRest_eq (iv : Block ivLength) (input : List (List UInt8)) :
    encryptFileAtRest A iv input key =
      iv.1 ++ (A.encryptStep.update (A.start key iv) input.flatten).2 ++
        (A.tag (A.encryptStep.update (A.start key iv) input.flatten).1).1 := by
  obtain ⟨hstate, hbytes⟩ := ByteStep.pipe_spec A.encryptStep (A.start key iv) input
  unfold encryptFileAtRest
  dsimp only
  rw [hstate, hbytes]

/-- The drill on a file in the form of the writer: its parts are found, and the stream between them is taken
when it has a byte. -/
theorem decryptBackupArchive_parts (chunking : Chunking) (iv : Block ivLength) (ciphertext : List UInt8)
    (tag : Block authTagLength) :
    decryptBackupArchive A chunking (iv.1 ++ ciphertext ++ tag.1) key =
      if ciphertext = [] then .error (.outOfRange RestoreDrill.ivLength)
      else if A.Accepts key iv tag.1 ciphertext then
        .ok (A.decryptStep.update (A.start key iv) ciphertext).2
      else .error .unauthenticated := by
  have hiv : iv.1.length = 12 := iv.2
  have htag : tag.1.length = 16 := tag.2
  have hlength : (iv.1 ++ ciphertext ++ tag.1).length = 12 + ciphertext.length + 16 := by
    rw [List.length_append, List.length_append, hiv, htag]
  have hminSize : ¬(iv.1 ++ ciphertext ++ tag.1).length < RestoreDrill.ivLength + RestoreDrill.authTagLength := by
    rw [hlength]
    unfold RestoreDrill.ivLength RestoreDrill.authTagLength
    omega
  -- The three parts are read at their places: the vector in front, the tag at the end.
  have hreadIv : ∀ h, readAt (iv.1 ++ ciphertext ++ tag.1) 0 RestoreDrill.ivLength h = iv := by
    intro h
    apply Subtype.ext
    show ((iv.1 ++ ciphertext ++ tag.1).drop 0).take 12 = iv.1
    rw [List.drop_zero, List.append_assoc, List.take_left' hiv]
  have hreadTag : ∀ h, readAt (iv.1 ++ ciphertext ++ tag.1)
      ((iv.1 ++ ciphertext ++ tag.1).length - RestoreDrill.authTagLength) RestoreDrill.authTagLength h = tag := by
    intro h
    apply Subtype.ext
    have hposition : (iv.1 ++ ciphertext ++ tag.1).length - 16 = (iv.1 ++ ciphertext).length := by
      rw [List.length_append, htag]
      omega
    show ((iv.1 ++ ciphertext ++ tag.1).drop ((iv.1 ++ ciphertext ++ tag.1).length - 16)).take 16 = tag.1
    rw [hposition, List.drop_left, List.take_of_length_le (Nat.le_of_eq htag)]
  -- And the ciphertext between; an empty one is a range that ends before it starts.
  have hstream : createReadStream (iv.1 ++ ciphertext ++ tag.1) RestoreDrill.ivLength
      ((iv.1 ++ ciphertext ++ tag.1).length - RestoreDrill.authTagLength - 1) =
        if ciphertext = [] then .error (.outOfRange RestoreDrill.ivLength) else .ok ciphertext := by
    unfold createReadStream
    rw [hlength]
    unfold RestoreDrill.ivLength RestoreDrill.authTagLength
    by_cases hempty : ciphertext = []
    · rw [if_pos hempty, hempty, List.length_nil, if_pos (by omega)]
    · have hpos : 0 < ciphertext.length := List.length_pos_iff.2 hempty
      have hrange : 12 + ciphertext.length + 16 - 16 - 1 + 1 - 12 = ciphertext.length := by omega
      rw [if_neg hempty, if_neg (by omega), hrange, List.append_assoc, List.drop_left' hiv, List.take_left]
  unfold decryptBackupArchive
  dsimp only
  rw [dif_neg hminSize, hreadIv, hreadTag, hstream]
  by_cases hempty : ciphertext = []
  · rw [if_pos hempty, if_pos hempty]
  · obtain ⟨hstate, hbytes⟩ :=
      ByteStep.pipe_spec A.decryptStep (A.start key iv) (chunking.cut ciphertext)
    rw [chunking.flatten_cut] at hstate hbytes
    rw [if_neg hempty, if_neg hempty]
    dsimp only
    rw [hstate, hbytes]
    rfl

/-- Every file with room for the vector and the tag has them. -/
theorem exists_parts {file : List UInt8} (h : RestoreDrill.ivLength + RestoreDrill.authTagLength ≤ file.length) :
    ∃ (iv : Block ivLength) (ciphertext : List UInt8) (tag : Block authTagLength),
      file = iv.1 ++ ciphertext ++ tag.1 := by
  unfold RestoreDrill.ivLength RestoreDrill.authTagLength at h
  refine ⟨⟨file.take 12, by rw [List.length_take, ivLength]; omega⟩,
    (file.drop 12).take (file.length - 28),
    ⟨file.drop (file.length - 16), by rw [List.length_drop, authTagLength]; omega⟩, ?_⟩
  have htail : file.drop (file.length - 16) = (file.drop 12).drop (file.length - 28) := by
    rw [List.drop_drop]
    congr 1
    omega
  dsimp only
  rw [htail, List.append_assoc, List.take_append_drop, List.take_append_drop]

/-- The drill opens a file exactly when it authenticates and has a byte between the vector and the tag. -/
theorem decryptBackupArchive_eq_ok_iff (chunking : Chunking) (file x : List UInt8) :
    decryptBackupArchive A chunking file key = .ok x ↔
      ∃ (iv : Block ivLength) (ciphertext : List UInt8) (tag : Block authTagLength),
        file = iv.1 ++ ciphertext ++ tag.1 ∧ ciphertext ≠ [] ∧ A.Accepts key iv tag.1 ciphertext ∧
          (A.decryptStep.update (A.start key iv) ciphertext).2 = x := by
  constructor
  · intro h
    have hsize : RestoreDrill.ivLength + RestoreDrill.authTagLength ≤ file.length := by
      by_contra hsmall
      unfold decryptBackupArchive at h
      rw [dif_pos (Nat.lt_of_not_le hsmall)] at h
      cases h
    obtain ⟨iv, ciphertext, tag, rfl⟩ := exists_parts hsize
    rw [decryptBackupArchive_parts] at h
    split_ifs at h with hempty haccepts
    exact ⟨iv, ciphertext, tag, rfl, hempty, haccepts, Except.ok.inj h⟩
  · rintro ⟨iv, ciphertext, tag, rfl, hne, haccepts, hx⟩
    rw [decryptBackupArchive_parts, if_neg hne, if_pos haccepts, hx]

/-- What is not authentic is rejected. -/
theorem rejects_of_not_authentic (chunking : Chunking) {file : List UInt8} (h : ¬Authentic A key file) :
    ∃ e, decryptBackupArchive A chunking file key = .error e := by
  cases hresult : decryptBackupArchive A chunking file key with
  | error e => exact ⟨e, rfl⟩
  | ok x =>
    obtain ⟨iv, ciphertext, tag, hfile, -, haccepts, -⟩ :=
      (decryptBackupArchive_eq_ok_iff chunking file x).1 hresult
    exact absurd ⟨iv, ciphertext, tag, hfile, haccepts⟩ h

/-- The drill on what the writer has written. -/
theorem decrypt_encryptFileAtRest (iv : Block ivLength) (input : List (List UInt8)) (chunking : Chunking) :
    decryptBackupArchive A chunking (encryptFileAtRest A iv input key) key =
      if input.flatten = [] then .error (.outOfRange RestoreDrill.ivLength) else .ok input.flatten := by
  have hempty : (A.encryptStep.update (A.start key iv) input.flatten).2 = [] ↔ input.flatten = [] := by
    rw [← List.length_eq_zero_iff, ByteStep.length_update, List.length_eq_zero_iff]
  rw [encryptFileAtRest_eq, decryptBackupArchive_parts, StreamAead.decipher_encipher,
    if_pos (StreamAead.accepts_encipher key iv input.flatten)]
  by_cases hx : input.flatten = []
  · rw [if_pos hx, if_pos (hempty.2 hx)]
  · rw [if_neg hx, if_neg fun h => hx (hempty.1 h)]

/-- The round trip holds exactly for bytes of which there is one, where there is a key at all. -/
theorem archiveRoundTrip_iff (hkdfSync : HkdfArgs → Key) (A : Gcm Key) (env : Env) (x : List UInt8) :
    ArchiveRoundTrip hkdfSync A env x ↔ x ≠ [] ∨ getBackupEncryptionKey hkdfSync env = none := by
  unfold ArchiveRoundTrip
  rw [and_iff_left fun key' _ chunking file hfile => rejects_of_not_authentic chunking hfile]
  constructor
  · intro h
    by_contra hnot
    obtain ⟨hx, hkey⟩ := not_or.1 hnot
    obtain ⟨key, hkey⟩ := Option.ne_none_iff_exists'.1 hkey
    have hnil : x = [] := not_not.1 hx
    obtain ⟨key', hkey', hopen⟩ := h key hkey ⟨List.replicate ivLength 0, List.length_replicate⟩ []
      ⟨fun bytes => [bytes], fun bytes => List.flatten_singleton⟩ hnil.symm
    rw [getBackupDecryptionKey_eq, hkey] at hkey'
    obtain rfl : key = key' := Option.some.inj hkey'
    rw [decrypt_encryptFileAtRest, if_pos List.flatten_nil] at hopen
    cases hopen
  · intro h key hkey iv input chunking hinput
    have hx : x ≠ [] := h.resolve_right (by rw [hkey]; exact Option.some_ne_none key)
    refine ⟨key, by rw [getBackupDecryptionKey_eq, hkey], ?_⟩
    rw [decrypt_encryptFileAtRest, hinput, if_neg hx]

/-! ## An empty archive -/

/-- A cipher for runs on concrete inputs: every byte is shifted by the key, and the tag repeats the sum of
the ciphertext. -/
def shiftCipher : Gcm UInt8 where
  State := UInt8 × UInt8
  start := fun key _ => (key, 0)
  encryptStep := fun (key, sum) b => ((key, sum + (b + key)), b + key)
  decryptStep := fun (key, sum) c => ((key, sum + c), c - key)
  tag := fun (key, sum) => ⟨List.replicate authTagLength (key + sum), List.length_replicate⟩
  decryptStep_encryptStep := by
    rintro ⟨key, sum⟩ b
    simp

/-- A derivation for runs on concrete inputs. -/
def lengthKey (args : HkdfArgs) : UInt8 := args.ikm.length.toUInt8

/-- Only the key of the files is set. -/
def fileKeyEnv : Env := fun name => if name = "FILE_ENCRYPTION_KEY" then some "secret" else none

/-- The drill does not open the archive without a byte. -/
theorem empty_archive_rejected : ¬ArchiveRoundTrip lengthKey shiftCipher fileKeyEnv [] := by
  rintro ⟨hopen, -⟩
  obtain ⟨key', hkey', h⟩ := hopen 6 (by decide) ⟨List.replicate ivLength 0, List.length_replicate⟩ []
    ⟨fun bytes => [bytes], fun bytes => List.flatten_singleton⟩ rfl
  have hkey : getBackupDecryptionKey lengthKey fileKeyEnv = some 6 := by decide
  obtain rfl : 6 = key' := Option.some.inj (hkey.symm.trans hkey')
  exact absurd h (by decide)

end AlsaqiBackend.Backup
