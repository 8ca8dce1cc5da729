import AlsaqiBackend.Files.Rotation
import AlsaqiBackend.Lib.Run

/-!
# Streaming decryption

`createDecryptStream` sends the bytes of a file as they are deciphered, and the tag decides at the end
whether the stream completes. It was written apart from `decryptFile`: it knows the current key only,
compares no checksum, and demands the whole header. `agrees_iff` says of one file in one state when the
two agree all the same, and `agrees_along_iff` carries it to every state of a run of the service, in
which files are also damaged from outside.
-/

namespace AlsaqiBackend.Files

open Lib

variable {Key : Type} (A : Gcm Key)

/-- What a stream has delivered when it is over, and whether it has completed without an error. -/
structure Delivery where
  bytes : List UInt8
  complete : Bool

/-- `createDecryptStream`, with what its stream goes on to deliver. -/
def Service.createDecryptStream (s : Service Key) (fileId : FileId) :
    Except FileError (Delivery × EncryptionMetadata) :=
  match s.metadataStore.get fileId with
  | none => .error (.metadataNotFound fileId)
  | some metadata =>
    if metadata.isPlain then
      match s.disk.readFile fileId.name with
      | none => .ok (⟨[], false⟩, metadata)
      | some buffer => .ok (⟨buffer, true⟩, metadata)
    else
      match s.encryptionKey with
      | none => .error .keyNotSet
      | some key =>
        match s.disk.readFile fileId.encName with
        | none => .error (.io fileId.encName)
        | some fileData =>
          if fileData.length < headerLength then .error (.truncated fileId)
          else
            let (iv, authTag, ciphertext) := Aead.parts ivLength authTagLength fileData
            .ok (⟨A.decrypt key iv ciphertext, A.accepts key iv authTag ciphertext⟩, metadata)

/-- The stream of a file delivers these bytes and completes. -/
def Service.Streams (s : Service Key) (fileId : FileId) (b : List UInt8) : Prop :=
  (s.createDecryptStream A fileId).map Prod.fst = .ok ⟨b, true⟩

/-- The two ways to read a file agree: they return the same bytes, or both fail. -/
def Service.Agrees (s : Service Key) (fileId : FileId) : Prop :=
  ∀ b, s.Reads A fileId b ↔ s.Streams A fileId b

/-- What the two ways need to agree on an encrypted file that is there, under a key that is set. A file
without a whole header is not opened by `decryptFile`, either; and in one with a header, what the
current key opens has the recorded checksum, or neither key opens it to something with that checksum. -/
def Service.AgreesOnData (s : Service Key) (key : Key) (m : EncryptionMetadata)
    (data : List UInt8) : Prop :=
  if data.length < headerLength then
    ∀ b, A.unwrapWith (s.decryptionKeys key) data = some b → checksumOf b ≠ m.checksum
  else
    match A.unwrap key data with
    | some b => checksumOf b = m.checksum
    | none => ∀ b, A.unwrapWith s.previousEncryptionKey.toList data = some b →
        checksumOf b ≠ m.checksum

/-- Where the file is encrypted and there, and a key is set, its bytes and keys allow the two ways to
agree. -/
def Service.StreamsAlike (s : Service Key) (fileId : FileId) : Prop :=
  ∀ m key data, s.metadataStore.get fileId = some m → m.isPlain = false →
    s.encryptionKey = some key → s.disk.readFile fileId.encName = some data →
      s.AgreesOnData A key m data

variable {A} {s : Service Key} {fileId : FileId} {m : EncryptionMetadata}

/-- The stream of a file without metadata is not opened. -/
theorem not_streams_of_get_eq_none (hget : s.metadataStore.get fileId = none) (b : List UInt8) :
    ¬s.Streams A fileId b := by
  simp [Service.Streams, Service.createDecryptStream, hget, Except.map]

/-- Streaming a file that the metadata says is plain. -/
theorem streams_of_isPlain (hget : s.metadataStore.get fileId = some m) (hplain : m.isPlain = true)
    (b : List UInt8) : s.Streams A fileId b ↔ s.disk.readFile fileId.name = some b := by
  simp only [Service.Streams, Service.createDecryptStream, hget, hplain, if_true]
  cases s.disk.readFile fileId.name with
  | none => simp [Except.map]
  | some buffer => simp [Except.map]

/-- Streaming a file that the metadata says is encrypted. -/
theorem streams_of_encrypted (hget : s.metadataStore.get fileId = some m)
    (hplain : m.isPlain = false) (b : List UInt8) :
    s.Streams A fileId b ↔
      ∃ key, s.encryptionKey = some key ∧ ∃ data, s.disk.readFile fileId.encName = some data ∧
        headerLength ≤ data.length ∧ A.unwrap key data = some b := by
  simp only [Service.Streams, Service.createDecryptStream, hget, hplain, Bool.false_eq_true,
    if_false]
  cases s.encryptionKey with
  | none => simp [Except.map]
  | some key =>
    cases s.disk.readFile fileId.encName with
    | none => simp [Except.map]
    | some data =>
      simp only [Option.some.injEq, exists_eq_left']
      split_ifs with hlength
      · simp only [Except.map, reduceCtorEq, false_iff, not_and]
        omega
      · rw [Aead.unwrap]
        simp only [Except.map, Except.ok.injEq, Delivery.mk.injEq]
        rw [and_iff_right (not_lt.1 hlength)]
        split_ifs with haccepts
        · simp [haccepts]
        · simp [haccepts]

/-- The condition on an encrypted file, spelled out: what `decryptFile` makes of its bytes is what the
stream makes of them. -/
theorem agreesOnData_iff {key : Key} {data : List UInt8} :
    (∀ b, A.unwrapWith (s.decryptionKeys key) data = some b ∧ checksumOf b = m.checksum ↔
        headerLength ≤ data.length ∧ A.unwrap key data = some b) ↔
      s.AgreesOnData A key m data := by
  rw [Service.AgreesOnData]
  split_ifs with hlength
  · -- The stream of a file without a whole header is not opened.
    have hshort : ¬headerLength ≤ data.length := not_le.2 hlength
    refine forall_congr' fun b => ?_
    have hclosed : ¬(headerLength ≤ data.length ∧ A.unwrap key data = some b) := fun h => hshort h.1
    rw [iff_false_right hclosed, not_and]
  · have hlong : headerLength ≤ data.length := not_lt.1 hlength
    cases hopen : A.unwrap key data with
    | some p =>
      simp only [Service.decryptionKeys, Aead.unwrapWith_cons_of_some hopen, hlong, true_and,
        Option.some.injEq]
      constructor
      · intro hall
        exact ((hall p).2 rfl).2
      · rintro hsum b
        exact ⟨fun h => h.1, fun h => ⟨h, h ▸ hsum⟩⟩
    | none =>
      simp only [Service.decryptionKeys, Aead.unwrapWith_cons_of_none hopen, reduceCtorEq, and_false,
        iff_false, not_and]

/-- In a state, the two ways to read a file agree exactly when its bytes and the keys allow it. -/
theorem agrees_iff : s.Agrees A fileId ↔ s.StreamsAlike A fileId := by
  cases hget : s.metadataStore.get fileId with
  | none =>
    refine iff_of_true (fun b => ?_) fun m _ _ hm => absurd (hget.symm.trans hm) (by simp)
    exact iff_of_false (Service.not_reads_of_get_eq_none hget b) (not_streams_of_get_eq_none hget b)
  | some m =>
    by_cases hplain : m.isPlain = true
    · refine iff_of_true (fun b => ?_) fun m' _ _ hm hp => ?_
      · rw [Service.reads_of_isPlain hget hplain, streams_of_isPlain hget hplain]
      · obtain rfl := Option.some.inj (hget.symm.trans hm)
        exact absurd hplain (by simp [hp])
    · have hplain' := Bool.eq_false_iff.2 hplain
      have hreads := Service.reads_of_encrypted (A := A) hget hplain'
      have hstreams := streams_of_encrypted (A := A) hget hplain'
      constructor
      · intro hagrees m' key data hm _ hkey hdata
        obtain rfl := Option.some.inj (hget.symm.trans hm)
        refine agreesOnData_iff.1 fun b => ?_
        have h := hagrees b
        rw [hreads, hstreams, hkey, hdata] at h
        simpa using h
      · intro halike b
        rw [hreads, hstreams]
        refine exists_congr fun key => and_congr_right fun hkey => ?_
        refine exists_congr fun data => and_congr_right fun hdata => ?_
        exact agreesOnData_iff.2 (halike m key data hget hplain' hkey hdata) b

/-! ## Runs of the service -/

/-- What can happen to the service and its files: its operations, and a name of the directory that
comes to stand for something else. -/
inductive FileOp where
  | encryptFile (buffer : List UInt8) (input : EncryptFileInput) (iv : Block ivLength) (now : String)
  | rotateKey (fileId : FileId) (oldKey newKey : String) (newKeyVersion : ℤ) (newIv : Block ivLength)
      (now : String)
  | rotateEncryptionKey (oldKey newKey : String) (newIv : FileId → Block ivLength)
      (now : FileId → String)
  | reEncryptStoreToCurrentKey (newKeyVersion : ℤ) (newIv : FileId → Block ivLength)
      (now : FileId → String)
  | setPreviousEncryptionKey (rawKey : Option String)
  | clearPreviousEncryptionKey
  | setMetadata (fileId : FileId) (metadata : EncryptionMetadata)
  | damage (name : String) (stored : Stored)

/-- `setPreviousEncryptionKey`: an empty text clears the key, like `null`. -/
def Service.setPreviousEncryptionKey (deriveKey : String → Key) (s : Service Key)
    (rawKey : Option String) : Service Key :=
  { s with previousEncryptionKey := (rawKey.filter fun text => text ≠ "").map deriveKey }

/-- The service after an operation; one that throws may have done a part of its work. -/
def fileStep (A : Gcm Key) (deriveKey : String → Key) (s : Service Key) (op : FileOp) :
    Option (Service Key) :=
  match op with
  | .encryptFile buffer input iv now =>
    match s.encryptFile A buffer input iv now with
    | .ok (_, s') => some s'
    | .error _ => some s
  | .rotateKey f oldKey newKey v newIv now =>
    some (s.rotateKey A deriveKey f oldKey newKey v newIv now).1
  | .rotateEncryptionKey oldKey newKey newIv now =>
    some (s.rotateEncryptionKey A deriveKey oldKey newKey newIv now).1
  | .reEncryptStoreToCurrentKey v newIv now =>
    match s.reEncryptStoreToCurrentKey A v newIv now with
    | some (s', _, _) => some s'
    | none => some s
  | .setPreviousEncryptionKey rawKey => some (s.setPreviousEncryptionKey deriveKey rawKey)
  | .clearPreviousEncryptionKey => some { s with previousEncryptionKey := none }
  | .setMetadata f metadata => some { s with metadataStore := s.metadataStore.set f metadata }
  | .damage name stored =>
    some { s with disk := { s.disk with stored := Function.update s.disk.stored name stored } }

/-- In every state of a run, the two ways agree on every file exactly when, in every state of the run,
the bytes of every file and the keys allow it. -/
theorem agrees_along_iff (A : Gcm Key) (deriveKey : String → Key) (s : Service Key)
    (ops : List FileOp) :
    Along (fileStep A deriveKey) (fun t => ∀ fileId, t.Agrees A fileId) s ops ↔
      Along (fileStep A deriveKey) (fun t => ∀ fileId, t.StreamsAlike A fileId) s ops :=
  along_congr (fun _ => forall_congr' fun _ => agrees_iff) s ops

/-- A rotation of two files, of which one is done: the service holds the new key and the previous
one. -/
def halfRotation : List FileOp :=
  [.encryptFile [1] (versionOne fileA) zeroIv "now", .encryptFile [2] (versionOne fileB) zeroIv "now",
    .setPreviousEncryptionKey (some "o"), .rotateKey fileB "o" "nn" 2 zeroIv "later"]

/-- In the middle of a rotation, `decryptFile` reads a file under the previous key, and its stream
fails. -/
theorem halfRotation_disagrees :
    ¬∀ (s : Service UInt8) (ops : List FileOp),
      Along (fileStep shiftCipher lengthKey) (fun t => ∀ fileId, t.Agrees shiftCipher fileId) s ops := by
  intro hall
  have hrun := hall ⟨some 1, none, OrderedMap.empty, emptyDisk⟩ halfRotation
  have hagrees := (((hrun.2 _ rfl).2 _ rfl).2 _ rfl).2 _ rfl fileA
  generalize hs : (Service.rotateKey shiftCipher lengthKey _ fileB "o" "nn" 2 zeroIv "later").1 = s
    at hagrees
  have hget : s.metadataStore.get fileA =
      some (encryptedMetadata shiftCipher 1 [1] (versionOne fileA) zeroIv "now") := hs ▸ rfl
  have hkey : s.encryptionKey = some 2 := hs ▸ rfl
  have hprevious : s.previousEncryptionKey = some 1 := hs ▸ rfl
  have hdisk : s.disk.readFile fileA.encName = some (shiftCipher.wrap 1 zeroIv [1]) := hs ▸ rfl
  have hread : s.Reads shiftCipher fileA [1] := by
    rw [Service.reads_of_encrypted hget rfl]
    refine ⟨2, hkey, _, hdisk, ?_, rfl⟩
    rw [Service.decryptionKeys, hprevious]
    decide
  obtain ⟨k, hk, data, hdata, -, hopen⟩ := (streams_of_encrypted hget rfl [1]).1 ((hagrees [1]).1 hread)
  obtain rfl := Option.some.inj (hk.symm.trans hkey)
  obtain rfl := Option.some.inj (hdata.symm.trans hdisk)
  have hclosed : shiftCipher.unwrap 2 (shiftCipher.wrap 1 zeroIv [1]) = none := by decide
  exact absurd (hclosed.symm.trans hopen) (by simp)

end AlsaqiBackend.Files
