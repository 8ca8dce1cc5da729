import AlsaqiBackend.Files.Encryption

/-!
# Key rotation

`rotateKey` re-encrypts one file and `rotateEncryptionKey` every encrypted file in turn; both end with
the new key as the key of the service. `reEncryptStoreToCurrentKey` re-encrypts what is under the
previous key without a change of keys.

All three write files by `Service.reEncrypted`, so a rotation is a list of re-encryptions
(`Service.reEncryptAll`) followed by the choice of a key, and `reEncryptAll_preserves_iff` says which
files are still read as before after one. `rotate_preserves_iff` applies it to the two rotations:
`rotateKey` takes the key away from all the other files, and a `rotateEncryptionKey` that throws
leaves the files that it has already rotated under a key which the service does not hold.
-/

namespace AlsaqiBackend.Files

open Lib

variable {Key : Type} (A : Gcm Key)

/-! ## Operations -/

/-- One file to be written anew: its metadata, its content, and the key version that it gets. -/
structure ReEncryption where
  fileId : FileId
  metadata : EncryptionMetadata
  content : List UInt8
  keyVersion : ℤ

/-- The metadata of a file after it has been written anew. -/
def ReEncryption.updated (r : ReEncryption) (key : Key) (iv : Block ivLength) (now : String) :
    EncryptionMetadata :=
  { r.metadata with
    iv := base64 iv.1
    authTag := base64 (A.tag key iv r.content).1
    encryptedAt := now
    keyVersion := r.keyVersion }

/-- The service after a file has been written anew under a key. -/
def Service.reEncrypted (s : Service Key) (key : Key) (iv : Block ivLength) (now : String)
    (r : ReEncryption) : Service Key :=
  { s with
    disk := s.disk.put r.fileId.encName (A.wrap key iv r.content)
    metadataStore := s.metadataStore.set r.fileId (r.updated A key iv now) }

/-- `rotateKey`. -/
def Service.rotateKey (deriveKey : String → Key) (s : Service Key) (fileId : FileId)
    (oldKey newKey : String) (newKeyVersion : ℤ) (newIv : Block ivLength) (now : String) :
    Service Key × Except FileError EncryptionMetadata :=
  match s.metadataStore.get fileId with
  | none => (s, .error (.metadataNotFound fileId))
  | some metadata =>
    match s.disk.readFile fileId.encName with
    | none => (s, .error (.io fileId.encName))
    | some fileData =>
      match A.unwrap (deriveKey oldKey) fileData with
      | none => (s, .error (.cipher fileId))
      | some decrypted =>
        let r : ReEncryption := ⟨fileId, metadata, decrypted, newKeyVersion⟩
        if s.disk.writable fileId.encName then
          ({ s.reEncrypted A (deriveKey newKey) newIv now r with
              encryptionKey := some (deriveKey newKey) },
            .ok (r.updated A (deriveKey newKey) newIv now))
        else (s, .error (.io fileId.encName))

/-- The loop of `rotateEncryptionKey`: files stored unencrypted and files that are missing are
skipped, and the first one that cannot be read, decrypted or written ends it. -/
def rotateLoop (derivedOldKey derivedNewKey : Key) (newIv : FileId → Block ivLength)
    (now : FileId → String) :
    List (FileId × EncryptionMetadata) → Service Key → Service Key × Option FileError
  | [], s => (s, none)
  | (fileId, metadata) :: entries, s =>
    if metadata.isPlain then rotateLoop derivedOldKey derivedNewKey newIv now entries s
    else
      match s.disk.stored fileId.encName with
      | .absent => rotateLoop derivedOldKey derivedNewKey newIv now entries s
      | .unreadable => (s, some (.io fileId.encName))
      | .bytes fileData =>
        match A.unwrap derivedOldKey fileData with
        | none => (s, some (.cipher fileId))
        | some decrypted =>
          if s.disk.writable fileId.encName then
            rotateLoop derivedOldKey derivedNewKey newIv now entries
              (s.reEncrypted A derivedNewKey (newIv fileId) (now fileId)
                ⟨fileId, metadata, decrypted, metadata.keyVersion + 1⟩)
          else (s, some (.io fileId.encName))

/-- `rotateEncryptionKey`, with the texts of its buffers. -/
def Service.rotateEncryptionKey (deriveKey : String → Key) (s : Service Key)
    (oldKey newKey : String) (newIv : FileId → Block ivLength) (now : FileId → String) :
    Service Key × Option FileError :=
  match rotateLoop A (deriveKey oldKey) (deriveKey newKey) newIv now s.metadataStore.entries s with
  | (s', none) => ({ s' with encryptionKey := some (deriveKey newKey) }, none)
  | (s', some e) => (s', some e)

/-- The loop of `reEncryptStoreToCurrentKey`, with the files that have been migrated and those that
have failed. -/
def reEncryptLoop (key : Key) (newKeyVersion : ℤ) (newIv : FileId → Block ivLength)
    (now : FileId → String) :
    List (FileId × EncryptionMetadata) → Service Key → Service Key × List FileId × List FileId
  | [], s => (s, [], [])
  | (fileId, metadata) :: entries, s =>
    if metadata.isPlain || decide (newKeyVersion ≤ metadata.keyVersion) then
      reEncryptLoop key newKeyVersion newIv now entries s
    else
      match (s.disk.readFile fileId.encName).bind (A.unwrapWith (s.decryptionKeys key)) with
      | some decrypted =>
        if s.disk.writable fileId.encName then
          let (s', migrated, failed) := reEncryptLoop key newKeyVersion newIv now entries
            (s.reEncrypted A key (newIv fileId) (now fileId)
              ⟨fileId, metadata, decrypted, newKeyVersion⟩)
          (s', fileId :: migrated, failed)
        else
          let (s', migrated, failed) := reEncryptLoop key newKeyVersion newIv now entries s
          (s', migrated, fileId :: failed)
      | none =>
        let (s', migrated, failed) := reEncryptLoop key newKeyVersion newIv now entries s
        (s', migrated, fileId :: failed)

/-- `reEncryptStoreToCurrentKey`; `none` when it throws because one of the keys is not set. -/
def Service.reEncryptStoreToCurrentKey (s : Service Key) (newKeyVersion : ℤ)
    (newIv : FileId → Block ivLength) (now : FileId → String) :
    Option (Service Key × List FileId × List FileId) :=
  match s.encryptionKey, s.previousEncryptionKey with
  | some key, some _ =>
    some (reEncryptLoop A key newKeyVersion newIv now s.metadataStore.entries s)
  | _, _ => none

/-! ## Lists of re-encryptions -/

/-- The service after the re-encryptions of a list. -/
def Service.reEncryptAll (s : Service Key) (key : Key) (newIv : FileId → Block ivLength)
    (now : FileId → String) (rs : List ReEncryption) : Service Key :=
  rs.foldl (fun s r => s.reEncrypted A key (newIv r.fileId) (now r.fileId) r) s

variable {A} {s : Service Key} {key : Key} {newIv : FileId → Block ivLength} {now : FileId → String}
  {rs : List ReEncryption}

/-- Re-encryptions leave the previous key. -/
theorem previousEncryptionKey_reEncryptAll (s : Service Key) (rs : List ReEncryption) :
    (s.reEncryptAll A key newIv now rs).previousEncryptionKey = s.previousEncryptionKey := by
  induction rs generalizing s with
  | nil => rfl
  | cons r rs ih => exact ih _

theorem encryptionKey_reEncryptAll (s : Service Key) (rs : List ReEncryption) :
    (s.reEncryptAll A key newIv now rs).encryptionKey = s.encryptionKey := by
  induction rs generalizing s with
  | nil => rfl
  | cons r rs ih => exact ih _

/-- A file that is not on the list keeps its metadata. -/
theorem get_reEncryptAll_of_notMem {f : FileId} (s : Service Key) (rs : List ReEncryption)
    (h : ∀ r ∈ rs, r.fileId ≠ f) :
    (s.reEncryptAll A key newIv now rs).metadataStore.get f = s.metadataStore.get f := by
  induction rs generalizing s with
  | nil => rfl
  | cons r rs ih =>
    have hr : f ≠ r.fileId := (h r List.mem_cons_self).symm
    have hrest := ih (s.reEncrypted A key (newIv r.fileId) (now r.fileId) r)
      fun r' hr' => h r' (List.mem_cons_of_mem r hr')
    calc ((s.reEncryptAll A key newIv now (r :: rs)).metadataStore.get f)
        = (s.metadataStore.set r.fileId _).get f := hrest
      _ = s.metadataStore.get f := by rw [OrderedMap.get_set, if_neg hr]

/-- A name under which nothing is written keeps what it stands for. -/
theorem readFile_reEncryptAll_of_ne {name : String} (s : Service Key) (rs : List ReEncryption)
    (h : ∀ r ∈ rs, r.fileId.encName ≠ name) :
    (s.reEncryptAll A key newIv now rs).disk.readFile name = s.disk.readFile name := by
  induction rs generalizing s with
  | nil => rfl
  | cons r rs ih =>
    have hr : name ≠ r.fileId.encName := (h r List.mem_cons_self).symm
    have hrest := ih (s.reEncrypted A key (newIv r.fileId) (now r.fileId) r)
      fun r' hr' => h r' (List.mem_cons_of_mem r hr')
    exact hrest.trans (Disk.readFile_put_of_ne _ hr _)

/-- A file on the list has the metadata of its re-encryption. -/
theorem get_reEncryptAll_of_mem (s : Service Key) (hnodup : (rs.map ReEncryption.fileId).Nodup)
    {r : ReEncryption} (hr : r ∈ rs) :
    (s.reEncryptAll A key newIv now rs).metadataStore.get r.fileId =
      some (r.updated A key (newIv r.fileId) (now r.fileId)) := by
  induction rs generalizing s with
  | nil => exact absurd hr List.not_mem_nil
  | cons r' rs ih =>
    rw [List.map_cons, List.nodup_cons] at hnodup
    rcases List.mem_cons.1 hr with rfl | hmem
    · have hrest : ∀ r' ∈ rs, r'.fileId ≠ r.fileId := fun r' hr' heq =>
        hnodup.1 (heq ▸ List.mem_map_of_mem hr')
      show ((s.reEncrypted A key (newIv r.fileId) (now r.fileId) r).reEncryptAll A key newIv now
        rs).metadataStore.get r.fileId = _
      rw [get_reEncryptAll_of_notMem _ rs hrest, Service.reEncrypted, OrderedMap.get_set, if_pos rfl]
    · exact ih _ hnodup.2 hmem

/-- The encrypted name of a file on the list holds its content under the key. -/
theorem readFile_reEncryptAll_of_mem (s : Service Key)
    (hnodup : (rs.map ReEncryption.fileId).Nodup) {r : ReEncryption} (hr : r ∈ rs) :
    (s.reEncryptAll A key newIv now rs).disk.readFile r.fileId.encName =
      some (A.wrap key (newIv r.fileId) r.content) := by
  induction rs generalizing s with
  | nil => exact absurd hr List.not_mem_nil
  | cons r' rs ih =>
    rw [List.map_cons, List.nodup_cons] at hnodup
    rcases List.mem_cons.1 hr with rfl | hmem
    · have hrest : ∀ r' ∈ rs, r'.fileId.encName ≠ r.fileId.encName := fun r' hr' heq =>
        hnodup.1 (FileId.encName_inj.1 heq ▸ List.mem_map_of_mem hr')
      show ((s.reEncrypted A key (newIv r.fileId) (now r.fileId) r).reEncryptAll A key newIv now
        rs).disk.readFile r.fileId.encName = _
      rw [readFile_reEncryptAll_of_ne _ rs hrest]
      exact Disk.readFile_put_self _ _ _
    · exact ih _ hnodup.2 hmem

/-! ## What is read after re-encryptions -/

/-- The service with other keys to read with. -/
def Service.withKey (s : Service Key) (current : Option Key) : Service Key :=
  { s with encryptionKey := current }

/-- Every file that is read before is read after, with the same bytes. -/
def Service.KeepsReadable (A : Gcm Key) (s s' : Service Key) : Prop :=
  ∀ f b, s.Reads A f b → s'.Reads A f b

/-- The two vectors of zeros and of ones. -/
theorem exists_two_ivs : ∃ iv iv' : Block ivLength, iv ≠ iv' := by
  refine ⟨⟨List.replicate ivLength 0, List.length_replicate⟩,
    ⟨List.replicate ivLength 1, List.length_replicate⟩, fun h => ?_⟩
  exact absurd (congrArg Subtype.val h) (by decide)

/-- Whatever the vectors, a name holds the same bytes after the re-encryptions exactly when it held
them before and is no name that they write. -/
theorem forall_readFile_reEncryptAll (A : Gcm Key) (key : Key)
    (hnodup : (rs.map ReEncryption.fileId).Nodup) (name : String)
    (b : List UInt8) (now : FileId → String) :
    (∀ newIv, (s.reEncryptAll A key newIv now rs).disk.readFile name = some b) ↔
      s.disk.readFile name = some b ∧ ∀ r ∈ rs, r.fileId.encName ≠ name := by
  constructor
  · intro hall
    have hne : ∀ r ∈ rs, r.fileId.encName ≠ name := by
      rintro r hr rfl
      obtain ⟨iv, iv', hiv⟩ := exists_two_ivs
      -- Two vectors give the file two contents, and only one of them can be `b`.
      have h := (readFile_reEncryptAll_of_mem s hnodup hr).symm.trans (hall fun _ => iv)
      have h' := (readFile_reEncryptAll_of_mem s hnodup hr).symm.trans (hall fun _ => iv')
      exact Aead.wrap_ne hiv key key r.content r.content (Option.some.inj (h.trans h'.symm))
    obtain ⟨iv, -, -⟩ := exists_two_ivs
    rw [← hall fun _ => iv]
    exact ⟨(readFile_reEncryptAll_of_ne s rs hne).symm, hne⟩
  · rintro ⟨hread, hne⟩ newIv
    rw [readFile_reEncryptAll_of_ne s rs hne, hread]

/-- The updated metadata say that the file is plain when its key version is 0. -/
theorem isPlain_updated (r : ReEncryption) (key : Key) (iv : Block ivLength) (now : String) :
    (r.updated A key iv now).isPlain = true ↔ r.keyVersion = 0 := by
  show (decide (base64 iv.1 = "") || decide (r.keyVersion = 0)) = true ↔ _
  rw [Bool.or_eq_true, decide_eq_true_iff, decide_eq_true_iff]
  exact or_iff_right (base64_iv_ne_empty iv)

/-- A file on the list with the key version 0 is read afterwards from its plain name. -/
theorem reads_plain_of_mem (current : Option Key) (hnodup : (rs.map ReEncryption.fileId).Nodup)
    {r : ReEncryption} (hr : r ∈ rs) (hv : r.keyVersion = 0) (b : List UInt8) :
    ((s.reEncryptAll A key newIv now rs).withKey current).Reads A r.fileId b ↔
      (s.reEncryptAll A key newIv now rs).disk.readFile r.fileId.name = some b := by
  have hget : ((s.reEncryptAll A key newIv now rs).withKey current).metadataStore.get r.fileId = _ :=
    get_reEncryptAll_of_mem s hnodup hr
  rw [Service.reads_of_isPlain hget ((isPlain_updated r key _ _).2 hv)]
  rfl

/-- A plain file that is not on the list is read from its plain name, too. -/
theorem reads_plain_of_notMem (current : Option Key) {f : FileId} {m : EncryptionMetadata}
    (hget : s.metadataStore.get f = some m) (hplain : m.isPlain = true)
    (hf : ∀ r ∈ rs, r.fileId ≠ f) (b : List UInt8) :
    ((s.reEncryptAll A key newIv now rs).withKey current).Reads A f b ↔
      (s.reEncryptAll A key newIv now rs).disk.readFile f.name = some b := by
  have hget' : ((s.reEncryptAll A key newIv now rs).withKey current).metadataStore.get f = some m :=
    (get_reEncryptAll_of_notMem s rs hf).trans hget
  rw [Service.reads_of_isPlain hget' hplain]
  rfl

/-- A file on the list with a key version is read afterwards as the content that was encrypted, where
its checksum matches and the service holds the key. -/
theorem reads_of_mem (hA : A.Authenticating) [DecidableEq Key] (current : Option Key)
    (hnodup : (rs.map ReEncryption.fileId).Nodup) {r : ReEncryption} (hr : r ∈ rs)
    (hv : r.keyVersion ≠ 0) (b : List UInt8) :
    ((s.reEncryptAll A key newIv now rs).withKey current).Reads A r.fileId b ↔
      r.content = b ∧ checksumOf b = r.metadata.checksum ∧
        ∃ k, current = some k ∧ key ∈ s.decryptionKeys k := by
  have hget : (s.reEncryptAll A key newIv now rs).metadataStore.get r.fileId =
      some (r.updated A key (newIv r.fileId) (now r.fileId)) := get_reEncryptAll_of_mem s hnodup hr
  have hread : (s.reEncryptAll A key newIv now rs).disk.readFile r.fileId.encName =
      some (A.wrap key (newIv r.fileId) r.content) := readFile_reEncryptAll_of_mem s hnodup hr
  have hplain := Bool.eq_false_iff.2 fun h =>
    hv ((isPlain_updated (A := A) r key (newIv r.fileId) (now r.fileId)).1 h)
  generalize hs' : s.reEncryptAll A key newIv now rs = s' at hget hread ⊢
  have hkeys : ∀ k, (s'.withKey current).decryptionKeys k = s.decryptionKeys k := by
    intro k
    rw [Service.decryptionKeys, Service.decryptionKeys, Service.withKey, ← hs']
    exact congrArg (fun previous : Option Key => k :: previous.toList)
      (previousEncryptionKey_reEncryptAll s rs)
  have hiff := Service.reads_of_encrypted (A := A) (s := s'.withKey current) hget hplain b
  rw [hiff]
  constructor
  · rintro ⟨k, hk, data, hdata, hopen, hsum⟩
    rw [show (s'.withKey current).disk.readFile _ = _ from hread, Option.some.injEq] at hdata
    rw [← hdata, hkeys, Aead.unwrapWith_wrap hA] at hopen
    split_ifs at hopen with hmem
    exact ⟨Option.some.inj hopen, hsum, k, hk, hmem⟩
  · rintro ⟨hcontent, hsum, k, hk, hmem⟩
    refine ⟨k, hk, _, hread, ?_, hsum⟩
    rw [hkeys, Aead.unwrapWith_wrap hA, if_pos hmem, hcontent]

/-- An encrypted file that is not on the list is read with the keys that the service then holds. -/
theorem reads_of_notMem (current : Option Key) {f : FileId} {m : EncryptionMetadata}
    (hget : s.metadataStore.get f = some m) (hplain : m.isPlain = false)
    (hf : ∀ r ∈ rs, r.fileId ≠ f) (b : List UInt8) :
    ((s.reEncryptAll A key newIv now rs).withKey current).Reads A f b ↔
      (s.withKey current).Reads A f b := by
  have hget' : ((s.reEncryptAll A key newIv now rs).withKey current).metadataStore.get f = some m :=
    (get_reEncryptAll_of_notMem s rs hf).trans hget
  have hdisk : ((s.reEncryptAll A key newIv now rs).withKey current).disk.readFile f.encName =
      s.disk.readFile f.encName :=
    readFile_reEncryptAll_of_ne s rs fun r hr heq => hf r hr (FileId.encName_inj.1 heq)
  have hkeys : ∀ k, ((s.reEncryptAll A key newIv now rs).withKey current).decryptionKeys k =
      (s.withKey current).decryptionKeys k := fun k =>
    congrArg (fun previous : Option Key => k :: previous.toList)
      (previousEncryptionKey_reEncryptAll s rs)
  rw [Service.reads_of_encrypted hget' hplain, Service.reads_of_encrypted (s := s.withKey current)
    hget hplain, hdisk]
  simp only [hkeys]
  rfl

/-- What has to hold of a file on the list: with the key version 0 its plain name holds the bytes,
and nothing is written there; otherwise what is encrypted are the bytes, with their checksum, and
the service holds the new key. -/
def ReEncryption.Keeps (A : Gcm Key) (s : Service Key) (key : Key) (current : Option Key)
    (rs : List ReEncryption) (r : ReEncryption) : Prop :=
  ∀ b, s.Reads A r.fileId b →
    if r.keyVersion = 0 then
      s.disk.readFile r.fileId.name = some b ∧ ∀ r' ∈ rs, r'.fileId.encName ≠ r.fileId.name
    else
      r.content = b ∧ checksumOf b = r.metadata.checksum ∧
        ∃ k, current = some k ∧ key ∈ s.decryptionKeys k

/-- What has to hold of another file: nothing is written under the name of a plain one, and an
encrypted one is read with the keys that the service then holds. -/
def KeepsOther (A : Gcm Key) (s : Service Key) (current : Option Key) (rs : List ReEncryption)
    (f : FileId) (m : EncryptionMetadata) : Prop :=
  ∀ b, s.Reads A f b →
    if m.isPlain then ∀ r ∈ rs, r.fileId.encName ≠ f.name else (s.withKey current).Reads A f b

/-- Whatever the vectors, every file is read after the re-encryptions as before exactly when each
file on the list and each other file meets its condition. -/
theorem reEncryptAll_preserves_iff (hA : A.Authenticating) [DecidableEq Key] (current : Option Key)
    (hnodup : (rs.map ReEncryption.fileId).Nodup) (now : FileId → String) :
    (∀ newIv, s.KeepsReadable A ((s.reEncryptAll A key newIv now rs).withKey current)) ↔
      (∀ r ∈ rs, r.Keeps A s key current rs) ∧
        ∀ f m, s.metadataStore.get f = some m → (∀ r ∈ rs, r.fileId ≠ f) →
          KeepsOther A s current rs f m := by
  constructor
  · intro hall
    constructor
    · intro r hr b hb
      by_cases hv : r.keyVersion = 0
      · rw [if_pos hv, ← forall_readFile_reEncryptAll A key hnodup _ _ now]
        intro newIv
        exact (reads_plain_of_mem current hnodup hr hv b).1 (hall newIv _ b hb)
      · rw [if_neg hv]
        obtain ⟨iv, -, -⟩ := exists_two_ivs
        exact (reads_of_mem hA current hnodup hr hv b).1 (hall (fun _ => iv) _ b hb)
    · intro f m hget hf b hb
      by_cases hplain : m.isPlain = true
      · rw [if_pos hplain]
        have hread newIv := (reads_plain_of_notMem current hget hplain hf b).1 (hall newIv f b hb)
        exact ((forall_readFile_reEncryptAll A key hnodup _ b now).1 hread).2
      · rw [if_neg hplain]
        obtain ⟨iv, -, -⟩ := exists_two_ivs
        exact (reads_of_notMem current hget (Bool.eq_false_iff.2 hplain) hf b).1
          (hall (fun _ => iv) f b hb)
  · rintro ⟨hlist, hother⟩ newIv f b hb
    by_cases hf : ∃ r ∈ rs, r.fileId = f
    · obtain ⟨r, hr, rfl⟩ := hf
      have hkeep := hlist r hr b hb
      by_cases hv : r.keyVersion = 0
      · rw [if_pos hv, ← forall_readFile_reEncryptAll A key hnodup _ _ now] at hkeep
        exact (reads_plain_of_mem current hnodup hr hv b).2 (hkeep newIv)
      · rw [if_neg hv] at hkeep
        exact (reads_of_mem hA current hnodup hr hv b).2 hkeep
    · have hf' : ∀ r ∈ rs, r.fileId ≠ f := fun r hr heq => hf ⟨r, hr, heq⟩
      cases hget : s.metadataStore.get f with
      | none => exact absurd hb (Service.not_reads_of_get_eq_none hget b)
      | some m =>
        have hkeep := hother f m hget hf' b hb
        by_cases hplain : m.isPlain = true
        · rw [if_pos hplain] at hkeep
          rw [Service.reads_of_isPlain hget hplain] at hb
          exact (reads_plain_of_notMem current hget hplain hf' b).2
            ((readFile_reEncryptAll_of_ne s rs hkeep).trans hb)
        · rw [if_neg hplain] at hkeep
          exact (reads_of_notMem current hget (Bool.eq_false_iff.2 hplain) hf' b).2 hkeep

/-! ## The two rotations -/

/-- The re-encryption of a file that can be read, decrypted with the old key, and written. -/
def Service.rotation (A : Gcm Key) (s : Service Key) (oldKey : Key) (f : FileId)
    (m : EncryptionMetadata) (keyVersion : ℤ) : Option ReEncryption :=
  ((s.disk.readFile f.encName).bind (A.unwrap oldKey)).bind fun decrypted =>
    if s.disk.writable f.encName then some ⟨f, m, decrypted, keyVersion⟩ else none

/-- The re-encryptions of a `rotateEncryptionKey` over some entries, and whether it gets to their
end. -/
def Service.rotations (A : Gcm Key) (s : Service Key) (oldKey : Key) :
    List (FileId × EncryptionMetadata) → List ReEncryption × Bool
  | [] => ([], true)
  | (f, m) :: entries =>
    if m.isPlain = true ∨ s.disk.stored f.encName = .absent then s.rotations A oldKey entries
    else
      match s.rotation A oldKey f m (m.keyVersion + 1) with
      | none => ([], false)
      | some r => (r :: (s.rotations A oldKey entries).1, (s.rotations A oldKey entries).2)

/-- The fields of a re-encryption are those of its file. -/
theorem rotation_eq_some {oldKey : Key} {f : FileId} {m : EncryptionMetadata} {v : ℤ}
    {r : ReEncryption} (h : s.rotation A oldKey f m v = some r) :
    r.fileId = f ∧ r.metadata = m ∧ r.keyVersion = v := by
  obtain ⟨decrypted, -, hr⟩ := Option.bind_eq_some_iff.1 h
  split_ifs at hr with hwritable
  obtain rfl := Option.some.inj hr
  exact ⟨rfl, rfl, rfl⟩

/-- A write under another name leaves the re-encryptions of the files. -/
theorem rotations_reEncrypted {oldKey : Key} {r : ReEncryption} {iv : Block ivLength} {time : String}
    (entries : List (FileId × EncryptionMetadata)) (h : ∀ e ∈ entries, e.1 ≠ r.fileId) :
    (s.reEncrypted A key iv time r).rotations A oldKey entries = s.rotations A oldKey entries := by
  induction entries with
  | nil => rfl
  | cons e entries ih =>
    obtain ⟨f, m⟩ := e
    have hname : f.encName ≠ r.fileId.encName := fun heq =>
      h (f, m) List.mem_cons_self (FileId.encName_inj.1 heq)
    have hstored : (s.reEncrypted A key iv time r).disk.stored f.encName =
        s.disk.stored f.encName := Disk.stored_put_of_ne _ hname _
    have hrotation : (s.reEncrypted A key iv time r).rotation A oldKey f m (m.keyVersion + 1) =
        s.rotation A oldKey f m (m.keyVersion + 1) := by
      rw [Service.rotation, Service.rotation, Disk.readFile, Disk.readFile, hstored]
      rfl
    have hrest := ih fun e he => h e (List.mem_cons_of_mem _ he)
    rw [Service.rotations, Service.rotations, hstored, hrotation, hrest]

/-- The loop of `rotateEncryptionKey` performs its re-encryptions, and ends without an error when it
gets to the end of the entries. -/
theorem rotateLoop_eq (oldKey key : Key) (newIv : FileId → Block ivLength) (now : FileId → String)
    (entries : List (FileId × EncryptionMetadata)) (hnodup : (entries.map Prod.fst).Nodup) (s : Service Key) :
    (rotateLoop A oldKey key newIv now entries s).1 =
        s.reEncryptAll A key newIv now (s.rotations A oldKey entries).1 ∧
      ((rotateLoop A oldKey key newIv now entries s).2 = none ↔
        (s.rotations A oldKey entries).2 = true) := by
  induction entries generalizing s with
  | nil => exact ⟨rfl, by simp [rotateLoop, Service.rotations]⟩
  | cons e entries ih =>
    obtain ⟨f, m⟩ := e
    rw [List.map_cons, List.nodup_cons] at hnodup
    rw [rotateLoop, Service.rotations]
    by_cases hplain : m.isPlain = true
    · rw [if_pos hplain, if_pos (Or.inl hplain)]
      exact ih hnodup.2 s
    · rw [if_neg hplain]
      cases hstored : s.disk.stored f.encName with
      | absent =>
        rw [if_pos (Or.inr rfl)]
        exact ih hnodup.2 s
      | unreadable =>
        have hnone : s.rotation A oldKey f m (m.keyVersion + 1) = none := by
          simp [Service.rotation, Disk.readFile, hstored]
        rw [if_neg (by simp [hplain]), hnone]
        exact ⟨rfl, by simp⟩
      | bytes data =>
        have hread : s.disk.readFile f.encName = some data := by rw [Disk.readFile, hstored]
        have hrotation : s.rotation A oldKey f m (m.keyVersion + 1) =
            (A.unwrap oldKey data).bind fun decrypted =>
              if s.disk.writable f.encName then some ⟨f, m, decrypted, m.keyVersion + 1⟩
              else none := by
          rw [Service.rotation, hread, Option.bind_some]
        rw [if_neg (by simp [hplain]), hrotation]
        cases hopen : A.unwrap oldKey data with
        | none => simp [hopen, Service.reEncryptAll]
        | some decrypted =>
          by_cases hwritable : s.disk.writable f.encName = true
          · simp only [hopen, hwritable, if_true, Option.bind_some]
            have hothers : ∀ e ∈ entries, e.1 ≠ f := fun e he heq =>
              hnodup.1 (List.mem_map.2 ⟨e, he, heq⟩)
            have hrest := ih hnodup.2 (s.reEncrypted A key (newIv f) (now f)
              ⟨f, m, decrypted, m.keyVersion + 1⟩)
            rw [rotations_reEncrypted entries hothers] at hrest
            exact hrest
          · simp [hopen, hwritable, Service.reEncryptAll]

/-- The re-encryptions are of encrypted entries, in their order. -/
theorem rotations_sublist (oldKey : Key) (entries : List (FileId × EncryptionMetadata)) :
    ((s.rotations A oldKey entries).1.map ReEncryption.fileId).Sublist (entries.map Prod.fst) := by
  induction entries with
  | nil => exact List.Sublist.refl _
  | cons e entries ih =>
    obtain ⟨f, m⟩ := e
    rw [Service.rotations]
    split_ifs with hskip
    · exact ih.cons _
    · cases hr : s.rotation A oldKey f m (m.keyVersion + 1) with
      | none => simp
      | some r =>
        rw [List.map_cons, List.map_cons, (rotation_eq_some hr).1]
        exact ih.cons_cons _

theorem mem_rotations {oldKey : Key} {entries : List (FileId × EncryptionMetadata)}
    {r : ReEncryption} (h : r ∈ (s.rotations A oldKey entries).1) :
    (r.fileId, r.metadata) ∈ entries ∧ r.metadata.isPlain = false ∧
      r.keyVersion = r.metadata.keyVersion + 1 := by
  induction entries with
  | nil => exact absurd h List.not_mem_nil
  | cons e entries ih =>
    obtain ⟨f, m⟩ := e
    rw [Service.rotations] at h
    split_ifs at h with hskip
    · exact ⟨List.mem_cons_of_mem _ (ih h).1, (ih h).2⟩
    · cases hr : s.rotation A oldKey f m (m.keyVersion + 1) with
      | none =>
        rw [hr] at h
        exact absurd h List.not_mem_nil
      | some r' =>
        rw [hr] at h
        rcases List.mem_cons.1 h with rfl | hmem
        · obtain ⟨hf, hm, hv⟩ := rotation_eq_some hr
          rw [hf, hm, hv]
          exact ⟨List.mem_cons_self, Bool.eq_false_iff.2 fun hp => hskip (Or.inl hp), rfl⟩
        · exact ⟨List.mem_cons_of_mem _ (ih hmem).1, (ih hmem).2⟩

/-- A loop that gets to the end re-encrypts every encrypted file that is there. -/
theorem rotations_complete {oldKey : Key} {entries : List (FileId × EncryptionMetadata)}
    (hend : (s.rotations A oldKey entries).2 = true) {f : FileId} {m : EncryptionMetadata}
    (hmem : (f, m) ∈ entries) (hplain : m.isPlain = false) :
    s.disk.stored f.encName = .absent ∨ ∃ r ∈ (s.rotations A oldKey entries).1, r.fileId = f := by
  induction entries with
  | nil => exact absurd hmem List.not_mem_nil
  | cons e entries ih =>
    obtain ⟨g, mg⟩ := e
    rw [Service.rotations] at hend ⊢
    split_ifs at hend ⊢ with hskip
    · rcases List.mem_cons.1 hmem with heq | hrest
      · obtain ⟨rfl, rfl⟩ := Prod.mk.inj heq
        exact Or.inl (hskip.resolve_left (by simp [hplain]))
      · exact ih hend hrest
    · cases hr : s.rotation A oldKey g mg (mg.keyVersion + 1) with
      | none =>
        rw [hr] at hend
        exact absurd hend (by simp)
      | some r =>
        rw [hr] at hend
        rcases List.mem_cons.1 hmem with heq | hrest
        · obtain ⟨rfl, rfl⟩ := Prod.mk.inj heq
          exact Or.inr ⟨r, List.mem_cons_self, (rotation_eq_some hr).1⟩
        · refine (ih hend hrest).imp id ?_
          rintro ⟨r', hr', hf⟩
          exact ⟨r', List.mem_cons_of_mem _ hr', hf⟩

/-- A call of one of the two rotations. -/
inductive RotationCall where
  | rotateKey (fileId : FileId) (oldKey newKey : String) (newKeyVersion : ℤ)
  | rotateEncryptionKey (oldKey newKey : String)

/-- The service after a call; a `rotateKey` that throws leaves it. -/
def Service.rotate (A : Gcm Key) (deriveKey : String → Key) (s : Service Key) (call : RotationCall)
    (newIv : FileId → Block ivLength) (now : FileId → String) : Service Key :=
  match call with
  | .rotateKey fileId oldKey newKey newKeyVersion =>
    (s.rotateKey A deriveKey fileId oldKey newKey newKeyVersion (newIv fileId) (now fileId)).1
  | .rotateEncryptionKey oldKey newKey =>
    (s.rotateEncryptionKey A deriveKey oldKey newKey newIv now).1

/-- The encrypted name of a file holds what these keys open to the bytes. -/
def Service.OpensWith (A : Gcm Key) (s : Service Key) (keys : List Key) (f : FileId)
    (b : List UInt8) : Prop :=
  ∃ data, s.disk.readFile f.encName = some data ∧ A.unwrapWith keys data = some b

/-- When a call keeps what is read. For `rotateKey`, where it gets to its file: that file keeps its
bytes under the new key, or under its plain name with the version 0, nothing is written under the name
of a plain file, and every other encrypted file opens to its bytes with the new key or, where that
one does not open it, the previous one. For `rotateEncryptionKey`: each file that it re-encrypts
keeps its bytes under the new key, and then it gets to the end or the service holds that key, or it
gets the version 0 and has its bytes under its plain name; and nothing is written under the name of a
plain file. -/
def RotationCall.Keeps (A : Gcm Key) (deriveKey : String → Key) (s : Service Key) :
    RotationCall → Prop
  | .rotateKey f oldKey newKey v =>
    ∀ m r, s.metadataStore.get f = some m → s.rotation A (deriveKey oldKey) f m v = some r →
      (∀ b, s.Reads A f b →
        if v = 0 then s.disk.readFile f.name = some b
        else r.content = b ∧ checksumOf b = m.checksum) ∧
      ∀ g mg b, s.metadataStore.get g = some mg → g ≠ f → s.Reads A g b →
        if mg.isPlain then f.encName ≠ g.name
        else s.OpensWith A (s.decryptionKeys (deriveKey newKey)) g b
  | .rotateEncryptionKey oldKey newKey =>
    let (rs, complete) := s.rotations A (deriveKey oldKey) s.metadataStore.entries
    (∀ r ∈ rs, ∀ b, s.Reads A r.fileId b →
      if r.keyVersion = 0 then
        s.disk.readFile r.fileId.name = some b ∧ ∀ r' ∈ rs, r'.fileId.encName ≠ r.fileId.name
      else
        r.content = b ∧ (complete = true ∨
          ∃ k, s.encryptionKey = some k ∧ deriveKey newKey ∈ s.decryptionKeys k)) ∧
    ∀ g mg b, s.metadataStore.get g = some mg → mg.isPlain = true → s.Reads A g b →
      ∀ r ∈ rs, r.fileId.encName ≠ g.name

/-- A service that has its key as its current one is itself. -/
theorem withKey_encryptionKey (s : Service Key) : s.withKey s.encryptionKey = s := rfl

/-- `rotateKey` performs its re-encryption and takes the new key, or changes nothing. -/
theorem rotateKey_eq (deriveKey : String → Key) (s : Service Key) (f : FileId)
    (oldKey newKey : String) (v : ℤ) (newIv : FileId → Block ivLength) (now : FileId → String) :
    (s.rotateKey A deriveKey f oldKey newKey v (newIv f) (now f)).1 =
      match (s.metadataStore.get f).bind fun m => s.rotation A (deriveKey oldKey) f m v with
      | none => s
      | some r => (s.reEncryptAll A (deriveKey newKey) newIv now [r]).withKey
          (some (deriveKey newKey)) := by
  rw [Service.rotateKey]
  cases s.metadataStore.get f with
  | none => rfl
  | some m =>
    simp only [Option.bind_some, Service.rotation]
    cases s.disk.readFile f.encName with
    | none => rfl
    | some data =>
      simp only [Option.bind_some]
      cases A.unwrap (deriveKey oldKey) data with
      | none => rfl
      | some decrypted =>
        simp only [Option.bind_some]
        split_ifs with hwritable
        · rfl
        · rfl

/-- `rotateEncryptionKey` performs its re-encryptions, and takes the new key when it gets to the
end. -/
theorem rotateEncryptionKey_eq (deriveKey : String → Key) (s : Service Key)
    (oldKey newKey : String) (newIv : FileId → Block ivLength) (now : FileId → String) :
    (s.rotateEncryptionKey A deriveKey oldKey newKey newIv now).1 =
      (s.reEncryptAll A (deriveKey newKey) newIv now
          (s.rotations A (deriveKey oldKey) s.metadataStore.entries).1).withKey
        (if (s.rotations A (deriveKey oldKey) s.metadataStore.entries).2 = true then
          some (deriveKey newKey) else s.encryptionKey) := by
  obtain ⟨hstate, herror⟩ := rotateLoop_eq (A := A) (deriveKey oldKey) (deriveKey newKey) newIv now
    s.metadataStore.entries s.metadataStore.nodup s
  rw [Service.rotateEncryptionKey]
  generalize rotateLoop A (deriveKey oldKey) (deriveKey newKey) newIv now s.metadataStore.entries s =
    result at hstate herror
  obtain ⟨s', error⟩ := result
  simp only at hstate herror
  rw [← hstate]
  cases error with
  | none =>
    rw [if_pos (herror.1 rfl)]
    rfl
  | some e =>
    have hkey : s'.encryptionKey = s.encryptionKey := by
      rw [hstate, encryptionKey_reEncryptAll]
    rw [if_neg fun h => absurd (herror.2 h) (by simp), ← hkey]
    rfl

/-- An encrypted file is read under a current key when that one or the previous one opens it, with
the checksum that it had. -/
theorem reads_withKey_iff {f : FileId} {m : EncryptionMetadata} {b : List UInt8}
    (hget : s.metadataStore.get f = some m) (hplain : m.isPlain = false) (hread : s.Reads A f b)
    (k : Key) : (s.withKey (some k)).Reads A f b ↔ s.OpensWith A (s.decryptionKeys k) f b := by
  obtain ⟨-, -, -, -, -, hsum⟩ := (Service.reads_of_encrypted hget hplain b).1 hread
  rw [Service.reads_of_encrypted (s := s.withKey (some k)) hget hplain]
  constructor
  · rintro ⟨k', hk', data, hdata, hopen, -⟩
    obtain rfl := Option.some.inj hk'
    exact ⟨data, hdata, hopen⟩
  · rintro ⟨data, hdata, hopen⟩
    exact ⟨k, rfl, data, hdata, hopen, hsum⟩

/-- The condition on the file of a `rotateKey`. -/
theorem keeps_singleton_iff {r : ReEncryption} {newKey : Key} :
    r.Keeps A s newKey (some newKey) [r] ↔
      ∀ b, s.Reads A r.fileId b →
        if r.keyVersion = 0 then s.disk.readFile r.fileId.name = some b
        else r.content = b ∧ checksumOf b = r.metadata.checksum := by
  refine forall₂_congr fun b _ => ?_
  have hname : ∀ r' ∈ [r], r'.fileId.encName ≠ r.fileId.name := by
    intro r' hr'
    rw [List.mem_singleton.1 hr']
    exact r.fileId.encName_ne_name
  have hkey : ∃ k, some newKey = some k ∧ newKey ∈ s.decryptionKeys k :=
    ⟨newKey, rfl, List.mem_cons_self⟩
  split_ifs with hv
  · exact and_iff_left hname
  · rw [and_iff_left hkey]

/-- The condition on another file, under a new key. -/
theorem keepsOther_iff {newKey : Key} {f : FileId} {m : EncryptionMetadata}
    (hget : s.metadataStore.get f = some m) :
    KeepsOther A s (some newKey) rs f m ↔
      ∀ b, s.Reads A f b →
        if m.isPlain then ∀ r ∈ rs, r.fileId.encName ≠ f.name
        else s.OpensWith A (s.decryptionKeys newKey) f b := by
  refine forall₂_congr fun b hb => ?_
  split_ifs with hplain
  · rfl
  · exact reads_withKey_iff hget (Bool.eq_false_iff.2 hplain) hb newKey

/-- The condition of `rotateKey`. -/
theorem rotateKey_preserves_iff [DecidableEq Key] (hA : A.Authenticating)
    (deriveKey : String → Key) (s : Service Key) (f : FileId) (oldKey newKey : String) (v : ℤ)
    (now : FileId → String) :
    (∀ newIv, s.KeepsReadable A (s.rotate A deriveKey (.rotateKey f oldKey newKey v) newIv now)) ↔
      (RotationCall.rotateKey f oldKey newKey v).Keeps A deriveKey s := by
  simp only [Service.rotate, rotateKey_eq, RotationCall.Keeps]
  cases hr : (s.metadataStore.get f).bind fun m => s.rotation A (deriveKey oldKey) f m v with
  | none =>
    refine iff_of_true (fun _ _ _ hb => hb) fun m r hm hrotation => ?_
    rw [hm, Option.bind_some, hrotation] at hr
    exact absurd hr (by simp)
  | some r =>
    obtain ⟨m, hget, hrotation⟩ := Option.bind_eq_some_iff.1 hr
    obtain ⟨rfl, rfl, rfl⟩ := rotation_eq_some hrotation
    have hnodup : ([r].map ReEncryption.fileId).Nodup := List.nodup_singleton _
    rw [reEncryptAll_preserves_iff hA _ hnodup now]
    simp only [List.forall_mem_singleton, keeps_singleton_iff]
    constructor
    · rintro ⟨hfile, hother⟩ m r' hm hr'
      obtain rfl := Option.some.inj (hget.symm.trans hm)
      obtain rfl := Option.some.inj (hrotation.symm.trans hr')
      refine ⟨hfile, fun g mg b hg hne hb => ?_⟩
      simpa using (keepsOther_iff hg).1 (hother g mg hg (Ne.symm hne)) b hb
    · intro hkeeps
      obtain ⟨hfile, hother⟩ := hkeeps r.metadata r hget hrotation
      refine ⟨hfile, fun g mg hg hne => (keepsOther_iff hg).2 fun b hb => ?_⟩
      simpa using hother g mg b hg (Ne.symm hne) hb

/-- The condition of `rotateEncryptionKey`. -/
theorem rotateEncryptionKey_preserves_iff [DecidableEq Key] (hA : A.Authenticating)
    (deriveKey : String → Key) (s : Service Key) (oldKey newKey : String)
    (now : FileId → String) :
    (∀ newIv, s.KeepsReadable A
        (s.rotate A deriveKey (.rotateEncryptionKey oldKey newKey) newIv now)) ↔
      (RotationCall.rotateEncryptionKey oldKey newKey).Keeps A deriveKey s := by
  simp only [Service.rotate, rotateEncryptionKey_eq, RotationCall.Keeps]
  have hnodup := s.metadataStore.nodup.sublist
    (rotations_sublist (A := A) (s := s) (deriveKey oldKey) s.metadataStore.entries)
  rw [reEncryptAll_preserves_iff hA _ hnodup now]
  have hmem := @mem_rotations _ A s (deriveKey oldKey) s.metadataStore.entries
  have hall := @rotations_complete _ A s (deriveKey oldKey) s.metadataStore.entries
  generalize s.rotations A (deriveKey oldKey) s.metadataStore.entries = result at hmem hall ⊢
  obtain ⟨rs, complete⟩ := result
  simp only at hmem hall ⊢
  refine and_congr (forall₂_congr fun r hr => ?_) ?_
  · -- The checksum of a file that is read matches already.
    refine forall₂_congr fun b hb => ?_
    obtain ⟨hentry, hplain, -⟩ := hmem hr
    have hget := (OrderedMap.get_eq_some _ _ _).2 hentry
    obtain ⟨k, hk, -, -, -, hsum⟩ := (Service.reads_of_encrypted hget hplain b).1 hb
    split_ifs with hv hcomplete
    · rfl
    · simp [hsum, hcomplete, Service.decryptionKeys]
    · simp [hsum, hcomplete]
  · constructor
    · intro hother g mg b hg hplain hb r hr heq
      by_cases hg' : ∃ r' ∈ rs, r'.fileId = g
      · obtain ⟨r', hr', rfl⟩ := hg'
        have hmeta := (OrderedMap.get_eq_some _ _ _).2 (hmem hr').1
        rw [hg, Option.some.injEq] at hmeta
        rw [hmeta, (hmem hr').2.1] at hplain
        exact absurd hplain (by simp)
      · have hkeep := hother g mg hg (fun r' hr' h => hg' ⟨r', hr', h⟩) b hb
        rw [if_pos hplain] at hkeep
        exact hkeep r hr heq
    · intro hother g mg hg hne b hb
      by_cases hplain : mg.isPlain = true
      · rw [if_pos hplain]
        exact hother g mg b hg hplain hb
      · rw [if_neg hplain]
        have hplain' := Bool.eq_false_iff.2 hplain
        by_cases hcomplete : complete = true
        · -- An encrypted file that a complete rotation leaves out is missing.
          rcases hall hcomplete ((OrderedMap.get_eq_some _ _ _).1 hg) hplain' with habsent | hin
          · obtain ⟨-, -, data, hdata, -⟩ := (Service.reads_of_encrypted hg hplain' b).1 hb
            rw [Disk.readFile, habsent] at hdata
            exact absurd hdata (by simp)
          · obtain ⟨r, hr, hf⟩ := hin
            exact absurd hf (hne r hr)
        · rw [if_neg hcomplete, withKey_encryptionKey]
          exact hb

/-- Whatever the random vectors, a rotation leaves every file of the store as readable as before, with
the same bytes, exactly when it meets the condition of its kind. -/
theorem rotate_preserves_iff [DecidableEq Key] (A : Gcm Key) (hA : A.Authenticating)
    (deriveKey : String → Key) (s : Service Key) (call : RotationCall) (now : FileId → String) :
    (∀ newIv, s.KeepsReadable A (s.rotate A deriveKey call newIv now)) ↔
      call.Keeps A deriveKey s := by
  cases call with
  | rotateKey f oldKey newKey v => exact rotateKey_preserves_iff hA deriveKey s f oldKey newKey v now
  | rotateEncryptionKey oldKey newKey =>
    exact rotateEncryptionKey_preserves_iff hA deriveKey s oldKey newKey now

/-! ## A store under one key -/

/-- Keys from the lengths of their texts. -/
def lengthKey (text : String) : UInt8 := UInt8.ofNat text.length

/-- A second file. -/
def fileB : FileId := ⟨"b", by decide⟩

/-- The input of a file with the key version 1. -/
def versionOne (f : FileId) : EncryptFileInput := ⟨f, f.name, "text/plain", 1, 1⟩

/-- A file is encrypted under the key 1. -/
def Service.withFile (s : Service UInt8) (f : FileId) (b : List UInt8) : Service UInt8 :=
  { s with
    disk := s.disk.put f.encName (shiftCipher.wrap 1 zeroIv b)
    metadataStore := s.metadataStore.set f
      (encryptedMetadata shiftCipher 1 b (versionOne f) zeroIv "now") }

/-- A service with the key 1 and one file. -/
def oneFile : Service UInt8 :=
  (⟨some 1, none, OrderedMap.empty, emptyDisk⟩ : Service UInt8).withFile fileA [1]

/-- A service with the key 1 and two files. -/
def twoFiles : Service UInt8 := oneFile.withFile fileB [2]

/-- The file just added is read. -/
theorem reads_withFile {s : Service UInt8} (hkey : s.encryptionKey = some 1) (f : FileId)
    (b : List UInt8) : (s.withFile f b).Reads shiftCipher f b := by
  have hget : (s.withFile f b).metadataStore.get f = some _ := (OrderedMap.get_set _ _ _ _).trans
    (if_pos rfl)
  have hopen : shiftCipher.unwrapWith ((s.withFile f b).decryptionKeys 1)
      (shiftCipher.wrap 1 zeroIv b) = some b :=
    Aead.unwrapWith_cons_of_some (Aead.unwrap_wrap 1 zeroIv b) _
  rw [Service.reads_of_encrypted hget rfl]
  exact ⟨1, hkey, _, Disk.readFile_put_self _ _ _, hopen, rfl⟩

/-- The only file of a store is rotated to another key and stays readable. -/
theorem rotate_preserves_oneFile : oneFile.KeepsReadable shiftCipher
    (oneFile.rotate shiftCipher lengthKey (.rotateKey fileA "o" "nn" 2) (fun _ => zeroIv) fun _ => "later") := by
  refine (rotate_preserves_iff shiftCipher shiftCipher_authenticating lengthKey oneFile _ _).2 ?_
    fun _ => zeroIv
  intro m r hm hr
  obtain rfl := Option.some.inj (hm.symm.trans rfl)
  obtain rfl := Option.some.inj (hr.symm.trans rfl)
  refine ⟨fun b hb => ?_, fun g mg b hg hne => ?_⟩
  · obtain rfl := hb.unique (reads_withFile rfl fileA [1])
    exact ⟨by decide, rfl⟩
  · have hnone : oneFile.metadataStore.get g = none := by
      rw [oneFile, Service.withFile, OrderedMap.get_set, if_neg hne]
      rfl
    exact absurd (hnone.symm.trans hg) (by simp)

/-- The rotation of one file of a readable store makes the other one unreadable: the service holds
the new key only. -/
theorem rotateKey_loses_other_files :
    ¬∀ (s : Service UInt8) (call : RotationCall) (newIv : FileId → Block ivLength)
      (now : FileId → String),
      (∀ f m, s.metadataStore.get f = some m → ∃ b, s.Reads shiftCipher f b) →
        s.KeepsReadable shiftCipher (s.rotate shiftCipher lengthKey call newIv now) := by
  intro hall
  have hB : twoFiles.Reads shiftCipher fileB [2] := reads_withFile rfl fileB [2]
  have hA : twoFiles.Reads shiftCipher fileA [1] := by
    have hget : twoFiles.metadataStore.get fileA = some _ := rfl
    rw [Service.reads_of_encrypted hget rfl]
    exact ⟨1, rfl, _, rfl, Aead.unwrapWith_cons_of_some (Aead.unwrap_wrap 1 zeroIv [1]) _, rfl⟩
  have hread : ∀ f m, twoFiles.metadataStore.get f = some m →
      ∃ b, twoFiles.Reads shiftCipher f b := by
    intro f m hget
    by_cases hfB : f = fileB
    · exact ⟨[2], hfB ▸ hB⟩
    · by_cases hfA : f = fileA
      · exact ⟨[1], hfA ▸ hA⟩
      · rw [twoFiles, Service.withFile, OrderedMap.get_set, if_neg hfB, oneFile, Service.withFile,
          OrderedMap.get_set, if_neg hfA] at hget
        exact absurd hget (by simp [OrderedMap.get, OrderedMap.empty])
  have hafter := hall twoFiles (.rotateKey fileA "o" "nn" 2) (fun _ => zeroIv) (fun _ => "later")
    hread fileB [2] hB
  generalize hs : twoFiles.rotate shiftCipher lengthKey (.rotateKey fileA "o" "nn" 2)
    (fun _ => zeroIv) (fun _ => "later") = s at hafter
  have hget : s.metadataStore.get fileB =
      some (encryptedMetadata shiftCipher 1 [2] (versionOne fileB) zeroIv "now") := hs ▸ rfl
  have hkey : s.encryptionKey = some 2 := hs ▸ rfl
  have hprevious : s.previousEncryptionKey = none := hs ▸ rfl
  have hdisk : s.disk.readFile fileB.encName = some (shiftCipher.wrap 1 zeroIv [2]) := hs ▸ rfl
  rw [Service.reads_of_encrypted hget rfl] at hafter
  obtain ⟨k, hk, data, hdata, hopen, -⟩ := hafter
  obtain rfl := Option.some.inj (hk.symm.trans hkey)
  obtain rfl := Option.some.inj (hdata.symm.trans hdisk)
  rw [Service.decryptionKeys, hprevious] at hopen
  have hclosed : shiftCipher.unwrapWith [2] (shiftCipher.wrap 1 zeroIv [2]) = none := by decide
  exact absurd (hclosed.symm.trans hopen) (by simp)

end AlsaqiBackend.Files
