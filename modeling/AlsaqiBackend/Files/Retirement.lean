import AlsaqiBackend.Files.Rotation
import AlsaqiBackend.Lib.Run

/-!
# Retiring the previous key

`reEncryptStoreToCurrentKey` as a loop that waits for its reads and writes, with calls of `encryptFile`
under way at the same time. The loop goes through the live entries of the metadata store, keeps the
metadata of an entry over both waits, and records it after the second. A write replaces a file, and the
caller goes on later, so that there are states between the two.

The state has the plaintext of every file beside the service: the bytes of the last `encryptFile` that has
resolved. In a store under two keys (`Service.TwoKeys`) every file is read as its plaintext, and also
without the previous key once `isReEncryptionComplete` is true.
-/

namespace AlsaqiBackend.Files

open Lib

variable {Key : Type} (A : Gcm Key)

/-! ## The system -/

/-- A call of `encryptFile` that waits for its write, or has written its file and not gone on. -/
structure Upload where
  buffer : List UInt8
  input : EncryptFileInput
  iv : Block ivLength
  now : String
  written : Bool

/-- Where `reEncryptStoreToCurrentKey` stands. -/
inductive LoopPoint
  /-- It has not been called, or has returned. -/
  | idle
  /-- It takes the entry of an index next. -/
  | next (index : ℕ)
  | reading (index : ℕ) (fileId : FileId) (metadata : EncryptionMetadata)
  | writing (index : ℕ) (r : ReEncryption) (iv : Block ivLength)
  /-- The file has been written. -/
  | updating (index : ℕ) (r : ReEncryption) (iv : Block ivLength)

/-- The file of the entry at which the loop is. -/
def LoopPoint.fileId : LoopPoint → Option FileId
  | .idle => none
  | .next _ => none
  | .reading _ fileId _ => some fileId
  | .writing _ r _ => some r.fileId
  | .updating _ r _ => some r.fileId

/-- The service with the calls under way, the result of the last run, and the plaintexts of the files. -/
structure RetirementState (Key : Type) where
  service : Service Key
  uploads : List Upload
  loop : LoopPoint
  migrated : List FileId
  failed : List FileId
  original : FileId → List UInt8

inductive RetirementAction
  /-- `encryptFile` is called. -/
  | encryptFile (buffer : List UInt8) (input : EncryptFileInput) (iv : Block ivLength) (now : String)
  /-- The write of a call replaces the file. -/
  | uploadWrites (i : ℕ)
  | uploadFails (i : ℕ)
  /-- A call records its metadata and resolves. -/
  | uploadResolves (i : ℕ)
  /-- `reEncryptStoreToCurrentKey` is called. -/
  | start
  /-- The loop takes its next entry, or returns. -/
  | next
  /-- The file of the entry is read, decrypted and encrypted with a new vector. -/
  | reads (iv : Block ivLength)
  | readFails
  /-- The write of the loop replaces the file. -/
  | writes
  | writeFails
  /-- The loop records the metadata of the entry. -/
  | updates (now : String)

/-- The write of a file that is encrypted under a key. -/
def Service.putEncrypted (s : Service Key) (key : Key) (fileId : FileId) (iv : Block ivLength)
    (buffer : List UInt8) : Service Key :=
  { s with disk := s.disk.put fileId.encName (A.wrap key iv buffer) }

/-- `setMetadata`. -/
def Service.setMetadata (s : Service Key) (fileId : FileId) (metadata : EncryptionMetadata) : Service Key :=
  { s with metadataStore := s.metadataStore.set fileId metadata }

/-- What the loop gets of the file of an entry. -/
def Service.decryptEntry (s : Service Key) (key : Key) (fileId : FileId) : Option (List UInt8) :=
  (s.disk.readFile fileId.encName).bind (A.unwrapWith (s.decryptionKeys key))

/-- The loop goes on behind an entry that has failed. -/
def RetirementState.fail (s : RetirementState Key) (index : ℕ) (fileId : FileId) : RetirementState Key :=
  { s with loop := .next (index + 1), failed := s.failed ++ [fileId] }

/-- An action, where it is possible; `newKeyVersion` is that of every run. -/
def retirementStep (newKeyVersion : ℤ) (s : RetirementState Key) :
    RetirementAction → Option (RetirementState Key)
  | .encryptFile buffer input iv now =>
    some { s with uploads := s.uploads ++ [⟨buffer, input, iv, now, false⟩] }
  | .uploadWrites i => do
    let u ← s.uploads[i]?
    let key ← s.service.encryptionKey
    if u.written then none
    else some { s with
      service := s.service.putEncrypted A key u.input.fileId u.iv u.buffer
      uploads := s.uploads.modify i fun u => { u with written := true } }
  | .uploadFails i => do
    let u ← s.uploads[i]?
    -- A call that throws has written and recorded nothing.
    if u.written then none else some { s with uploads := s.uploads.eraseIdx i }
  | .uploadResolves i => do
    let u ← s.uploads[i]?
    let key ← s.service.encryptionKey
    if u.written then
      some { s with
        service := s.service.setMetadata u.input.fileId
          (encryptedMetadata A key u.buffer u.input u.iv u.now)
        uploads := s.uploads.eraseIdx i
        original := Function.update s.original u.input.fileId u.buffer }
    else none
  | .start =>
    match s.loop, s.service.encryptionKey, s.service.previousEncryptionKey with
    | .idle, some _, some _ => some { s with loop := .next 0, migrated := [], failed := [] }
    -- It throws when one of the keys is not set.
    | _, _, _ => none
  | .next =>
    match s.loop with
    | .next i =>
      -- The entries are those of now, so that the loop meets the files that have been added.
      match s.service.metadataStore.entries[i]? with
      | none => some { s with loop := .idle }
      | some (fileId, metadata) =>
        if metadata.isPlain || decide (newKeyVersion ≤ metadata.keyVersion) then
          some { s with loop := .next (i + 1) }
        else some { s with loop := .reading i fileId metadata }
    | _ => none
  | .reads iv =>
    match s.loop, s.service.encryptionKey with
    | .reading i fileId metadata, some key =>
      match s.service.decryptEntry A key fileId with
      | some decrypted => some { s with loop := .writing i ⟨fileId, metadata, decrypted, newKeyVersion⟩ iv }
      | none => some (s.fail i fileId)
    | _, _ => none
  | .readFails =>
    match s.loop with
    | .reading i fileId _ => some (s.fail i fileId)
    | _ => none
  | .writes =>
    match s.loop, s.service.encryptionKey with
    | .writing i r iv, some key =>
      some { s with service := s.service.putEncrypted A key r.fileId iv r.content, loop := .updating i r iv }
    | _, _ => none
  | .writeFails =>
    match s.loop with
    | .writing i r _ => some (s.fail i r.fileId)
    | _ => none
  | .updates now =>
    match s.loop, s.service.encryptionKey with
    | .updating i r iv, some key =>
      -- The entry may have been set by a call in between; it is not looked at again.
      some { s with
        service := s.service.setMetadata r.fileId (r.updated A key iv now)
        loop := .next (i + 1)
        migrated := s.migrated ++ [r.fileId] }
    | _, _ => none

/-- `isReEncryptionComplete`. -/
def Service.isReEncryptionComplete (s : Service Key) (targetKeyVersion : ℤ) : Bool :=
  s.metadataStore.entries.all fun entry =>
    entry.2.isPlain || decide (targetKeyVersion ≤ entry.2.keyVersion)

/-- `clearPreviousEncryptionKey`. -/
def Service.clearPreviousEncryptionKey (s : Service Key) : Service Key :=
  { s with previousEncryptionKey := none }

/-! ## What the steps do -/

section StepInversion

variable {A} {v : ℤ} {s t : RetirementState Key} {i : ℕ}

theorem of_uploadWrites (h : retirementStep A v s (.uploadWrites i) = some t) :
    ∃ u key, s.uploads[i]? = some u ∧ s.service.encryptionKey = some key ∧ u.written = false ∧
      t = { s with
        service := s.service.putEncrypted A key u.input.fileId u.iv u.buffer
        uploads := s.uploads.modify i fun u => { u with written := true } } := by
  obtain ⟨u, hu, h⟩ := Option.bind_eq_some_iff.1 h
  obtain ⟨key, hkey, h⟩ := Option.bind_eq_some_iff.1 h
  split_ifs at h with hwritten
  exact ⟨u, key, hu, hkey, Bool.eq_false_iff.2 hwritten, (Option.some.inj h).symm⟩

theorem of_uploadFails (h : retirementStep A v s (.uploadFails i) = some t) :
    t = { s with uploads := s.uploads.eraseIdx i } := by
  obtain ⟨u, -, h⟩ := Option.bind_eq_some_iff.1 h
  split_ifs at h with hwritten
  exact (Option.some.inj h).symm

theorem of_uploadResolves (h : retirementStep A v s (.uploadResolves i) = some t) :
    ∃ u key, s.uploads[i]? = some u ∧ s.service.encryptionKey = some key ∧ u.written = true ∧
      t = { s with
        service := s.service.setMetadata u.input.fileId
          (encryptedMetadata A key u.buffer u.input u.iv u.now)
        uploads := s.uploads.eraseIdx i
        original := Function.update s.original u.input.fileId u.buffer } := by
  obtain ⟨u, hu, h⟩ := Option.bind_eq_some_iff.1 h
  obtain ⟨key, hkey, h⟩ := Option.bind_eq_some_iff.1 h
  split_ifs at h with hwritten
  exact ⟨u, key, hu, hkey, hwritten, (Option.some.inj h).symm⟩

theorem of_start (h : retirementStep A v s .start = some t) :
    t = { s with loop := .next 0, migrated := [], failed := [] } := by
  simp only [retirementStep] at h
  split at h
  · exact (Option.some.inj h).symm
  · cases h

/-- The loop returns, goes on behind an entry, or takes one that has to be migrated. -/
theorem of_next (h : retirementStep A v s .next = some t) : ∃ i, s.loop = .next i ∧
    (t = { s with loop := .idle } ∨ t = { s with loop := .next (i + 1) } ∨
      ∃ f m, s.service.metadataStore.entries[i]? = some (f, m) ∧ m.isPlain = false ∧ m.keyVersion < v ∧
        t = { s with loop := .reading i f m }) := by
  simp only [retirementStep] at h
  split at h
  · rename_i i hloop
    refine ⟨i, hloop, ?_⟩
    split at h
    · exact Or.inl (Option.some.inj h).symm
    · rename_i f m hentry
      split_ifs at h with hskip
      · exact Or.inr (Or.inl (Option.some.inj h).symm)
      · have htaken : m.isPlain = false ∧ m.keyVersion < v := by simpa using hskip
        exact Or.inr (Or.inr ⟨f, m, hentry, htaken.1, htaken.2, (Option.some.inj h).symm⟩)
  · cases h

/-- The loop has the content of its entry, or goes on behind it. -/
theorem of_reads {iv : Block ivLength} (h : retirementStep A v s (.reads iv) = some t) :
    ∃ i f m, s.loop = .reading i f m ∧ (t = s.fail i f ∨
      ∃ key decrypted, s.service.encryptionKey = some key ∧ s.service.decryptEntry A key f = some decrypted ∧
        t = { s with loop := .writing i ⟨f, m, decrypted, v⟩ iv }) := by
  simp only [retirementStep] at h
  split at h
  · rename_i i f m key hloop hkey
    refine ⟨i, f, m, hloop, ?_⟩
    split at h
    · rename_i decrypted hread
      exact Or.inr ⟨key, decrypted, hkey, hread, (Option.some.inj h).symm⟩
    · exact Or.inl (Option.some.inj h).symm
  · cases h

theorem of_readFails (h : retirementStep A v s .readFails = some t) : ∃ i f, t = s.fail i f := by
  simp only [retirementStep] at h
  split at h
  · exact ⟨_, _, (Option.some.inj h).symm⟩
  · cases h

theorem of_writes (h : retirementStep A v s .writes = some t) :
    ∃ i r iv key, s.loop = .writing i r iv ∧ s.service.encryptionKey = some key ∧
      t = { s with
        service := s.service.putEncrypted A key r.fileId iv r.content
        loop := .updating i r iv } := by
  simp only [retirementStep] at h
  split at h
  · rename_i i r iv key hloop hkey
    exact ⟨i, r, iv, key, hloop, hkey, (Option.some.inj h).symm⟩
  · cases h

theorem of_writeFails (h : retirementStep A v s .writeFails = some t) : ∃ i f, t = s.fail i f := by
  simp only [retirementStep] at h
  split at h
  · exact ⟨_, _, (Option.some.inj h).symm⟩
  · cases h

theorem of_updates {now : String} (h : retirementStep A v s (.updates now) = some t) :
    ∃ i r iv key, s.loop = .updating i r iv ∧ s.service.encryptionKey = some key ∧
      t = { s with
        service := s.service.setMetadata r.fileId (r.updated A key iv now)
        loop := .next (i + 1)
        migrated := s.migrated ++ [r.fileId] } := by
  simp only [retirementStep] at h
  split at h
  · rename_i i r iv key hloop hkey
    exact ⟨i, r, iv, key, hloop, hkey, (Option.some.inj h).symm⟩
  · cases h

end StepInversion

/-! ## Stores under two keys -/

/-- The encrypted name of the file has these bytes under the key. -/
def Service.Holds (s : Service Key) (key : Key) (f : FileId) (b : List UInt8) : Prop :=
  ∃ iv, s.disk.readFile f.encName = some (A.wrap key iv b)

/-- The metadata of a file that is stored encrypted. -/
def Service.Encrypted (s : Service Key) (f : FileId) (m : EncryptionMetadata) : Prop :=
  s.metadataStore.get f = some m ∧ m.isPlain = false

/-- Every encrypted file is under the current key or under the previous one, and those under the previous
key have key versions below `v`. The plaintexts are `original`. -/
structure Service.TwoKeys (s : Service Key) (key previous : Key) (v : ℤ) (original : FileId → List UInt8) :
    Prop where
  current : s.encryptionKey = some key
  fallback : s.previousEncryptionKey = some previous
  plain : ∀ f m, s.metadataStore.get f = some m → m.isPlain = true →
    s.disk.readFile f.name = some (original f)
  checksum : ∀ f m, s.Encrypted f m → m.checksum = checksumOf (original f)
  held : ∀ f m, s.Encrypted f m →
    s.Holds A key f (original f) ∨ s.Holds A previous f (original f) ∧ m.keyVersion < v

/-- Every file is read as its plaintext. -/
def Service.AllRead (s : Service Key) (original : FileId → List UInt8) : Prop :=
  ∀ f m, s.metadataStore.get f = some m → s.Reads A f (original f)

variable {A} {key previous : Key} {v : ℤ} {original : FileId → List UInt8} {s : Service Key}

/-- What is held under one of the keys that are tried is read. -/
theorem Service.Holds.reads (hA : A.Authenticating) [DecidableEq Key] {k : Key} {f : FileId}
    {m : EncryptionMetadata} {b : List UInt8} (h : s.Holds A k f b) (hm : s.Encrypted f m)
    (hkey : s.encryptionKey = some key) (hsum : m.checksum = checksumOf b) (hk : k ∈ s.decryptionKeys key) :
    s.Reads A f b := by
  obtain ⟨iv, hdata⟩ := h
  have hopen : A.unwrapWith (s.decryptionKeys key) (A.wrap k iv b) = some b := by
    rw [Aead.unwrapWith_wrap hA, if_pos hk]
  rw [Service.reads_of_encrypted hm.1 hm.2]
  exact ⟨key, hkey, _, hdata, hopen, hsum.symm⟩

/-- Every file is read when those that are encrypted are: the others are stored as they are. -/
theorem Service.allRead_of_encrypted (hplainRead : ∀ f m, s.metadataStore.get f = some m → m.isPlain = true →
      s.disk.readFile f.name = some (original f))
    (hread : ∀ f m, s.Encrypted f m → s.Reads A f (original f)) : s.AllRead A original := by
  intro f m hget
  cases hplain : m.isPlain with
  | true => exact (Service.reads_of_isPlain hget hplain _).2 (hplainRead f m hget hplain)
  | false => exact hread f m ⟨hget, hplain⟩

/-- With both keys every file is read. -/
theorem Service.TwoKeys.allRead (hA : A.Authenticating) [DecidableEq Key]
    (h : s.TwoKeys A key previous v original) : s.AllRead A original := by
  refine Service.allRead_of_encrypted h.plain fun f m hm => ?_
  have hsum := h.checksum f m hm
  rcases h.held f m hm with hcurrent | ⟨hprevious, -⟩
  · exact hcurrent.reads hA hm h.current hsum List.mem_cons_self
  · have hmem : previous ∈ s.decryptionKeys key := by
      unfold Service.decryptionKeys
      rw [h.fallback]
      exact List.mem_cons_of_mem _ List.mem_cons_self
    exact hprevious.reads hA hm h.current hsum hmem

/-- When re-encryption is complete, every file is read without the previous key. -/
theorem Service.TwoKeys.allRead_clear (hA : A.Authenticating) [DecidableEq Key]
    (h : s.TwoKeys A key previous v original) (hcomplete : s.isReEncryptionComplete v = true) :
    s.clearPreviousEncryptionKey.AllRead A original := by
  refine Service.allRead_of_encrypted h.plain fun f m hm => ?_
  have hversion : v ≤ m.keyVersion := by
    have hentry := List.all_eq_true.1 hcomplete _ ((OrderedMap.get_eq_some _ _ _).1 hm.1)
    simpa [hm.2] using hentry
  rcases h.held f m hm with hcurrent | ⟨-, hlt⟩
  · have hcleared : s.clearPreviousEncryptionKey.Holds A key f (original f) := hcurrent
    exact hcleared.reads hA hm h.current (h.checksum f m hm) List.mem_cons_self
  · omega

/-- No file that is stored as it is has the encrypted name of another one. -/
def Service.NoPlainFile (s : Service Key) (f : FileId) : Prop :=
  ∀ entry ∈ s.metadataStore.entries, entry.2.isPlain = true → entry.1.name ≠ f.encName

section Changes

variable {f g : FileId} {b c : List UInt8} {iv : Block ivLength} {m : EncryptionMetadata} {k : Key}

/-- A key opens a file in one way. -/
theorem Service.Holds.unique (h : s.Holds A k f b) (h' : s.Holds A k f c) : b = c := by
  obtain ⟨iv, hdata⟩ := h
  obtain ⟨iv', hdata'⟩ := h'
  have hwrap : A.wrap k iv b = A.wrap k iv' c := Option.some.inj (hdata.symm.trans hdata')
  have hopen := Aead.unwrap_wrap (A := A) k iv b
  rw [hwrap, Aead.unwrap_wrap] at hopen
  exact (Option.some.inj hopen).symm

/-- What is written is held. -/
theorem Service.holds_putEncrypted : (s.putEncrypted A key f iv b).Holds A key f b :=
  ⟨iv, Disk.readFile_put_self _ _ _⟩

/-- Another file is held as before. -/
theorem Service.holds_putEncrypted_of_ne (h : g ≠ f) :
    (s.putEncrypted A key f iv b).Holds A k g c ↔ s.Holds A k g c := by
  have hname : g.encName ≠ f.encName := fun heq => h (FileId.encName_inj.1 heq)
  have hread : (s.putEncrypted A key f iv b).disk.readFile g.encName = s.disk.readFile g.encName :=
    Disk.readFile_put_of_ne _ hname _
  unfold Service.Holds
  rw [hread]

/-- A file stays held under the key of a write, if the write has its bytes. -/
theorem Service.Holds.putEncrypted (h : s.Holds A key g c) (hsame : g = f → c = b) :
    (s.putEncrypted A key f iv b).Holds A key g c := by
  by_cases hg : g = f
  · rw [hsame hg, hg]
    exact Service.holds_putEncrypted
  · exact (Service.holds_putEncrypted_of_ne hg).2 h

/-- A write of the plaintext of a file. -/
theorem Service.TwoKeys.putEncrypted (h : s.TwoKeys A key previous v original)
    (hsame : ∀ m, s.Encrypted f m → original f = b) (hname : s.NoPlainFile f) :
    (s.putEncrypted A key f iv b).TwoKeys A key previous v original where
  current := h.current
  fallback := h.fallback
  plain := by
    intro g m hget hplain
    have hne : g.name ≠ f.encName := hname (g, m) ((OrderedMap.get_eq_some _ _ _).1 hget) hplain
    have hread : (s.putEncrypted A key f iv b).disk.readFile g.name = s.disk.readFile g.name :=
      Disk.readFile_put_of_ne _ hne _
    rw [hread]
    exact h.plain g m hget hplain
  checksum := h.checksum
  held := by
    intro g m hm
    by_cases hg : g = f
    · left
      have hb : original g = b := hsame m (hg ▸ hm) ▸ congrArg original hg
      rw [hb, hg]
      exact Service.holds_putEncrypted
    · rw [Service.holds_putEncrypted_of_ne hg, Service.holds_putEncrypted_of_ne hg]
      exact h.held g m hm

theorem Service.get_setMetadata (s : Service Key) (f g : FileId) (m : EncryptionMetadata) :
    (s.setMetadata f m).metadataStore.get g = if g = f then some m else s.metadataStore.get g :=
  OrderedMap.get_set _ _ _ _

/-- The file that is recorded is stored encrypted, and the others are as before. -/
theorem Service.encrypted_setMetadata {m' : EncryptionMetadata} (h : (s.setMetadata f m).Encrypted g m') :
    g = f ∧ m' = m ∨ g ≠ f ∧ s.Encrypted g m' := by
  obtain ⟨hget, hplain⟩ := h
  rw [Service.get_setMetadata] at hget
  split_ifs at hget with hg
  · exact Or.inl ⟨hg, (Option.some.inj hget).symm⟩
  · exact Or.inr ⟨hg, hget, hplain⟩

/-- Metadata with the checksum of what the file holds under the current key are recorded. -/
theorem Service.TwoKeys.setMetadata (h : s.TwoKeys A key previous v original) (hplain : m.isPlain = false)
    (hsum : m.checksum = checksumOf b) (hheld : s.Holds A key f b) :
    (s.setMetadata f m).TwoKeys A key previous v (Function.update original f b) where
  current := h.current
  fallback := h.fallback
  plain := by
    intro g m' hget hplain'
    rw [Service.get_setMetadata] at hget
    split_ifs at hget with hg
    · rw [← Option.some.inj hget, hplain] at hplain'
      cases hplain'
    · rw [Function.update_of_ne hg]
      exact h.plain g m' hget hplain'
  checksum := by
    intro g m' hm'
    rcases Service.encrypted_setMetadata hm' with ⟨rfl, rfl⟩ | ⟨hg, hm'⟩
    · rw [Function.update_self, hsum]
    · rw [Function.update_of_ne hg]
      exact h.checksum g m' hm'
  held := by
    intro g m' hm'
    rcases Service.encrypted_setMetadata hm' with ⟨rfl, rfl⟩ | ⟨hg, hm'⟩
    · rw [Function.update_self]
      exact Or.inl hheld
    · rw [Function.update_of_ne hg]
      exact h.held g m' hm'

end Changes

end AlsaqiBackend.Files
