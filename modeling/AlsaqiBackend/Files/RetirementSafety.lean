import AlsaqiBackend.Files.Retirement
import AlsaqiBackend.Lib.Modify
import AlsaqiBackend.Lib.Run

/-!
# No file is lost while a key is retired

The steps of `KeepsFiles` keep a store under its two keys, whatever fails: `retirement_safe`. A call of
`encryptFile` that gives other bytes to a file of the store is none of them. Between its write and its
metadata the file is not read, and the loop, which keeps old metadata over its waits, may lose it for good.
-/

namespace AlsaqiBackend.Files

open Lib

variable {Key : Type} {A : Gcm Key} {key previous : Key} {v : ℤ} {original : FileId → List UInt8}
  {s : Service Key}

/-! ## Safe steps -/

/-- These are the bytes of the file, if it is stored encrypted, and of the calls that have written it. -/
def RetirementState.SameBytes (s : RetirementState Key) (f : FileId) (b : List UInt8) : Prop :=
  (∀ m ∈ s.service.metadataStore.get f, m.isPlain = false → s.original f = b) ∧
    ∀ u ∈ s.uploads, u.written = true → u.input.fileId = f → u.buffer = b

/-- The entry that the loop takes is written with a key version that is not 0. -/
def RetirementState.TakesVersion (s : RetirementState Key) (v : ℤ) : Prop :=
  match s.loop with
  | .next i => ∀ entry ∈ s.service.metadataStore.entries[i]?,
      entry.2.isPlain = false → entry.2.keyVersion < v → v ≠ 0
  | _ => True

/-- The steps that lose no file. -/
def KeepsFiles (v : ℤ) (s : RetirementState Key) : RetirementAction → Prop
  | .encryptFile _ input _ _ => input.keyVersion ≠ 0
  | .uploadWrites i => ∀ u ∈ s.uploads[i]?,
      s.SameBytes u.input.fileId u.buffer ∧ s.service.NoPlainFile u.input.fileId
  | .next => s.TakesVersion v
  | .writes => ∀ f ∈ s.loop.fileId, s.service.NoPlainFile f
  | _ => True

/-- The entry at which the loop is: a file that is stored encrypted, with its checksum. -/
structure Item (s : Service Key) (v : ℤ) (original : FileId → List UInt8) (f : FileId)
    (m : EncryptionMetadata) : Prop where
  encrypted : ∃ m', s.Encrypted f m'
  checksum : m.checksum = checksumOf (original f)
  version : v ≠ 0

/-- What the loop knows between its steps. -/
def LoopPoint.Inv (A : Gcm Key) (s : Service Key) (key : Key) (v : ℤ) (original : FileId → List UInt8) :
    LoopPoint → Prop
  | .idle => True
  | .next _ => True
  | .reading _ f m => Item s v original f m
  | .writing _ r _ =>
    Item s v original r.fileId r.metadata ∧ r.content = original r.fileId ∧ r.keyVersion = v
  | .updating _ r _ => Item s v original r.fileId r.metadata ∧ r.keyVersion = v ∧
      s.Holds A key r.fileId (original r.fileId)

/-- What a call knows between its steps. -/
structure Upload.Inv (A : Gcm Key) (s : Service Key) (key : Key) (original : FileId → List UInt8)
    (u : Upload) : Prop where
  version : u.input.keyVersion ≠ 0
  held : u.written = true → s.Holds A key u.input.fileId u.buffer
  same : u.written = true → ∀ m, s.Encrypted u.input.fileId m → original u.input.fileId = u.buffer

structure RetirementState.Inv (A : Gcm Key) (key previous : Key) (v : ℤ) (s : RetirementState Key) : Prop
    where
  store : s.service.TwoKeys A key previous v s.original
  uploads : ∀ u ∈ s.uploads, u.Inv A s.service key s.original
  loop : s.loop.Inv A s.service key v s.original

section Steps

variable {f : FileId} {b : List UInt8} {iv : Block ivLength} {m : EncryptionMetadata} {u : Upload}
  {point : LoopPoint}

/-- A write keeps what the loop knows. -/
theorem LoopPoint.Inv.putEncrypted (h : point.Inv A s key v original)
    (hsame : ∀ m, s.Encrypted f m → original f = b) :
    point.Inv A (s.putEncrypted A key f iv b) key v original := by
  cases point with
  | idle => trivial
  | next i => trivial
  | reading i g m => exact ⟨h.encrypted, h.checksum, h.version⟩
  | writing i r iv' => exact ⟨⟨h.1.encrypted, h.1.checksum, h.1.version⟩, h.2⟩
  | updating i r iv' =>
    obtain ⟨hitem, hversion, hheld⟩ := h
    obtain ⟨m, hm⟩ := hitem.encrypted
    refine ⟨⟨⟨m, hm⟩, hitem.checksum, hitem.version⟩, hversion, hheld.putEncrypted fun hf => ?_⟩
    rw [hf]
    exact hsame m (hf ▸ hm)

/-- A write keeps what another call knows. -/
theorem Upload.Inv.putEncrypted (h : u.Inv A s key original)
    (hsame : u.written = true → u.input.fileId = f → u.buffer = b) :
    u.Inv A (s.putEncrypted A key f iv b) key original where
  version := h.version
  held := fun hwritten => (h.held hwritten).putEncrypted (hsame hwritten)
  same := h.same

/-- The plaintext of a file that is stored encrypted stays when it is recorded again. -/
theorem update_original (hsame : ∀ m, s.Encrypted f m → original f = b) {g : FileId}
    {m : EncryptionMetadata} (hm : s.Encrypted g m) : Function.update original f b g = original g := by
  by_cases hg : g = f
  · rw [hg, Function.update_self, hsame m (hg ▸ hm)]
  · exact Function.update_of_ne hg _ _

/-- A file that is recorded keeps the entry of the loop. -/
theorem Item.setMetadata {g : FileId} {m' : EncryptionMetadata} (h : Item s v original g m')
    (hplain : m.isPlain = false) (hsame : ∀ m, s.Encrypted f m → original f = b) :
    Item (s.setMetadata f m) v (Function.update original f b) g m' := by
  obtain ⟨m₀, hm₀⟩ := h.encrypted
  refine ⟨?_, ?_, h.version⟩
  · by_cases hg : g = f
    · refine ⟨m, ?_, hplain⟩
      rw [Service.get_setMetadata, if_pos hg]
    · refine ⟨m₀, ?_, hm₀.2⟩
      rw [Service.get_setMetadata, if_neg hg]
      exact hm₀.1
  · rw [update_original hsame hm₀]
    exact h.checksum

/-- A file that is recorded keeps what the loop knows. -/
theorem LoopPoint.Inv.setMetadata (h : point.Inv A s key v original) (hplain : m.isPlain = false)
    (hsame : ∀ m, s.Encrypted f m → original f = b) :
    point.Inv A (s.setMetadata f m) key v (Function.update original f b) := by
  cases point with
  | idle => trivial
  | next i => trivial
  | reading i g m' => exact Item.setMetadata h hplain hsame
  | writing i r iv' =>
    obtain ⟨m₀, hm₀⟩ := h.1.encrypted
    refine ⟨h.1.setMetadata hplain hsame, ?_, h.2.2⟩
    rw [update_original hsame hm₀]
    exact h.2.1
  | updating i r iv' =>
    obtain ⟨m₀, hm₀⟩ := h.1.encrypted
    refine ⟨h.1.setMetadata hplain hsame, h.2.1, ?_⟩
    rw [update_original hsame hm₀]
    exact h.2.2

/-- A file that is recorded keeps what another call knows. -/
theorem Upload.Inv.setMetadata (h : u.Inv A s key original) (hheld : s.Holds A key f b) :
    u.Inv A (s.setMetadata f m) key (Function.update original f b) where
  version := h.version
  held := h.held
  same := by
    intro hwritten m' hm'
    rcases Service.encrypted_setMetadata hm' with ⟨hf, -⟩ | ⟨hf, hm'⟩
    · have hown : s.Holds A key f u.buffer := hf ▸ h.held hwritten
      rw [hf, Function.update_self]
      exact hheld.unique hown
    · rw [Function.update_of_ne hf]
      exact h.same hwritten m' hm'

end Steps

/-! ## Every step -/

/-- The loop reads the plaintext of its entry. -/
theorem Service.TwoKeys.decryptEntry (hA : A.Authenticating) [DecidableEq Key]
    (h : s.TwoKeys A key previous v original) {f : FileId} {m : EncryptionMetadata} (hm : s.Encrypted f m) :
    s.decryptEntry A key f = some (original f) := by
  obtain ⟨k, hk, data, hdata, hopen, -⟩ :=
    (Service.reads_of_encrypted hm.1 hm.2 _).1 (h.allRead hA f m hm.1)
  have hkey : key = k := Option.some.inj (h.current.symm.trans hk)
  unfold Service.decryptEntry
  rw [hdata, hkey]
  exact hopen

namespace RetirementState

variable {t : RetirementState Key} {st : RetirementState Key} {i : ℕ}

/-- The bytes of a guarded write are the plaintext. -/
theorem SameBytes.original_eq {f : FileId} {b : List UInt8} (h : st.SameBytes f b) :
    ∀ m, st.service.Encrypted f m → st.original f = b :=
  fun m hm => h.1 m (Option.mem_def.2 hm.1) hm.2

/-- The write of a call. -/
theorem Inv.uploadWrites (h : st.Inv A key previous v) {u : Upload} (hu : st.uploads[i]? = some u)
    (hsame : st.SameBytes u.input.fileId u.buffer) (hname : st.service.NoPlainFile u.input.fileId) :
    Inv A key previous v { st with
      service := st.service.putEncrypted A key u.input.fileId u.iv u.buffer
      uploads := st.uploads.modify i fun u => { u with written := true } } where
  store := h.store.putEncrypted hsame.original_eq hname
  loop := h.loop.putEncrypted hsame.original_eq
  uploads := by
    intro u' hu'
    obtain ⟨j, hj⟩ := List.mem_iff_getElem?.1 hu'
    rcases getElem?_modify_cases hj with ⟨-, y, hy, rfl⟩ | ⟨-, hold⟩
    · obtain rfl := Option.some.inj (hu.symm.trans hy)
      have hinv := h.uploads u (List.mem_of_getElem? hu)
      exact ⟨hinv.version, fun _ => Service.holds_putEncrypted, fun _ => hsame.original_eq⟩
    · have hmem := List.mem_of_getElem? hold
      exact (h.uploads u' hmem).putEncrypted fun hwritten hf => hsame.2 u' hmem hwritten hf

/-- A call that has written its file resolves. -/
theorem Inv.uploadResolves (h : st.Inv A key previous v) {u : Upload} (hu : st.uploads[i]? = some u)
    (hwritten : u.written = true) :
    Inv A key previous v { st with
      service := st.service.setMetadata u.input.fileId
        (encryptedMetadata A key u.buffer u.input u.iv u.now)
      uploads := st.uploads.eraseIdx i
      original := Function.update st.original u.input.fileId u.buffer } := by
  have hinv := h.uploads u (List.mem_of_getElem? hu)
  have hheld := hinv.held hwritten
  have hplain : (encryptedMetadata A key u.buffer u.input u.iv u.now).isPlain = false := by
    have hiv := base64_iv_ne_empty u.iv
    simp [encryptedMetadata, EncryptionMetadata.isPlain, hiv, hinv.version]
  -- Its bytes are the plaintext from now on, and the file has had them since the write.
  refine ⟨h.store.setMetadata hplain rfl hheld, ?_, h.loop.setMetadata hplain (hinv.same hwritten)⟩
  intro u' hu'
  exact (h.uploads u' (List.mem_of_mem_eraseIdx hu')).setMetadata hheld

/-- The loop takes an entry. -/
theorem Inv.next (h : st.Inv A key previous v) (hsafe : st.TakesVersion v)
    (hst : retirementStep A v st .next = some t) : t.Inv A key previous v := by
  obtain ⟨i, hloop, rfl | rfl | ⟨f, m, hentry, hplain, hlt, rfl⟩⟩ := of_next hst
  · exact ⟨h.store, h.uploads, trivial⟩
  · exact ⟨h.store, h.uploads, trivial⟩
  · have hget : st.service.metadataStore.get f = some m :=
      (OrderedMap.get_eq_some _ _ _).2 (List.mem_of_getElem? hentry)
    have hversion : v ≠ 0 := by
      unfold TakesVersion at hsafe
      rw [hloop] at hsafe
      exact hsafe (f, m) hentry hplain hlt
    exact ⟨h.store, h.uploads, ⟨⟨m, hget, hplain⟩, h.store.checksum f m ⟨hget, hplain⟩, hversion⟩⟩

/-- The loop goes on behind an entry. -/
theorem Inv.skip (h : st.Inv A key previous v) (i : ℕ) (migrated failed : List FileId) :
    Inv A key previous v { st with loop := .next i, migrated := migrated, failed := failed } :=
  ⟨h.store, h.uploads, trivial⟩

/-- The loop reads the file of its entry. -/
theorem Inv.reads (hA : A.Authenticating) [DecidableEq Key] (h : st.Inv A key previous v) {f : FileId}
    {m : EncryptionMetadata} (hloop : st.loop = .reading i f m) (iv : Block ivLength)
    {decrypted : List UInt8} (hread : st.service.decryptEntry A key f = some decrypted) :
    Inv A key previous v { st with loop := .writing i ⟨f, m, decrypted, v⟩ iv } := by
  have hitem : Item st.service v st.original f m := by
    have hinv := h.loop
    rw [hloop] at hinv
    exact hinv
  obtain ⟨m', hm'⟩ := hitem.encrypted
  rw [h.store.decryptEntry hA hm'] at hread
  exact ⟨h.store, h.uploads, ⟨hitem, (Option.some.inj hread).symm, rfl⟩⟩

/-- The loop writes the file of its entry. -/
theorem Inv.writes (h : st.Inv A key previous v) {r : ReEncryption} {iv : Block ivLength}
    (hloop : st.loop = .writing i r iv) (hname : st.service.NoPlainFile r.fileId) :
    Inv A key previous v
      { st with service := st.service.putEncrypted A key r.fileId iv r.content, loop := .updating i r iv } := by
  obtain ⟨hitem, hcontent, hversion⟩ : LoopPoint.Inv A st.service key v st.original (.writing i r iv) :=
    hloop ▸ h.loop
  obtain ⟨m, hm⟩ := hitem.encrypted
  have hsame : ∀ m, st.service.Encrypted r.fileId m → st.original r.fileId = r.content :=
    fun _ _ => hcontent.symm
  refine ⟨h.store.putEncrypted hsame hname, ?_, ?_⟩
  · intro u hu
    refine (h.uploads u hu).putEncrypted fun hwritten hf => ?_
    -- What a call has written of this file are its plaintext, too.
    have huplain := (h.uploads u hu).same hwritten m (hf ▸ hm)
    rw [hcontent, ← hf]
    exact huplain.symm
  · refine ⟨⟨⟨m, hm⟩, hitem.checksum, hitem.version⟩, hversion, ?_⟩
    rw [← hcontent]
    exact Service.holds_putEncrypted

/-- The loop records the metadata of its entry. -/
theorem Inv.updates (h : st.Inv A key previous v) {r : ReEncryption} {iv : Block ivLength}
    (hloop : st.loop = .updating i r iv) (now : String) :
    Inv A key previous v { st with
      service := st.service.setMetadata r.fileId (r.updated A key iv now)
      loop := .next (i + 1)
      migrated := st.migrated ++ [r.fileId] } := by
  obtain ⟨hitem, hversion, hheld⟩ : LoopPoint.Inv A st.service key v st.original (.updating i r iv) :=
    hloop ▸ h.loop
  have hplain : (r.updated A key iv now).isPlain = false := by
    rw [Bool.eq_false_iff]
    intro hplain
    exact hitem.version (hversion ▸ (isPlain_updated r key iv now).1 hplain)
  have hsame : Function.update st.original r.fileId (st.original r.fileId) = st.original :=
    Function.update_eq_self _ _
  -- The plaintext stays: the checksum that the loop has kept is still that of the file.
  have hstore := h.store.setMetadata hplain hitem.checksum hheld
  rw [hsame] at hstore
  refine ⟨hstore, ?_, trivial⟩
  intro u hu
  have hupload := (h.uploads u hu).setMetadata (m := r.updated A key iv now) hheld
  rw [hsame] at hupload
  exact hupload

/-- A safe step. -/
theorem Inv.step (hA : A.Authenticating) [DecidableEq Key] (h : st.Inv A key previous v)
    (action : RetirementAction) (hsafe : KeepsFiles v st action)
    (hst : retirementStep A v st action = some t) : t.Inv A key previous v := by
  cases action with
  | encryptFile buffer input iv now =>
    obtain rfl := Option.some.inj hst
    refine ⟨h.store, ?_, h.loop⟩
    intro u hu
    rcases List.mem_append.1 hu with hold | hnew
    · exact h.uploads u hold
    · rw [List.mem_singleton.1 hnew]
      -- An upload has written nothing when it starts.
      exact ⟨hsafe, fun hwritten => absurd hwritten Bool.false_ne_true,
        fun hwritten => absurd hwritten Bool.false_ne_true⟩
  | uploadWrites i =>
    obtain ⟨u, k, hu, hk, -, rfl⟩ := of_uploadWrites hst
    -- The key of the service stays, so that every step uses the current one.
    obtain rfl : key = k := Option.some.inj (h.store.current.symm.trans hk)
    obtain ⟨hsame, hname⟩ := hsafe u hu
    exact h.uploadWrites hu hsame hname
  | uploadFails i =>
    obtain rfl := of_uploadFails hst
    exact ⟨h.store, fun u' hu' => h.uploads u' (List.mem_of_mem_eraseIdx hu'), h.loop⟩
  | uploadResolves i =>
    obtain ⟨u, k, hu, hk, hwritten, rfl⟩ := of_uploadResolves hst
    obtain rfl : key = k := Option.some.inj (h.store.current.symm.trans hk)
    exact h.uploadResolves hu hwritten
  | start =>
    obtain rfl := of_start hst
    exact h.skip 0 [] []
  | next => exact h.next hsafe hst
  | reads iv =>
    obtain ⟨i, f, m, hloop, rfl | ⟨k, decrypted, hk, hread, rfl⟩⟩ := of_reads hst
    · exact h.skip (i + 1) st.migrated (st.failed ++ [f])
    · obtain rfl : key = k := Option.some.inj (h.store.current.symm.trans hk)
      exact h.reads hA hloop iv hread
  | readFails =>
    obtain ⟨i, f, rfl⟩ := of_readFails hst
    exact h.skip (i + 1) st.migrated (st.failed ++ [f])
  | writes =>
    obtain ⟨i, r, iv, k, hloop, hk, rfl⟩ := of_writes hst
    obtain rfl : key = k := Option.some.inj (h.store.current.symm.trans hk)
    have hfile : r.fileId ∈ st.loop.fileId := by
      rw [hloop]
      rfl
    exact h.writes hloop (hsafe r.fileId hfile)
  | writeFails =>
    obtain ⟨i, f, rfl⟩ := of_writeFails hst
    exact h.skip (i + 1) st.migrated (st.failed ++ [f])
  | updates now =>
    obtain ⟨i, r, iv, k, hloop, hk, rfl⟩ := of_updates hst
    obtain rfl : key = k := Option.some.inj (h.store.current.symm.trans hk)
    exact h.updates hloop now

/-! ## Files that have been migrated -/

/-- The file has been migrated: its key version is that of the run or above, and the loop is not at it. -/
structure Migrated (v : ℤ) (st : RetirementState Key) (f : FileId) : Prop where
  away : st.loop.fileId ≠ some f
  version : ∃ m, st.service.Encrypted f m ∧ v ≤ m.keyVersion

/-- The step is none of a call of `encryptFile` for this file that changes it. -/
def Spares (f : FileId) (st : RetirementState Key) : RetirementAction → Prop
  | .uploadWrites i => ∀ u ∈ st.uploads[i]?, u.input.fileId ≠ f
  | .uploadResolves i => ∀ u ∈ st.uploads[i]?, u.input.fileId ≠ f
  | _ => True

/-- The file is stored as before. -/
def SameFile (f : FileId) (st t : RetirementState Key) : Prop :=
  t.service.metadataStore.get f = st.service.metadataStore.get f ∧
    t.service.disk.readFile f.encName = st.service.disk.readFile f.encName

/-- A write of another file. -/
theorem readFile_putEncrypted_of_ne {f g : FileId} (h : g ≠ f) (s : Service Key) (k : Key)
    (iv : Block ivLength) (b : List UInt8) :
    (s.putEncrypted A k g iv b).disk.readFile f.encName = s.disk.readFile f.encName :=
  Disk.readFile_put_of_ne _ (fun heq => h (FileId.encName_inj.1 heq).symm) _

/-- The metadata of another file are recorded. -/
theorem get_setMetadata_of_ne {f g : FileId} (h : g ≠ f) (s : Service Key) (m : EncryptionMetadata) :
    (s.setMetadata g m).metadataStore.get f = s.metadataStore.get f := by
  rw [Service.get_setMetadata, if_neg (Ne.symm h)]

/-- A file that is stored as before stays migrated. -/
theorem Migrated.of_sameFile {f : FileId} (h : Migrated v st f) (haway : t.loop.fileId ≠ some f)
    (hsame : SameFile f st t) : Migrated v t f := by
  obtain ⟨m, ⟨hget, hplain⟩, hversion⟩ := h.version
  exact ⟨haway, m, ⟨hsame.1.trans hget, hplain⟩, hversion⟩

/-- The loop does not take a file that has been migrated. -/
theorem Migrated.next {f : FileId} (h : Migrated v st f) (hst : retirementStep A v st .next = some t) :
    t.loop.fileId ≠ some f ∧ t.service = st.service := by
  obtain ⟨i, -, rfl | rfl | ⟨g, m', hentry, -, hlt, rfl⟩⟩ := of_next hst
  · exact ⟨(Option.some_ne_none f).symm, rfl⟩
  · exact ⟨(Option.some_ne_none f).symm, rfl⟩
  · refine ⟨fun hg => ?_, rfl⟩
    obtain rfl : g = f := Option.some.inj hg
    obtain ⟨m, ⟨hget, -⟩, hversion⟩ := h.version
    have hget' : st.service.metadataStore.get g = some m' :=
      (OrderedMap.get_eq_some _ _ _).2 (List.mem_of_getElem? hentry)
    obtain rfl := Option.some.inj (hget.symm.trans hget')
    omega

/-- A file at which the loop is has not been migrated. -/
theorem Migrated.ne_of_loop {f g : FileId} (h : Migrated v st f) (hg : st.loop.fileId = some g) : g ≠ f :=
  fun heq => h.away (hg.trans (congrArg some heq))

/-- A step that spares a migrated file leaves it as it is. -/
theorem Migrated.step {f : FileId} (h : Migrated v st f) (action : RetirementAction)
    (hspare : Spares f st action) (hst : retirementStep A v st action = some t) :
    Migrated v t f ∧ SameFile f st t := by
  have haway := h.away
  have hnone : none ≠ some f := (Option.some_ne_none f).symm
  -- What changes neither the file nor the entry of the loop.
  have hkeep : t.loop.fileId ≠ some f → SameFile f st t → Migrated v t f ∧ SameFile f st t :=
    fun haway hsame => ⟨h.of_sameFile haway hsame, hsame⟩
  cases action with
  | encryptFile buffer input iv now =>
    obtain rfl := Option.some.inj hst
    exact hkeep haway ⟨rfl, rfl⟩
  | uploadWrites i =>
    obtain ⟨u, k, hu, -, -, rfl⟩ := of_uploadWrites hst
    exact hkeep haway ⟨rfl, readFile_putEncrypted_of_ne (hspare u hu) _ _ _ _⟩
  | uploadFails i =>
    obtain rfl := of_uploadFails hst
    exact hkeep haway ⟨rfl, rfl⟩
  | uploadResolves i =>
    obtain ⟨u, k, hu, -, -, rfl⟩ := of_uploadResolves hst
    exact hkeep haway ⟨get_setMetadata_of_ne (hspare u hu) _ _, rfl⟩
  | start =>
    obtain rfl := of_start hst
    exact hkeep hnone ⟨rfl, rfl⟩
  | next =>
    obtain ⟨haway', hservice⟩ := h.next hst
    exact hkeep haway' ⟨by rw [hservice], by rw [hservice]⟩
  | reads iv =>
    obtain ⟨i, g, m, hloop, rfl | ⟨k, decrypted, -, -, rfl⟩⟩ := of_reads hst
    · exact hkeep hnone ⟨rfl, rfl⟩
    · rw [hloop] at haway
      exact hkeep haway ⟨rfl, rfl⟩
  | readFails =>
    obtain ⟨i, g, rfl⟩ := of_readFails hst
    exact hkeep hnone ⟨rfl, rfl⟩
  | writes =>
    obtain ⟨i, r, iv, k, hloop, -, rfl⟩ := of_writes hst
    have hne : r.fileId ≠ f := h.ne_of_loop (congrArg LoopPoint.fileId hloop)
    rw [hloop] at haway
    -- The loop writes the file of its own entry, which is another one.
    exact hkeep haway ⟨rfl, readFile_putEncrypted_of_ne hne _ _ _ _⟩
  | writeFails =>
    obtain ⟨i, g, rfl⟩ := of_writeFails hst
    exact hkeep hnone ⟨rfl, rfl⟩
  | updates now =>
    obtain ⟨i, r, iv, k, hloop, -, rfl⟩ := of_updates hst
    have hne : r.fileId ≠ f := h.ne_of_loop (congrArg LoopPoint.fileId hloop)
    exact hkeep hnone ⟨get_setMetadata_of_ne hne _ _, rfl⟩

/-- A file that has been migrated stays as it is, over any number of runs. -/
theorem Migrated.along {f : FileId} (h : Migrated v st f) {actions : List RetirementAction}
    (hspare : Guarded (retirementStep A v) (Spares f) st actions) :
    Along (retirementStep A v) (SameFile f st) st actions := by
  refine along_of_guarded (I := fun t => Migrated v t f ∧ SameFile f st t) (fun _ hinv => hinv.2) ?_
    ⟨h, rfl, rfl⟩ hspare
  rintro t action t' ⟨hmigrated, hsame⟩ hspare hst
  obtain ⟨hmigrated', hsame'⟩ := hmigrated.step action hspare hst
  exact ⟨hmigrated', hsame'.1.trans hsame.1, hsame'.2.trans hsame.2⟩

/-! ## Runs -/

/-- What the retirement of the previous key keeps: every file is read as its plaintext, and also without
the previous key when re-encryption is complete; and a file that has been migrated stays as it is, unless
`encryptFile` writes it. -/
structure Safe (A : Gcm Key) (v : ℤ) (st : RetirementState Key) : Prop where
  read : st.service.AllRead A st.original
  retired : st.service.isReEncryptionComplete v = true →
    st.service.clearPreviousEncryptionKey.AllRead A st.original
  idempotent : ∀ f, Migrated v st f → ∀ actions, Guarded (retirementStep A v) (Spares f) st actions →
    Along (retirementStep A v) (SameFile f st) st actions

/-- A service with nothing under way. -/
def init (service : Service Key) (original : FileId → List UInt8) : RetirementState Key :=
  ⟨service, [], .idle, [], [], original⟩

theorem Inv.init {service : Service Key} (h : service.TwoKeys A key previous v original) :
    (init service original).Inv A key previous v :=
  ⟨h, fun _ hu => absurd hu List.not_mem_nil, trivial⟩

theorem Inv.safe (hA : A.Authenticating) [DecidableEq Key] (h : st.Inv A key previous v) : st.Safe A v :=
  ⟨h.store.allRead hA, h.store.allRead_clear hA, fun _ hmigrated _ hspare => hmigrated.along hspare⟩

/-- A call that writes other bytes to a file that is stored encrypted: until it records its metadata, the
file is not read as its plaintext. -/
theorem Inv.not_safe_of_uploadWrites (h : st.Inv A key previous v) {u : Upload} {m : EncryptionMetadata}
    (hu : st.uploads[i]? = some u) (hm : st.service.Encrypted u.input.fileId m)
    (hother : st.original u.input.fileId ≠ u.buffer) (hst : retirementStep A v st (.uploadWrites i) = some t) :
    ¬t.Safe A v := by
  obtain ⟨u', k, hu', hk, -, rfl⟩ := of_uploadWrites hst
  obtain rfl : u = u' := Option.some.inj (hu.symm.trans hu')
  obtain rfl : key = k := Option.some.inj (h.store.current.symm.trans hk)
  intro hsafe
  have hget : (st.service.putEncrypted A key u.input.fileId u.iv u.buffer).metadataStore.get u.input.fileId =
      some m := hm.1
  have hread := (Service.reads_of_encrypted hget hm.2 _).1 (hsafe.read u.input.fileId m hget)
  obtain ⟨k, hk', data, hdata, hopen, -⟩ := hread
  obtain rfl : key = k := Option.some.inj (hk.symm.trans hk')
  -- The file now has the bytes of the call, under the first key that is tried.
  have hnew : data = A.wrap key u.iv u.buffer :=
    Option.some.inj (hdata.symm.trans (Disk.readFile_put_self _ _ _))
  have hwrap : A.unwrapWith (st.service.decryptionKeys key) data = some u.buffer := by
    rw [hnew]
    exact Aead.unwrapWith_cons_of_some (Aead.unwrap_wrap key u.iv u.buffer) _
  exact hother (Option.some.inj (hopen.symm.trans hwrap))

end RetirementState

open RetirementState

/-- In a store under two keys, with any runs of `reEncryptStoreToCurrentKey` one after another, any calls
of `encryptFile` under way and any failures, steps that keep the files keep what the retirement of the
previous key needs in every state. -/
theorem retirement_safe [DecidableEq Key] (A : Gcm Key) (hA : A.Authenticating) {key previous : Key} {v : ℤ}
    {service : Service Key} {original : FileId → List UInt8}
    (hstore : service.TwoKeys A key previous v original) (actions : List RetirementAction)
    (hsafe : Guarded (retirementStep A v) (KeepsFiles v) (RetirementState.init service original) actions) :
    Along (retirementStep A v) (Safe A v) (RetirementState.init service original) actions :=
  along_of_guarded (fun _ hinv => hinv.safe hA) (fun _ action _ hinv hstep hst => hinv.step hA action hstep hst)
    (Inv.init hstore) hsafe

/-! ## One file -/

instance (v : ℤ) (st : RetirementState Key) : Decidable (st.TakesVersion v) := by
  unfold TakesVersion
  cases st.loop <;> infer_instance

instance (v : ℤ) (st : RetirementState Key) (action : RetirementAction) :
    Decidable (KeepsFiles v st action) := by
  unfold KeepsFiles SameBytes Service.NoPlainFile
  cases action <;> infer_instance

/-- `oneFile` after a change of keys: the file is under the previous one. -/
def changedKey : Service UInt8 :=
  { oneFile with encryptionKey := some 2, previousEncryptionKey := some 1 }

/-- The plaintext of the file. -/
def onePlaintext (f : FileId) : List UInt8 := if f = fileA then [1] else []

/-- The file is under the previous key, with the key version 1. -/
theorem changedKey_twoKeys : changedKey.TwoKeys shiftCipher 2 1 2 onePlaintext := by
  have hmeta : ∀ f m, changedKey.metadataStore.get f = some m →
      f = fileA ∧ m = encryptedMetadata shiftCipher 1 [1] (versionOne fileA) zeroIv "now" := by
    intro f m hget
    have hset : changedKey.metadataStore.get f = _ := OrderedMap.get_set _ _ _ _
    rw [hset] at hget
    split_ifs at hget with hf
    · exact ⟨hf, (Option.some.inj hget).symm⟩
    · exact absurd hget (by simp [OrderedMap.get, OrderedMap.empty])
  refine ⟨rfl, rfl, ?_, ?_, ?_⟩
  · intro f m hget hplain
    obtain ⟨-, rfl⟩ := hmeta f m hget
    exact absurd hplain (by decide)
  · intro f m hm
    obtain ⟨rfl, rfl⟩ := hmeta f m hm.1
    rfl
  · intro f m hm
    obtain ⟨rfl, rfl⟩ := hmeta f m hm.1
    exact Or.inr ⟨⟨zeroIv, rfl⟩, by decide⟩

/-- A run in which the file is migrated, while a second one is uploaded, and another run. -/
theorem retirement_safe_oneFile :
    Along (retirementStep shiftCipher 2) (Safe shiftCipher 2) (RetirementState.init changedKey onePlaintext)
      [.start, .next, .encryptFile [9] (versionOne fileB) zeroIv "now", .reads zeroIv, .uploadWrites 0,
        .writes, .uploadResolves 0, .updates "later", .next, .readFails, .next, .start, .next, .next,
        .reads zeroIv, .writes, .updates "last", .next] :=
  retirement_safe shiftCipher shiftCipher_authenticating changedKey_twoKeys _ (by decide +kernel)

/-- The loop reads the file, a call of `encryptFile` replaces it and resolves, and the loop writes what it
has read and its old metadata: the bytes of the call are lost. -/
theorem upload_lost : changedKey.TwoKeys shiftCipher 2 1 2 onePlaintext ∧
    ¬∀ actions, Along (retirementStep shiftCipher 2) (Safe shiftCipher 2)
      (RetirementState.init changedKey onePlaintext) actions := by
  refine ⟨changedKey_twoKeys, fun hall => ?_⟩
  have hrun : (run (retirementStep shiftCipher 2) (RetirementState.init changedKey onePlaintext)
      [.start, .next, .reads zeroIv, .encryptFile [5] ⟨fileA, "a", "text/plain", 1, 2⟩ zeroIv "now",
        .uploadWrites 0, .uploadResolves 0, .writes, .updates "later", .next]).map (fun t =>
          (t.original fileA, (t.service.metadataStore.get fileA).isSome,
            (t.service.decryptFile shiftCipher fileA).toOption.map Prod.fst)) =
      some ([5], true, some [1]) := by decide +kernel
  obtain ⟨t, ht, hfile⟩ := Option.map_eq_some_iff.1 hrun
  simp only [Prod.mk.injEq] at hfile
  obtain ⟨horiginal, hstored, hlost⟩ := hfile
  obtain ⟨m, hm⟩ := Option.isSome_iff_exists.1 hstored
  have hread : t.service.Reads shiftCipher fileA [5] := horiginal ▸ ((hall _).last ht).read fileA m hm
  -- Every call has resolved, and the file is read as what it was before.
  unfold Service.Reads at hread
  cases hd : t.service.decryptFile shiftCipher fileA with
  | error e =>
    rw [hd] at hlost
    cases hlost
  | ok r =>
    rw [hd] at hlost hread
    have hboth : [5] = ([1] : List UInt8) := (Except.ok.inj hread).symm.trans (Option.some.inj hlost)
    exact absurd hboth (by decide)

end AlsaqiBackend.Files
