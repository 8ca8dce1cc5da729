import AlsaqiBackend.Backup.Scheduler
import AlsaqiBackend.Lib.Run

/-!
# Tracking of backup files

A cycle puts up to three artifacts into `backupDir` one after the other, and its row names one of them. What
the row does not name is never removed. An artifact that is not tracked stays behind where `tar` fails with a
part of its archive written, where the encryption fails (the archive is there, and perhaps a part of the
encrypted file), where `removeArtifact` or `statSync` fails, and where the retention policy deletes a row
whose file it could not remove. Along a run every file is tracked exactly when no cycle does one of these
(`accountedFor_along_iff`).
-/

namespace AlsaqiBackend.Backup

open Lib

/-- One cycle. -/
def backupStep (s : BackupState) (c : Cycle) : Option BackupState := some (s.executeBackup c)

namespace BackupState

/-- Every file in the directory is the `file_path` of a row. -/
def Tracked (s : BackupState) : Prop :=
  ∀ path ∈ s.disk, ∃ record ∈ s.history, record.filePath = some path

/-- What a cycle has to account for: every file is tracked after it, the row of a file that is still there
has not been deleted, a cycle with a key that does not fail leaves no plaintext, and no failed row is
verified. -/
structure AccountedFor (s : BackupState) (c : Cycle) : Prop where
  tracked : (s.executeBackup c).Tracked
  kept : ∀ record ∈ (s.backUp c).history, record ∉ (s.executeBackup c).history →
    ∀ path, record.filePath = some path → path ∉ (s.executeBackup c).disk
  encrypted : c.hasKey = true → (c.attempt s.nextId s.disk).status ≠ .failed →
    .dump s.nextId ∉ (s.executeBackup c).disk ∧ .archive s.nextId ∉ (s.executeBackup c).disk
  unverified : ∀ record ∈ (s.executeBackup c).history, record.status = .failed → record.verified = false

end BackupState

/-! ## When a cycle leaves nothing behind -/

/-- The dump has produced an output, so that the cycle comes to its storage step. -/
def Cycle.Dumped (c : Cycle) : Prop :=
  c.makesDir = .ok () ∧
    match c.dump with
    | .external hasUrl pgDump => hasUrl = true ∧ ∃ size, pgDump = .done size ∧ size ≠ 0
    | .internal (.ok result) => result.status ≠ .failed
    | .internal (.error _) => False

/-- The storage step leaves nothing but what its row names: `tar` fails without a part of the archive, or the
archive is encrypted where there is a key, the intermediates are removed, and what is retained is there. -/
def Cycle.StoresCleanly (c : Cycle) : Prop :=
  match c.tar with
  | .failed leaves _ => leaves = false
  | .done _ =>
    c.removesDump = true ∧ (∃ size, c.stat = .ok size) ∧
      (c.hasKey = true → (∃ size, c.encryption = .done size) ∧ c.removesArchive = true)

namespace BackupState

/-- The retention policy removes the files of the rows that it deletes, as far as they are there. -/
def RemovesCleanly (s : BackupState) (c : Cycle) : Prop :=
  ∀ record ∈ s.oldRecords c, ∀ path ∈ s.disk, record.filePath = some path → c.unlinks path = true

def Clean (s : BackupState) (c : Cycle) : Prop :=
  (c.Dumped → c.StoresCleanly) ∧ (s.backUp c).RemovesCleanly c

/-- What holds of the rows in every run. -/
structure Sound (s : BackupState) : Prop where
  unique : ∀ r ∈ s.history, ∀ r' ∈ s.history, r.id = r'.id → r = r'
  fresh : ∀ r ∈ s.history, r.id < s.nextId
  own : ∀ r ∈ s.history, ∀ path, r.filePath = some path → path.backupId = r.id
  unverified : ∀ r ∈ s.history, r.status = .failed → r.verified = false

end BackupState

/-! ## One attempt -/

variable {c : Cycle} {backupId : ℕ} {disk : List Artifact}

/-- The artifacts of one cycle. -/
theorem forall_own {P : Artifact → Prop} :
    (∀ path, path.backupId = backupId → P path) ↔
      P (.dump backupId) ∧ P (.archive backupId) ∧ P (.encrypted backupId) := by
  constructor
  · intro h
    exact ⟨h _ rfl, h _ rfl, h _ rfl⟩
  · rintro ⟨hdump, harchive, hencrypted⟩ path rfl
    cases path with
    | dump => exact hdump
    | archive => exact harchive
    | encrypted => exact hencrypted

theorem mem_removeArtifact {removes : Bool} {target path : Artifact} :
    path ∈ removeArtifact removes target disk ↔ path ∈ disk ∧ (removes = true → path ≠ target) := by
  unfold removeArtifact
  cases removes with
  | false => simp
  | true => simp

theorem mem_leave {leaves : Bool} {artifact path : Artifact} :
    path ∈ leave leaves artifact disk ↔ leaves = true ∧ path = artifact ∨ path ∈ disk := by
  unfold leave
  cases leaves with
  | false => simp
  | true => simp

/-- The end of the storage step leaves the disk as it is. -/
theorem Cycle.disk_retain (retainedPath : Artifact) : (c.retain disk retainedPath).disk = disk := by
  unfold retain
  cases c.stat with
  | error message => rfl
  | ok size =>
    cases c.offsite with
    | error message => rfl
    | ok location => rfl

/-- The row names what `storeBackup` returns, or what it has called `onRetained` with before it failed, or
else the dump. -/
def Stored.path (stored : Stored) (dumpPath : Option Artifact) : Option Artifact :=
  match stored.result with
  | .ok (path, _, _) => some path
  | .error _ => stored.retained.or dumpPath

theorem Cycle.path_retain (h : ∃ size, c.stat = .ok size) (retainedPath : Artifact)
    (dumpPath : Option Artifact) : (c.retain disk retainedPath).path dumpPath = some retainedPath := by
  obtain ⟨size, hstat⟩ := h
  unfold retain Stored.path
  rw [hstat]
  cases c.offsite with
  | error message => rfl
  | ok location => rfl

theorem Cycle.path_retain_of_not (h : ¬∃ size, c.stat = .ok size) (retainedPath : Artifact)
    (dumpPath : Option Artifact) : (c.retain disk retainedPath).path dumpPath = dumpPath := by
  unfold retain Stored.path
  cases hstat : c.stat with
  | error message => rfl
  | ok size => exact absurd ⟨size, hstat⟩ h

theorem Cycle.disk_store (dumped : Attempt) :
    (c.store backupId dumped).disk = (c.storeBackup backupId dumped.disk).disk := by
  unfold store
  dsimp only
  split
  · rfl
  · rfl

theorem Cycle.filePath_store (dumped : Attempt) :
    (c.store backupId dumped).filePath = (c.storeBackup backupId dumped.disk).path dumped.filePath := by
  unfold store Stored.path
  cases hresult : (c.storeBackup backupId dumped.disk).result with
  | ok stored => simp only [hresult]
  | error message => simp only [hresult]

/-- The storage step touches the artifacts of its own cycle only. -/
theorem Cycle.mem_storeBackup {path : Artifact} (hne : path.backupId ≠ backupId) :
    path ∈ (c.storeBackup backupId disk).disk ↔ path ∈ disk := by
  have hdump : path ≠ .dump backupId := fun h => hne (h ▸ rfl)
  have harchive : path ≠ .archive backupId := fun h => hne (h ▸ rfl)
  have hencrypted : path ≠ .encrypted backupId := fun h => hne (h ▸ rfl)
  unfold storeBackup
  cases c.tar with
  | failed leaves message => simp [mem_leave, harchive]
  | done size =>
    cases c.hasKey with
    | false => simp [disk_retain, mem_removeArtifact, hdump, harchive]
    | true =>
      cases c.encryption with
      | failed leaves message => simp [mem_leave, harchive, hencrypted]
      | done size => simp [disk_retain, mem_removeArtifact, hdump, harchive, hencrypted]

/-- After the storage step the row names all that the cycle has left exactly when the step was clean. -/
theorem Cycle.storeBackup_tracks_iff (hfresh : ∀ path ∈ disk, path.backupId ≠ backupId) :
    (∀ path, path.backupId = backupId → path ∈ (c.storeBackup backupId (.dump backupId :: disk)).disk →
        (c.storeBackup backupId (.dump backupId :: disk)).path (some (.dump backupId)) = some path) ↔
      c.StoresCleanly := by
  have hdump : Artifact.dump backupId ∉ disk := fun h => hfresh _ h rfl
  have harchive : Artifact.archive backupId ∉ disk := fun h => hfresh _ h rfl
  have hencrypted : Artifact.encrypted backupId ∉ disk := fun h => hfresh _ h rfl
  rw [forall_own]
  unfold storeBackup StoresCleanly
  cases c.tar with
  | failed leaves message =>
    simp [mem_leave, Stored.path, harchive, hencrypted]
  | done size =>
    cases c.hasKey with
    | false =>
      by_cases hstat : ∃ size, c.stat = .ok size
      · simp [disk_retain, mem_removeArtifact, path_retain hstat, hstat, hencrypted]
      · simp [disk_retain, mem_removeArtifact, path_retain_of_not hstat, hstat]
    | true =>
      cases c.encryption with
      | failed leaves message => simp [mem_leave, Stored.path]
      | done size =>
        by_cases hstat : ∃ size, c.stat = .ok size
        · simp [disk_retain, mem_removeArtifact, path_retain hstat, hstat]
        · simp [disk_retain, mem_removeArtifact, path_retain_of_not hstat, hstat]

/-- With a key, nothing but the encrypted archive is left of a cycle that is clean and does not fail. -/
theorem Cycle.storeBackup_encrypted (hkey : c.hasKey = true) (hclean : c.StoresCleanly)
    (htar : ∃ size, c.tar = .done size) :
    .dump backupId ∉ (c.storeBackup backupId (.dump backupId :: disk)).disk ∧
      .archive backupId ∉ (c.storeBackup backupId (.dump backupId :: disk)).disk := by
  obtain ⟨size, htar⟩ := htar
  unfold StoresCleanly at hclean
  rw [htar] at hclean
  obtain ⟨hremovesDump, -, hencrypts⟩ := hclean
  obtain ⟨⟨size', hencryption⟩, hremovesArchive⟩ := hencrypts hkey
  unfold storeBackup
  rw [htar, hkey, hencryption]
  simp [disk_retain, mem_removeArtifact, hremovesDump, hremovesArchive]

/-- The end of the storage step names what it retains, or leaves the path of the row as it was. -/
theorem Cycle.path_retain_cases {retainedPath path : Artifact} {dumpPath : Option Artifact}
    (h : (c.retain disk retainedPath).path dumpPath = some path) : path = retainedPath ∨ dumpPath = some path := by
  by_cases hstat : ∃ size, c.stat = .ok size
  · rw [path_retain hstat] at h
    exact .inl (Option.some.inj h).symm
  · rw [path_retain_of_not hstat] at h
    exact .inr h

/-- The row names an artifact of its own cycle. -/
theorem Cycle.own_path_storeBackup {path : Artifact}
    (h : (c.storeBackup backupId disk).path (some (.dump backupId)) = some path) : path.backupId = backupId := by
  have hdump : some (Artifact.dump backupId) = some path → path.backupId = backupId :=
    fun heq => Option.some.inj heq ▸ rfl
  unfold storeBackup at h
  cases htar : c.tar with
  | failed leaves message =>
    rw [htar] at h
    exact hdump h
  | done size =>
    rw [htar] at h
    cases hkey : c.hasKey with
    | false =>
      simp only [hkey, Bool.not_false, if_true] at h
      rcases path_retain_cases h with rfl | heq
      · rfl
      · exact hdump heq
    | true =>
      simp only [hkey, Bool.not_true, Bool.false_eq_true, if_false] at h
      cases hencryption : c.encryption with
      | failed leaves message =>
        rw [hencryption] at h
        exact hdump h
      | done size =>
        rw [hencryption] at h
        rcases path_retain_cases h with rfl | heq
        · rfl
        · exact hdump heq

/-- A cycle comes to its storage step with the dump in the directory, or it fails, and then the row names the
dump if there is one. -/
theorem Cycle.attempt_cases (c : Cycle) (backupId : ℕ) (disk : List Artifact) :
    (c.Dumped ∧ ∃ dumped : Attempt, dumped.disk = .dump backupId :: disk ∧
        dumped.filePath = some (.dump backupId) ∧ c.attempt backupId disk = c.store backupId dumped) ∨
      ¬c.Dumped ∧ (c.attempt backupId disk).status = .failed ∧
        (∀ path, (c.attempt backupId disk).filePath = some path → path = .dump backupId) ∧
          ((c.attempt backupId disk).disk = disk ∨
            (c.attempt backupId disk).disk = .dump backupId :: disk ∧
              (c.attempt backupId disk).filePath = some (.dump backupId)) := by
  have hnone : ∀ path, none = some path → path = Artifact.dump backupId := fun path h => absurd h.symm (Option.some_ne_none path)
  have hsome : ∀ path, some (Artifact.dump backupId) = some path → path = .dump backupId :=
    fun path h => (Option.some.inj h).symm
  unfold attempt Dumped
  cases c.makesDir with
  | error message => exact .inr ⟨by simp, rfl, hnone, .inl rfl⟩
  | ok made =>
    cases c.dump with
    | external hasUrl pgDump =>
      cases hasUrl with
      | false => exact .inr ⟨by simp, rfl, hsome, .inl rfl⟩
      | true =>
        cases pgDump with
        | failed leaves message =>
          refine .inr ⟨by simp, rfl, hsome, ?_⟩
          cases leaves with
          | false => exact .inl rfl
          | true => exact .inr ⟨rfl, rfl⟩
        | done size =>
          by_cases hsize : size = 0
          · refine .inr ⟨by simp [hsize], ?_⟩
            simp only [hsize, if_true]
            exact ⟨rfl, hsome, .inr ⟨rfl, rfl⟩⟩
          · refine .inl ⟨⟨rfl, rfl, size, rfl, hsize⟩, ?_⟩
            simp only [hsize, if_false]
            exact ⟨_, rfl, rfl, rfl⟩
    | internal result =>
      cases result with
      | error message => exact .inr ⟨by simp, rfl, hnone, .inl rfl⟩
      | ok result =>
        by_cases hstatus : result.status = .failed
        · refine .inr ⟨by simp [hstatus], ?_⟩
          dsimp only
          rw [if_neg (not_not.2 hstatus)]
          exact ⟨hstatus, hsome, .inr ⟨rfl, rfl⟩⟩
        · refine .inl ⟨⟨rfl, hstatus⟩, ?_⟩
          simp only [ne_eq, hstatus, not_false_eq_true, if_true]
          exact ⟨_, rfl, rfl, rfl⟩

/-- A cycle touches its own artifacts only. -/
theorem Cycle.mem_attempt {path : Artifact} (hne : path.backupId ≠ backupId) :
    path ∈ (c.attempt backupId disk).disk ↔ path ∈ disk := by
  have hdump : path ≠ .dump backupId := fun h => hne (h ▸ rfl)
  rcases c.attempt_cases backupId disk with ⟨-, dumped, hdisk, -, heq⟩ | ⟨-, -, -, hdisk | ⟨hdisk, -⟩⟩
  · rw [heq, disk_store, mem_storeBackup hne, hdisk, List.mem_cons, or_iff_right hdump]
  · rw [hdisk]
  · rw [hdisk, List.mem_cons, or_iff_right hdump]

theorem Cycle.own_attempt {path : Artifact} (h : (c.attempt backupId disk).filePath = some path) :
    path.backupId = backupId := by
  rcases c.attempt_cases backupId disk with ⟨-, dumped, -, hpath, heq⟩ | ⟨-, -, hown, -⟩
  · rw [heq, filePath_store, hpath] at h
    exact own_path_storeBackup h
  · rw [hown path h]
    rfl

/-- The row names all that the cycle has left exactly when its storage step, if it came to it, was clean. -/
theorem Cycle.attempt_tracks_iff (hfresh : ∀ path ∈ disk, path.backupId ≠ backupId) :
    (∀ path, path.backupId = backupId → path ∈ (c.attempt backupId disk).disk →
        (c.attempt backupId disk).filePath = some path) ↔ (c.Dumped → c.StoresCleanly) := by
  rcases c.attempt_cases backupId disk with ⟨hdumped, dumped, hdisk, hpath, heq⟩ | ⟨hdumped, -, -, hdisk⟩
  · rw [heq, disk_store, filePath_store, hdisk, hpath, storeBackup_tracks_iff hfresh]
    exact ⟨fun h _ => h, fun h => h hdumped⟩
  · refine iff_of_true (fun path hown hmem => ?_) fun h => absurd h hdumped
    rcases hdisk with hdisk | ⟨hdisk, hpath⟩
    · rw [hdisk] at hmem
      exact absurd hown (hfresh path hmem)
    · rw [hdisk, List.mem_cons] at hmem
      rcases hmem with rfl | hmem
      · exact hpath
      · exact absurd hown (hfresh path hmem)

/-- A cycle that does not fail has written its archive. -/
theorem Cycle.tar_of_status {dumped : Attempt} (h : (c.store backupId dumped).status ≠ .failed) :
    ∃ size, c.tar = .done size := by
  cases htar : c.tar with
  | done size => exact ⟨size, rfl⟩
  | failed leaves message =>
    unfold store storeBackup at h
    rw [htar] at h
    exact absurd rfl h

/-- A cycle with a key that is clean and does not fail leaves no plaintext. -/
theorem Cycle.attempt_encrypted (hkey : c.hasKey = true) (hclean : c.Dumped → c.StoresCleanly)
    (hstatus : (c.attempt backupId disk).status ≠ .failed) :
    .dump backupId ∉ (c.attempt backupId disk).disk ∧ .archive backupId ∉ (c.attempt backupId disk).disk := by
  rcases c.attempt_cases backupId disk with ⟨hdumped, dumped, hdisk, -, heq⟩ | ⟨-, hfailed, -⟩
  · rw [heq] at hstatus
    rw [heq, disk_store, hdisk]
    exact storeBackup_encrypted hkey (hclean hdumped) (tar_of_status hstatus)
  · exact absurd hfailed hstatus

/-! ## One cycle -/

namespace BackupState

variable {s : BackupState}

/-- The row of a cycle when it is over. -/
def finished (s : BackupState) (c : Cycle) : BackupRecord :=
  let a := c.attempt s.nextId s.disk
  { id := s.nextId
    startedAt := c.startedAt
    status := a.status
    sizeBytes := a.sizeBytes
    tablesCount := a.tablesCount
    filePath := a.filePath
    errors := a.errors
    verified := a.status ≠ .failed && a.sizeBytes > 0 }

/-- The row of the cycle is added, and no other row is changed. -/
theorem Sound.history_backUp (h : s.Sound) (c : Cycle) :
    (s.backUp c).history = s.history ++ [s.finished c] := by
  unfold backUp
  dsimp only
  rw [List.map_append]
  congr 1
  · refine (List.map_congr_left fun record hrecord => ?_).trans (List.map_id s.history)
    exact if_neg (Nat.ne_of_lt (h.fresh record hrecord))
  · rw [List.map_singleton, if_pos rfl]
    rfl

theorem Sound.mem_history_backUp (h : s.Sound) (c : Cycle) {record : BackupRecord} :
    record ∈ (s.backUp c).history ↔ record ∈ s.history ∨ record = s.finished c := by
  rw [h.history_backUp, List.mem_append, List.mem_singleton]

theorem Sound.backUp (h : s.Sound) (c : Cycle) : (s.backUp c).Sound where
  unique r hr r' hr' heq := by
    have hnew : (s.finished c).id = s.nextId := rfl
    rcases (h.mem_history_backUp c).1 hr with hold | rfl
    · rcases (h.mem_history_backUp c).1 hr' with hold' | rfl
      · exact h.unique r hold r' hold' heq
      · have := h.fresh r hold
        omega
    · rcases (h.mem_history_backUp c).1 hr' with hold' | rfl
      · have := h.fresh r' hold'
        omega
      · rfl
  fresh r hr := by
    have hnext : (s.backUp c).nextId = s.nextId + 1 := rfl
    rw [hnext]
    rcases (h.mem_history_backUp c).1 hr with hold | rfl
    · exact Nat.lt_succ_of_lt (h.fresh r hold)
    · exact Nat.lt_succ_self s.nextId
  own r hr path hpath := by
    rcases (h.mem_history_backUp c).1 hr with hold | rfl
    · exact h.own r hold path hpath
    · exact Cycle.own_attempt hpath
  unverified r hr hfailed := by
    rcases (h.mem_history_backUp c).1 hr with hold | rfl
    · exact h.unverified r hold hfailed
    · unfold finished at hfailed ⊢
      dsimp only at hfailed ⊢
      rw [hfailed]
      rfl

/-- The files that were there before a cycle are of earlier cycles. -/
theorem Sound.lt_nextId (h : s.Sound) (htracked : s.Tracked) : ∀ path ∈ s.disk, path.backupId ≠ s.nextId := by
  intro path hpath
  obtain ⟨record, hrecord, hfile⟩ := htracked path hpath
  rw [h.own record hrecord path hfile]
  exact Nat.ne_of_lt (h.fresh record hrecord)

/-- Before its retention policy is applied, a cycle leaves every file tracked exactly when its storage step
was clean. -/
theorem Sound.tracked_backUp_iff (h : s.Sound) (htracked : s.Tracked) :
    (s.backUp c).Tracked ↔ (c.Dumped → c.StoresCleanly) := by
  have hfresh := h.lt_nextId htracked
  rw [← Cycle.attempt_tracks_iff hfresh]
  constructor
  · intro hall path hown hpath
    obtain ⟨record, hrecord, hfile⟩ := hall path hpath
    rcases (h.mem_history_backUp c).1 hrecord with hold | rfl
    · have hid := h.own record hold path hfile
      have hlt := h.fresh record hold
      omega
    · exact hfile
  · intro hown path hpath
    by_cases hid : path.backupId = s.nextId
    · exact ⟨s.finished c, (h.mem_history_backUp c).2 (.inr rfl), hown path hid hpath⟩
    · obtain ⟨record, hrecord, hfile⟩ := htracked path ((Cycle.mem_attempt hid).1 hpath)
      exact ⟨record, (h.mem_history_backUp c).2 (.inl hrecord), hfile⟩

/-! ## The retention policy -/

theorem mem_disk_foldl_removeOld {records : List BackupRecord} {path : Artifact} :
    path ∈ (records.foldl (removeOld c) s).disk ↔
      path ∈ s.disk ∧ ∀ record ∈ records, record.filePath = some path → c.unlinks path = false := by
  induction records generalizing s with
  | nil => simp
  | cons record records ih =>
    have hone : path ∈ (removeOld c s record).disk ↔
        path ∈ s.disk ∧ (record.filePath = some path → c.unlinks path = false) := by
      unfold removeOld
      dsimp only
      cases hfile : record.filePath with
      | none => simp
      | some path' =>
        dsimp only
        rw [mem_removeArtifact]
        refine and_congr_right fun _ => ?_
        by_cases heq : path' = path
        · simp [heq]
        · simp [heq, Ne.symm heq]
    rw [List.foldl_cons, ih, hone, List.forall_mem_cons, and_assoc]

theorem mem_history_foldl_removeOld {records : List BackupRecord} {record : BackupRecord} :
    record ∈ (records.foldl (removeOld c) s).history ↔
      record ∈ s.history ∧ ∀ old ∈ records, record.id ≠ old.id := by
  induction records generalizing s with
  | nil => simp
  | cons old records ih =>
    have hone : record ∈ (removeOld c s old).history ↔ record ∈ s.history ∧ record.id ≠ old.id := by
      unfold removeOld
      rw [List.mem_filter, decide_eq_true_eq]
    rw [List.foldl_cons, ih, hone, List.forall_mem_cons, and_assoc]

theorem nextId_foldl_removeOld (records : List BackupRecord) :
    (records.foldl (removeOld c) s).nextId = s.nextId := by
  induction records generalizing s with
  | nil => rfl
  | cons old records ih => exact ih

theorem mem_of_mem_oldRecords {record : BackupRecord} (h : record ∈ s.oldRecords c) : record ∈ s.history := by
  unfold oldRecords at h
  split_ifs at h
  · exact (List.mem_filter.1 h).1
  · exact absurd h List.not_mem_nil

theorem Sound.applyRetentionPolicy (h : s.Sound) (c : Cycle) : (s.applyRetentionPolicy c).Sound := by
  have hsub : ∀ {r}, r ∈ (s.applyRetentionPolicy c).history → r ∈ s.history :=
    fun hr => (mem_history_foldl_removeOld.1 hr).1
  constructor
  · exact fun r hr r' hr' => h.unique r (hsub hr) r' (hsub hr')
  · intro r hr
    have hnext : (s.applyRetentionPolicy c).nextId = s.nextId := nextId_foldl_removeOld _
    rw [hnext]
    exact h.fresh r (hsub hr)
  · exact fun r hr => h.own r (hsub hr)
  · exact fun r hr => h.unverified r (hsub hr)

/-- The retention policy leaves every file tracked exactly when it was before, and the files of the rows that
are deleted have been removed. -/
theorem Sound.tracked_applyRetentionPolicy_iff (h : s.Sound) :
    (s.applyRetentionPolicy c).Tracked ↔ s.Tracked ∧ s.RemovesCleanly c := by
  constructor
  · intro hafter
    constructor
    · intro path hpath
      by_cases hstays : path ∈ (s.applyRetentionPolicy c).disk
      · obtain ⟨record, hrecord, hfile⟩ := hafter path hstays
        exact ⟨record, (mem_history_foldl_removeOld.1 hrecord).1, hfile⟩
      · -- A file that has been removed was the file of a row.
        by_contra hnone
        refine hstays (mem_disk_foldl_removeOld.2 ⟨hpath, fun record hrecord hfile => ?_⟩)
        exact absurd ⟨record, mem_of_mem_oldRecords hrecord, hfile⟩ hnone
    · intro record hrecord path hpath hfile
      by_contra hunlinks
      have hstays : path ∈ (s.applyRetentionPolicy c).disk :=
        mem_disk_foldl_removeOld.2 ⟨hpath, fun _ _ _ => Bool.eq_false_iff.2 hunlinks⟩
      obtain ⟨record', hrecord', hfile'⟩ := hafter path hstays
      obtain ⟨hmem', hne⟩ := mem_history_foldl_removeOld.1 hrecord'
      have hid := h.own record (mem_of_mem_oldRecords hrecord) path hfile
      have hid' := h.own record' hmem' path hfile'
      exact hne record hrecord (by omega)
  · rintro ⟨htracked, hclean⟩ path hpath
    obtain ⟨hbefore, hunlinks⟩ := mem_disk_foldl_removeOld.1 hpath
    obtain ⟨record, hrecord, hfile⟩ := htracked path hbefore
    refine ⟨record, mem_history_foldl_removeOld.2 ⟨hrecord, fun old hold heq => ?_⟩, hfile⟩
    obtain rfl := h.unique record hrecord old (mem_of_mem_oldRecords hold) heq
    have hremoved := hclean record hold path hbefore hfile
    rw [hunlinks record hold hfile] at hremoved
    exact Bool.noConfusion hremoved

/-! ## Runs -/

/-- A cycle accounts for its files exactly when it is clean. -/
theorem Sound.accountedFor_iff (h : s.Sound) (htracked : s.Tracked) : s.AccountedFor c ↔ s.Clean c := by
  have hbackUp := h.backUp c
  have htracks : (s.executeBackup c).Tracked ↔ s.Clean c := by
    unfold executeBackup Clean
    rw [hbackUp.tracked_applyRetentionPolicy_iff, h.tracked_backUp_iff htracked]
  constructor
  · exact fun haccounted => htracks.1 haccounted.tracked
  · intro hclean
    constructor
    · exact htracks.2 hclean
    · intro record hrecord hdeleted path hfile hpath
      obtain ⟨hbefore, hunlinks⟩ := mem_disk_foldl_removeOld.1 hpath
      refine hdeleted (mem_history_foldl_removeOld.2 ⟨hrecord, fun old hold heq => ?_⟩)
      obtain rfl := hbackUp.unique record hrecord old (mem_of_mem_oldRecords hold) heq
      have hremoved := hclean.2 record hold path hbefore hfile
      rw [hunlinks record hold hfile] at hremoved
      exact Bool.noConfusion hremoved
    · intro hkey hstatus
      obtain ⟨hdump, harchive⟩ := Cycle.attempt_encrypted hkey hclean.1 hstatus
      exact ⟨fun hmem => hdump (mem_disk_foldl_removeOld.1 hmem).1,
        fun hmem => harchive (mem_disk_foldl_removeOld.1 hmem).1⟩
    · exact (hbackUp.applyRetentionPolicy c).unverified

theorem sound_init : init.Sound where
  unique _ hr := absurd hr List.not_mem_nil
  fresh _ hr := absurd hr List.not_mem_nil
  own _ hr := absurd hr List.not_mem_nil
  unverified _ hr := absurd hr List.not_mem_nil

theorem tracked_init : init.Tracked := fun _ hpath => absurd hpath List.not_mem_nil

/-- In a run of cycles every cycle accounts for its files exactly when every cycle is clean. -/
theorem accountedFor_along_iff (cycles : List Cycle) :
    Guarded backupStep AccountedFor init cycles ↔ Guarded backupStep Clean init cycles := by
  refine guarded_congr (I := fun s => s.Sound ∧ s.Tracked) ?_ ?_ cycles ⟨sound_init, tracked_init⟩
  · rintro s c t ⟨hsound, -⟩ haccounted hstep
    obtain rfl := Option.some.inj hstep
    exact ⟨(hsound.backUp c).applyRetentionPolicy c, haccounted.tracked⟩
  · rintro s c t ⟨hsound, htracked⟩ -
    exact hsound.accountedFor_iff htracked

/-! ## An archive that is not encrypted -/

/-- A cycle whose encryption fails after the archive has been written. -/
def encryptionFails : Cycle where
  startedAt := 0
  makesDir := .ok ()
  dump := .external true (.done 1)
  tar := .done 1
  hasKey := true
  encryption := .failed false "ENOSPC"
  removesDump := true
  removesArchive := true
  stat := .ok 1
  offsite := .ok none
  statAgain := some 1
  cutoff := -1
  selects := true
  unlinks := fun _ => true

/-- The archive is left in the directory, and the row names the dump. -/
theorem encryptionFails_not_accountedFor : ¬Guarded backupStep AccountedFor init [encryptionFails] := by
  intro h
  have htracked := (h _ rfl).1.tracked (.archive 0) (by decide)
  exact absurd htracked (by decide)

end BackupState

end AlsaqiBackend.Backup
