import Mathlib.Data.List.Basic
import Mathlib.Data.Int.Notation

/-!
# The backup scheduler

A cycle of `BackupScheduler.executeBackup` dumps the database, bundles the dump with the uploads into an
archive, encrypts the archive, copies what it retains to the offsite store, and writes one path into its row
of `backup_history`; then it applies the retention policy. Every step can fail, and a step that writes a file
can leave a part of it behind. How the steps of one cycle end is given by a `Cycle`.

Rows are written without failures. The identifiers that `crypto.randomUUID` gives are all different: they
are counted here. The directory of the offsite store is another one than `backupDir`.
-/

namespace AlsaqiBackend.Backup

/-- What a cycle with this identifier puts into `backupDir`: `backup_<id>.sql.gz` or the directory of the
JSON export, `backup_<id>.tar.gz`, and `backup_<id>.tar.gz.enc`. -/
inductive Artifact where
  | dump (backupId : ℕ)
  | archive (backupId : ℕ)
  | encrypted (backupId : ℕ)
deriving DecidableEq

def Artifact.backupId : Artifact → ℕ
  | dump backupId => backupId
  | archive backupId => backupId
  | encrypted backupId => backupId

/-- The `partial` of the source is `partially`. -/
inductive Status where
  | running
  | success
  | partially
  | failed
deriving DecidableEq

/-- A row of `backup_history`. An empty `file_path` is `none`. -/
structure BackupRecord where
  id : ℕ
  startedAt : ℤ
  status : Status
  sizeBytes : ℕ
  tablesCount : ℤ
  filePath : Option Artifact
  errors : List String
  verified : Bool
deriving DecidableEq

/-- How a step ends that writes a file: with the whole file, or with an error that may leave a part of it. -/
inductive Writing where
  | done (size : ℕ)
  | failed (leaves : Bool) (message : String)

/-- What `createBackupInternal` returns, beside its path. -/
structure InternalBackupResult where
  size : ℕ
  tablesCount : ℕ
  errors : List String

/-- The dump of the database: by `pg_dump`, or as JSON by `createBackupInternal`, which throws only where
its directory is not made. -/
inductive Dump where
  | external (hasUrl : Bool) (pgDump : Writing)
  | internal (result : Except String InternalBackupResult)

/-- How the steps of a cycle end, as far as it gets to them. -/
structure Cycle where
  startedAt : ℤ
  /-- `mkdirSync` of `backupDir`. -/
  makesDir : Except String Unit
  dump : Dump
  tar : Writing
  hasKey : Bool
  encryption : Writing
  /-- Whether `removeArtifact` removes the dump. -/
  removesDump : Bool
  /-- Whether `removeArtifact` removes the archive. -/
  removesArchive : Bool
  /-- `statSync` of what is retained. -/
  stat : Except String ℕ
  offsite : Except String (Option String)
  /-- `statSync` of what is retained, once more after a failure. -/
  statAgain : Option ℕ
  /-- The cutoff of the retention policy. -/
  cutoff : ℤ
  /-- Whether the query of the retention policy is answered. -/
  selects : Bool
  /-- Whether the retention policy gets to remove the file of a row. -/
  unlinks : Artifact → Bool

/-- The directory, the table, and the next identifier. -/
structure BackupState where
  disk : List Artifact
  history : List BackupRecord
  nextId : ℕ

def BackupState.init : BackupState := ⟨[], [], 0⟩

/-! ## The storage step -/

/-- What `storeBackup` leaves on the disk, what it has called `onRetained` with, and how it ends. -/
structure Stored where
  disk : List Artifact
  retained : Option Artifact
  result : Except String (Artifact × ℕ × Option String)

/-- A step that fails may leave a part of its file. -/
def leave (leaves : Bool) (artifact : Artifact) (disk : List Artifact) : List Artifact :=
  if leaves then artifact :: disk else disk

def removeArtifact (removes : Bool) (target : Artifact) (disk : List Artifact) : List Artifact :=
  if removes then disk.filter (· ≠ target) else disk

namespace Cycle

/-- The end of `storeBackup`: the artifact is surfaced between `statSync` and the offsite copy. -/
def retain (c : Cycle) (disk : List Artifact) (retainedPath : Artifact) : Stored :=
  match c.stat with
  | .error message => ⟨disk, none, .error message⟩
  | .ok size =>
    match c.offsite with
    | .error message => ⟨disk, some retainedPath, .error message⟩
    | .ok offsiteLocation => ⟨disk, some retainedPath, .ok (retainedPath, size, offsiteLocation)⟩

def storeBackup (c : Cycle) (backupId : ℕ) (disk : List Artifact) : Stored :=
  match c.tar with
  | .failed leaves message => ⟨leave leaves (.archive backupId) disk, none, .error message⟩
  | .done _ =>
    let disk := .archive backupId :: disk
    if !c.hasKey then c.retain (removeArtifact c.removesDump (.dump backupId) disk) (.archive backupId)
    else
      match c.encryption with
      | .failed leaves message => ⟨leave leaves (.encrypted backupId) disk, none, .error message⟩
      | .done _ =>
        let disk := removeArtifact c.removesDump (.dump backupId) (.encrypted backupId :: disk)
        c.retain (removeArtifact c.removesArchive (.archive backupId) disk) (.encrypted backupId)

/-! ## One cycle -/

/-- The variables of `executeBackup` behind its `try` and `catch`. -/
structure Attempt where
  disk : List Artifact
  filePath : Option Artifact
  sizeBytes : ℕ
  tablesCount : ℤ
  status : Status
  offsiteLocation : Option String
  errors : List String

/-- An error that is thrown before anything is stored. -/
def thrown (disk : List Artifact) (filePath : Option Artifact) (message : String) : Attempt :=
  { disk := disk
    filePath := filePath
    sizeBytes := 0
    tablesCount := 0
    status := .failed
    offsiteLocation := none
    errors := [message] }

/-- The storage step after a dump, with the `catch` around it. -/
def store (c : Cycle) (backupId : ℕ) (dumped : Attempt) : Attempt :=
  let stored := c.storeBackup backupId dumped.disk
  match stored.result with
  | .ok (path, size, offsiteLocation) =>
    { dumped with
      disk := stored.disk
      filePath := some path
      sizeBytes := size
      offsiteLocation := offsiteLocation }
  | .error message =>
    { dumped with
      disk := stored.disk
      filePath := stored.retained.or dumped.filePath
      sizeBytes := if stored.retained.isSome then c.statAgain.getD dumped.sizeBytes else dumped.sizeBytes
      status := .failed
      errors := dumped.errors ++ [message] }

end Cycle

/-- The status of a JSON export. -/
def InternalBackupResult.status (result : InternalBackupResult) : Status :=
  if result.errors.length > 0 then (if result.tablesCount > 0 then .partially else .failed) else .success

namespace Cycle

/-- The `try` block of `executeBackup` with its `catch`. -/
def attempt (c : Cycle) (backupId : ℕ) (disk : List Artifact) : Attempt :=
  match c.makesDir with
  | .error message => thrown disk none message
  | .ok () =>
    match c.dump with
    | .external false _ =>
      thrown disk (some (.dump backupId)) "DATABASE_URL is not set for external PostgreSQL backup"
    | .external true (.failed leaves message) =>
      thrown (leave leaves (.dump backupId) disk) (some (.dump backupId)) message
    | .external true (.done size) =>
      let disk := .dump backupId :: disk
      if size = 0 then thrown disk (some (.dump backupId)) "pg_dump produced an empty backup file"
      else
        c.store backupId
          { disk := disk
            filePath := some (.dump backupId)
            sizeBytes := size
            tablesCount := -1
            status := .success
            offsiteLocation := none
            errors := [] }
    | .internal (.error message) => thrown disk none message
    | .internal (.ok result) =>
      let dumped : Attempt :=
        { disk := .dump backupId :: disk
          filePath := some (.dump backupId)
          sizeBytes := result.size
          tablesCount := result.tablesCount
          status := result.status
          offsiteLocation := none
          errors := result.errors }
      if result.status ≠ .failed then c.store backupId dumped else dumped

end Cycle

namespace BackupState

/-- `saveRecord`, the cycle, and `updateRecord`. -/
def backUp (s : BackupState) (c : Cycle) : BackupState :=
  let started : BackupRecord :=
    { id := s.nextId
      startedAt := c.startedAt
      status := .running
      sizeBytes := 0
      tablesCount := 0
      filePath := none
      errors := []
      verified := false }
  let a := c.attempt s.nextId s.disk
  let updated (record : BackupRecord) : BackupRecord :=
    { record with
      status := a.status
      sizeBytes := a.sizeBytes
      tablesCount := a.tablesCount
      filePath := a.filePath
      errors := a.errors
      verified := a.status ≠ .failed && a.sizeBytes > 0 }
  { disk := a.disk
    history := (s.history ++ [started]).map fun record => if record.id = s.nextId then updated record else record
    nextId := s.nextId + 1 }

/-- One round of the loop of `applyRetentionPolicy`: an error of the removal is logged, and the row is deleted
after it. -/
def removeOld (c : Cycle) (s : BackupState) (record : BackupRecord) : BackupState :=
  { s with
    disk :=
      match record.filePath with
      | some path => removeArtifact (c.unlinks path) path s.disk
      | none => s.disk
    history := s.history.filter fun r => r.id ≠ record.id }

/-- The rows that the query of `applyRetentionPolicy` selects. -/
def oldRecords (s : BackupState) (c : Cycle) : List BackupRecord :=
  if c.selects then s.history.filter fun record => record.startedAt < c.cutoff ∧ record.status ≠ .running
  else []

def applyRetentionPolicy (s : BackupState) (c : Cycle) : BackupState :=
  (s.oldRecords c).foldl (removeOld c) s

def executeBackup (s : BackupState) (c : Cycle) : BackupState := (s.backUp c).applyRetentionPolicy c

end BackupState

end AlsaqiBackend.Backup
