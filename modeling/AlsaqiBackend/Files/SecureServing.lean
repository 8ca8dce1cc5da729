import AlsaqiBackend.Files.Containment
import Mathlib.Data.Int.Notation

/-!
# Secure serving of uploaded files

`serveFile` answers an authorised request for a file below the mount of the uploads. The path of the request
begins with a separator, and `path.resolve` takes such a path from the root of the file system: the names
that a client writes after the mount are not looked up in the upload directory. A file of the directory is
sent exactly when its names lead to it from the root as well (`LeadsAlike`), and then only if `res.sendFile`
takes none of the names on the way for a hidden one.

What is read lies below the directory, but for the stored file of an encrypted record: its path is made from
the record's id and opened without a look at where it leads (`StoredInside`).
-/

namespace AlsaqiBackend.Files

open Lib

/-- The fields of a row of `encrypted_files` that choose the stored file. -/
structure EncryptedFileRecord where
  iv : List Char
  keyVersion : ℤ

/-- `!metadata.iv || metadata.keyVersion === 0`. -/
def EncryptedFileRecord.isPlain (record : EncryptedFileRecord) : Bool :=
  record.iv = [] ∨ record.keyVersion = 0

/-- What a request finds: the file system with the upload directory in it, the rows of `encrypted_files`,
and whether a key is set. -/
structure SecureFiles where
  tree : FileTree
  /-- `path.resolve(uploadDir)`. -/
  uploadDir : List PathName
  /-- The real path of the upload directory. -/
  realDir : List PathName
  encryptedFiles : List Char → Option EncryptedFileRecord
  hasKey : Bool
  realpath_uploadDir : tree.realpath uploadDir = some realDir
  isDir : tree.entry realDir = some .dir

/-- How a request ends. A file is given by its real path; it is read as it is, or to be decrypted. -/
inductive Outcome where
  | notFound
  | failed
  | sent (file : List PathName)
  | decrypted (file : List PathName)
deriving DecidableEq

/-- The request reads this file. -/
def Outcome.Reads (outcome : Outcome) (file : List PathName) : Prop :=
  outcome = .sent file ∨ outcome = .decrypted file

/-- `path.basename`. -/
def basename (path : List PathName) : PathName := path.getLast?.getD []

/-- `fileName.replace(/\.enc$/, '')`. -/
def fileIdOf (fileName : PathName) : List Char :=
  if ".enc".toList.isSuffixOf fileName then fileName.take (fileName.length - 4) else fileName

/-- `res.sendFile` answers 404 where a name on the way begins with a dot: `dotfiles` is `ignore` unless it is
set. -/
def isHidden (path : List PathName) : Bool := path.any fun name => name.head? = some '.'

namespace SecureFiles

/-- The path that `createDecryptStream` opens for a record. Without a key it throws. -/
def storedPath (s : SecureFiles) (fileId : List Char) (record : EncryptedFileRecord) :
    Option (List PathName) :=
  if record.isPlain then some (joinPath s.uploadDir fileId)
  else if s.hasKey then some (joinPath s.uploadDir (fileId ++ ".enc".toList))
  else none

def serveEncryptedFile (s : SecureFiles) (fileId : List Char) (record : EncryptedFileRecord) : Outcome :=
  match (s.storedPath fileId record).bind s.tree.file with
  | none => .failed
  | some file => .decrypted file

def serveFile (s : SecureFiles) (filePath : List Char) : Outcome :=
  let containment := checkContainment s.tree s.uploadDir filePath
  if !containment.contained then .notFound
  else
    let fileId := fileIdOf (basename containment.resolvedPath)
    match s.encryptedFiles fileId with
    | some record => s.serveEncryptedFile fileId record
    | none =>
      match s.tree.file containment.resolvedPath with
      | none => .notFound
      | some file => if isHidden containment.resolvedPath then .notFound else .sent file

/-! ## What the directory should give -/

/-- Strictly below the upload directory. -/
def Below (s : SecureFiles) (file : List PathName) : Prop := s.realDir <+: file ∧ s.realDir ≠ file

/-- These names lead from the upload directory to this regular file in it, which is not encrypted. -/
def Offers (s : SecureFiles) (names : List PathName) (file : List PathName) : Prop :=
  (∀ n ∈ names, IsName n) ∧ s.tree.file (s.uploadDir ++ names) = some file ∧ s.Below file ∧
    s.encryptedFiles (fileIdOf (basename file)) = none

/-- A request is served exactly: what it reads is below the directory, and where it has the names of a file
that the directory offers, this file is sent. -/
def ServesExactly (s : SecureFiles) (filePath : List Char) : Prop :=
  (∀ file, (s.serveFile filePath).Reads file → s.Below file) ∧
    ∀ names file, filePath = pathText names → s.Offers names file → s.serveFile filePath = .sent file

/-- Where the request is let through to an encrypted record, its stored file is no link that leaves the
directory. -/
def StoredInside (s : SecureFiles) (filePath : List Char) : Prop :=
  (checkContainment s.tree s.uploadDir filePath).contained = true →
    ∀ record, s.encryptedFiles
        (fileIdOf (basename (checkContainment s.tree s.uploadDir filePath).resolvedPath)) = some record →
      ∀ path file, s.storedPath
          (fileIdOf (basename (checkContainment s.tree s.uploadDir filePath).resolvedPath)) record = some path →
        s.tree.file path = some file → s.Below file

/-- Where the request has the names of a file that the directory offers, these names lead to the same file
from the root of the file system, the directory is not the root itself, and nothing on the way is hidden. -/
def LeadsAlike (s : SecureFiles) (filePath : List Char) : Prop :=
  ∀ names file, filePath = pathText names → s.Offers names file →
    s.tree.realpath names = some file ∧ s.realDir ≠ [] ∧ isHidden file = false

variable {s : SecureFiles} {filePath : List Char} {file names : List PathName}

/-- What is below the directory is not the directory. -/
theorem ne_realDir_of_file {path : List PathName} (h : s.tree.file path = some file) : file ≠ s.realDir := by
  intro heq
  have hentry := (FileTree.file_eq_some_iff.1 h).2
  rw [heq, s.isDir] at hentry
  exact absurd hentry (by decide)

/-- A regular file is reached by its own path only, once its path is a real one. -/
theorem file_checkContainment :
    s.tree.file (checkContainment s.tree s.uploadDir filePath).resolvedPath = some file →
      (checkContainment s.tree s.uploadDir filePath).resolvedPath = file := by
  intro h
  have hnames : ∀ n ∈ pathResolve (realpathBestEffort s.tree s.uploadDir) filePath, IsName n := by
    rw [realpathBestEffort_of_realpath s.realpath_uploadDir]
    exact isName_of_mem_pathResolve (FileTree.real_of_realpath s.realpath_uploadDir).isName filePath
  have hreal := (FileTree.file_eq_some_iff.1 h).1
  unfold checkContainment at hreal ⊢
  dsimp only at hreal ⊢
  rw [realpath_realpathBestEffort hnames] at hreal
  exact realpathBestEffort_of_realpath hreal

/-- What the service does, once it is known what the request is resolved to. -/
theorem serveFile_eq_sent_iff :
    s.serveFile filePath = .sent file ↔
      (checkContainment s.tree s.uploadDir filePath).resolvedPath = file ∧
        (checkContainment s.tree s.uploadDir filePath).contained = true ∧
        s.encryptedFiles (fileIdOf (basename file)) = none ∧ s.tree.file file = some file ∧
        isHidden file = false := by
  unfold serveFile
  dsimp only
  cases hcontained : (checkContainment s.tree s.uploadDir filePath).contained with
  | false => simp
  | true =>
    cases hrecord : s.encryptedFiles
        (fileIdOf (basename (checkContainment s.tree s.uploadDir filePath).resolvedPath)) with
    | some record =>
      constructor
      · intro h
        simp only [Bool.not_true, Bool.false_eq_true, if_false, serveEncryptedFile] at h
        split at h
        · exact Outcome.noConfusion h
        · exact Outcome.noConfusion h
      · rintro ⟨heq, -, hnone, -⟩
        rw [heq, hnone] at hrecord
        exact absurd hrecord.symm (Option.some_ne_none record)
    | none =>
      simp only [Bool.not_true, Bool.false_eq_true, if_false, true_and]
      cases hfile : s.tree.file (checkContainment s.tree s.uploadDir filePath).resolvedPath with
      | none =>
        constructor
        · intro h
          exact Outcome.noConfusion h
        · rintro ⟨heq, -, hself, -⟩
          rw [heq, hself] at hfile
          exact absurd hfile (Option.some_ne_none file)
      | some found =>
        have hfound := file_checkContainment hfile
        rw [hfound] at hrecord hfile ⊢
        constructor
        · intro h
          dsimp only at h
          split_ifs at h with hhidden
          obtain rfl : found = file := Outcome.sent.inj h
          exact ⟨rfl, hrecord, hfile, Bool.eq_false_iff.2 hhidden⟩
        · rintro ⟨rfl, -, -, hhidden⟩
          dsimp only
          rw [if_neg (Bool.eq_false_iff.1 hhidden)]

theorem serveFile_eq_decrypted_iff :
    s.serveFile filePath = .decrypted file ↔
      (checkContainment s.tree s.uploadDir filePath).contained = true ∧
        ∃ record, s.encryptedFiles
            (fileIdOf (basename (checkContainment s.tree s.uploadDir filePath).resolvedPath)) = some record ∧
          ∃ path, s.storedPath
              (fileIdOf (basename (checkContainment s.tree s.uploadDir filePath).resolvedPath)) record =
                some path ∧ s.tree.file path = some file := by
  unfold serveFile
  dsimp only
  cases hcontained : (checkContainment s.tree s.uploadDir filePath).contained with
  | false => simp
  | true =>
    simp only [Bool.not_true, Bool.false_eq_true, if_false, true_and]
    cases s.encryptedFiles
        (fileIdOf (basename (checkContainment s.tree s.uploadDir filePath).resolvedPath)) with
    | some record =>
      simp only [Option.some.injEq, exists_eq_left', serveEncryptedFile]
      rw [← Option.bind_eq_some_iff]
      cases (s.storedPath _ record).bind s.tree.file with
      | none => simp
      | some found => simp
    | none =>
      simp only [reduceCtorEq, false_and, exists_false, iff_false]
      cases s.tree.file (checkContainment s.tree s.uploadDir filePath).resolvedPath with
      | none => exact Outcome.noConfusion
      | some found =>
        dsimp only
        split_ifs
        · exact id
        · exact id

/-- A file that is sent is below the directory. -/
theorem below_of_sent (h : s.serveFile filePath = .sent file) : s.Below file := by
  obtain ⟨hresolved, hcontained, -, hfile, -⟩ := serveFile_eq_sent_iff.1 h
  have hne : file ≠ s.realDir := ne_realDir_of_file hfile
  rw [contained_iff s.realpath_uploadDir, hresolved] at hcontained
  rcases hcontained with heq | ⟨-, hbelow⟩
  · exact absurd heq hne
  · exact hbelow

/-- The names of a file are resolved from the root of the file system. -/
theorem resolvedPath_pathText (h : ∀ n ∈ names, IsName n) (hne : names ≠ []) :
    (checkContainment s.tree s.uploadDir (pathText names)).resolvedPath = realpathBestEffort s.tree names := by
  unfold checkContainment
  dsimp only
  rw [pathResolve_pathText h hne]

/-- A file is offered under some name. -/
theorem Offers.ne_nil (h : s.Offers names file) : names ≠ [] := by
  rintro rfl
  have hfile := h.2.1
  rw [List.append_nil] at hfile
  have hreal := (FileTree.file_eq_some_iff.1 hfile).1
  rw [s.realpath_uploadDir] at hreal
  exact ne_realDir_of_file hfile (Option.some.inj hreal).symm

/-- What the directory offers is sent for its names exactly when they lead to it from the root. -/
theorem Offers.sent_iff (h : s.Offers names file) :
    s.serveFile (pathText names) = .sent file ↔
      s.tree.realpath names = some file ∧ s.realDir ≠ [] ∧ isHidden file = false := by
  have hne := h.ne_nil
  obtain ⟨hnames, hfile, hbelow, hrecord⟩ := h
  have hentry := FileTree.file_eq_some_iff.1 hfile
  have hself : s.tree.realpath file = some file := (FileTree.real_of_realpath hentry.1).realpath
  rw [serveFile_eq_sent_iff, contained_iff s.realpath_uploadDir, resolvedPath_pathText hnames hne]
  constructor
  · rintro ⟨hresolved, hcontained, -, -, hhidden⟩
    rw [hresolved] at hcontained
    refine ⟨?_, ?_, hhidden⟩
    · rw [← realpath_realpathBestEffort hnames, hresolved, hself]
    · rcases hcontained with heq | ⟨hroot, -⟩
      · exact absurd heq (ne_realDir_of_file hfile)
      · exact hroot
  · rintro ⟨hreal, hroot, hhidden⟩
    rw [realpathBestEffort_of_realpath hreal]
    exact ⟨rfl, .inr ⟨hroot, hbelow⟩, hrecord, FileTree.file_eq_some_iff.2 ⟨hself, hentry.2⟩, hhidden⟩

/-- Everything that is read is below the directory exactly when the stored file of the record is. -/
theorem reads_below_iff :
    (∀ file, (s.serveFile filePath).Reads file → s.Below file) ↔ s.StoredInside filePath := by
  constructor
  · intro h hcontained record hrecord path file hpath hfile
    exact h file (.inr (serveFile_eq_decrypted_iff.2 ⟨hcontained, record, hrecord, path, hpath, hfile⟩))
  · rintro h file (hsent | hdecrypted)
    · exact below_of_sent hsent
    · obtain ⟨hcontained, record, hrecord, path, hpath, hfile⟩ := serveFile_eq_decrypted_iff.1 hdecrypted
      exact h hcontained record hrecord path file hpath hfile

/-- A request is served exactly where its stored file is in the directory and its names lead to the same
file from the root of the file system. -/
theorem servesExactly_iff (s : SecureFiles) (filePath : List Char) :
    s.ServesExactly filePath ↔ s.StoredInside filePath ∧ s.LeadsAlike filePath := by
  unfold ServesExactly
  rw [reads_below_iff]
  refine and_congr_right fun _ => ?_
  constructor
  · rintro h names file rfl hoffers
    exact hoffers.sent_iff.1 (h names file rfl hoffers)
  · rintro h names file rfl hoffers
    exact hoffers.sent_iff.2 (h names file rfl hoffers)

/-! ## A file in the directory -/

/-- The entries of a directory `/u` with a file `a`. -/
def uploadEntry (path : List PathName) : Option Entry :=
  if path = [] ∨ path = [['u']] then some .dir
  else if path = [['u'], ['a']] then some .file
  else none

/-- The directory `/u` with the file `a`, and no encrypted file. -/
def uploads : SecureFiles where
  tree :=
    { entry := uploadEntry
      maxLinks := 40
      root := by decide
      isName := by
        intro path c h
        have hcases : path ++ [c] = [['u']] ∨ path ++ [c] = [['u'], ['a']] := by
          unfold uploadEntry at h
          split_ifs at h with hdir hfile
          · exact .inl (hdir.resolve_left (by simp))
          · exact .inr hfile
          · exact absurd rfl h
        rcases hcases with heq | heq
        · obtain rfl : c = ['u'] := by
            have hlast := congrArg List.getLast? heq
            simpa using hlast
          decide
        · obtain rfl : c = ['a'] := by
            have hlast := congrArg List.getLast? heq
            simpa using hlast
          decide }
  uploadDir := [['u']]
  realDir := [['u']]
  encryptedFiles := fun _ => none
  hasKey := false
  realpath_uploadDir := by decide
  isDir := by decide

/-- The request for the file in the directory is answered with 404. -/
theorem uploads_not_servesExactly : ¬uploads.ServesExactly ['/', 'a'] := by
  intro h
  have hoffers : uploads.Offers [['a']] [['u'], ['a']] :=
    ⟨by decide, by decide, ⟨by decide, by decide⟩, rfl⟩
  have hsent := h.2 [['a']] [['u'], ['a']] (by decide) hoffers
  exact absurd hsent (by decide)

end SecureFiles

end AlsaqiBackend.Files
