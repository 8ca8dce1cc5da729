import AlsaqiBackend.Evidence.Storage
import AlsaqiBackend.Files.Encryption
import AlsaqiBackend.Lib.FileTree
import AlsaqiBackend.Lib.Percent
import AlsaqiBackend.Records.RouteFields

/-!
# Uploads of requests that fail

The `POST` and `PUT` routes of `createCrudRoutes` save the files of a request one by one, and then call the
service. Where the service throws, the files are unlinked, from paths that are made of the URLs and the working
directory. Nothing is done where a file cannot be saved, and nothing about the rows of `encrypted_files`.

`failedUpload_leavesNothing_iff` says which requests leave no file and no row behind when they fail.
-/

namespace AlsaqiBackend.Files.FailedUploads

open AlsaqiBackend.Lib
open AlsaqiBackend.Evidence (WriteOutcome InsertOutcome)
open AlsaqiBackend.Records (TABLE_ALLOWED_FIELDS)

/-! ## Files and rows -/

/-- The bytes of a file that was there before the request, or of one that the request has written. -/
inductive Entry
  | existing (bytes : List UInt8)
  | uploaded (bytes : List UInt8)
  deriving DecidableEq

/-- A row of `encrypted_files`. -/
structure EncryptedFileRow where
  id : FileId
  originalName : List Char
  mimeType : String
  originalSize : ℕ
  encryptedPath : List PathName
  iv : String
  authTag : String
  checksum : String
  keyVersion : ℕ
  uploadedBy : String
  module : String
  deriving DecidableEq

@[ext]
structure Stores where
  files : List PathName → Option Entry
  encryptedFiles : List EncryptedFileRow

/-- What a request finds. -/
def start (before : List PathName → Option (List UInt8)) (rows : List EncryptedFileRow) : Stores :=
  ⟨fun path => (before path).map .existing, rows⟩

def Stores.write (s : Stores) (path : List PathName) (bytes : List UInt8) : Stores :=
  { s with files := Function.update s.files path (some (.uploaded bytes)) }

def Stores.unlink (s : Stores) (path : List PathName) : Stores :=
  { s with files := Function.update s.files path none }

def Stores.insert (s : Stores) (row : EncryptedFileRow) : Stores :=
  { s with encryptedFiles := s.encryptedFiles ++ [row] }

/-! ## The checks of a file -/

def ALLOWED_EXTENSIONS : List String :=
  [".jpg", ".jpeg", ".png", ".gif", ".webp", ".pdf", ".doc", ".docx", ".xls", ".xlsx", ".txt", ".csv"]

def EXT_TO_MAGIKA_LABEL : List (String × List String) :=
  [(".jpg", ["jpeg", "jpg"]), (".jpeg", ["jpeg", "jpg"]), (".png", ["png"]), (".gif", ["gif"]), (".webp", ["webp"]),
    (".pdf", ["pdf"]), (".doc", ["doc", "msword", "unknown", "rtf"]), (".docx", ["docx", "zip", "unknown"]),
    (".xls", ["xls", "unknown"]), (".xlsx", ["xlsx", "zip", "unknown"]),
    (".txt", ["txt", "txt", "csv", "unknown", "empty"]), (".csv", ["csv", "txt", "unknown", "empty"])]

def MIME_TO_EXT : List (String × List String) :=
  [("image/jpeg", [".jpg", ".jpeg"]), ("image/png", [".png"]), ("image/gif", [".gif"]), ("image/webp", [".webp"]),
    ("application/pdf", [".pdf"]), ("application/msword", [".doc"]),
    ("application/vnd.openxmlformats-officedocument.wordprocessingml.document", [".docx"]),
    ("application/vnd.ms-excel", [".xls"]),
    ("application/vnd.openxmlformats-officedocument.spreadsheetml.sheet", [".xlsx"]), ("text/plain", [".txt"]),
    ("text/csv", [".csv"])]

/-- The labels of contents that are refused. -/
def REFUSED_LABELS : List String := ["elf", "pebin", "macho", "javascript", "php", "html"]

/-- A file that the parser has read into memory. -/
structure UploadedFile where
  name : List Char
  mimetype : String
  size : ℕ
  data : List UInt8
  /-- What Magika finds in the bytes; `none` where it is not there, or fails. -/
  label : Option String
  /-- `Date.now()` and `crypto.randomBytes(4)`, for the name of a plain file. -/
  now : ℕ
  random : List ℕ
  /-- `crypto.randomUUID()` and the IV, for an encrypted one. -/
  fileId : FileId
  iv : Block ivLength
  /-- What becomes of the writing, of the insertion, and of the removal of the file after that has failed. -/
  write : WriteOutcome
  insert : InsertOutcome
  unlink : Option String

inductive SaveError
  | validation (message : String)
  /-- `file` is `undefined`. -/
  | typeError
  | failure (message : String)
  deriving DecidableEq

/-- The last component of a path, without the separators behind it. -/
def lastComponent (path : List Char) : List Char :=
  ((path.reverse.dropWhile (· = '/')).takeWhile (· ≠ '/')).reverse

/-- `path.extname`. -/
def extname (path : List Char) : List Char :=
  let base := lastComponent path
  let extension := (base.reverse.takeWhile (· ≠ '.')).reverse
  if '.' ∉ base ∨ extension.length + 1 = base.length ∨ base = ['.', '.'] then [] else '.' :: extension

/-- `path.basename` with an extension. -/
def basename (path extension : List Char) : List Char :=
  let base := lastComponent path
  if extension <:+ base ∧ base ≠ extension then base.take (base.length - extension.length) else base

/-- `text.replace(/[^a-zA-Z0-9]/g, '_')`, for every unit of UTF-16. -/
def underscored (text : List Char) : List Char :=
  text.flatMap fun c => if c.isAlphanum then [c] else List.replicate (if c.toNat < 0x10000 then 1 else 2) '_'

/-- What the saving depends on: `process.cwd()`, the configured directory, what a path to a directory leads to,
and the functions of the platform. -/
structure Host (Key : Type) where
  cwd : List PathName
  uploadDir : List Char
  directory : List PathName → List PathName
  toLowerCase : List Char → List Char
  cipher : Gcm Key

variable {Key : Type} (host : Host Key)

/-- The entry that a path names. -/
def Host.entry (path : List PathName) : List PathName := host.directory path.dropLast ++ path.getLast?.toList

def Host.rawExt (file : UploadedFile) : List Char := host.toLowerCase (extname file.name)

/-- The security checks, which the two functions have in common. -/
def Host.validate (file : UploadedFile) : Except SaveError Unit :=
  let rawExt := String.ofList (host.rawExt file)
  if ¬ ALLOWED_EXTENSIONS.contains rawExt then
    .error (.validation ("Extension " ++ rawExt ++ " is not allowed"))
  else if ¬ ((MIME_TO_EXT.lookup file.mimetype).getD []).contains rawExt then
    .error (.validation ("Mime-type mismatch for extension " ++ rawExt))
  else match file.label with
    | none => .ok ()
    | some label =>
      if ¬ ((EXT_TO_MAGIKA_LABEL.lookup rawExt).getD []).contains label ∧ REFUSED_LABELS.contains label then
        .error (.validation ("File content does not match extension (detected: " ++ label ++ ")"))
      else .ok ()

/-! ## The saving of a file -/

/-- The name of a plain file. -/
def Host.fileName (file : UploadedFile) : PathName :=
  Nat.toDigits 10 file.now ++ '-' :: (toHex file.random ++ '-' :: (underscored (basename file.name (host.rawExt file)) ++
    host.rawExt file))

/-- `path.join(uploadDir, fileName)`, as the system takes it. -/
def Host.uploadPath (fileName : PathName) : List PathName :=
  host.entry (joinPath (pathResolve host.cwd host.uploadDir) fileName)

def uploadUrl (fileName : PathName) : List Char := "/uploads/".toList ++ fileName

/-- The writing of a file. -/
def writeFile (path : List PathName) (bytes : List UInt8) (outcome : WriteOutcome) (s : Stores) :
    Except SaveError Unit × Stores :=
  match outcome with
  | .refused message => (.error (.failure message), s)
  | .stopped written message => (.error (.failure message), s.write path (bytes.take written))
  | .done => (.ok (), s.write path bytes)

def createSaveFile (file : UploadedFile) (s : Stores) : Except SaveError (List Char) × Stores :=
  match host.validate file with
  | .error e => (.error e, s)
  | .ok () =>
    match writeFile (host.uploadPath (host.fileName file)) file.data file.write s with
    | (.error e, s) => (.error e, s)
    | (.ok (), s) => (.ok (uploadUrl (host.fileName file)), s)

/-- The row of an encrypted file. -/
def Host.encryptedRow (key : Key) (file : UploadedFile) : EncryptedFileRow :=
  { id := file.fileId
    originalName := file.name
    mimeType := file.mimetype
    originalSize := if file.size ≠ 0 then file.size else file.data.length
    encryptedPath := joinPath (pathResolve host.cwd host.uploadDir) file.fileId.encName.toList
    iv := base64 file.iv.1
    authTag := base64 (host.cipher.tag key file.iv file.data).1
    checksum := checksumOf file.data
    keyVersion := 1
    uploadedBy := "system"
    module := "audit" }

/-- `createEncryptedSaveFile`, with the key that is set. -/
def createEncryptedSaveFile (encryptionKey : Option Key) (file : UploadedFile) (s : Stores) :
    Except SaveError (List Char) × Stores :=
  match encryptionKey with
  | none => createSaveFile host file s
  | some key =>
    let path := host.uploadPath file.fileId.encName.toList
    let unlinked (s : Stores) := if file.unlink.isSome then s else s.unlink path
    match host.validate file with
    | .error e => (.error e, s)
    | .ok () =>
      match writeFile path (host.cipher.wrap key file.iv file.data) file.write s with
      | (.error e, s) => (.error e, s)
      | (.ok (), s) =>
        match file.insert with
        | .stored => (.ok (uploadUrl file.fileId.encName.toList), s.insert (host.encryptedRow key file))
        | .rejected message => (.error (.failure message), unlinked s)
        | .lost message => (.error (.failure message), unlinked (s.insert (host.encryptedRow key file)))

/-- The `saveFile` that the routes are given. -/
inductive Saver (Key : Type)
  | plain
  | encrypted (encryptionKey : Option Key)

def Saver.save (saver : Saver Key) : Option UploadedFile → Stores → Except SaveError (List Char) × Stores
  | none, s => (.error .typeError, s)
  | some file, s =>
    match saver with
    | plain => createSaveFile host file s
    | encrypted encryptionKey => createEncryptedSaveFile host encryptionKey file s

/-! ## The routes -/

inductive ServiceCall
  | create
  | update (id : String)

/-- What a route gets. A field has a list of files, of which the first is taken. -/
structure Request where
  body : OrderedMap String Json
  files : OrderedMap String (List UploadedFile)
  /-- The message with which a call of the service throws. -/
  service : ServiceCall → Option String
  /-- The error of the removal of the file of a field. -/
  unlink : String → Option String

inductive RequestError
  | save (error : SaveError)
  | service (message : String)
  deriving DecidableEq

def allowedFields (tableName : String) : List String := (TABLE_ALLOWED_FIELDS.lookup tableName).getD []

/-- The loop over `Object.keys(files)`. -/
def saveFiles (saver : Saver Key) (allowed : List String) :
    List (String × List UploadedFile) → OrderedMap String Json → Stores →
      Except SaveError (OrderedMap String Json) × Stores
  | [], body, s => (.ok body, s)
  | (key, fileOrFiles) :: files, body, s =>
    if ¬ allowed.contains key then saveFiles saver allowed files body s
    else match saver.save host fileOrFiles.head? s with
      | (.error e, s) => (.error e, s)
      | (.ok url, s) => saveFiles saver allowed files (body.set key (.str url)) s

/-- `path.join(process.cwd(), url)`, as the system takes it. -/
def Host.cleanupPath (url : List Char) : List PathName := host.entry (joinPath host.cwd url)

/-- The loop of the `catch` block. -/
def cleanup (req : Request) (body : OrderedMap String Json) : List (String × List UploadedFile) → Stores → Stores
  | [], s => s
  | (key, _) :: files, s =>
    match body.get key with
    | some (.str url) =>
      if "/uploads/".toList <+: url ∧ req.unlink key = none then
        cleanup req body files (s.unlink (host.cleanupPath url))
      else cleanup req body files s
    | _ => cleanup req body files s

/-- A route up to its service call. -/
def saveRecord (saver : Saver Key) (tableName : String) (call : ServiceCall) (req : Request) (s : Stores) :
    Except RequestError (OrderedMap String Json) × Stores :=
  let allowed := allowedFields tableName
  let body := req.body.filterKeys allowed.contains
  match saveFiles host saver allowed req.files.entries body s with
  | (.error e, s) => (.error (.save e), s)
  | (.ok body, s) =>
    match req.service call with
    | none => (.ok body, s)
    | some message => (.error (.service message), cleanup host req body req.files.entries s)

/-- `POST /<resource>`. -/
def post (saver : Saver Key) (tableName : String) := saveRecord host saver tableName .create

/-- `PUT /<resource>/:id`. -/
def put (saver : Saver Key) (tableName id : String) := saveRecord host saver tableName (.update id)

/-! ## Requests that leave nothing -/

/-- Where the request fails, files and rows are as they were. -/
def LeavesNothing (before : List PathName → Option (List UInt8)) (rows : List EncryptedFileRow) :
    Except RequestError (OrderedMap String Json) × Stores → Prop
  | (.error _, s) => s = start before rows
  | (.ok _, _) => True

/-- The key under which the saver encrypts. -/
def Saver.key : Saver Key → Option Key
  | plain => none
  | encrypted encryptionKey => encryptionKey

/-- The name under which the saver stores a file. -/
def Saver.storedName (saver : Saver Key) (file : UploadedFile) : PathName :=
  match saver.key with
  | none => host.fileName file
  | some _ => file.fileId.encName.toList

/-- The file is refused, it is not written, or its row is not inserted. -/
def Saver.Fails (saver : Saver Key) : Option UploadedFile → Prop
  | none => True
  | some file =>
    host.validate file ≠ .ok () ∨ file.write ≠ .done ∨ (saver.key ≠ none ∧ file.insert ≠ .stored)

/-- The file is refused before a byte is written, or the row is, and the file is removed from a path that was
free. -/
def Saver.SavesNothing (saver : Saver Key) (before : List PathName → Option (List UInt8)) :
    Option UploadedFile → Prop
  | none => True
  | some file =>
    host.validate file ≠ .ok () ∨ (∃ message, file.write = .refused message) ∨
      (file.write = .done ∧ (∃ message, file.insert = .rejected message) ∧ file.unlink = none ∧
        before (host.uploadPath (saver.storedName host file)) = none)

/-- The files that are saved, with their fields. -/
def uploadsOf (allowed : List String) (files : List (String × List UploadedFile)) :
    List (String × Option UploadedFile) :=
  (files.filter fun entry => allowed.contains entry.1).map fun entry => (entry.1, entry.2.head?)

/-- The directory of the URLs is the one of the files, and every file has had a free path and is removed. -/
def Removes (before : List PathName → Option (List UInt8)) (req : Request)
    (uploads : List (String × Option UploadedFile)) : Prop :=
  host.directory (host.cwd ++ ["uploads".toList]) = host.directory (pathResolve host.cwd host.uploadDir) ∧
    ∀ key file, (key, some file) ∈ uploads →
      before (host.uploadPath (host.fileName file)) = none ∧
      ∃ other twin, (other, some twin) ∈ uploads ∧ host.fileName twin = host.fileName file ∧ req.unlink other = none

/-- The request saves no file, its first file fails and saves nothing, or all are saved and either the service does
not throw, or nothing is encrypted and every file is removed. -/
def Compensated (saver : Saver Key) (tableName : String) (call : ServiceCall) (req : Request)
    (before : List PathName → Option (List UInt8)) : Prop :=
  let uploads := uploadsOf (allowedFields tableName) req.files.entries
  uploads = [] ∨
    (∃ first ∈ uploads.head?, saver.Fails host first.2 ∧ saver.SavesNothing host before first.2) ∨
    ((∀ u ∈ uploads, ¬ saver.Fails host u.2) ∧
      (req.service call = none ∨ (saver.key = none ∧ Removes host before req uploads)))

/-! ## Paths -/

variable {host} {saver : Saver Key} {file : UploadedFile} {s : Stores}

theorem joinPath_name {name : PathName} (h : IsName name) (base : List PathName) :
    joinPath base name = base ++ [name] := by
  unfold joinPath components
  rw [List.splitOn_eq_singleton h.2.2.2]
  exact foldl_normalizeStep (fun c hc => (List.mem_singleton.1 hc) ▸ h) base

theorem uploadPath_eq {name : PathName} (h : IsName name) :
    host.uploadPath name = host.directory (pathResolve host.cwd host.uploadDir) ++ [name] := by
  unfold Host.uploadPath Host.entry
  rw [joinPath_name h, List.dropLast_concat, List.getLast?_concat]
  rfl

/-- Two names, with a separator before each. -/
theorem joinPath_names {first second : PathName} (hfirst : IsName first) (hsecond : IsName second)
    (base : List PathName) : joinPath base ('/' :: (first ++ '/' :: second)) = base ++ [first] ++ [second] := by
  have hnames : ∀ c ∈ [first, second], IsName c :=
    List.forall_mem_cons.2 ⟨hfirst, fun c hc => (List.mem_singleton.1 hc) ▸ hsecond⟩
  have htext : '/' :: (first ++ '/' :: second) = [first, second].flatMap ('/' :: ·) := by simp
  unfold joinPath
  rw [htext, components_flatMap fun c hc => (hnames c hc).2.2.2, List.foldl_cons]
  exact (foldl_normalizeStep hnames base).trans (List.append_cons base first [second])

theorem cleanupPath_eq {name : PathName} (h : IsName name) :
    host.cleanupPath (uploadUrl name) = host.directory (host.cwd ++ ["uploads".toList]) ++ [name] := by
  have hurl : uploadUrl name = '/' :: ("uploads".toList ++ '/' :: name) := rfl
  unfold Host.cleanupPath Host.entry
  rw [hurl, joinPath_names (by decide) h, List.dropLast_concat, List.getLast?_concat]
  rfl

/-- An extension that is allowed has no separator. -/
theorem slash_notMem_rawExt (h : host.validate file = .ok ()) : '/' ∉ host.rawExt file := by
  have hallowed : String.ofList (host.rawExt file) ∈ ALLOWED_EXTENSIONS := by
    by_contra hnot
    unfold Host.validate at h
    rw [if_pos (by simpa using hnot)] at h
    cases h
  have hnone : ∀ extension ∈ ALLOWED_EXTENSIONS, '/' ∉ extension.toList := by decide
  have hext := hnone _ hallowed
  rwa [String.toList_ofList] at hext

theorem slash_notMem_underscored (text : List Char) : '/' ∉ underscored text := by
  unfold underscored
  rw [List.mem_flatMap]
  rintro ⟨c, -, hc⟩
  split at hc
  · next halnum =>
    rw [List.mem_singleton] at hc
    rw [← hc] at halnum
    exact absurd halnum (by decide)
  · exact absurd (List.eq_of_mem_replicate hc) (by decide)

/-- A text with a dash, or a dot and a letter, is no relative component. -/
theorem isName_of_mem {name : PathName} {c : Char} (hc : c ∈ name) (hdot : c ≠ '.') (hslash : '/' ∉ name) :
    IsName name := by
  refine ⟨List.ne_nil_of_mem hc, ?_, ?_, hslash⟩
  · rintro rfl
    exact hdot (List.mem_singleton.1 hc)
  · rintro rfl
    rcases List.mem_cons.1 hc with heq | hrest
    · exact hdot heq
    · exact hdot (List.mem_singleton.1 hrest)

theorem isName_fileName (h : host.validate file = .ok ()) : IsName (host.fileName file) := by
  have hdigits : '/' ∉ Nat.toDigits 10 file.now := fun hmem =>
    absurd (Nat.isDigit_of_mem_toDigits (by decide) (by decide) hmem) (by decide)
  have hhex : '/' ∉ toHex file.random := by
    unfold toHex
    rw [List.mem_flatMap]
    rintro ⟨byte, -, hbyte⟩
    exact notMem_fixedDigits (digitChar_ne (by decide) (by decide)) 16 2 byte hbyte
  have hbase := slash_notMem_underscored (basename file.name (host.rawExt file))
  have hext := slash_notMem_rawExt h
  have hdash : '-' ∈ host.fileName file := List.mem_append_right _ List.mem_cons_self
  refine isName_of_mem hdash (by decide) ?_
  unfold Host.fileName
  simp only [List.mem_append, List.mem_cons, not_or]
  exact ⟨hdigits, by decide, hhex, by decide, hbase, hext⟩

/-! ## What saving a file does -/

/-- The stores with a file, and its row. -/
def Saver.stored (host : Host Key) (saver : Saver Key) (file : UploadedFile) (s : Stores) : Stores :=
  match saver.key with
  | none => s.write (host.uploadPath (host.fileName file)) file.data
  | some key =>
    (s.write (host.uploadPath file.fileId.encName.toList) (host.cipher.wrap key file.iv file.data)).insert
      (host.encryptedRow key file)

/-- Without a key a file is saved as it is. -/
theorem save_plain (hkey : saver.key = none) (file : UploadedFile) (s : Stores) :
    saver.save host (some file) s = createSaveFile host file s := by
  cases saver with
  | plain => rfl
  | encrypted encryptionKey =>
    obtain rfl : encryptionKey = none := hkey
    rfl

theorem save_encrypted {key : Key} (hkey : saver.key = some key) (file : UploadedFile) (s : Stores) :
    saver.save host (some file) s = createEncryptedSaveFile host (some key) file s := by
  cases saver with
  | plain => cases hkey
  | encrypted encryptionKey =>
    obtain rfl : encryptionKey = some key := hkey
    rfl

theorem save_of_not_fails (h : ¬ saver.Fails host (some file)) :
    saver.save host (some file) s =
      (.ok (uploadUrl (saver.storedName host file)), saver.stored host file s) := by
  unfold Saver.Fails at h
  simp only [not_or, not_not] at h
  obtain ⟨hvalid, hwrite, hinsert⟩ := h
  unfold Saver.storedName Saver.stored
  cases hkey : saver.key with
  | none =>
    rw [save_plain hkey]
    unfold createSaveFile
    rw [hvalid, hwrite]
    rfl
  | some key =>
    have hrow : file.insert = .stored := by
      by_contra hne
      exact hinsert ⟨hkey ▸ Option.some_ne_none key, hne⟩
    rw [save_encrypted hkey]
    unfold createEncryptedSaveFile
    rw [hvalid, hwrite, hrow]
    rfl

variable {before : List PathName → Option (List UInt8)} {rows : List EncryptedFileRow} {path : List PathName}
  {bytes : List UInt8}

theorem start_files_ne (path : List PathName) (bytes : List UInt8) :
    (start before rows).files path ≠ some (.uploaded bytes) := by
  unfold start
  cases before path with
  | none => simp
  | some b => simp

theorem write_files_self : (s.write path bytes).files path = some (.uploaded bytes) :=
  Function.update_self path _ _

theorem unlink_files_self : (s.unlink path).files path = none := Function.update_self path _ _

/-- What has been written is not what was there. -/
theorem write_ne_start : (start before rows).write path bytes ≠ start before rows := by
  intro heq
  have hfile := congrFun (congrArg Stores.files heq) path
  rw [write_files_self] at hfile
  exact start_files_ne path bytes hfile.symm

/-- What has been written and removed was not there. -/
theorem unlink_write_eq_start_iff :
    ((start before rows).write path bytes).unlink path = start before rows ↔ before path = none := by
  constructor
  · intro heq
    have hfile := congrFun (congrArg Stores.files heq) path
    rw [unlink_files_self] at hfile
    exact Option.map_eq_none_iff.1 hfile.symm
  · intro hfree
    have hnone : (start before rows).files path = none := Option.map_eq_none_iff.2 hfree
    unfold Stores.unlink Stores.write
    rw [Function.update_idem, ← hnone, Function.update_eq_self]

/-- A row that has been inserted stays. -/
theorem ne_start_of_length (h : rows.length < s.encryptedFiles.length) : s ≠ start before rows := by
  rintro rfl
  exact lt_irrefl _ h

/-- A write that is not done fails, and leaves nothing when it is refused. -/
theorem writeFile_of_ne_done {outcome : WriteOutcome} (h : outcome ≠ .done) :
    ∃ e s', writeFile path bytes outcome s = (.error e, s') ∧
      (s = start before rows → (s' = s ↔ ∃ message, outcome = .refused message)) := by
  cases outcome with
  | refused message => exact ⟨_, _, rfl, fun _ => iff_of_true rfl ⟨message, rfl⟩⟩
  | stopped written message =>
    refine ⟨_, _, rfl, ?_⟩
    rintro rfl
    exact iff_of_false write_ne_start fun ⟨_, hrefused⟩ => by cases hrefused
  | done => exact absurd rfl h

/-- A file that is refused leaves everything. -/
theorem save_of_invalid {e : SaveError} (hvalid : host.validate file = .error e) :
    saver.save host (some file) s = (.error e, s) := by
  cases hkey : saver.key with
  | none =>
    rw [save_plain hkey]
    unfold createSaveFile
    rw [hvalid]
  | some key =>
    rw [save_encrypted hkey]
    unfold createEncryptedSaveFile
    rw [hvalid]

/-- So does a write that is refused. -/
theorem save_of_not_written (hvalid : host.validate file = .ok ()) (hwrite : file.write ≠ .done) :
    ∃ e s', saver.save host (some file) s = (.error e, s') ∧
      (s = start before rows → (s' = s ↔ ∃ message, file.write = .refused message)) := by
  cases hkey : saver.key with
  | none =>
    obtain ⟨e, s', hrun, hstart⟩ := @writeFile_of_ne_done s before rows (host.uploadPath (host.fileName file)) file.data
      file.write hwrite
    refine ⟨e, s', ?_, hstart⟩
    rw [save_plain hkey]
    unfold createSaveFile
    rw [hvalid]
    simp only [hrun]
  | some key =>
    obtain ⟨e, s', hrun, hstart⟩ := @writeFile_of_ne_done s before rows
      (host.uploadPath file.fileId.encName.toList) (host.cipher.wrap key file.iv file.data) file.write hwrite
    refine ⟨e, s', ?_, hstart⟩
    rw [save_encrypted hkey]
    unfold createEncryptedSaveFile
    rw [hvalid]
    simp only [hrun]

/-- A row that is not inserted leaves nothing when the file is removed from a path that was free. -/
theorem save_of_not_inserted {key : Key} (hkey : saver.key = some key) (hvalid : host.validate file = .ok ())
    (hwrite : file.write = .done) (hinsert : file.insert ≠ .stored) :
    ∃ e s', saver.save host (some file) s = (.error e, s') ∧
      (s = start before rows → (s' = s ↔ (∃ message, file.insert = .rejected message) ∧ file.unlink = none ∧
        before (host.uploadPath file.fileId.encName.toList) = none)) := by
  rw [save_encrypted hkey]
  unfold createEncryptedSaveFile writeFile
  rw [hvalid, hwrite]
  cases hi : file.insert with
  | stored => exact absurd hi hinsert
  | rejected message =>
    refine ⟨_, _, rfl, ?_⟩
    rintro rfl
    rw [and_iff_right ⟨message, rfl⟩]
    cases file.unlink with
    | none =>
      rw [and_iff_right rfl]
      exact unlink_write_eq_start_iff
    | some failure => exact iff_of_false write_ne_start fun h => by cases h.1
  | lost message =>
    refine ⟨_, _, rfl, ?_⟩
    rintro rfl
    refine iff_of_false (ne_start_of_length ?_) fun ⟨⟨_, hrejected⟩, _⟩ => by cases hrejected
    cases file.unlink with
    | none => simp [Stores.unlink, Stores.insert, Stores.write, start]
    | some failure => simp [Stores.insert, Stores.write, start]

/-- A save that fails returns an error. The first one leaves everything as it was when it saves nothing. -/
theorem save_of_fails {upload : Option UploadedFile} (h : saver.Fails host upload) :
    ∃ e s', saver.save host upload s = (.error e, s') ∧
      (s = start before rows → (s' = s ↔ saver.SavesNothing host before upload)) := by
  cases upload with
  | none => exact ⟨.typeError, s, rfl, fun _ => iff_of_true rfl trivial⟩
  | some file =>
    unfold Saver.SavesNothing
    cases hvalid : host.validate file with
    | error e =>
      have hinvalid : host.validate file ≠ .ok () := fun heq => by rw [hvalid] at heq; cases heq
      exact ⟨e, s, save_of_invalid hvalid, fun _ => iff_of_true rfl (.inl hinvalid)⟩
    | ok _ =>
      have hrest := h.resolve_left (not_not.2 hvalid)
      by_cases hwrite : file.write = .done
      · obtain ⟨hkey, hinsert⟩ := hrest.resolve_left (not_not.2 hwrite)
        obtain ⟨key, hkey⟩ := Option.ne_none_iff_exists'.1 hkey
        obtain ⟨e, s', hrun, hstart⟩ := @save_of_not_inserted _ _ saver file s before rows key hkey hvalid hwrite hinsert
        refine ⟨e, s', hrun, fun hs => (hstart hs).trans ?_⟩
        simp [hvalid, hwrite, Saver.storedName, hkey]
      · obtain ⟨e, s', hrun, hstart⟩ := @save_of_not_written _ _ saver file s before rows hvalid hwrite
        refine ⟨e, s', hrun, fun hs => (hstart hs).trans ?_⟩
        simp [hvalid, hwrite]

/-! ## What a failed request cannot take back -/

/-- A plain file has been written, or a row inserted. -/
def Saver.Tainted (saver : Saver Key) (rows : List EncryptedFileRow) (s : Stores) : Prop :=
  match saver.key with
  | none => ∃ path bytes, s.files path = some (.uploaded bytes)
  | some _ => rows.length < s.encryptedFiles.length

theorem Saver.Tainted.ne_start (h : saver.Tainted rows s) : s ≠ start before rows := by
  unfold Saver.Tainted at h
  cases hkey : saver.key with
  | none =>
    rw [hkey] at h
    obtain ⟨path, bytes, hfile⟩ := h
    rintro rfl
    exact start_files_ne path bytes hfile
  | some key =>
    rw [hkey] at h
    exact ne_start_of_length h

theorem writeFile_keeps (path : List PathName) (bytes : List UInt8) (outcome : WriteOutcome) (s : Stores) :
    (writeFile path bytes outcome s).2.encryptedFiles = s.encryptedFiles ∧
      ∀ other earlier, s.files other = some (.uploaded earlier) →
        ∃ later, (writeFile path bytes outcome s).2.files other = some (.uploaded later) := by
  have hwrite : ∀ content other earlier, s.files other = some (.uploaded earlier) →
      ∃ later, (s.write path content).files other = some (.uploaded later) := by
    intro content other earlier hfile
    by_cases hpath : other = path
    · exact ⟨content, hpath ▸ write_files_self⟩
    · exact ⟨earlier, (Function.update_of_ne hpath _ _).trans hfile⟩
  cases outcome with
  | refused message => exact ⟨rfl, fun _ earlier hfile => ⟨earlier, hfile⟩⟩
  | stopped written message => exact ⟨rfl, hwrite _⟩
  | done => exact ⟨rfl, hwrite _⟩

theorem createSaveFile_keeps (file : UploadedFile) (s : Stores) :
    (createSaveFile host file s).2.encryptedFiles = s.encryptedFiles ∧
      ∀ other earlier, s.files other = some (.uploaded earlier) →
        ∃ later, (createSaveFile host file s).2.files other = some (.uploaded later) := by
  unfold createSaveFile
  cases host.validate file with
  | error e => exact ⟨rfl, fun _ earlier hfile => ⟨earlier, hfile⟩⟩
  | ok _ =>
    have hkeeps := writeFile_keeps (host.uploadPath (host.fileName file)) file.data file.write s
    simp only
    cases hrun : writeFile (host.uploadPath (host.fileName file)) file.data file.write s with
    | mk result written =>
      rw [hrun] at hkeeps
      cases result with
      | error e => exact hkeeps
      | ok _ => exact hkeeps

/-- No row is taken back. -/
theorem length_createEncryptedSaveFile (encryptionKey : Option Key) (file : UploadedFile) (s : Stores) :
    s.encryptedFiles.length ≤ (createEncryptedSaveFile host encryptionKey file s).2.encryptedFiles.length := by
  unfold createEncryptedSaveFile
  cases encryptionKey with
  | none => exact (congrArg List.length (createSaveFile_keeps file s).1).ge
  | some key =>
    simp only
    cases host.validate file with
    | error e => exact le_rfl
    | ok _ =>
      have hkeeps := (writeFile_keeps (host.uploadPath file.fileId.encName.toList)
        (host.cipher.wrap key file.iv file.data) file.write s).1
      simp only
      cases hrun : writeFile (host.uploadPath file.fileId.encName.toList)
          (host.cipher.wrap key file.iv file.data) file.write s with
      | mk result written =>
        rw [hrun] at hkeeps
        have hlength : s.encryptedFiles.length = written.encryptedFiles.length := congrArg List.length hkeeps.symm
        cases result with
        | error e => exact hlength.le
        | ok _ =>
          cases file.insert with
          | stored => simp [Stores.insert, hlength]
          | rejected message => cases file.unlink <;> simp [Stores.unlink, hlength]
          | lost message => cases file.unlink <;> simp [Stores.unlink, Stores.insert, hlength]

/-- A save keeps what is written: the rows, and as a plain one the files of the request. -/
theorem save_keeps (upload : Option UploadedFile) (s : Stores) :
    s.encryptedFiles.length ≤ (saver.save host upload s).2.encryptedFiles.length ∧
      (saver.key = none → ∀ path bytes, s.files path = some (.uploaded bytes) →
        ∃ later, (saver.save host upload s).2.files path = some (.uploaded later)) := by
  cases upload with
  | none => exact ⟨le_rfl, fun _ _ bytes hfile => ⟨bytes, hfile⟩⟩
  | some file =>
    cases hkey : saver.key with
    | none =>
      rw [save_plain hkey]
      have hkeeps := @createSaveFile_keeps _ host file s
      exact ⟨(congrArg List.length hkeeps.1).ge, fun _ => hkeeps.2⟩
    | some key =>
      rw [save_encrypted hkey]
      exact ⟨length_createEncryptedSaveFile (some key) file s, fun h => by cases h⟩

theorem tainted_save (h : saver.Tainted rows s) (upload : Option UploadedFile) :
    saver.Tainted rows (saver.save host upload s).2 := by
  obtain ⟨hrows, hfiles⟩ := @save_keeps _ host saver upload s
  unfold Saver.Tainted at h ⊢
  cases hkey : saver.key with
  | none =>
    rw [hkey] at h
    obtain ⟨path, bytes, hfile⟩ := h
    exact ⟨path, hfiles hkey path bytes hfile⟩
  | some key =>
    rw [hkey] at h
    exact lt_of_lt_of_le h hrows

/-- A file that has been saved taints. -/
theorem tainted_stored (file : UploadedFile) (h : rows.length ≤ s.encryptedFiles.length) :
    saver.Tainted rows (saver.stored host file s) := by
  unfold Saver.Tainted Saver.stored
  cases saver.key with
  | none => exact ⟨_, _, write_files_self⟩
  | some key => simpa [Stores.insert, Stores.write] using Nat.lt_succ_of_le h

/-! ## The loop over the files -/

variable (host saver)

/-- The loop, over the files that are saved. -/
def saveAll : List (String × Option UploadedFile) → OrderedMap String Json → Stores →
    Except SaveError (OrderedMap String Json) × Stores
  | [], body, s => (.ok body, s)
  | (key, upload) :: uploads, body, s =>
    match saver.save host upload s with
    | (.error e, s) => (.error e, s)
    | (.ok url, s) => saveAll uploads (body.set key (.str url)) s

/-- The body with the URLs. -/
def withUrls : List (String × Option UploadedFile) → OrderedMap String Json → OrderedMap String Json
  | [], body => body
  | (_, none) :: uploads, body => withUrls uploads body
  | (key, some file) :: uploads, body =>
    withUrls uploads (body.set key (.str (uploadUrl (saver.storedName host file))))

/-- The stores with the files. -/
def storedAll : List (String × Option UploadedFile) → Stores → Stores
  | [], s => s
  | (_, none) :: uploads, s => storedAll uploads s
  | (_, some file) :: uploads, s => storedAll uploads (saver.stored host file s)

variable {host saver} {allowed : List String} {uploads : List (String × Option UploadedFile)}
  {body : OrderedMap String Json}

theorem saveFiles_eq (files : List (String × List UploadedFile)) (body : OrderedMap String Json) (s : Stores) :
    saveFiles host saver allowed files body s = saveAll host saver (uploadsOf allowed files) body s := by
  induction files generalizing body s with
  | nil => rfl
  | cons entry files ih =>
    obtain ⟨key, fileOrFiles⟩ := entry
    rw [saveFiles]
    by_cases hkey : allowed.contains key = true
    · have huploads : uploadsOf allowed ((key, fileOrFiles) :: files) =
          (key, fileOrFiles.head?) :: uploadsOf allowed files := by
        unfold uploadsOf
        rw [List.filter_cons_of_pos (by simpa using hkey), List.map_cons]
      rw [if_neg (not_not.2 hkey), huploads, saveAll]
      cases saver.save host fileOrFiles.head? s with
      | mk result s' =>
        cases result with
        | error e => rfl
        | ok url => exact ih (body.set key (.str url)) s'
    · have huploads : uploadsOf allowed ((key, fileOrFiles) :: files) = uploadsOf allowed files := by
        unfold uploadsOf
        rw [List.filter_cons_of_neg (by simpa using hkey)]
      rw [if_pos hkey, huploads]
      exact ih body s

theorem tainted_saveAll (h : saver.Tainted rows s) (body : OrderedMap String Json) :
    saver.Tainted rows (saveAll host saver uploads body s).2 := by
  induction uploads generalizing body s with
  | nil => exact h
  | cons u uploads ih =>
    obtain ⟨key, upload⟩ := u
    have hnext := @tainted_save _ host saver s rows h upload
    rw [saveAll]
    cases hrun : saver.save host upload s with
    | mk result s' =>
      rw [hrun] at hnext
      cases result with
      | error e => exact hnext
      | ok url => exact ih hnext (body.set key (.str url))

/-- When every save succeeds. -/
theorem saveAll_of_not_fails (h : ∀ u ∈ uploads, ¬ saver.Fails host u.2) (body : OrderedMap String Json)
    (s : Stores) :
    saveAll host saver uploads body s =
      (.ok (withUrls host saver uploads body), storedAll host saver uploads s) := by
  induction uploads generalizing body s with
  | nil => rfl
  | cons u uploads ih =>
    obtain ⟨key, upload⟩ := u
    obtain ⟨hfirst, hrest⟩ := List.forall_mem_cons.1 h
    cases upload with
    | none => exact absurd trivial hfirst
    | some file =>
      rw [saveAll, save_of_not_fails hfirst]
      exact ih hrest _ _

/-- When one fails. -/
theorem saveAll_of_fails (h : ∃ u ∈ uploads, saver.Fails host u.2) (body : OrderedMap String Json) (s : Stores) :
    ∃ e, (saveAll host saver uploads body s).1 = .error e := by
  induction uploads generalizing body s with
  | nil =>
    obtain ⟨u, hu, -⟩ := h
    exact absurd hu List.not_mem_nil
  | cons u uploads ih =>
    obtain ⟨key, upload⟩ := u
    rw [saveAll]
    by_cases hfirst : saver.Fails host upload
    · obtain ⟨e, s', hrun, -⟩ := @save_of_fails _ host saver s (fun _ => none) [] upload hfirst
      exact ⟨e, by rw [hrun]⟩
    · have hrest : ∃ u ∈ uploads, saver.Fails host u.2 := by
        obtain ⟨u, hu, hfails⟩ := h
        rcases List.mem_cons.1 hu with rfl | hu
        · exact absurd hfails hfirst
        · exact ⟨u, hu, hfails⟩
      cases upload with
      | none => exact absurd trivial hfirst
      | some file =>
        rw [save_of_not_fails hfirst]
        exact ih hrest _ _

/-! ## The removal -/

theorem get_withUrls_of_notMem {key : String} (h : key ∉ uploads.map Prod.fst) (body : OrderedMap String Json) :
    (withUrls host saver uploads body).get key = body.get key := by
  fun_induction withUrls host saver uploads body with
  | case1 body => rfl
  | case2 other uploads body ih =>
    rw [List.map_cons, List.mem_cons, not_or] at h
    exact ih h.2
  | case3 other file uploads body ih =>
    rw [List.map_cons, List.mem_cons, not_or] at h
    rw [ih h.2, OrderedMap.get_set, if_neg h.1]

/-- The field of a file that is saved has its URL. -/
theorem get_withUrls {key : String} {file : UploadedFile} (hu : (key, some file) ∈ uploads)
    (hnodup : (uploads.map Prod.fst).Nodup) (body : OrderedMap String Json) :
    (withUrls host saver uploads body).get key = some (.str (uploadUrl (saver.storedName host file))) := by
  fun_induction withUrls host saver uploads body with
  | case1 body => exact absurd hu List.not_mem_nil
  | case2 other uploads body ih =>
    rw [List.map_cons, List.nodup_cons] at hnodup
    refine ih ((List.mem_cons.1 hu).resolve_left fun heq => ?_) hnodup.2
    cases heq
  | case3 other first uploads body ih =>
    rw [List.map_cons, List.nodup_cons] at hnodup
    rcases List.mem_cons.1 hu with heq | hu
    · obtain ⟨rfl, hfile⟩ := Prod.mk.inj heq
      obtain rfl := Option.some.inj hfile
      rw [get_withUrls_of_notMem hnodup.1, OrderedMap.get_set, if_pos rfl]
    · exact ih hu hnodup.2

/-- The path is removed for one of the fields. -/
def RemovedFor (host : Host Key) (req : Request) (body : OrderedMap String Json)
    (files : List (String × List UploadedFile)) (path : List PathName) : Prop :=
  ∃ entry ∈ files, ∃ url, body.get entry.1 = some (.str url) ∧ "/uploads/".toList <+: url ∧
    req.unlink entry.1 = none ∧ host.cleanupPath url = path

theorem cleanup_rows (req : Request) (body : OrderedMap String Json) (files : List (String × List UploadedFile))
    (s : Stores) : (cleanup host req body files s).encryptedFiles = s.encryptedFiles := by
  fun_induction cleanup host req body files s with
  | case1 s => rfl
  | case2 key value files s url hurl hremove ih => exact ih
  | case3 key value files s url hurl hremove ih => exact ih
  | case4 key value files s hother ih => exact ih

theorem removedFor_cons {req : Request} {entry : String × List UploadedFile}
    {files : List (String × List UploadedFile)} :
    RemovedFor host req body (entry :: files) path ↔
      (∃ url, body.get entry.1 = some (.str url) ∧ "/uploads/".toList <+: url ∧ req.unlink entry.1 = none ∧
        host.cleanupPath url = path) ∨ RemovedFor host req body files path :=
  List.exists_mem_cons_iff _ _ _

/-- The paths that are removed have no file, and all others are as they were. -/
theorem cleanup_files (req : Request) (body : OrderedMap String Json) (files : List (String × List UploadedFile))
    (s : Stores) (path : List PathName) :
    (RemovedFor host req body files path → (cleanup host req body files s).files path = none) ∧
      (¬ RemovedFor host req body files path → (cleanup host req body files s).files path = s.files path) := by
  fun_induction cleanup host req body files s with
  | case1 s => exact ⟨fun ⟨_, hentry, _⟩ => absurd hentry List.not_mem_nil, fun _ => rfl⟩
  | case2 key value files s url hurl hremove ih =>
    rw [removedFor_cons]
    by_cases hrest : RemovedFor host req body files path
    · exact ⟨fun _ => ih.1 hrest, fun hnot => absurd (.inr hrest) hnot⟩
    by_cases hpath : host.cleanupPath url = path
    · have hgone : (cleanup host req body files (s.unlink (host.cleanupPath url))).files path = none :=
        (ih.2 hrest).trans (hpath ▸ unlink_files_self)
      exact ⟨fun _ => hgone, fun hnot => absurd (.inl ⟨url, hurl, hremove.1, hremove.2, hpath⟩) hnot⟩
    · have hkept : (s.unlink (host.cleanupPath url)).files path = s.files path :=
        Function.update_of_ne (Ne.symm hpath) _ _
      refine ⟨?_, fun _ => (ih.2 hrest).trans hkept⟩
      rintro (⟨other, hother, -, -, hsame⟩ | hlater)
      · rw [hurl, Option.some.injEq, Json.str.injEq] at hother
        exact absurd (hother ▸ hsame) hpath
      · exact absurd hlater hrest
  | case3 key value files s url hurl hremove ih =>
    have hhead : ¬ ∃ url, body.get key = some (.str url) ∧ "/uploads/".toList <+: url ∧ req.unlink key = none ∧
        host.cleanupPath url = path := by
      rintro ⟨other, hother, hstart, hunlink, -⟩
      rw [hurl, Option.some.injEq, Json.str.injEq] at hother
      exact hremove ⟨hother ▸ hstart, hunlink⟩
    rw [removedFor_cons, or_iff_right hhead]
    exact ih
  | case4 key value files s hother ih =>
    have hhead : ¬ ∃ url, body.get key = some (.str url) ∧ "/uploads/".toList <+: url ∧ req.unlink key = none ∧
        host.cleanupPath url = path := fun ⟨url, hurl, _⟩ => hother url hurl
    rw [removedFor_cons, or_iff_right hhead]
    exact ih

/-- One of the files is written to the path. -/
def WrittenTo (host : Host Key) (uploads : List (String × Option UploadedFile)) (path : List PathName) : Prop :=
  ∃ key file, (key, some file) ∈ uploads ∧ host.uploadPath (host.fileName file) = path

theorem storedAll_rows (hkey : saver.key = none) (s : Stores) :
    (storedAll host saver uploads s).encryptedFiles = s.encryptedFiles := by
  fun_induction storedAll host saver uploads s with
  | case1 s => rfl
  | case2 key uploads s ih => exact ih
  | case3 key file uploads s ih =>
    rw [ih, Saver.stored, hkey]
    rfl

/-- The paths that are written have files of the request, and all others are as they were. -/
theorem storedAll_files (hkey : saver.key = none) (s : Stores) (path : List PathName) :
    (WrittenTo host uploads path → ∃ bytes, (storedAll host saver uploads s).files path = some (.uploaded bytes)) ∧
      (¬ WrittenTo host uploads path → (storedAll host saver uploads s).files path = s.files path) := by
  fun_induction storedAll host saver uploads s with
  | case1 s => exact ⟨fun ⟨_, _, hu, _⟩ => absurd hu List.not_mem_nil, fun _ => rfl⟩
  | case2 key uploads s ih =>
    have hcons : WrittenTo host ((key, none) :: uploads) path ↔ WrittenTo host uploads path := by
      simp [WrittenTo]
    rw [hcons]
    exact ih
  | case3 key file uploads s ih =>
    have hcons : WrittenTo host ((key, some file) :: uploads) path ↔
        host.uploadPath (host.fileName file) = path ∨ WrittenTo host uploads path := by
      unfold WrittenTo
      constructor
      · rintro ⟨other, first, hu, hpath⟩
        rcases List.mem_cons.1 hu with heq | hu
        · obtain rfl := Option.some.inj (Prod.mk.inj heq).2
          exact .inl hpath
        · exact .inr ⟨other, first, hu, hpath⟩
      · rintro (hpath | ⟨other, first, hu, hpath⟩)
        · exact ⟨key, file, List.mem_cons_self, hpath⟩
        · exact ⟨other, first, List.mem_cons_of_mem _ hu, hpath⟩
    rw [hcons]
    by_cases hrest : WrittenTo host uploads path
    · exact ⟨fun _ => ih.1 hrest, fun hnot => absurd (.inr hrest) hnot⟩
    have hstored : saver.stored host file s = s.write (host.uploadPath (host.fileName file)) file.data := by
      rw [Saver.stored, hkey]
    have hlater := ih.2 hrest
    rw [hstored] at hlater ⊢
    rw [or_iff_left hrest]
    constructor
    · rintro rfl
      exact ⟨file.data, hlater.trans write_files_self⟩
    · intro hpath
      exact hlater.trans (Function.update_of_ne (Ne.symm hpath) _ _)

section Removal

variable {req : Request} {tableName : String}

/-- The keys of the files that are saved are different. -/
theorem nodup_uploadsOf (allowed : List String) (files : OrderedMap String (List UploadedFile)) :
    ((uploadsOf allowed files.entries).map Prod.fst).Nodup := by
  unfold uploadsOf
  rw [List.map_map]
  exact files.nodup.sublist (List.filter_sublist.map Prod.fst)

/-- The paths that are removed are those of the URLs of the files. -/
theorem removedFor_iff
    (hsaved : ∀ u ∈ uploadsOf allowed req.files.entries, ¬ saver.Fails host u.2) (path : List PathName) :
    RemovedFor host req (withUrls host saver (uploadsOf allowed req.files.entries) (body.filterKeys allowed.contains))
        req.files.entries path ↔
      ∃ key file, (key, some file) ∈ uploadsOf allowed req.files.entries ∧ req.unlink key = none ∧
        host.cleanupPath (uploadUrl (saver.storedName host file)) = path := by
  have hnodup := nodup_uploadsOf allowed req.files
  constructor
  · rintro ⟨⟨key, fileOrFiles⟩, hentry, url, hurl, -, hunlink, hpath⟩
    by_cases hallowed : allowed.contains key = true
    · have hu : (key, fileOrFiles.head?) ∈ uploadsOf allowed req.files.entries :=
        List.mem_map.2 ⟨(key, fileOrFiles), List.mem_filter.2 ⟨hentry, hallowed⟩, rfl⟩
      cases hhead : fileOrFiles.head? with
      | none =>
        have hnot := hsaved _ hu
        rw [hhead] at hnot
        exact absurd trivial hnot
      | some file =>
        rw [hhead] at hu
        rw [get_withUrls hu hnodup, Option.some.injEq, Json.str.injEq] at hurl
        exact ⟨key, file, hu, hunlink, hurl ▸ hpath⟩
    · -- A field that is not allowed has no value in the body.
      have hnone : key ∉ (uploadsOf allowed req.files.entries).map Prod.fst := by
        rintro hmem
        obtain ⟨u, hu, rfl⟩ := List.mem_map.1 hmem
        obtain ⟨⟨other, _⟩, hother, rfl⟩ := List.mem_map.1 hu
        exact hallowed (List.mem_filter.1 hother).2
      have hfree : (body.filterKeys allowed.contains).get key = none := by
        rw [OrderedMap.get_eq_none, OrderedMap.mem_keys_filterKeys]
        exact fun h => hallowed h.2
      rw [get_withUrls_of_notMem hnone, hfree] at hurl
      cases hurl
  · rintro ⟨key, file, hu, hunlink, hpath⟩
    obtain ⟨⟨key', fileOrFiles⟩, hentry, heq⟩ := List.mem_map.1 hu
    obtain ⟨rfl, hhead⟩ := Prod.mk.inj heq
    refine ⟨(key', fileOrFiles), (List.mem_filter.1 hentry).1, uploadUrl (saver.storedName host file), ?_,
      List.prefix_append _ _, hunlink, hpath⟩
    exact get_withUrls hu hnodup _

/-- After files that were written and removed everything is as before when the paths that are removed were free, and
all that are written are removed. -/
theorem cleanup_eq_start_iff (hkey : saver.key = none) (files : List (String × List UploadedFile)) :
    cleanup host req body files (storedAll host saver uploads (start before rows)) = start before rows ↔
      ∀ path, (RemovedFor host req body files path → before path = none) ∧
        (WrittenTo host uploads path → RemovedFor host req body files path) := by
  have hrows : (cleanup host req body files (storedAll host saver uploads (start before rows))).encryptedFiles =
      rows := (cleanup_rows req body files _).trans (storedAll_rows hkey _)
  constructor
  · intro heq path
    have hfile := congrFun (congrArg Stores.files heq) path
    obtain ⟨hgone, hkept⟩ :=
      @cleanup_files _ host req body files (storedAll host saver uploads (start before rows)) path
    refine ⟨fun hremoved => Option.map_eq_none_iff.1 (hfile.symm.trans (hgone hremoved)), fun hwritten => ?_⟩
    by_contra hnot
    obtain ⟨bytes, hbytes⟩ := (storedAll_files hkey (start before rows) path).1 hwritten
    exact start_files_ne path bytes (hfile.symm.trans ((hkept hnot).trans hbytes))
  · intro h
    have hfiles : (cleanup host req body files (storedAll host saver uploads (start before rows))).files =
        (start before rows).files := by
      funext path
      obtain ⟨hgone, hkept⟩ :=
        @cleanup_files _ host req body files (storedAll host saver uploads (start before rows)) path
      by_cases hremoved : RemovedFor host req body files path
      · exact (hgone hremoved).trans (Option.map_eq_none_iff.2 ((h path).1 hremoved)).symm
      · exact (hkept hremoved).trans
          ((storedAll_files hkey (start before rows) path).2 fun hwritten => hremoved ((h path).2 hwritten))
    exact Stores.ext hfiles hrows

/-- The files of the request are removed where the two directories are one. -/
theorem removes_iff (hne : uploads ≠ []) (hsaved : ∀ u ∈ uploads, ¬ saver.Fails host u.2) {removed : List PathName → Prop}
    (hremoved : ∀ path, removed path ↔ ∃ key file, (key, some file) ∈ uploads ∧ req.unlink key = none ∧
      host.cleanupPath (uploadUrl (host.fileName file)) = path) :
    (∀ path, (removed path → before path = none) ∧ (WrittenTo host uploads path → removed path)) ↔
      Removes host before req uploads := by
  have hname : ∀ key file, (key, some file) ∈ uploads → IsName (host.fileName file) := by
    intro key file hu
    refine isName_fileName ?_
    by_contra hinvalid
    exact hsaved _ hu (.inl hinvalid)
  constructor
  · intro h
    -- A file that is removed has the directory and the name of a URL.
    have htwin : ∀ key file, (key, some file) ∈ uploads →
        host.directory (host.cwd ++ ["uploads".toList]) = host.directory (pathResolve host.cwd host.uploadDir) ∧
        ∃ other twin, (other, some twin) ∈ uploads ∧ host.fileName twin = host.fileName file ∧
          req.unlink other = none := by
      intro key file hu
      obtain ⟨other, twin, htwin, hunlink, hpath⟩ := (hremoved _).1 ((h _).2 ⟨key, file, hu, rfl⟩)
      rw [cleanupPath_eq (hname other twin htwin), uploadPath_eq (hname key file hu)] at hpath
      obtain ⟨hdirectory, hnames⟩ := List.append_inj' hpath rfl
      exact ⟨hdirectory, other, twin, htwin, (List.cons.inj hnames).1, hunlink⟩
    obtain ⟨⟨key, upload⟩, rest, rfl⟩ := List.exists_cons_of_ne_nil hne
    cases upload with
    | none => exact absurd trivial (hsaved _ List.mem_cons_self)
    | some file =>
      refine ⟨(htwin key file List.mem_cons_self).1, fun key' file' hu => ?_⟩
      exact ⟨(h _).1 ((h _).2 ⟨key', file', hu, rfl⟩), (htwin key' file' hu).2⟩
  · rintro ⟨hdirectory, hfiles⟩ path
    have hsame : ∀ key file, (key, some file) ∈ uploads →
        host.cleanupPath (uploadUrl (host.fileName file)) = host.uploadPath (host.fileName file) := by
      intro key file hu
      rw [cleanupPath_eq (hname key file hu), uploadPath_eq (hname key file hu), hdirectory]
    rw [hremoved]
    constructor
    · rintro ⟨key, file, hu, -, rfl⟩
      rw [hsame key file hu]
      exact (hfiles key file hu).1
    · rintro ⟨key, file, hu, rfl⟩
      obtain ⟨-, other, twin, htwin, hsamename, hunlink⟩ := hfiles key file hu
      exact ⟨other, twin, htwin, hunlink, by rw [hsame other twin htwin, hsamename]⟩

end Removal

/-! ## Whole requests -/

variable {tableName : String} {call : ServiceCall} {req : Request}

/-- Where a file cannot be saved, the request fails with the stores that the loop has left. -/
theorem saveRecord_of_fails
    (h : ∃ u ∈ uploadsOf (allowedFields tableName) req.files.entries, saver.Fails host u.2) (s : Stores) :
    ∃ e body, saveRecord host saver tableName call req s =
      (.error e, (saveAll host saver (uploadsOf (allowedFields tableName) req.files.entries) body s).2) := by
  obtain ⟨e, hrun⟩ := saveAll_of_fails h (req.body.filterKeys (allowedFields tableName).contains) s
  refine ⟨.save e, req.body.filterKeys (allowedFields tableName).contains, ?_⟩
  unfold saveRecord
  simp only
  rw [saveFiles_eq]
  cases hall : saveAll host saver (uploadsOf (allowedFields tableName) req.files.entries)
      (req.body.filterKeys (allowedFields tableName).contains) s with
  | mk result s' =>
    rw [hall] at hrun
    obtain rfl : result = .error e := hrun
    rfl

/-- A file that was saved stays, or its row, whatever becomes of the others. -/
theorem tainted_saveAll_of_first {first : String × Option UploadedFile} (hfirst : ¬ saver.Fails host first.2)
    (body : OrderedMap String Json) :
    saver.Tainted rows (saveAll host saver (first :: uploads) body (start before rows)).2 := by
  obtain ⟨key, upload⟩ := first
  cases upload with
  | none => exact absurd trivial hfirst
  | some file =>
    rw [saveAll, save_of_not_fails hfirst]
    exact tainted_saveAll (tainted_stored file le_rfl) _

/-- A file that fails as the first one leaves everything when it saves nothing. -/
theorem saveAll_eq_start_iff {first : String × Option UploadedFile} (hfirst : saver.Fails host first.2)
    (body : OrderedMap String Json) :
    (saveAll host saver (first :: uploads) body (start before rows)).2 = start before rows ↔
      saver.SavesNothing host before first.2 := by
  obtain ⟨key, upload⟩ := first
  obtain ⟨e, s', hrun, hstart⟩ := @save_of_fails _ host saver (start before rows) before rows upload hfirst
  rw [saveAll, hrun]
  exact hstart rfl

/-- A request that saves no file has nothing to remove. -/
theorem cleanup_of_uploads_nil (hnone : uploadsOf allowed req.files.entries = []) :
    cleanup host req (req.body.filterKeys allowed.contains) req.files.entries s = s := by
  have hremoved : ∀ path, ¬ RemovedFor host req (req.body.filterKeys allowed.contains) req.files.entries path := by
    intro path hpath
    have hiff := @removedFor_iff _ host .plain allowed req.body req (by simp [hnone]) path
    rw [hnone] at hiff
    obtain ⟨_, _, hu, _⟩ := hiff.1 hpath
    exact absurd hu List.not_mem_nil
  refine Stores.ext ?_ (cleanup_rows _ _ _ _)
  funext path
  exact (cleanup_files _ _ _ _ path).2 (hremoved path)

/-- A request whose files are all saved, where the service throws. -/
theorem cleanup_leaves_iff (hne : uploadsOf allowed req.files.entries ≠ [])
    (hsaved : ∀ u ∈ uploadsOf allowed req.files.entries, ¬ saver.Fails host u.2) :
    cleanup host req (withUrls host saver (uploadsOf allowed req.files.entries) (req.body.filterKeys allowed.contains))
        req.files.entries (storedAll host saver (uploadsOf allowed req.files.entries) (start before rows)) =
      start before rows ↔
      saver.key = none ∧ Removes host before req (uploadsOf allowed req.files.entries) := by
  cases hkey : saver.key with
  | none =>
    have hname : ∀ file, saver.storedName host file = host.fileName file := fun file => by
      rw [Saver.storedName, hkey]
    rw [and_iff_right rfl, cleanup_eq_start_iff hkey]
    refine removes_iff hne hsaved fun path => ?_
    rw [removedFor_iff hsaved path]
    simp only [hname]
  | some key =>
    -- The rows of the encrypted files stay.
    refine iff_of_false ?_ fun h => by cases h.1
    obtain ⟨first, rest, hcons⟩ := List.exists_cons_of_ne_nil hne
    rw [hcons] at hsaved ⊢
    have htainted := @tainted_saveAll_of_first _ host saver before rows rest first
      (hsaved first List.mem_cons_self) (req.body.filterKeys allowed.contains)
    rw [saveAll_of_not_fails hsaved, Saver.Tainted, hkey] at htainted
    refine ne_start_of_length ?_
    rw [cleanup_rows]
    exact htainted

/-- A request that fails leaves no file and no row, and every other file as it was, exactly when it is compensated. -/
theorem failedUpload_leavesNothing_iff (host : Host Key) (saver : Saver Key) (tableName : String)
    (call : ServiceCall) (req : Request) (before : List PathName → Option (List UInt8))
    (rows : List EncryptedFileRow) :
    LeavesNothing before rows (saveRecord host saver tableName call req (start before rows)) ↔
      Compensated host saver tableName call req before := by
  unfold Compensated
  simp only
  by_cases hfails : ∃ u ∈ uploadsOf (allowedFields tableName) req.files.entries, saver.Fails host u.2
  · obtain ⟨e, body, hrun⟩ := @saveRecord_of_fails _ host saver tableName call req hfails (start before rows)
    have hnotAll : ¬ ∀ u ∈ uploadsOf (allowedFields tableName) req.files.entries, ¬ saver.Fails host u.2 :=
      fun hall => by
        obtain ⟨u, hu, hfail⟩ := hfails
        exact hall u hu hfail
    have hne : uploadsOf (allowedFields tableName) req.files.entries ≠ [] := by
      obtain ⟨u, hu, -⟩ := hfails
      exact List.ne_nil_of_mem hu
    rw [hrun, or_iff_right hne, or_iff_left fun h => hnotAll h.1]
    obtain ⟨first, rest, hcons⟩ := List.exists_cons_of_ne_nil hne
    rw [hcons, List.head?_cons]
    simp only [Option.mem_some_iff, exists_eq_left']
    by_cases hfirst : saver.Fails host first.2
    · rw [and_iff_right hfirst]
      exact saveAll_eq_start_iff hfirst body
    · exact iff_of_false (tainted_saveAll_of_first hfirst body).ne_start fun h => hfirst h.1
  · have hsaved : ∀ u ∈ uploadsOf (allowedFields tableName) req.files.entries, ¬ saver.Fails host u.2 :=
      fun u hu hfail => hfails ⟨u, hu, hfail⟩
    have hnotFirst : ¬ ∃ first ∈ (uploadsOf (allowedFields tableName) req.files.entries).head?,
        saver.Fails host first.2 ∧ saver.SavesNothing host before first.2 :=
      fun ⟨first, hhead, hfail, _⟩ => hsaved first (List.mem_of_mem_head? hhead) hfail
    rw [or_iff_right hnotFirst, and_iff_right hsaved]
    unfold saveRecord
    simp only
    rw [saveFiles_eq, saveAll_of_not_fails hsaved]
    cases req.service call with
    | none => exact iff_of_true trivial (.inr (.inl rfl))
    | some message =>
      rw [or_iff_right (Option.some_ne_none message)]
      by_cases hnil : uploadsOf (allowedFields tableName) req.files.entries = []
      · rw [hnil]
        exact iff_of_true (cleanup_of_uploads_nil hnil) (.inl rfl)
      · rw [or_iff_right hnil]
        exact cleanup_leaves_iff hnil hsaved

/-! ## A request with two files -/

/-- The default directory, below the working directory; the files are saved without a key. -/
def plainHost : Host Empty :=
  { cwd := ["app".toList]
    uploadDir := "./uploads".toList
    directory := id
    toLowerCase := List.map Char.toLower
    cipher :=
      { encrypt := fun key => key.elim
        tag := fun key => key.elim
        decrypt := fun key => key.elim
        accepts := fun key => key.elim
        decrypt_encrypt := fun key => key.elim
        accepts_encrypt := fun key => key.elim } }

def scan : UploadedFile :=
  { name := "scan.pdf".toList
    mimetype := "application/pdf"
    size := 2
    data := [0x25, 0x50]
    label := none
    now := 1767600000000
    random := [1, 2, 3, 4]
    fileId := ⟨"f1", by decide⟩
    iv := ⟨List.replicate 12 0, List.length_replicate⟩
    write := .done
    insert := .stored
    unlink := none }

/-- Evidence with two files, of which the second has an extension that is refused. -/
def twoFiles : Request :=
  { body := OrderedMap.empty
    files := ⟨[("file_data", [scan]), ("description", [{ scan with name := "run.exe".toList }])], by decide⟩
    service := fun _ => none
    unlink := fun _ => none }

/-- The request fails, and the first file stays. -/
theorem twoFiles_leavesFile :
    (∃ e, (post plainHost .plain "audit_evidence" twoFiles (start (fun _ => none) [])).1 = .error (.save e)) ∧
      (post plainHost .plain "audit_evidence" twoFiles (start (fun _ => none) [])).2.files
          ["app".toList, "uploads".toList, "1767600000000-01020304-scan.pdf".toList] =
        some (.uploaded [0x25, 0x50]) ∧
      ¬ LeavesNothing (fun _ => none) [] (post plainHost .plain "audit_evidence" twoFiles (start (fun _ => none) [])) := by
  have hrun : post plainHost .plain "audit_evidence" twoFiles (start (fun _ => none) []) =
      (.error (.save (.validation "Extension .exe is not allowed")),
        (start (fun _ => none) []).write
          ["app".toList, "uploads".toList, "1767600000000-01020304-scan.pdf".toList] [0x25, 0x50]) := rfl
  rw [hrun]
  exact ⟨⟨_, rfl⟩, write_files_self, write_ne_start⟩

end AlsaqiBackend.Files.FailedUploads
