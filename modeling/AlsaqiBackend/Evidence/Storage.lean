import AlsaqiBackend.Evidence.FileNames
import AlsaqiBackend.Numbering.GapFree

/-!
# Attaching evidence

`attachEvidence` draws an evidence number, writes the file, and inserts the row. Files and rows have no common
transaction: where the insertion fails the file is removed again, and where the writing fails nothing is done.

`attachEvidence_atomic_iff` says when a call leaves everything as it was or stores the file and its row: the
path has to be free, a writing that fails must not have written anything, and an insertion that fails must not
have stored the row and has to be followed by a removal that succeeds. A few coincidences come to the same,
when the path already has the very bytes.
-/

namespace AlsaqiBackend.Evidence

open AlsaqiBackend.Lib AlsaqiBackend.Numbering

/-! ## The source -/

structure EvidenceFile where
  originalname : List UInt16
  buffer : List UInt8

structure EvidenceData where
  type : String
  description : String

structure AttachEvidenceResult where
  id : String
  evidenceNumber : String
  filePath : List UInt16
  findingId : String

/-- What the call reads of a row of `audit_findings`. -/
structure FindingRow where
  id : String
  auditId : Option String
  findingNumber : Option String

/-- A row of `audit_evidence`. -/
structure EvidenceRow where
  id : String
  auditId : Option String
  findingId : String
  evidenceNumber : String
  type : String
  description : String
  uploadedBy : String
  uploadDate : ℤ
  fileName : List UInt16
  filePath : List UInt16

/-- An absolute path. -/
abbrev FilePath := List (List UInt16)

/-- The tables, and the bytes of the files. -/
structure Stores where
  findings : List FindingRow
  counters : Counters
  evidence : List EvidenceRow
  files : FilePath → Option (List UInt8)

/-- What becomes of `writeFile`: it cannot open the file, it stops after some bytes, or it writes all. -/
inductive WriteOutcome
  | refused (message : String)
  | stopped (written : ℕ) (message : String)
  | done

/-- What becomes of the insertion: the row is stored, it is rejected, or the row is stored and the answer lost. -/
inductive InsertOutcome
  | stored
  | rejected (message : String)
  | lost (message : String)

/-- What becomes of the awaits of a call; a message is that of an error. -/
structure Awaits where
  select : Option String
  draw : Option String
  mkdir : Option String
  write : WriteOutcome
  insert : InsertOutcome
  unlink : Option String

inductive AttachError
  | notFound (message : String)
  | numbering
  | failure (message : String)

structure UploadCall where
  findingId : String
  file : EvidenceFile
  data : EvidenceData
  userId : String
  /-- `process.cwd()`. -/
  cwd : FilePath
  /-- The id and the time that the database gives the row. -/
  rowId : String
  now : ℤ
  awaits : Awaits

/-- `path.join(process.cwd(), filePath)`. -/
def absolutePath (cwd : FilePath) (filePath : List UInt16) : FilePath :=
  resolve (unit '/') (unit '.') cwd filePath

/-- `buildEvidencePath` of a finding. -/
def FindingRow.evidencePath (finding : FindingRow) (evidenceNumber : String) (fileName : List UInt16) : List UInt16 :=
  buildEvidencePath (units (textOf finding.auditId)) (units finding.id) (units evidenceNumber) fileName

def FindingRow.evidenceRow (finding : FindingRow) (call : UploadCall) (evidenceNumber : String) : EvidenceRow :=
  { id := call.rowId
    auditId := finding.auditId
    findingId := call.findingId
    evidenceNumber
    type := call.data.type
    description := call.data.description
    uploadedBy := call.userId
    uploadDate := call.now
    fileName := call.file.originalname
    filePath := finding.evidencePath evidenceNumber call.file.originalname }

def Stores.setFile (s : Stores) (path : FilePath) (content : Option (List UInt8)) : Stores :=
  { s with files := Function.update s.files path content }

/-- The insertion, and the removal of the file after it has failed. -/
def insertEvidence (call : UploadCall) (row : EvidenceRow) (s : Stores) :
    Except AttachError AttachEvidenceResult × Stores :=
  let path := absolutePath call.cwd row.filePath
  let unlinked (s : Stores) := if call.awaits.unlink.isSome then s else s.setFile path none
  let stored : Stores := { s with evidence := s.evidence ++ [row] }
  match call.awaits.insert with
  | .stored => (.ok ⟨row.id, row.evidenceNumber, row.filePath, row.findingId⟩, stored)
  | .rejected message =>
    (.error (.failure ("فشل حفظ سجل الدليل / Evidence record save failed: " ++ message)), unlinked s)
  | .lost message =>
    (.error (.failure ("فشل حفظ سجل الدليل / Evidence record save failed: " ++ message)), unlinked stored)

/-- The directory, the file and the row. -/
def storeEvidence (call : UploadCall) (row : EvidenceRow) (s : Stores) :
    Except AttachError AttachEvidenceResult × Stores :=
  let path := absolutePath call.cwd row.filePath
  let failed (message : String) := AttachError.failure ("فشل كتابة الملف / File storage failed: " ++ message)
  match call.awaits.mkdir, call.awaits.write with
  | some message, _ => (.error (failed message), s)
  | none, .refused message => (.error (failed message), s)
  | none, .stopped written message => (.error (failed message), s.setFile path (some (call.file.buffer.take written)))
  | none, .done => insertEvidence call row (s.setFile path (some call.file.buffer))

def attachEvidence (call : UploadCall) (s : Stores) : Except AttachError AttachEvidenceResult × Stores :=
  match call.awaits.select, s.findings.find? (·.id = call.findingId), call.awaits.draw with
  | some message, _, _ => (.error (.failure message), s)
  | none, none, _ => (.error (.notFound "الملاحظة غير موجودة / Finding not found"), s)
  | none, some _, some message => (.error (.failure message), s)
  | none, some finding, none =>
    match nextEvidenceNumber call.findingId (textOf finding.findingNumber) s.counters with
    | (none, counters) => (.error .numbering, { s with counters })
    | (some evidenceNumber, counters) =>
      storeEvidence call (finding.evidenceRow call evidenceNumber) { s with counters }

/-! ## Atomic uploads -/

/-- A call that throws leaves rows and files as they were. One that returns has inserted one row, whose path
names a file with the bytes, and has changed no file of an earlier row. -/
def Atomic (call : UploadCall) (s : Stores) (outcome : Except AttachError AttachEvidenceResult × Stores) : Prop :=
  match outcome with
  | (.error _, s') => s'.evidence = s.evidence ∧ s'.files = s.files
  | (.ok result, s') =>
    (∃ row, s'.evidence = s.evidence ++ [row] ∧ row.id = result.id ∧ row.filePath = result.filePath ∧
      s'.files (absolutePath call.cwd row.filePath) = some call.file.buffer) ∧
    ∀ old ∈ s.evidence, ∀ bytes, s.files (absolutePath call.cwd old.filePath) = some bytes →
      s'.files (absolutePath call.cwd old.filePath) = some bytes

/-- The condition at the path of the file, where a call comes to its writing. -/
def Spares (call : UploadCall) (path : FilePath) (s : Stores) : Prop :=
  match call.awaits.write, call.awaits.insert with
  | .refused _, _ => True
  | .stopped written _, _ => s.files path = some (call.file.buffer.take written)
  | .done, .stored =>
    ∀ old ∈ s.evidence, absolutePath call.cwd old.filePath = path →
      s.files path = none ∨ s.files path = some call.file.buffer
  | .done, .rejected _ => s.files path = if call.awaits.unlink.isSome then some call.file.buffer else none
  | .done, .lost _ => False

variable {call : UploadCall} {s : Stores} {row : EvidenceRow} {path : FilePath} {content : Option (List UInt8)}

theorem setFile_files_eq_iff : (s.setFile path content).files = s.files ↔ s.files path = content := by
  unfold Stores.setFile
  rw [Function.update_eq_self_iff]
  exact eq_comm

theorem setFile_setFile (content' : Option (List UInt8)) :
    (s.setFile path content).setFile path content' = s.setFile path content' := by
  unfold Stores.setFile
  rw [Function.update_idem]

/-- Rows keep the bytes of their files when the path of a new file is not one of theirs, or is free, or has the
very bytes. -/
theorem kept_setFile_iff {rows : List EvidenceRow} {cwd : FilePath} {bytes : List UInt8} :
    (∀ old ∈ rows, ∀ b, s.files (absolutePath cwd old.filePath) = some b →
        (s.setFile path (some bytes)).files (absolutePath cwd old.filePath) = some b) ↔
      ∀ old ∈ rows, absolutePath cwd old.filePath = path → s.files path = none ∨ s.files path = some bytes := by
  refine forall_congr' fun old => imp_congr_right fun _ => ?_
  unfold Stores.setFile
  by_cases hpath : absolutePath cwd old.filePath = path
  · rw [hpath]
    simp only [Function.update_self, forall_const]
    cases s.files path with
    | none => simp
    | some b => simp [eq_comm]
  · simp only [Function.update_of_ne hpath, imp_self, implies_true, hpath, false_imp_iff]

theorem atomic_error_iff {e : AttachError} {s' : Stores} :
    Atomic call s (.error e, s') ↔ s'.evidence = s.evidence ∧ s'.files = s.files := Iff.rfl

/-- A call that throws before it has written a file leaves everything. -/
theorem atomic_error {e : AttachError} {counters : Counters} : Atomic call s (.error e, { s with counters }) :=
  atomic_error_iff.2 ⟨rfl, rfl⟩

/-- The insertion behind a written file. -/
theorem insertEvidence_atomic_iff {counters : Counters} (hwrite : call.awaits.write = .done)
    (hpath : absolutePath call.cwd row.filePath = path) :
    Atomic call s (insertEvidence call row ({ s with counters }.setFile path (some call.file.buffer))) ↔
      Spares call path s := by
  unfold insertEvidence Spares
  rw [hwrite, hpath]
  cases call.awaits.insert with
  | stored =>
    have hrow : ∃ stored, s.evidence ++ [row] = s.evidence ++ [stored] ∧ stored.id = row.id ∧
        stored.filePath = row.filePath ∧
        ({ s with counters }.setFile path (some call.file.buffer)).files (absolutePath call.cwd stored.filePath) =
          some call.file.buffer := by
      refine ⟨row, rfl, rfl, rfl, ?_⟩
      rw [hpath]
      exact Function.update_self path _ _
    rw [← kept_setFile_iff]
    exact and_iff_right hrow
  | rejected message =>
    simp only
    rw [atomic_error_iff]
    cases call.awaits.unlink with
    | none =>
      simp only [Option.isSome_none, Bool.false_eq_true, if_false]
      rw [setFile_setFile]
      exact (and_iff_right rfl).trans setFile_files_eq_iff
    | some message =>
      simp only [Option.isSome_some, if_true]
      exact (and_iff_right rfl).trans setFile_files_eq_iff
  | lost message =>
    simp only
    rw [atomic_error_iff, iff_false]
    rintro ⟨hevidence, -⟩
    have hrows : s.evidence ++ [row] = s.evidence := by
      split_ifs at hevidence
      · exact hevidence
      · exact hevidence
    exact absurd (List.append_right_eq_self.1 hrows) (List.cons_ne_nil row [])

/-- From the directory on, the condition is about the path of the file. -/
theorem storeEvidence_atomic_iff {counters : Counters} :
    Atomic call s (storeEvidence call row { s with counters }) ↔
      (call.awaits.mkdir = none → Spares call (absolutePath call.cwd row.filePath) s) := by
  unfold storeEvidence
  cases call.awaits.mkdir with
  | some message => exact iff_of_true atomic_error fun h => (by cases h)
  | none =>
    rw [forall_prop_of_true rfl]
    cases hwrite : call.awaits.write with
    | refused message =>
      refine iff_of_true atomic_error ?_
      unfold Spares
      rw [hwrite]
      trivial
    | stopped written message =>
      unfold Spares
      rw [hwrite]
      exact (and_iff_right rfl).trans setFile_files_eq_iff
    | done => exact insertEvidence_atomic_iff hwrite rfl

/-- A call is atomic exactly when the condition holds at the path of its file, if it comes to writing it. -/
theorem attachEvidence_atomic_iff (call : UploadCall) (s : Stores) :
    Atomic call s (attachEvidence call s) ↔
      ∀ finding, s.findings.find? (·.id = call.findingId) = some finding →
        ∀ evidenceNumber,
          (nextEvidenceNumber call.findingId (textOf finding.findingNumber) s.counters).1 = some evidenceNumber →
          call.awaits.select = none → call.awaits.draw = none → call.awaits.mkdir = none →
          Spares call (absolutePath call.cwd (finding.evidencePath evidenceNumber call.file.originalname)) s := by
  unfold attachEvidence
  cases call.awaits.select with
  | some message => exact iff_of_true atomic_error fun _ _ _ _ h => (by cases h)
  | none =>
    cases s.findings.find? (·.id = call.findingId) with
    | none => exact iff_of_true atomic_error fun _ h => (by cases h)
    | some finding =>
      simp only [Option.some.injEq, forall_eq']
      cases call.awaits.draw with
      | some message => exact iff_of_true atomic_error fun _ _ _ h => (by cases h)
      | none =>
        simp only
        cases nextEvidenceNumber call.findingId (textOf finding.findingNumber) s.counters with
        | mk drawn counters =>
          cases drawn with
          | none => exact iff_of_true atomic_error fun _ h => (by cases h)
          | some evidenceNumber =>
            simp only [Option.some.injEq, forall_eq', forall_prop_of_true]
            exact storeEvidence_atomic_iff

/-- One finding, and no evidence yet. -/
def oneFinding : Stores := ⟨[⟨"f1", some "p1", some "IA-PL-25-001-F01"⟩], Counters.empty, [], fun _ => none⟩

/-- An upload of two bytes; the disk is full after the first one. -/
def stoppedUpload : UploadCall :=
  { findingId := "f1"
    file := ⟨units "a.txt", [0x68, 0x69]⟩
    data := ⟨"Document", "scan"⟩
    userId := "u1"
    cwd := [units "app"]
    rowId := "e1"
    now := 0
    awaits := ⟨none, none, none, .stopped 1 "ENOSPC", .stored, none⟩ }

/-- The byte that has been written stays. -/
theorem stoppedUpload_not_atomic : ¬Atomic stoppedUpload oneFinding (attachEvidence stoppedUpload oneFinding) := by
  have hdraw : nextEvidenceNumber "f1" "IA-PL-25-001-F01" Counters.empty =
      (some (childCode "IA-PL-25-001-F01" "E" 1), Counters.empty.set "evidence" "f1" 1) := rfl
  have hrun : attachEvidence stoppedUpload oneFinding =
      storeEvidence stoppedUpload
        (FindingRow.evidenceRow ⟨"f1", some "p1", some "IA-PL-25-001-F01"⟩ stoppedUpload
          (childCode "IA-PL-25-001-F01" "E" 1))
        { oneFinding with counters := Counters.empty.set "evidence" "f1" 1 } := rfl
  rw [hrun, storeEvidence_atomic_iff]
  intro h
  cases h rfl

end AlsaqiBackend.Evidence
