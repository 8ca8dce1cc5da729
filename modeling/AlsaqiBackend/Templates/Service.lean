import AlsaqiBackend.Lib.JsString
import AlsaqiBackend.Lib.Modify
import AlsaqiBackend.Lib.Run
import Mathlib.Algebra.Order.Ring.Int

/-!
# PDF templates

`PdfTemplateService` with its calls split at their awaits. `update` and `delete` read the template
first and check what they have read; `create` and `update` clear the previous default of the type in
their transaction, by a statement that takes its rows from a snapshot and then locks them one by one,
and write their own row after it. The unique index allows one approved default of each type.
-/

namespace AlsaqiBackend.Templates

open AlsaqiBackend.Lib

/-! ## Templates -/

inductive TemplateStatus
  | draft
  | approved
  | archived
  deriving DecidableEq, Repr

/-- The columns of `pdf_templates`, without those that say who wrote it and when. -/
structure Template where
  id : String
  templateName : String
  templateTypeKey : String
  content : String
  status : TemplateStatus
  isDefault : Bool
  version : ℤ
  deriving DecidableEq, Repr

/-- `is_default` in a body: the schema of the route lets numbers through as well. -/
inductive DefaultFlag
  | bool (b : Bool)
  | number (n : ℤ)
  deriving DecidableEq, Repr

def DefaultFlag.truthy : DefaultFlag → Bool
  | .bool b => b
  | .number n => n ≠ 0

/-- `CreateTemplateDto`; a text that is missing is the empty one. -/
structure CreateTemplateDto where
  templateName : String
  templateTypeKey : String
  content : String
  status : Option TemplateStatus
  isDefault : Option DefaultFlag
  deriving DecidableEq, Repr

/-- `UpdateTemplateDto`. -/
structure UpdateTemplateDto where
  templateName : Option String
  content : Option String
  status : Option TemplateStatus
  isDefault : Option DefaultFlag
  deriving DecidableEq, Repr

/-! ## Validation -/

def MAX_CONTENT_BYTES : ℕ := 500 * 1024

def MAX_NAME_LENGTH : ℕ := 200

/-- The keys of `TEMPLATE_TYPES`. -/
def VALID_KEYS : List String :=
  ["audit_report", "quarterly_report", "annual_report", "audit_plan", "audit_missions",
    "recommendations", "outgoing_letter", "general"]

def isValidTemplateTypeKey (input : String) : Bool := input ∈ VALID_KEYS

/-- Why a call is refused. -/
inductive TemplateError
  | missingFields
  | nameTooLong
  | contentTooLarge (contentBytes : ℕ)
  | invalidTypeKey (key : String)
  | notApproved
  | notFound
  | defaultApproved
  deriving DecidableEq, Repr

/-- `Math.round(contentBytes / 1024)`. -/
def roundedKilobytes (contentBytes : ℕ) : ℕ := (2 * contentBytes + 1024) / 2048

def TemplateError.message : TemplateError → String
  | .missingFields =>
    "Missing required fields: template_name, template_type_key, and content are required"
  | .nameTooLong =>
    "template_name exceeds maximum length of " ++ toString MAX_NAME_LENGTH ++ " characters"
  | .contentTooLarge contentBytes =>
    "content exceeds maximum size of 500 KB (received " ++ toString (roundedKilobytes contentBytes) ++
      " KB)"
  | .invalidTypeKey key =>
    "Invalid template_type_key: \"" ++ key ++ "\". Must be one of the defined TemplateTypeKey values."
  | .notApproved => "Only Approved templates can be set as default"
  | .notFound => "Template not found"
  | .defaultApproved =>
    "Cannot delete the default approved template. Designate another template as default first."

def validateName (templateName : String) : Except TemplateError Unit :=
  if MAX_NAME_LENGTH < utf16Length templateName then .error .nameTooLong else .ok ()

def validateContent (content : String) : Except TemplateError Unit :=
  if MAX_CONTENT_BYTES < content.utf8ByteSize then .error (.contentTooLarge content.utf8ByteSize)
  else .ok ()

/-- The checks of `create`, with the status and the flag of its row. -/
def validateCreate (data : CreateTemplateDto) : Except TemplateError (TemplateStatus × Bool) := do
  if data.templateName = "" ∨ data.templateTypeKey = "" ∨ data.content = "" then
    throw .missingFields
  validateName data.templateName
  validateContent data.content
  if isValidTemplateTypeKey data.templateTypeKey = false then
    throw (.invalidTypeKey data.templateTypeKey)
  let status := data.status.getD .draft
  let isDefault := data.isDefault.any DefaultFlag.truthy
  if isDefault = true ∧ status ≠ .approved then throw .notApproved
  return (status, isDefault)

/-- `data.is_default === true`. -/
def UpdateTemplateDto.wantsDefault (data : UpdateTemplateDto) : Bool :=
  data.isDefault = some (.bool true)

/-- The checks of `update`, with the version that it is going to write. -/
def validateUpdate (existing : Template) (data : UpdateTemplateDto) : Except TemplateError ℤ := do
  if let some templateName := data.templateName then validateName templateName
  if let some content := data.content then validateContent content
  let effectiveStatus := data.status.getD existing.status
  if data.wantsDefault = true ∧ effectiveStatus ≠ .approved then throw .notApproved
  return if data.content.all (· = existing.content) then existing.version else existing.version + 1

/-- The check of `delete`. -/
def validateDelete (existing : Template) : Except TemplateError Unit :=
  if existing.isDefault = true ∧ existing.status = .approved then .error .defaultApproved else .ok ()

/-! ## Calls -/

/-- What a call that has passed its checks is going to write. -/
inductive Write
  | insert (data : CreateTemplateDto) (status : TemplateStatus) (isDefault : Bool)
  | update (existing : Template) (data : UpdateTemplateDto) (newVersion : ℤ)
  | delete (existing : Template)
  deriving DecidableEq, Repr

/-- The type whose default is cleared first. -/
def Write.clears : Write → Option String
  | .insert data _ isDefault => if isDefault then some data.templateTypeKey else none
  | .update existing data _ => if data.wantsDefault then some existing.templateTypeKey else none
  | .delete _ => none

/-- How far a call is: its checks have passed; its clearing statement has rows of its snapshot left
to look at, and has locked others; or it has ended. -/
inductive Stage
  | validated
  | clearing (remaining cleared : List String)
  | done
  deriving DecidableEq, Repr

/-- The rows that the clearing statement has changed. -/
def Stage.cleared : Stage → List String
  | .clearing _ cleared => cleared
  | _ => []

/-- The rows that the clearing statement is to look at. -/
def Stage.remaining : Stage → List String
  | .clearing remaining _ => remaining
  | _ => []

structure Call where
  write : Write
  stage : Stage
  deriving DecidableEq, Repr

/-- A version of a template that has been stored, with its content. -/
structure Stored where
  id : String
  version : ℤ
  content : String
  deriving DecidableEq, Repr

def Template.stored (row : Template) : Stored := ⟨row.id, row.version, row.content⟩

/-- The table, the calls, and every version that has been stored. -/
structure TemplateState where
  table : List Template
  calls : List Call
  history : List Stored
  deriving DecidableEq, Repr

/-! ## Statements -/

/-- The row of an id. -/
def findRow (table : List Template) (id : String) : Option Template :=
  table.find? fun row => row.id = id

/-- `template_type_key = ? AND is_default = 1`. -/
def Template.isDefaultOf (row : Template) (key : String) : Bool :=
  row.templateTypeKey = key && row.isDefault

/-- The rows that a clearing statement has locked, with `is_default = 0`. -/
def clearRows (cleared : List String) (table : List Template) : List Template :=
  table.map fun row => if row.id ∈ cleared then { row with isDefault := false } else row

/-- What `idx_one_default_per_type` has of a row. -/
def Template.indexed (row : Template) : Bool := row.isDefault && row.status = .approved

/-- The unique index allows a row beside the others. -/
def indexAllows (table : List Template) (row : Template) : Bool :=
  table.all fun other =>
    !(row.indexed && other.indexed && other.id ≠ row.id && other.templateTypeKey = row.templateTypeKey)

/-- The row of a `create`. -/
def insertedRow (id : String) (data : CreateTemplateDto) (status : TemplateStatus)
    (isDefault : Bool) : Template :=
  ⟨id, data.templateName, data.templateTypeKey, data.content, status, isDefault, 1⟩

/-- `COALESCE` of the fields of a body. -/
def updatedRow (data : UpdateTemplateDto) (newVersion : ℤ) (row : Template) : Template :=
  { row with
    templateName := data.templateName.getD row.templateName
    content := data.content.getD row.content
    status := data.status.getD row.status
    isDefault := (data.isDefault.map DefaultFlag.truthy).getD row.isDefault
    version := newVersion }

/-- The row takes the place of the one with its id. -/
def putRow (row : Template) (table : List Template) : List Template :=
  table.map fun other => if other.id = row.id then row else other

/-- Some other call has locked the row. -/
def TemplateState.locked (s : TemplateState) (i : ℕ) (id : String) : Bool :=
  s.calls.zipIdx.any fun (call, j) => j ≠ i && call.stage.cleared.contains id

namespace TemplateState

def setStage (s : TemplateState) (i : ℕ) (stage : Stage) : TemplateState :=
  { s with calls := s.calls.modify i fun call => { call with stage } }

def begin (s : TemplateState) (write : Write) : TemplateState :=
  { s with calls := s.calls ++ [⟨write, .validated⟩] }

/-- The last statement of a call and its `COMMIT`: `none` where it waits for a lock. Where it throws,
all that the call has done is rolled back. -/
def commitWrite (s : TemplateState) (i : ℕ) (newId : String) (write : Write)
    (cleared : List String) : Option TemplateState :=
  let table := clearRows cleared s.table
  match write with
  | .insert data status isDefault =>
    let row := insertedRow newId data status isDefault
    if newId ∈ s.history.map Stored.id then none
    else if indexAllows table row then
      some { s.setStage i .done with table := table ++ [row], history := s.history ++ [row.stored] }
    else some (s.setStage i .done)
  | .update existing data newVersion =>
    if s.locked i existing.id then none
    else
      match findRow table existing.id with
      | none => some (s.setStage i .done)
      | some row =>
        let row' := updatedRow data newVersion row
        if indexAllows table row' then
          some { s.setStage i .done with
            table := putRow row' table, history := s.history ++ [row'.stored] }
        else some (s.setStage i .done)
  | .delete existing =>
    if s.locked i existing.id then none
    else some { s.setStage i .done with table := s.table.filter fun row => row.id ≠ existing.id }

end TemplateState

inductive TemplateAction
  | create (data : CreateTemplateDto)
  | update (id : String) (data : UpdateTemplateDto)
  | delete (id : String)
  /-- The clearing statement of a call begins, and takes its snapshot. -/
  | clear (i : ℕ)
  /-- It locks the next row of the snapshot, which it changes if it is still a default of the type. -/
  | clearNext (i : ℕ)
  | commit (i : ℕ) (newId : String)
  /-- An await of a call throws. -/
  | fail (i : ℕ)
  deriving DecidableEq, Repr

/-- One step; a call that is refused changes nothing. -/
def templateStep (s : TemplateState) : TemplateAction → Option TemplateState
  | .create data =>
    match validateCreate data with
    | .error _ => some s
    | .ok (status, isDefault) => some (s.begin (.insert data status isDefault))
  | .update id data =>
    match findRow s.table id with
    | none => some s
    | some existing =>
      match validateUpdate existing data with
      | .error _ => some s
      | .ok newVersion => some (s.begin (.update existing data newVersion))
  | .delete id =>
    match findRow s.table id with
    | none => some s
    | some existing =>
      match validateDelete existing with
      | .error _ => some s
      | .ok () => some (s.begin (.delete existing))
  | .clear i =>
    match s.calls[i]? with
    | some ⟨write, .validated⟩ =>
      write.clears.map fun key =>
        s.setStage i (.clearing ((s.table.filter (·.isDefaultOf key)).map Template.id) [])
    | _ => none
  | .clearNext i =>
    match s.calls[i]? with
    | some ⟨write, .clearing (id :: remaining) cleared⟩ =>
      if s.locked i id then none
      else
        let matching := (findRow s.table id).any fun row => write.clears.any (row.isDefaultOf ·)
        some (s.setStage i (.clearing remaining (if matching then cleared ++ [id] else cleared)))
    | _ => none
  | .commit i newId =>
    match s.calls[i]? with
    | some ⟨write, .validated⟩ =>
      if write.clears = none then s.commitWrite i newId write [] else none
    | some ⟨write, .clearing [] cleared⟩ => s.commitWrite i newId write cleared
    | _ => none
  | .fail i => some (s.setStage i .done)

end AlsaqiBackend.Templates
