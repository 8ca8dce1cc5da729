import AlsaqiBackend.Lib.Table
import AlsaqiBackend.Lib.Run
import Mathlib.Algebra.Order.Ring.Int

/-!
# Correspondence

`CorrespondenceService` over the tables of incoming and outgoing letters, with their status history,
referrals, links and attachments. An operation that throws because of the database changes nothing:
it is one statement, or its transaction is rolled back. The sequence numbers and the webhooks are
outside of the model.
-/

namespace AlsaqiBackend.Correspondence

open AlsaqiBackend.Lib

/-- A value of a column or of a body. -/
inductive Value
  | null
  | text (t : String)
  | int (n : ℤ)
  deriving DecidableEq, Repr

/-- Whether a value of a body counts as true. -/
def Value.truthy : Value → Bool
  | .null => false
  | .text t => t ≠ ""
  | .int n => n ≠ 0

/-- A row of `incoming_correspondence` or `outgoing_letters`; `columns` are the ones that have no
field. -/
structure Letter where
  id : String
  status : Value
  isArchived : ℤ
  updatedAt : String
  deletedAt : Option String
  columns : String → Value

structure HistoryRow where
  correspondenceId : String
  correspondenceType : String
  oldStatus : Value
  newStatus : Value
  changedBy : String
  notes : Value
  deriving DecidableEq, Repr

structure Referral where
  incomingId : String
  fromUserId : String
  toDeptId : Value
  toUserId : Value
  notes : Value
  deriving DecidableEq, Repr

structure Link where
  incomingId : String
  outgoingId : String
  linkType : String
  linkedBy : String
  deriving DecidableEq, Repr

structure Attachment where
  correspondenceId : String
  correspondenceType : String
  deletedAt : Option String
  columns : String → Value

structure CorrespondenceDb where
  incoming : List Letter
  outgoing : List Letter
  history : List HistoryRow
  referrals : List Referral
  links : List Link
  attachments : List Attachment

inductive CorrespondenceError
  | notFound (message : String)
  /-- A statement fails. -/
  | database
  deriving DecidableEq, Repr

/-! ## Rows -/

/-- The fields of a body; `none` where it does not have one. -/
abbrev Body := String → Option Value

/-- The columns that `createIncoming` takes as they are. -/
def incomingColumns : List String :=
  ["letter_number", "sender_entity", "sender_entity_type", "subject", "letter_date", "receipt_date",
    "classification", "priority", "method", "receiving_dept_id", "assigned_dept_id",
    "assigned_user_id", "follow_up_date", "response_due_date", "notes"]

/-- The columns that are stored as 0 or 1. -/
def flagColumns : List String := ["follow_up_required", "response_required"]

/-- The columns of a body of an outgoing letter. -/
def outgoingColumns : List String :=
  ["letter_date", "recipient_entity", "subject", "classification", "sending_method",
    "attachment_file"]

/-- What a body sets of a column; `none` leaves it. -/
def setColumn (texts flags : List String) (data : Body) (column : String) : Option Value :=
  if column ∈ texts then data column
  else if column ∈ flags then (data column).map fun v => .int (if v.truthy then 1 else 0)
  else none

/-- Whether an update has any field to set. -/
def hasFields (texts flags : List String) (data : Body) : Bool :=
  (texts ++ flags).any fun column => (data column).isSome

/-- The columns of a new row. -/
def newColumns (texts flags : List String) (data : Body) (extra : List (String × String)) (column : String) :
    Value :=
  match extra.lookup column with
  | some v => .text v
  | none =>
    if column ∈ flags then .int (if ((data column).getD .null).truthy then 1 else 0)
    else (setColumn texts flags data column).getD .null

/-- The row is there, and `deleted_at IS NULL`. -/
def Letter.is (id : String) (letter : Letter) : Bool := letter.id = id && letter.deletedAt.isNone

/-- Some row is there. -/
def found (letters : List Letter) (id : String) : Bool := letters.any (Letter.is id)

/-! ## Operations -/

inductive CorrespondenceOp
  | createIncoming (id sequenceNumber : String) (data : Body) (userId now : String)
  | createOutgoing (id sequenceNumber : String) (data : Body) (userId now : String)
  | updateStatus (type id : String) (newStatus notes : Value) (userId now : String)
  | refer (incomingId : String) (toDeptId toUserId notes : Value) (userId now : String)
  | link (incomingId outgoingId : String) (linkType : Option String) (userId : String)
  | archive (type id now : String)
  | addAttachment (correspondenceId correspondenceType : String) (columns : String → Value)
  | updateOutgoing (id : String) (data : Body) (now : String)
  | updateIncoming (id : String) (data : Body) (now : String)
  | deleteOutgoing (id now : String)
  | deleteIncoming (id now : String)

/-- What an operation ends with, and the database then. -/
abbrev Outcome := Except CorrespondenceError Unit × CorrespondenceDb

namespace CorrespondenceDb

/-- `INSERT INTO incoming_correspondence`, with the defaults of its other columns. -/
def createIncoming (db : CorrespondenceDb) (id sequenceNumber : String) (data : Body)
    (userId now : String) : Outcome :=
  (.ok (), { db with incoming := db.incoming ++ [⟨id, .text "Received", 0, now, none,
    newColumns incomingColumns flagColumns data
      [("sequence_number", sequenceNumber), ("created_by", userId)]⟩] })

/-- `INSERT INTO outgoing_letters`, with the defaults of its other columns. -/
def createOutgoing (db : CorrespondenceDb) (id sequenceNumber : String) (data : Body)
    (userId now : String) : Outcome :=
  (.ok (), { db with outgoing := db.outgoing ++ [⟨id, .text "Draft", 0, now, none,
    newColumns outgoingColumns [] data
      [("sequence_number", sequenceNumber), ("created_by", userId)]⟩] })

/-- The status of a letter is set. -/
def setStatus (newStatus : Value) (now : String) (letter : Letter) : Letter :=
  { letter with status := newStatus, updatedAt := now }

/-- `type === 'incoming' ? 'Incoming' : 'Outgoing'`. -/
def dbType (type : String) : String := if type = "incoming" then "Incoming" else "Outgoing"

/-- `updateStatus`. The table is the outgoing one for `'outgoing'` only, and the type of the history row
is `'Incoming'` for `'incoming'` only. -/
def updateStatus (db : CorrespondenceDb) (type id : String) (newStatus notes : Value)
    (userId now : String) : Outcome :=
  let table := if type = "outgoing" then db.outgoing else db.incoming
  match table.find? (Letter.is id) with
  | none => (.error (.notFound "Record not found"), db)
  | some oldRecord =>
    let updated := updateWhere (Letter.is id) (setStatus newStatus now) table
    let history := db.history ++ [⟨id, dbType type, oldRecord.status, newStatus, userId, notes⟩]
    if type = "outgoing" then (.ok (), { db with outgoing := updated, history })
    else (.ok (), { db with incoming := updated, history })

/-- The row of a letter that is referred. -/
def referLetter (toDeptId toUserId : Value) (now : String) (letter : Letter) : Letter :=
  { letter with
    status := .text "Referred"
    updatedAt := now
    columns := Function.update (Function.update letter.columns "assigned_dept_id" toDeptId)
      "assigned_user_id" toUserId }

/-- `refer`; the foreign key of the referral wants the letter to be there, deleted or not. -/
def refer (db : CorrespondenceDb) (incomingId : String) (toDeptId toUserId notes : Value)
    (userId now : String) : Outcome :=
  if db.incoming.any (·.id = incomingId) then
    (.ok (), { db with
      referrals := db.referrals ++ [⟨incomingId, userId, toDeptId, toUserId, notes⟩]
      incoming := updateWhere (·.id = incomingId) (referLetter toDeptId toUserId now) db.incoming })
  else (.error .database, db)

/-- `link`. -/
def link (db : CorrespondenceDb) (incomingId outgoingId : String) (linkType : Option String)
    (userId : String) : Outcome :=
  let type := (linkType.filter (· ≠ "")).getD "Reply"
  (.ok (), { db with links := db.links ++ [⟨incomingId, outgoingId, type, userId⟩] })

/-- The row of a letter that is archived. -/
def archiveLetter (now : String) (letter : Letter) : Letter :=
  { letter with isArchived := 1, status := .text "Archived", updatedAt := now }

/-- `archive`. -/
def archive (db : CorrespondenceDb) (type id now : String) : Outcome :=
  if type = "incoming" then
    if found db.incoming id then
      (.ok (), { db with incoming := updateWhere (Letter.is id) (archiveLetter now) db.incoming })
    else (.error (.notFound "Correspondence record not found"), db)
  else if found db.outgoing id then
    (.ok (), { db with outgoing := updateWhere (Letter.is id) (archiveLetter now) db.outgoing })
  else (.error (.notFound "Correspondence record not found"), db)

/-- `addAttachment`. -/
def addAttachment (db : CorrespondenceDb) (correspondenceId correspondenceType : String)
    (columns : String → Value) : Outcome :=
  (.ok (), { db with attachments := db.attachments ++
    [⟨correspondenceId, dbType correspondenceType, none, columns⟩] })

/-- The fields of a body are set. -/
def setFields (texts flags : List String) (data : Body) (now : String) (letter : Letter) : Letter :=
  { letter with
    updatedAt := now
    columns := fun column => (setColumn texts flags data column).getD (letter.columns column) }

/-- `updateOutgoing`; without fields it returns. -/
def updateOutgoing (db : CorrespondenceDb) (id : String) (data : Body) (now : String) : Outcome :=
  if hasFields outgoingColumns [] data = false then (.ok (), db)
  else if found db.outgoing id then
    (.ok (), { db with
      outgoing := updateWhere (Letter.is id) (setFields outgoingColumns [] data now) db.outgoing })
  else (.error (.notFound "Outgoing correspondence record not found"), db)

/-- `updateIncoming`; without fields it returns. -/
def updateIncoming (db : CorrespondenceDb) (id : String) (data : Body) (now : String) : Outcome :=
  if hasFields incomingColumns flagColumns data = false then (.ok (), db)
  else if found db.incoming id then
    (.ok (), { db with
      incoming := updateWhere (Letter.is id) (setFields incomingColumns flagColumns data now)
        db.incoming })
  else (.error (.notFound "Incoming correspondence record not found"), db)

/-- The row of a letter that is deleted. -/
def deleteLetter (now : String) (letter : Letter) : Letter := { letter with deletedAt := some now }

/-- `deleteOutgoing`. -/
def deleteOutgoing (db : CorrespondenceDb) (id now : String) : Outcome :=
  if found db.outgoing id then
    (.ok (), { db with outgoing := updateWhere (Letter.is id) (deleteLetter now) db.outgoing })
  else (.error (.notFound "Outgoing correspondence record not found"), db)

/-- An attachment of an incoming letter that is not deleted. -/
def ofIncoming (id : String) (attachment : Attachment) : Bool :=
  attachment.correspondenceType = "Incoming" && attachment.correspondenceId = id &&
    attachment.deletedAt.isNone

/-- The attachment that is deleted. -/
def deleteAttachment (now : String) (attachment : Attachment) : Attachment :=
  { attachment with deletedAt := some now }

/-- `deleteIncoming`: the number of changed rows is looked at after the commit. -/
def deleteIncoming (db : CorrespondenceDb) (id now : String) : Outcome :=
  let committed := { db with
    attachments := updateWhere (ofIncoming id) (deleteAttachment now) db.attachments
    incoming := updateWhere (Letter.is id) (deleteLetter now) db.incoming }
  if found db.incoming id then (.ok (), committed)
  else (.error (.notFound "Incoming correspondence record not found"), committed)

/-- An operation; `fails` says that a statement of it fails. -/
def perform (db : CorrespondenceDb) (fails : Bool) (op : CorrespondenceOp) : Outcome :=
  if fails then (.error .database, db)
  else
    match op with
    | .createIncoming id sequenceNumber data userId now =>
      db.createIncoming id sequenceNumber data userId now
    | .createOutgoing id sequenceNumber data userId now =>
      db.createOutgoing id sequenceNumber data userId now
    | .updateStatus type id newStatus notes userId now =>
      db.updateStatus type id newStatus notes userId now
    | .refer incomingId toDeptId toUserId notes userId now =>
      db.refer incomingId toDeptId toUserId notes userId now
    | .link incomingId outgoingId linkType userId => db.link incomingId outgoingId linkType userId
    | .archive type id now => db.archive type id now
    | .addAttachment correspondenceId correspondenceType columns =>
      db.addAttachment correspondenceId correspondenceType columns
    | .updateOutgoing id data now => db.updateOutgoing id data now
    | .updateIncoming id data now => db.updateIncoming id data now
    | .deleteOutgoing id now => db.deleteOutgoing id now
    | .deleteIncoming id now => db.deleteIncoming id now

/-- An id that no letter has. -/
def fresh (db : CorrespondenceDb) (id : String) : Bool :=
  !(db.incoming.any (·.id = id)) && !(db.outgoing.any (·.id = id)) &&
    !(db.history.any (·.correspondenceId = id))

end CorrespondenceDb

/-- One call; a new letter gets an id that no other one has or had. -/
def correspondenceStep (db : CorrespondenceDb) (call : Bool × CorrespondenceOp) :
    Option CorrespondenceDb :=
  match call.2 with
  | .createIncoming id _ _ _ _ => if db.fresh id then some (db.perform call.1 call.2).2 else none
  | .createOutgoing id _ _ _ _ => if db.fresh id then some (db.perform call.1 call.2).2 else none
  | _ => some (db.perform call.1 call.2).2

/-- A call that is possible leaves what its operation leaves. -/
theorem eq_perform_of_step {db t : CorrespondenceDb} {call : Bool × CorrespondenceOp}
    (h : correspondenceStep db call = some t) : t = (db.perform call.1 call.2).2 := by
  rw [correspondenceStep] at h
  split at h
  · split_ifs at h
    exact (Option.some.inj h).symm
  · split_ifs at h
    exact (Option.some.inj h).symm
  · exact (Option.some.inj h).symm

end AlsaqiBackend.Correspondence
