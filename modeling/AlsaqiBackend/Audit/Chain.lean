import AlsaqiBackend.Lib.JsDate
import AlsaqiBackend.Lib.JsMap
import AlsaqiBackend.Lib.Sha256
import Mathlib.Data.List.Sort

/-!
# The audit chain

`AuditChainService` of `src/services/AuditChainService.ts` keeps a hash chain in the table
`audit_trail`: each entry stores the SHA-256 digest of its own fields and of the digest of the entry
before it. This module has the rows of the table as the database stores them and as the service
reads them, the digest of an entry, and `verifyChain`. The critical section of `append` is in
`Append.lean`.

The columns are those of `database/schema.sql`. The timestamp is a `TIMESTAMPTZ`, which counts
microseconds; the driver reads it as a `Date`, which counts milliseconds, so what the digest covers
of it is the time value of that date.
-/

namespace AlsaqiBackend.Audit

open AlsaqiBackend.Lib

/-- The previous hash of the first entry. -/
def GENESIS_PREVIOUS_HASH : String := "0"

/-- What `append` is given. -/
structure AuditEntryInput where
  user : String
  action : String
  module : String
  details : String
  deriving DecidableEq, Repr

inductive VerificationFailureReason
  | hashMismatch
  | fork
  | gap
  deriving DecidableEq, Repr

/-- The result of `verifyChain`. -/
inductive VerifyChainResult
  | valid
  | invalid (firstOffendingId : String) (reason : VerificationFailureReason)
  deriving DecidableEq, Repr

/-- The exceptions that the service can throw by itself. -/
inductive JsError
  | rangeError (message : String)
  deriving DecidableEq, Repr

/-- A value of a `TIMESTAMPTZ` column: microseconds since the epoch, or one of the infinities. -/
inductive Timestamptz
  | finite (micros : ℤ)
  | infinity
  | negInfinity
  deriving DecidableEq, Repr

/-- The date that the driver reads from a column, as its time value. -/
def Timestamptz.toDate : Timestamptz → Option ℤ
  -- The digits below the millisecond are dropped.
  | .finite micros => timeClip (micros / 1000)
  | .infinity => none
  | .negInfinity => none

/-- The columns that a digest covers, and the id. -/
structure AuditContent where
  id : String
  user : String
  action : String
  module : String
  details : Option String
  previousHash : Option String
  timestamp : Timestamptz
  deriving DecidableEq, Repr

/-- A row of `audit_trail`. -/
structure StoredRow extends AuditContent where
  hash : Option String
  seq : ℤ
  deriving DecidableEq, Repr

/-- A row as `verifyChain` reads it, where the hash is not null. -/
structure AuditTrailRow extends AuditContent where
  hash : String
  deriving DecidableEq, Repr

/-- The text of a nullable column in a template literal. -/
def templateText : Option String → String
  | none => "null"
  | some text => text

/-- `canonicalizeTimestamp`, which throws on an invalid date. -/
def canonicalizeTimestamp (value : Option ℤ) : Except JsError String :=
  match value with
  | some time => .ok (toISOString time)
  | none => .error (.rangeError "Invalid time value")

/-- The text that a digest is taken of. -/
def recordData (previousHash user action module details timestamp : String) : String :=
  previousHash ++ "|" ++ user ++ "|" ++ action ++ "|" ++ module ++ "|" ++ details ++ "|" ++ timestamp

def computeEntryHash (previousHash user action module details timestamp : String) : String :=
  sha256Hex (recordData previousHash user action module details timestamp)

/-- The text that the digest of a row is recomputed from. -/
def AuditContent.recordData (row : AuditContent) : Except JsError String := do
  let timestamp ← canonicalizeTimestamp row.timestamp.toDate
  return Audit.recordData (templateText row.previousHash) row.user row.action row.module
    (templateText row.details) timestamp

/-- The digest of a row, recomputed from its columns. -/
def AuditContent.recompute (row : AuditContent) : Except JsError String := do
  let timestamp ← canonicalizeTimestamp row.timestamp.toDate
  return computeEntryHash (templateText row.previousHash) row.user row.action row.module
    (templateText row.details) timestamp

/-! ## Queries -/

/-- The row as the service reads it, where its hash is not null. -/
def StoredRow.read (row : StoredRow) : Option AuditTrailRow :=
  row.hash.map fun hash => { row.toAuditContent with hash := hash }

/-- `SELECT … FROM audit_trail WHERE hash IS NOT NULL ORDER BY seq ASC`. Rows with one `seq` come
in the order of the table, which is any order. -/
def selectChain (table : List StoredRow) : List AuditTrailRow :=
  ((table.filter fun row => row.hash.isSome).insertionSort fun a b => a.seq ≤ b.seq).filterMap
    StoredRow.read

/-- `SELECT hash FROM audit_trail WHERE hash IS NOT NULL ORDER BY seq DESC LIMIT 1`. -/
def selectLastHash (table : List StoredRow) : Option String :=
  ((table.filter fun row => row.hash.isSome).insertionSort fun a b => a.seq ≥ b.seq).head?.bind
    StoredRow.hash

/-! ## Verification -/

/-- The body of the first loop of `verifyChain`. -/
def checkHash (row : AuditTrailRow) : Except JsError (Option VerificationFailureReason) := do
  let recomputed ← row.recompute
  return if recomputed ≠ row.hash then some .hashMismatch else none

/-- The first loop of `verifyChain`: the failure at the first row whose hash does not recompute. -/
def checkHashes : List AuditTrailRow → Except JsError (Option VerifyChainResult)
  | [] => .ok none
  | row :: rows => do
    match ← checkHash row with
    | some reason => return some (.invalid row.id reason)
    | none => checkHashes rows

/-- The index of the rows by their hash. -/
def indexByHash (rows : List AuditTrailRow) : JsMap (Option String) AuditTrailRow :=
  rows.foldl (fun m row => m.set (some row.hash) row) JsMap.empty

/-- How many rows have each previous hash. -/
def countPreviousHashes (rows : List AuditTrailRow) : JsMap (Option String) ℕ :=
  rows.foldl (fun m row => m.set row.previousHash ((m.get row.previousHash).getD 0 + 1)) JsMap.empty

/-- The body of the last loop of `verifyChain`. -/
def checkLink (byHash : JsMap (Option String) AuditTrailRow)
    (previousHashCounts : JsMap (Option String) ℕ) (row : AuditTrailRow) :
    Option VerificationFailureReason :=
  let prev := row.previousHash
  if prev = some GENESIS_PREVIOUS_HASH then
    -- There is one genesis entry at most.
    if (previousHashCounts.get (some GENESIS_PREVIOUS_HASH)).getD 0 > 1 then some .fork else none
  -- Any row with that hash will do, wherever it stands.
  else if !byHash.has prev then some .gap
  else if (previousHashCounts.get prev).getD 0 > 1 then some .fork
  else none

/-- The last loop of `verifyChain`. -/
def checkLinks (byHash : JsMap (Option String) AuditTrailRow)
    (previousHashCounts : JsMap (Option String) ℕ) : List AuditTrailRow → VerifyChainResult
  | [] => .valid
  | row :: rows =>
    match checkLink byHash previousHashCounts row with
    | some reason => .invalid row.id reason
    | none => checkLinks byHash previousHashCounts rows

/-- `verifyChain` after its query. -/
def verifyRows (rows : List AuditTrailRow) : Except JsError VerifyChainResult :=
  if rows.length = 0 then .ok .valid
  else do
    -- The links are looked at only when every hash of the table is right.
    match ← checkHashes rows with
    | some failure => return failure
    | none => return checkLinks (indexByHash rows) (countPreviousHashes rows) rows

/-- `verifyChain` on the content of the table. -/
def verifyChain (table : List StoredRow) : Except JsError VerifyChainResult :=
  verifyRows (selectChain table)

end AlsaqiBackend.Audit
