import AlsaqiBackend.Lib.Base64Url
import AlsaqiBackend.Lib.Json
import AlsaqiBackend.Lib.OrderedMap
import AlsaqiBackend.Lib.Paging
import AlsaqiBackend.Lib.Utf8
import Mathlib.Data.List.Dedup

/-!
# Keyset pagination

The keyset part of `utils/cursorPagination.ts`: the cursor of a row, the clause that goes on behind a
cursor, and `keysetPaginate`. The database is a `Postgres`, which says how it orders the values of the
order key, what it reads a text parameter as, and which text JavaScript makes of a value. A condition of a
query is a predicate on rows that can stand beside an `AND`.
-/

namespace AlsaqiBackend.Pagination

open Lib

def MIN_KEYSET_PAGE_SIZE : ℤ := 1

def MAX_KEYSET_PAGE_SIZE : ℤ := 100

def DEFAULT_KEYSET_PAGE_SIZE : ℕ := 25

/-- `KEYSET_TABLES`: the tables with their order keys. -/
def KEYSET_TABLES : List (String × List String) :=
  [("audit_findings", ["created_at", "id"]),
    ("audit_tasks", ["created_at", "id"]),
    ("audit_trail", ["created_at", "id"]),
    ("recommendations", ["created_at", "id"]),
    ("risk_register", ["created_at", "id"]),
    ("incoming_correspondence", ["created_at", "id"]),
    ("outgoing_correspondence", ["created_at", "id"]),
    ("correspondence_status_history", ["created_at", "id"]),
    ("file_access_logs", ["created_at", "id"]),
    ("request_logs", ["created_at", "id"])]

def isKeysetTable (tableName : String) : Bool := (KEYSET_TABLES.lookup tableName).isSome

def getKeysetOrderKey (tableName : String) : Option (List String) := KEYSET_TABLES.lookup tableName

/-- What a call throws. -/
inductive KeysetError
  | validation (message : String)
  | failure (message : String)
  /-- The database rejects the query. -/
  | database
  deriving DecidableEq, Repr

/-- The requested page size, as a number of JavaScript. -/
inductive RequestedSize
  | missing
  | notFinite
  | finite (size : ℚ)
  deriving DecidableEq

def clampKeysetPageSize : RequestedSize → ℕ
  | .missing => DEFAULT_KEYSET_PAGE_SIZE
  | .notFinite => DEFAULT_KEYSET_PAGE_SIZE
  | .finite size => (min MAX_KEYSET_PAGE_SIZE (max MIN_KEYSET_PAGE_SIZE size.floor)).toNat

inductive SortDirection
  | asc
  | desc
  deriving DecidableEq, Repr

/-- A row, with the values of its columns; `none` stands for `NULL` and for a column that is missing. -/
abbrev Row (Value : Type) := String → Option Value

/-- What the database and its driver do with the values of columns. -/
structure Postgres (Value : Type) where
  compare : Value → Value → Ordering
  trans : Std.TransCmp compare
  /-- What a text that is bound as a parameter is read as beside a column. -/
  readParam : String → String → Option Value
  /-- `String(value)` of what the driver returns. -/
  text : Value → String

variable {Value : Type} (pg : Postgres Value)

/-! ## Cursors -/

/-- `payload[column] = String(value)`. -/
def addColumn (row : Row Value) (payload : OrderedMap String String) (column : String) :
    Except KeysetError (OrderedMap String String) :=
  match row column with
  | none => throw (.validation s!"Cannot encode cursor: missing order-key value for \"{column}\"")
  | some value => pure (payload.set column (pg.text value))

/-- `encodeKeysetCursor`. -/
def encodeKeysetCursor (orderKey : List String) (row : Row Value) : Except KeysetError String := do
  let payload ← orderKey.foldlM (addColumn pg row) OrderedMap.empty
  let json := stringify (.obj (payload.entries.map fun e => (e.1.toList, .str e.2.toList)))
  return String.ofList (base64UrlEncode (encodeUtf8 json))

def invalidCursor : KeysetError := .validation "Invalid pagination cursor"

/-- `record[column]`: the last member of a name counts. -/
def member (members : List (List Char × Json)) (column : String) : Option Json :=
  (members.reverse.find? fun m => m.1 = column.toList).map Prod.snd

/-- `decodeKeysetCursor`. -/
def decodeKeysetCursor (cursor : String) (orderKey : List String) : Except KeysetError (List String) :=
  if cursor = "" then throw invalidCursor
  else
    match parse (decodeUtf8 (base64UrlDecode cursor.toList)) with
    | some (.obj members) =>
      if (members.map Prod.fst).dedup.length ≠ orderKey.length then throw invalidCursor
      else orderKey.mapM fun column =>
        match member members column with
        | some (.str value) => pure (String.ofList value)
        | _ => throw invalidCursor
    | _ => throw invalidCursor

/-! ## The query -/

/-- What `buildKeysetClause` says: the columns to order by and the values of the cursor, behind which the
rows are. -/
structure KeysetClause where
  columns : List String
  direction : SortDirection
  whereParams : Option (List String)
  deriving DecidableEq, Repr

/-- `/^[a-zA-Z_][a-zA-Z0-9_]*$/`. -/
def isColumnName (column : String) : Bool :=
  match column.toList with
  | [] => false
  | c :: rest => (c.isAlpha || c = '_') && rest.all fun c => c.isAlphanum || c = '_'

/-- `validateColumnName`. -/
def validateColumnName (column : String) : Except KeysetError String :=
  if isColumnName column then pure column
  else throw (.failure s!"Invalid column name for cursor pagination: {column}")

/-- `buildKeysetClause`. -/
def buildKeysetClause (orderKey : List String) (cursor : Option String)
    (sortDirection : Option SortDirection) : Except KeysetError KeysetClause := do
  if orderKey.length = 0 then throw (.validation "Keyset pagination requires a non-empty order key")
  let columns ← orderKey.mapM validateColumnName
  let direction := sortDirection.getD .desc
  match cursor with
  | none => return ⟨columns, direction, none⟩
  | some cursor =>
    if cursor = "" then return ⟨columns, direction, none⟩
    else return ⟨columns, direction, some (← decodeKeysetCursor cursor columns)⟩

/-- The order of one column, with `NULL` after every value. -/
def compareNullable : Option Value → Option Value → Ordering
  | some a, some b => pg.compare a b
  | some _, none => .lt
  | none, some _ => .gt
  | none, none => .eq

/-- `ORDER BY` of columns, ascending. -/
def compareColumns : List String → Row Value → Row Value → Ordering
  | [], _, _ => .eq
  | column :: columns, a, b =>
    (compareNullable pg (a column) (b column)).then (compareColumns columns a b)

/-- `ORDER BY` of columns in a direction. -/
def orderBy (columns : List String) : SortDirection → Row Value → Row Value → Ordering
  | .asc, a, b => compareColumns pg columns a b
  | .desc, a, b => compareColumns pg columns b a

/-- A row value beside the values of parameters; `none` where a `NULL` leaves it open. -/
def compareRow : List (Option Value) → List Value → Option Ordering
  | some v :: vs, p :: ps =>
    match pg.compare v p with
    | .eq => compareRow vs ps
    | decided => some decided
  | none :: _, _ :: _ => none
  | _, _ => some .eq

/-- `(columns) < (parameters)`, or `>` for the ascending direction. -/
def isBehind (columns : List String) (direction : SortDirection) (params : List Value)
    (row : Row Value) : Bool :=
  compareRow pg (columns.map row) params = some (match direction with | .desc => .lt | .asc => .gt)

/-- The parameters as values of their columns. -/
def readParams (columns texts : List String) : Option (List Value) :=
  (columns.zip texts).mapM fun p => pg.readParam p.1 p.2

/-- `SELECT … WHERE … ORDER BY … LIMIT ?`. -/
def selectRows (table : List (Row Value)) (additionalWhere : Row Value → Bool) (clause : KeysetClause)
    (limit : ℕ) : Except KeysetError (List (Row Value)) :=
  let order := orderBy pg clause.columns clause.direction
  match clause.whereParams with
  | none => pure ((Paging.sorted order (table.filter additionalWhere)).take limit)
  | some texts =>
    match readParams pg clause.columns texts with
    | none => throw .database
    | some params =>
      let rows := table.filter fun row =>
        additionalWhere row && isBehind pg clause.columns clause.direction params row
      pure ((Paging.sorted order rows).take limit)

/-! ## Pages -/

/-- `KeysetPage`. -/
structure KeysetPage (Value : Type) where
  data : List (Row Value)
  nextCursor : Option String

/-- `KeysetPageRequest`. -/
structure KeysetPageRequest where
  cursor : Option String
  pageSize : RequestedSize
  sortDirection : Option SortDirection

/-- `processKeysetResults`. -/
def processKeysetResults (rows : List (Row Value)) (pageSize : ℕ) (orderKey : List String) :
    Except KeysetError (KeysetPage Value) := do
  let hasMore := pageSize < rows.length
  let data := if hasMore then rows.take pageSize else rows
  if hasMore then
    match data.getLast? with
    | some row => return ⟨data, some (← encodeKeysetCursor pg orderKey row)⟩
    | none => return ⟨data, none⟩
  else return ⟨data, none⟩

/-- `keysetPaginate`, of a table with the rows `table`; without an `additionalWhere` every row passes. -/
def keysetPaginate (table : List (Row Value)) (tableName : String) (request : KeysetPageRequest)
    (additionalWhere : Row Value → Bool) : Except KeysetError (KeysetPage Value) := do
  match getKeysetOrderKey tableName with
  | none => throw (.validation s!"Table is not configured for keyset pagination: {tableName}")
  | some orderKey =>
    -- `validateIdentifier` accepts every name of `KEYSET_TABLES`.
    let pageSize := clampKeysetPageSize request.pageSize
    let clause ← buildKeysetClause orderKey request.cursor request.sortDirection
    let rows ← selectRows pg table additionalWhere clause (pageSize + 1)
    processKeysetResults pg rows pageSize orderKey

end AlsaqiBackend.Pagination
