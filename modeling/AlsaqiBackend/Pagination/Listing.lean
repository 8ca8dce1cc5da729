import AlsaqiBackend.Pagination.Traversal
import AlsaqiBackend.Records.RouteFields

/-!
# Lists by page number

`GET /<resource>` of the generated routes: `parsePaginationParams`, the filters of the route and
`BaseService.findAll`, which goes by offset or, for the tables of `KEYSET_TABLES`, by keyset with a
cached count.
-/

namespace AlsaqiBackend.Pagination

open Lib
open AlsaqiBackend.Events (isIdentifier)
open AlsaqiBackend.Records (TABLE_ALLOWED_FIELDS)

/-! ## Parameters -/

def DEFAULT_PAGE : ℕ := 1

def DEFAULT_PAGE_SIZE : ℕ := 20

def MAX_PAGE_SIZE : ℕ := 100

/-- A parameter of a query that should be a number: what `Number` makes of its trimmed text. -/
inductive QueryNumber
  /-- `undefined`, `null` or the empty text. -/
  | missing
  | notNumeric
  | infinite
  | finite (value : ℚ)
  deriving DecidableEq

structure ParsedPaginationParams where
  page : ℕ
  pageSize : ℕ
  offset : ℕ
  deriving DecidableEq, Repr

/-- `validatePaginationParam`, for a parameter that is there. -/
def validatePaginationParam (value : QueryNumber) (paramName : String) : Except KeysetError ℕ :=
  match value with
  | .missing => throw (.validation s!"Invalid {paramName}: must be a positive integer")
  | .notNumeric => throw (.validation s!"Invalid {paramName}: must be a positive integer")
  | .infinite => throw (.validation s!"Invalid {paramName}: must be an integer")
  | .finite value =>
    if value.den ≠ 1 then throw (.validation s!"Invalid {paramName}: must be an integer")
    else if value.num < 1 then
      throw (.validation s!"Invalid {paramName}: must be greater than or equal to 1")
    else pure value.num.toNat

/-- The page of `parsePaginationParams`. -/
def parsePage (page : QueryNumber) : Except KeysetError ℕ :=
  if page = .missing then pure DEFAULT_PAGE else validatePaginationParam page "page"

/-- The page size of `parsePaginationParams`; one above the maximum is capped. -/
def parsePageSize (pageSize : QueryNumber) : Except KeysetError ℕ :=
  if pageSize = .missing then pure DEFAULT_PAGE_SIZE
  else do
    let pageSize ← validatePaginationParam pageSize "pageSize"
    return if MAX_PAGE_SIZE < pageSize then MAX_PAGE_SIZE else pageSize

/-- `parsePaginationParams`. -/
def parsePaginationParams (page pageSize : QueryNumber) : Except KeysetError ParsedPaginationParams := do
  let page ← parsePage page
  let pageSize ← parsePageSize pageSize
  return ⟨page, pageSize, (page - 1) * pageSize⟩

structure PaginationMeta where
  page : ℕ
  pageSize : ℕ
  total : ℕ
  totalPages : ℕ
  hasNext : Bool
  hasPrev : Bool
  deriving DecidableEq, Repr

/-- `computePaginationMeta`. -/
def computePaginationMeta (page pageSize total : ℕ) : PaginationMeta :=
  let totalPages := if total = 0 then 0 else Paging.pageCount pageSize total
  ⟨page, pageSize, total, totalPages, page < totalPages, 1 < page⟩

/-! ## Queries -/

/-- A database with the texts that its driver sends for the values of a query string. -/
structure Database (Value : Type) extends Postgres Value where
  paramText : Json → String

/-- The tables of `createCrudRoutes`. -/
def ALLOWED_TABLES : List String :=
  ["audit_plans", "audit_procedures", "audit_evidence", "risk_register", "fraud_log",
    "central_bank_instructions", "law_bank", "audit_reports"]

/-- The columns of these tables in `database/schema.sql`. -/
def SCHEMA_COLUMNS : List (String × List String) :=
  [("audit_plans", ["id", "plan_code", "program_id", "title", "department", "type", "risk_rating",
      "planned_start_date", "planned_end_date", "status", "lead_auditor", "team_members", "objectives",
      "scope", "notes", "year", "quarter", "is_archived", "archived_at", "archived_by", "created_at",
      "updated_at", "deleted_at", "deleted_by"]),
    ("audit_procedures", ["id", "program_id", "procedure_number", "audit_step", "audit_test_description",
      "risk_addressed", "control_test_type", "expected_evidence", "sampling_method",
      "responsible_auditor", "remarks", "created_at", "updated_at"]),
    ("audit_evidence", ["id", "audit_id", "finding_id", "evidence_number", "type", "description",
      "uploaded_by", "upload_date", "file_name", "file_path", "file_data", "created_at", "updated_at",
      "deleted_at", "deleted_by"]),
    ("risk_register", ["id", "risk_id", "description", "owner", "source", "early_warning", "type",
      "likelihood", "impact", "score", "rating", "controls", "control_assessment", "mitigation",
      "treatment_option", "residual_likelihood", "residual_impact", "residual_score", "residual_rating",
      "status", "target_date", "review_date", "notes", "entry_date", "entered_by", "likelihood_num",
      "impact_num", "risk_score_calc", "risk_level_calc", "created_at", "updated_at", "deleted_at",
      "deleted_by"]),
    ("fraud_log", ["id", "incident_date", "description", "reported_by", "status", "created_at",
      "updated_at", "deleted_at", "deleted_by"]),
    ("central_bank_instructions", ["id", "title", "issue_date", "reference_number", "category",
      "description", "related_department", "attachment", "status", "related_instruction_id", "created_at",
      "updated_at"]),
    ("law_bank", ["id", "title", "type", "authority", "issue_date", "keywords", "bookmarked", "file_url",
      "created_at", "updated_at"]),
    ("audit_reports", ["id", "audit_id", "title", "report_type", "generated_by", "date_generated",
      "status", "content", "created_at", "updated_at", "deleted_at", "deleted_by"])]

def schemaColumns (tableName : String) : List String := (SCHEMA_COLUMNS.lookup tableName).getD []

def allowedFields (tableName : String) : List String := (TABLE_ALLOWED_FIELDS.lookup tableName).getD []

/-- The filters of the route: the parameters that are whitelisted for the table. -/
def routeFilters (tableName : String) (rawFilters : OrderedMap String Json) : OrderedMap String Json :=
  rawFilters.filterKeys (· ∈ allowedFields tableName)

def excludeFromSelect : List String := ["file_data", "content", "attachment_file", "attachment", "file_url"]

/-- The columns that the route selects. -/
def selectFields (tableName : String) : List String :=
  ["id", "created_at", "updated_at"] ++ (allowedFields tableName).filter (· ∉ excludeFromSelect)

/-- The columns that the queries of a list name, besides the primary key that orders them. -/
def queryColumns (tableName : String) (filters : OrderedMap String Json) : List String :=
  selectFields tableName ++ filters.keys ++ ["deleted_at"]

/-- The text of the conditions. -/
def whereClause (filters : OrderedMap String Json) : String :=
  "WHERE " ++ " AND ".intercalate (filters.keys.map (fun key => s!"{key} = ?") ++ ["deleted_at IS NULL"])

variable {Value : Type} (db : Database Value)

/-- The values of the filters as those of their columns, where PostgreSQL reads all of them. -/
def filterValues (filters : OrderedMap String Json) : Option (List (String × Value)) :=
  filters.entries.mapM fun filter =>
    (db.readParam filter.1 (db.paramText filter.2)).map fun value => (filter.1, value)

/-- `key = ? AND … AND deleted_at IS NULL`. -/
def passes (values : List (String × Value)) (row : Row Value) : Bool :=
  (values.all fun filter => (row filter.1).any fun value => db.compare value filter.2 = .eq) &&
    (row "deleted_at").isNone

/-- The conditions of the queries, or the error of the database. -/
def conditions (tableName : String) (filters : OrderedMap String Json) :
    Except KeysetError (Row Value → Bool) :=
  if (queryColumns tableName filters).all (· ∈ schemaColumns tableName) then
    match filterValues db filters with
    | some values => pure (passes db values)
    | none => throw .database
  else throw .database

/-! ## The cached count -/

structure CountCacheEntry where
  value : ℕ
  expiresAt : ℕ
  deriving DecidableEq, Repr

abbrev CountCache := String → Option CountCacheEntry

def COUNT_CACHE_TTL_MS : ℕ := 60000

/-- `getCachedCount`: the count, and the cache then. -/
def getCachedCount (key : String) (count now : ℕ) (cache : CountCache) : ℕ × CountCache :=
  let loaded := (count, Function.update cache key (some ⟨count, now + COUNT_CACHE_TTL_MS⟩))
  match cache key with
  | some entry => if now < entry.expiresAt then (entry.value, cache) else loaded
  | none => loaded

/-- `buildCountCacheKey`. -/
def buildCountCacheKey (tableName : String) (filters : OrderedMap String Json) : String :=
  let values := String.ofList (stringify (.arr (filters.entries.map Prod.snd)))
  tableName ++ "\x00" ++ whereClause filters ++ "\x00" ++ values

/-! ## The list -/

structure ListResponse (Value : Type) where
  data : List (Row Value)
  nextCursor : Option String
  pagination : PaginationMeta

def validateIdentifier (name : String) : Except KeysetError Unit :=
  if isIdentifier name then pure () else throw (.failure s!"Invalid database identifier: {name}")

/-- The keyset path of `findAll`. The route gives no cursor. -/
def keysetList (table : List (Row Value)) (tableName : String) (page pageSize : ℕ)
    (filters : OrderedMap String Json) (additionalWhere : Row Value → Bool) (now : ℕ) (cache : CountCache) :
    Except KeysetError (ListResponse Value × CountCache) := do
  let pageResult ← keysetPaginate db.toPostgres table tableName ⟨none, .finite pageSize, none⟩
    additionalWhere
  let effectivePageSize := clampKeysetPageSize (.finite pageSize)
  let count := (table.filter additionalWhere).length
  let (total, cache) := getCachedCount (buildCountCacheKey tableName filters) count now cache
  return (⟨pageResult.data, pageResult.nextCursor, computePaginationMeta page effectivePageSize total⟩,
    cache)

/-- The offset path of `findAll`, ordered by `id DESC`. -/
def offsetList (table : List (Row Value)) (page pageSize : ℕ) (additionalWhere : Row Value → Bool) :
    ListResponse Value :=
  let offset := (page - 1) * pageSize
  let rows := table.filter additionalWhere
  let ordered := Paging.sorted (orderBy db.toPostgres ["id"] .desc) rows
  ⟨(ordered.drop offset).take pageSize, none, computePaginationMeta page pageSize rows.length⟩

/-- `BaseService.findAll` with the options of the route: a page, its size and filters. -/
def findAll (table : List (Row Value)) (tableName : String) (page pageSize : ℕ)
    (filters : OrderedMap String Json) (now : ℕ) (cache : CountCache) :
    Except KeysetError (ListResponse Value × CountCache) := do
  validateIdentifier tableName
  filters.keys.forM validateIdentifier
  let additionalWhere ← conditions db tableName filters
  if isKeysetTable tableName then
    keysetList db table tableName page pageSize filters additionalWhere now cache
  else return (offsetList db table page pageSize additionalWhere, cache)

/-- What a call leaves of the cache, which an error does not change. -/
def settle (cache : CountCache) :
    Except KeysetError (ListResponse Value × CountCache) → Except KeysetError (ListResponse Value) × CountCache
  | .ok (response, cache) => (.ok response, cache)
  | .error error => (.error error, cache)

/-- `GET /<resource>`: the response, and the cache then. -/
def getList (table : List (Row Value)) (tableName : String) (page pageSize : QueryNumber)
    (rawFilters : OrderedMap String Json) (now : ℕ) (cache : CountCache) :
    Except KeysetError (ListResponse Value) × CountCache :=
  settle cache do
    let params ← parsePaginationParams page pageSize
    findAll db table tableName params.page params.pageSize (routeFilters tableName rawFilters) now cache

end AlsaqiBackend.Pagination
