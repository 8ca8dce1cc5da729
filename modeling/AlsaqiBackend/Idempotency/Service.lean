import AlsaqiBackend.Lib.JsString
import Mathlib.Algebra.Order.Group.Int

/-!
# Idempotency records

`src/middleware/idempotency.ts` keeps the response of a request with an idempotency key in the table
`idempotency_keys`, and answers a repetition from there. This module has the table with the three
operations of `IdempotencyService`, the redaction of the bodies that are stored, and the first part of
the middleware, which finds what a request is scoped to.

The lookup is by key, user, method and path, while the table is unique in key and user. Times are
microseconds, as the database has them.
-/

namespace AlsaqiBackend.Idempotency

open AlsaqiBackend.Lib

/-! ## Bodies -/

/-- A JSON value. A number is given by its text. -/
inductive JsonValue
  | null
  | bool (value : Bool)
  | number (text : String)
  | string (text : String)
  | array (items : List JsonValue)
  | object (fields : List (String × JsonValue))
  deriving Repr

/-- The names of the fields that are not stored. -/
def SENSITIVE_KEYS : List String :=
  ["temppassword", "password", "currentpassword", "newpassword", "token", "accesstoken",
    "refreshtoken", "idtoken", "secret", "clientsecret", "apikey", "privatekey", "totpsecret",
    "mfasecret", "backupcodes", "recoverycodes", "sessiontoken", "authorization"]

def REDACTED_PLACEHOLDER : String := "[REDACTED]"

/-- `toLowerCase` on a character, as far as the result is a letter of a sensitive name: beside the
capital letters only the Kelvin sign has such a result. -/
def lowerChar (c : Char) : Char := if c.toNat = 0x212A then 'k' else c.toLower

/-- Whether the field of this name is redacted. -/
def isSensitive (key : String) : Bool :=
  SENSITIVE_KEYS.contains (String.ofList (key.toList.map lowerChar))

mutual

/-- `redactSensitiveFields`. -/
def redactSensitiveFields : JsonValue → JsonValue
  | .array items => .array (redactItems items)
  | .object fields => .object (redactFields fields)
  | .null => .null
  | .bool value => .bool value
  | .number text => .number text
  | .string text => .string text

/-- The items of an array, redacted. -/
def redactItems : List JsonValue → List JsonValue
  | [] => []
  | item :: items => redactSensitiveFields item :: redactItems items

/-- The fields of an object, redacted. -/
def redactFields : List (String × JsonValue) → List (String × JsonValue)
  | [] => []
  | (key, value) :: fields =>
    if isSensitive key then (key, .string REDACTED_PLACEHOLDER) :: redactFields fields
    -- To assign this name sets the prototype of the copy, and no field.
    else if key = "__proto__" then redactFields fields
    else (key, redactSensitiveFields value) :: redactFields fields

end

/-- A status and a body. -/
structure Response where
  status : ℕ
  body : JsonValue
  deriving Repr

/-- The response as it is stored. -/
def Response.redacted (response : Response) : Response :=
  ⟨response.status, redactSensitiveFields response.body⟩

/-! ## The table -/

/-- What a record is looked up by. -/
structure Scope where
  idempotencyKey : String
  userId : String
  method : String
  path : String
  deriving DecidableEq, Repr

/-- A row of `idempotency_keys`. The text of the body stands for its value. -/
structure IdempotencyRow where
  scope : Scope
  response : Response
  expiresAt : ℤ
  deriving Repr

/-- `UNIQUE (idempotency_key, user_id)`: the row is in the way of one for the scope. -/
def IdempotencyRow.Blocks (row : IdempotencyRow) (scope : Scope) : Prop :=
  row.scope.idempotencyKey = scope.idempotencyKey ∧ row.scope.userId = scope.userId

instance (row : IdempotencyRow) (scope : Scope) : Decidable (row.Blocks scope) :=
  inferInstanceAs (Decidable (_ ∧ _))

/-- `IdempotencyService.check`. -/
def check (table : List IdempotencyRow) (scope : Scope) (now : ℤ) : Option Response :=
  (table.find? fun row => row.scope = scope ∧ row.expiresAt > now).map IdempotencyRow.response

/-- `IdempotencyService.store`, or `none` when the constraint refuses the row. -/
def store (table : List IdempotencyRow) (scope : Scope) (response : Response) (ttl : ℕ) (now : ℤ) :
    Option (List IdempotencyRow) :=
  if ∃ row ∈ table, row.Blocks scope then none
  else some (table ++ [⟨scope, response, now + ttl * 1000000⟩])

/-- `IdempotencyService.cleanup`. -/
def cleanup (table : List IdempotencyRow) (now : ℤ) : List IdempotencyRow :=
  table.filter fun row => ¬ row.expiresAt ≤ now

/-- The table after the store of a response. That a store fails is only logged. -/
def record (table : List IdempotencyRow) (scope : Scope) (response : Response) (ttl : ℕ) (now : ℤ) :
    List IdempotencyRow := (store table scope response ttl now).getD table

/-! ## The middleware up to the scope of a request -/

/-- The options of `createIdempotencyMiddleware`. -/
structure IdempotencyOptions where
  headerName : String := "X-Idempotency-Key"
  ttl : ℕ := 86400
  methods : List String := ["POST", "PUT"]
  deriving DecidableEq, Repr

/-- What the middleware reads of a request: `idempotencyKey` is the value of the header, `userId` is
`req.user.id`. -/
structure Incoming where
  method : String
  idempotencyKey : Option String
  userId : Option String
  originalUrl : String
  path : String
  deriving DecidableEq, Repr

/-- `toUpperCase` on the name of a method. -/
def upperMethod (method : String) : String := String.ofList (method.toList.map Char.toUpper)

/-- What the middleware makes of a request before it looks for a record. -/
inductive Admission
  /-- `next()`, without a record. -/
  | next
  /-- 400 with the code `INVALID_IDEMPOTENCY_KEY`. -/
  | invalidKey
  /-- The request is subject to records. -/
  | scoped (scope : Scope)
  deriving DecidableEq, Repr

/-- The handler of `createIdempotencyMiddleware`, up to the lookup. -/
def admission (options : IdempotencyOptions) (req : Incoming) : Admission :=
  if ¬ options.methods.contains (upperMethod req.method) then .next
  else match req.idempotencyKey with
    | none => .next
    | some idempotencyKey =>
      if utf16Length idempotencyKey = 0 ∨ utf16Length idempotencyKey > 256 then .invalidKey
      else match req.userId with
        | none => .next
        | some userId =>
          if userId = "" then .next
          else .scoped ⟨idempotencyKey, userId, upperMethod req.method,
            if req.originalUrl = "" then req.path else req.originalUrl⟩

/-! ## What the operations do to a lookup -/

section Lookup

variable {table : List IdempotencyRow} {scope : Scope} {now later : ℤ} {response : Response}

/-- A lookup that finds nothing: every record of the scope has expired. -/
theorem check_eq_none_iff :
    check table scope now = none ↔ ∀ row ∈ table, row.scope = scope → row.expiresAt ≤ now := by
  simp [check]

/-- What a lookup finds is in the table. -/
theorem exists_of_check (h : check table scope now = some response) :
    ∃ row ∈ table, row.scope = scope ∧ now < row.expiresAt ∧ row.response = response := by
  obtain ⟨row, hrow, rfl⟩ := Option.map_eq_some_iff.1 h
  have hmatch := List.find?_some hrow
  simp only [decide_eq_true_eq] at hmatch
  exact ⟨row, List.mem_of_find?_eq_some hrow, hmatch.1, hmatch.2, rfl⟩

/-- A lookup that finds nothing finds nothing later. -/
theorem check_eq_none_mono (h : check table scope now = none) (hle : now ≤ later) :
    check table scope later = none := by
  rw [check_eq_none_iff] at h ⊢
  intro row hrow hscope
  have hexpired := h row hrow hscope
  omega

/-- A cleanup does not change a later lookup. -/
theorem check_cleanup (hle : now ≤ later) :
    check (cleanup table now) scope later = check table scope later := by
  unfold check cleanup
  rw [List.find?_filter]
  congr 2
  funext row
  simp only [Bool.decide_and, decide_not]
  rw [Bool.eq_iff_iff]
  simp
  omega

/-- What a lookup finds, it finds when there is one record more. -/
theorem check_record {scope' : Scope} {response' : Response} {ttl : ℕ} {at' : ℤ}
    (h : check table scope later = some response) :
    check (record table scope' response' ttl at') scope later = some response := by
  unfold record store
  split_ifs
  · exact h
  · unfold check at h ⊢
    rw [Option.getD_some, List.find?_append]
    obtain ⟨row, hrow, hresponse⟩ := Option.map_eq_some_iff.1 h
    rw [hrow, Option.some_or, Option.map_some, hresponse]

/-- A record that nothing is in the way of is found until it expires. -/
theorem check_record_self {ttl : ℕ} (hfree : ∀ row ∈ table, ¬ row.Blocks scope)
    (hlive : later < now + ttl * 1000000) :
    check (record table scope response ttl now) scope later = some response := by
  have hnone : table.find? (fun row => row.scope = scope ∧ row.expiresAt > later) = none := by
    rw [List.find?_eq_none]
    intro row hrow hmatch
    simp only [decide_eq_true_eq] at hmatch
    refine hfree row hrow ?_
    unfold IdempotencyRow.Blocks
    rw [hmatch.1]
    exact ⟨rfl, rfl⟩
  unfold record store
  rw [if_neg (by push Not; exact hfree), Option.getD_some]
  unfold check
  rw [List.find?_append, hnone, Option.none_or, List.find?_cons_of_pos (by simpa using hlive)]
  rfl

/-- A record that something is in the way of is lost. -/
theorem record_of_blocked {ttl : ℕ} (h : ∃ row ∈ table, row.Blocks scope) :
    record table scope response ttl now = table := by
  unfold record store
  rw [if_pos h, Option.getD_none]

end Lookup

end AlsaqiBackend.Idempotency
