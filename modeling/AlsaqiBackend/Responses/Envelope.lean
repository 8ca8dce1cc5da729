import AlsaqiBackend.Lib.JsonObject

/-!
# The envelope of responses

`createResponseWrapper` puts every JSON body into an envelope: a success under `data`, an error under `error`
with a code and a message, a `pagination` under `meta`. A body that has a Boolean `success` and an object `meta`
counts as an envelope already and is sent as it is, whatever else it has.

`jsonBody_isEnvelope_iff` says for which bodies the result is an envelope as it should be, and that a second
wrapping changes nothing.
-/

namespace AlsaqiBackend.Responses

open AlsaqiBackend.Lib
open OrderedMap (setEntries)

/-! ## The source -/

/-- What the override reads besides the body, `res.hasHeader` as the header that is set. -/
structure ResponseContext where
  statusCode : ℕ
  correlationId : Option (List Char)
  requestIdHeader : Option (List Char)
  timestamp : List Char
  version : List Char
  /-- Milliseconds since the request. -/
  duration : ℕ

/-- The headers and the body that are sent. -/
structure Sent where
  requestIdHeader : List Char
  responseTime : List Char
  body : Json

def ResponseContext.requestId (context : ResponseContext) : List Char :=
  match context.correlationId with
  | some (c :: id) => c :: id
  | _ => "unknown".toList

def isAlreadyWrapped (body : Json) : Bool :=
  (match body.field "success" with
    | some (.bool _) => true
    | _ => false) &&
  (body.field "meta").any Json.isObject

def defaultErrorCodeForStatus : ℕ → String
  | 400 => "VALIDATION_ERROR"
  | 401 => "UNAUTHORIZED"
  | 403 => "FORBIDDEN"
  | 404 => "NOT_FOUND"
  | 409 => "CONFLICT"
  | 429 => "RATE_LIMIT_EXCEEDED"
  | _ => "INTERNAL_ERROR"

def defaultErrorMessageForStatus : ℕ → String
  | 400 => "Bad request"
  | 401 => "Unauthorized"
  | 403 => "Forbidden"
  | 404 => "Resource not found"
  | 409 => "Conflict"
  | 429 => "Too many requests"
  | _ => "An unexpected error occurred"

/-- A text that is not empty. -/
def nonEmptyText : Option Json → Option (List Char)
  | some (.str (c :: text)) => some (c :: text)
  | _ => none

/-- `{ ...payload }`; the fields of an array are its indices. -/
def spread : Json → List (List Char × Json)
  | .obj members => members
  | .arr items => items.zipIdx.map fun item => (Nat.toDigits 10 item.2, item.1)
  | _ => []

/-- The error of an object or an array. -/
def backfill (members : List (List Char × Json)) (statusCode : ℕ) : List (List Char × Json) :=
  let coded :=
    if (nonEmptyText (members.lookup "code".toList)).isSome then members
    else setEntries "code".toList (.str (defaultErrorCodeForStatus statusCode).toList) members
  if (nonEmptyText (coded.lookup "message".toList)).isSome then coded
  else
    let fallback := (nonEmptyText (coded.lookup "error".toList)).getD (defaultErrorMessageForStatus statusCode).toList
    setEntries "message".toList (.str fallback) coded

def normalizeErrorObject (payload : Json) (statusCode : ℕ) : Json :=
  let plain (message : List Char) : Json :=
    .obj [("code".toList, .str (defaultErrorCodeForStatus statusCode).toList), ("message".toList, .str message)]
  match payload with
  | .str [] => plain (defaultErrorMessageForStatus statusCode).toList
  | .str message => plain message
  | .null | .bool _ | .num _ => plain (defaultErrorMessageForStatus statusCode).toList
  | .arr _ | .obj _ => .obj (backfill (spread payload) statusCode)

/-- The body without its `pagination`. -/
def withoutPagination : Json → Json
  | .obj members => .obj (members.filter fun member => member.1 ≠ "pagination".toList)
  | body => body

def ResponseContext.metaObject (context : ResponseContext) (pagination : Option Json) : Json :=
  .obj ([("requestId".toList, .str context.requestId), ("timestamp".toList, .str context.timestamp),
    ("version".toList, .str context.version)] ++ (pagination.map fun value => ("pagination".toList, value)).toList)

/-- `body.error` where it is an object, and else the body. -/
def errorPayload (body : Json) : Json :=
  match body.field "error" with
  | some error => if error.isObject then error else body
  | none => body

/-- The body that `res.json` sends. -/
def jsonBody (context : ResponseContext) (body : Json) : Json :=
  if isAlreadyWrapped body then body
  else
    let responseMeta := context.metaObject (body.field "pagination")
    let body := withoutPagination body
    if context.statusCode ≥ 400 then
      .obj [("success".toList, .bool false), ("data".toList, (body.field "data").getD .null),
        ("error".toList, normalizeErrorObject (errorPayload body) context.statusCode), ("meta".toList, responseMeta)]
    else .obj [("success".toList, .bool true), ("data".toList, body), ("meta".toList, responseMeta)]

/-- `res.json` as it is overridden. -/
def json (context : ResponseContext) (body : Json) : Sent :=
  { requestIdHeader := context.requestIdHeader.getD context.requestId
    responseTime := Nat.toDigits 10 context.duration ++ "ms".toList
    body := jsonBody context body }

/-! ## Envelopes -/

/-- An error with a code and a message, whose own `error` is no object. -/
def IsErrorObject (error : Json) : Prop :=
  (nonEmptyText (error.field "code")).isSome = true ∧ (nonEmptyText (error.field "message")).isSome = true ∧
    (error.field "error").any Json.isObject = false

/-- The fields of a body are there in `data`, or where they were, and its `pagination` is under `meta`. What is no
object with fields is `data` itself. -/
def KeepsFields (body sent : Json) : Prop :=
  (∀ key value, key ≠ "pagination".toList → body.member key = some value →
      (sent.field "data").bind (Json.member key) = some value ∨ sent.member key = some value) ∧
    (∀ value, body.field "pagination" = some value →
      (sent.field "meta").bind (Json.field "pagination") = some value) ∧
    ((∀ members, body ≠ .obj members) → sent.field "data" = some body)

/-- What is sent for a body is an envelope of its status, without loss, and stays as it is when it is wrapped again. -/
def IsEnvelope (statusCode : ℕ) (body sent : Json) : Prop :=
  sent.field "success" = some (.bool (decide (statusCode < 400))) ∧
    (400 ≤ statusCode → ∃ error, sent.field "error" = some error ∧ IsErrorObject error) ∧
    (statusCode < 400 → KeepsFields body sent) ∧
    ∀ again : ResponseContext, again.statusCode = statusCode → jsonBody again sent = sent

/-- The condition: a body that counts as an envelope already is one of its status, and the error in the body of an
error has no error of its own that is an object. -/
def FitsEnvelope (statusCode : ℕ) (body : Json) : Prop :=
  if isAlreadyWrapped body then
    body.field "success" = some (.bool (decide (statusCode < 400))) ∧
      (400 ≤ statusCode → ∃ error, body.field "error" = some error ∧ IsErrorObject error) ∧
      (statusCode < 400 → ∀ value, body.field "pagination" = some value →
        (body.field "meta").bind (Json.field "pagination") = some value)
  else 400 ≤ statusCode → ∀ error, body.field "error" = some error → (error.field "error").any Json.isObject = false

variable {context : ResponseContext} {statusCode : ℕ} {body payload : Json} {members : List (List Char × Json)}

/-! ## Errors -/

theorem nonEmptyText_default_code : (nonEmptyText (some (.str (defaultErrorCodeForStatus statusCode).toList))).isSome =
    true := by
  unfold defaultErrorCodeForStatus
  split <;> rfl

theorem nonEmptyText_default_message :
    (nonEmptyText (some (.str (defaultErrorMessageForStatus statusCode).toList))).isSome = true := by
  unfold defaultErrorMessageForStatus
  split <;> rfl

/-- A text that is not empty is one again. -/
theorem nonEmptyText_of_eq_some {value : Option Json} {text : List Char} (h : nonEmptyText value = some text) :
    (nonEmptyText (some (.str text))).isSome = true := by
  unfold nonEmptyText at h
  split at h
  · rw [← Option.some.inj h]
    rfl
  · cases h

/-- An error that is filled up has a code and a message, and the `error` that it had. -/
theorem backfill_spec :
    (nonEmptyText ((backfill members statusCode).lookup "code".toList)).isSome = true ∧
      (nonEmptyText ((backfill members statusCode).lookup "message".toList)).isSome = true ∧
      (backfill members statusCode).lookup "error".toList = members.lookup "error".toList := by
  unfold backfill
  -- The members once the code is there.
  generalize hcoded : (if (nonEmptyText (members.lookup "code".toList)).isSome then members
    else setEntries "code".toList (.str (defaultErrorCodeForStatus statusCode).toList) members) = coded
  have hcode : (nonEmptyText (coded.lookup "code".toList)).isSome = true := by
    rw [← hcoded]
    split_ifs with hhas
    · exact hhas
    · rw [lookup_setEntries, if_pos rfl]
      exact nonEmptyText_default_code
  have herror : coded.lookup "error".toList = members.lookup "error".toList := by
    rw [← hcoded]
    split_ifs with hhas
    · rfl
    · rw [lookup_setEntries, if_neg (by decide)]
  simp only
  split_ifs with hmessage
  · exact ⟨hcode, hmessage, herror⟩
  · rw [lookup_setEntries, lookup_setEntries, lookup_setEntries, if_neg (by decide), if_pos rfl, if_neg (by decide)]
    refine ⟨hcode, ?_, herror⟩
    cases hfallback : nonEmptyText (coded.lookup "error".toList) with
    | none => exact nonEmptyText_default_message
    | some text => exact nonEmptyText_of_eq_some hfallback

/-- No index of an array is a word. -/
theorem lookup_spread_arr (items : List Json) : (spread (.arr items)).lookup "error".toList = none := by
  rw [List.lookup_eq_none_iff]
  intro member hmember
  obtain ⟨item, -, rfl⟩ := List.mem_map.1 hmember
  rw [bne_iff_ne]
  intro heq
  have hdigit : 'e'.isDigit = true :=
    Nat.isDigit_of_mem_toDigits (by decide) (by decide) (heq ▸ (by decide : 'e' ∈ "error".toList))
  exact absurd hdigit (by decide)

/-- The error of an envelope has a code and a message, and the `error` that the payload had. -/
theorem normalizeErrorObject_spec (payload : Json) (statusCode : ℕ) :
    (nonEmptyText ((normalizeErrorObject payload statusCode).field "code")).isSome = true ∧
      (nonEmptyText ((normalizeErrorObject payload statusCode).field "message")).isSome = true ∧
      (normalizeErrorObject payload statusCode).field "error" = payload.field "error" := by
  have hcode := @nonEmptyText_default_code statusCode
  have hmessage := @nonEmptyText_default_message statusCode
  cases payload with
  | null => exact ⟨hcode, hmessage, rfl⟩
  | bool b => exact ⟨hcode, hmessage, rfl⟩
  | num n => exact ⟨hcode, hmessage, rfl⟩
  | str text =>
    cases text with
    | nil => exact ⟨hcode, hmessage, rfl⟩
    | cons c text => exact ⟨hcode, rfl, rfl⟩
  | arr items =>
    obtain ⟨hcode, hmessage, herror⟩ := @backfill_spec statusCode (spread (.arr items))
    exact ⟨hcode, hmessage, herror.trans (lookup_spread_arr items)⟩
  | obj members => exact @backfill_spec statusCode members

theorem isErrorObject_normalizeErrorObject_iff :
    IsErrorObject (normalizeErrorObject payload statusCode) ↔ (payload.field "error").any Json.isObject = false := by
  obtain ⟨hcode, hmessage, herror⟩ := normalizeErrorObject_spec payload statusCode
  unfold IsErrorObject
  rw [herror]
  exact ⟨fun h => h.2.2, fun h => ⟨hcode, hmessage, h⟩⟩

theorem field_eq_none_of_not_isObject {error : Json} {key : String} (h : error.isObject = false) :
    error.field key = none := by
  cases error with
  | obj members => cases h
  | null => rfl
  | bool b => rfl
  | num n => rfl
  | str text => rfl
  | arr items => rfl

/-- The payload has an `error` that is an object exactly when the error in the body has one. -/
theorem errorPayload_field_iff :
    ((errorPayload body).field "error").any Json.isObject = false ↔
      ∀ error, body.field "error" = some error → (error.field "error").any Json.isObject = false := by
  unfold errorPayload
  cases hbody : body.field "error" with
  | none => simp [hbody]
  | some error =>
    simp only [Option.some.injEq, forall_eq']
    cases hobject : error.isObject with
    | true => rw [if_pos rfl]
    | false =>
      rw [if_neg (by simp), hbody, field_eq_none_of_not_isObject hobject]
      simp [hobject]

/-! ## Bodies -/

theorem member_withoutPagination {key : List Char} (h : key ≠ "pagination".toList) :
    (withoutPagination body).member key = body.member key := by
  cases body with
  | obj members => exact lookup_filter_ne h
  | null => rfl
  | bool b => rfl
  | num n => rfl
  | str text => rfl
  | arr items => rfl

/-- What is sent for a body that is no envelope yet. -/
theorem jsonBody_success (h : isAlreadyWrapped body = false) (hstatus : ¬400 ≤ context.statusCode) :
    jsonBody context body = .obj [("success".toList, .bool true), ("data".toList, withoutPagination body),
      ("meta".toList, context.metaObject (body.field "pagination"))] := by
  unfold jsonBody
  rw [if_neg (by rw [h]; decide)]
  exact if_neg hstatus

theorem jsonBody_error (h : isAlreadyWrapped body = false) (hstatus : 400 ≤ context.statusCode) :
    jsonBody context body = .obj [("success".toList, .bool false),
      ("data".toList, ((withoutPagination body).field "data").getD .null),
      ("error".toList, normalizeErrorObject (errorPayload (withoutPagination body)) context.statusCode),
      ("meta".toList, context.metaObject (body.field "pagination"))] := by
  unfold jsonBody
  rw [if_neg (by rw [h]; decide)]
  exact if_pos hstatus

theorem metaObject_pagination (pagination : Option Json) :
    (context.metaObject pagination).field "pagination" = pagination := by
  cases pagination <;> rfl

/-- The fields of what is sent for a body that is no envelope yet. -/
theorem jsonBody_fields (h : isAlreadyWrapped body = false) :
    (jsonBody context body).field "success" = some (.bool (decide (context.statusCode < 400))) ∧
      (jsonBody context body).field "meta" = some (context.metaObject (body.field "pagination")) := by
  by_cases hstatus : 400 ≤ context.statusCode
  · rw [jsonBody_error h hstatus, decide_eq_false (Nat.not_lt.2 hstatus)]
    exact ⟨rfl, rfl⟩
  · rw [jsonBody_success h hstatus, decide_eq_true (Nat.not_le.1 hstatus)]
    exact ⟨rfl, rfl⟩

theorem jsonBody_data (h : isAlreadyWrapped body = false) (hstatus : ¬400 ≤ context.statusCode) :
    (jsonBody context body).field "data" = some (withoutPagination body) := by
  rw [jsonBody_success h hstatus]
  rfl

theorem jsonBody_errorField (h : isAlreadyWrapped body = false) (hstatus : 400 ≤ context.statusCode) :
    (jsonBody context body).field "error" =
      some (normalizeErrorObject (errorPayload (withoutPagination body)) context.statusCode) := by
  rw [jsonBody_error h hstatus]
  rfl

/-- An envelope counts as one. -/
theorem isAlreadyWrapped_jsonBody : isAlreadyWrapped (jsonBody context body) = true := by
  cases h : isAlreadyWrapped body with
  | true =>
    unfold jsonBody
    rw [if_pos h, h]
  | false =>
    by_cases hstatus : 400 ≤ context.statusCode
    · rw [jsonBody_error h hstatus]
      rfl
    · rw [jsonBody_success h hstatus]
      rfl

theorem jsonBody_of_isAlreadyWrapped (h : isAlreadyWrapped body = true) : jsonBody context body = body := if_pos h

/-- Wrapping again changes nothing. -/
theorem jsonBody_jsonBody (again : ResponseContext) :
    jsonBody again (jsonBody context body) = jsonBody context body :=
  jsonBody_of_isAlreadyWrapped isAlreadyWrapped_jsonBody

/-- An envelope that is passed through keeps its fields, if its `pagination` is under `meta` as well. -/
theorem keepsFields_self_iff (h : isAlreadyWrapped body = true) :
    KeepsFields body body ↔ ∀ value, body.field "pagination" = some value →
      (body.field "meta").bind (Json.field "pagination") = some value := by
  refine ⟨fun hkeeps => hkeeps.2.1, fun hpagination => ⟨fun key value _ hvalue => .inr hvalue, hpagination, ?_⟩⟩
  intro hbody
  cases body with
  | obj members => exact absurd rfl (hbody members)
  | null => cases h
  | bool b => cases h
  | num n => cases h
  | str text => cases h
  | arr items => cases h

theorem keepsFields_success (h : isAlreadyWrapped body = false) (hstatus : ¬400 ≤ context.statusCode) :
    KeepsFields body (jsonBody context body) := by
  unfold KeepsFields
  rw [jsonBody_data h hstatus, (jsonBody_fields h).2, Option.bind_some, metaObject_pagination]
  refine ⟨fun key value hkey hvalue => .inl ?_, fun value hvalue => hvalue, fun hbody => ?_⟩
  · exact (member_withoutPagination hkey).trans hvalue
  · cases body with
    | obj members => exact absurd rfl (hbody members)
    | null => rfl
    | bool b => rfl
    | num n => rfl
    | str text => rfl
    | arr items => rfl

/-- What is sent is an envelope of its status exactly when the body fits. -/
theorem jsonBody_isEnvelope_iff (context : ResponseContext) (body : Json) :
    IsEnvelope context.statusCode body (jsonBody context body) ↔ FitsEnvelope context.statusCode body := by
  have hagain : ∀ again : ResponseContext, again.statusCode = context.statusCode →
      jsonBody again (jsonBody context body) = jsonBody context body := fun again _ => jsonBody_jsonBody again
  unfold IsEnvelope FitsEnvelope
  cases h : isAlreadyWrapped body with
  | true =>
    rw [if_pos rfl, jsonBody_of_isAlreadyWrapped h, keepsFields_self_iff h]
    rw [jsonBody_of_isAlreadyWrapped h] at hagain
    exact ⟨fun ⟨hsuccess, herror, hkeeps, _⟩ => ⟨hsuccess, herror, hkeeps⟩,
      fun ⟨hsuccess, herror, hkeeps⟩ => ⟨hsuccess, herror, hkeeps, hagain⟩⟩
  | false =>
    rw [if_neg (by decide)]
    have hsuccess := (@jsonBody_fields context body h).1
    by_cases hstatus : 400 ≤ context.statusCode
    · have herror : (∃ error, (jsonBody context body).field "error" = some error ∧ IsErrorObject error) ↔
          ∀ error, body.field "error" = some error → (error.field "error").any Json.isObject = false := by
        have hbody : (withoutPagination body).field "error" = body.field "error" :=
          member_withoutPagination (by decide)
        rw [jsonBody_errorField h hstatus, ← hbody, ← errorPayload_field_iff,
          ← @isErrorObject_normalizeErrorObject_iff context.statusCode]
        simp only [Option.some.injEq, exists_eq_left']
      rw [forall_prop_of_true hstatus, forall_prop_of_true hstatus, herror]
      exact ⟨fun hall => hall.2.1, fun hall => ⟨hsuccess, hall, fun hlt => absurd hstatus (Nat.not_le.2 hlt), hagain⟩⟩
    · exact iff_of_true ⟨hsuccess, fun hle => absurd hle hstatus, fun _ => keepsFields_success h hstatus, hagain⟩
        fun hle => absurd hle hstatus

/-- The status 200 of a request. -/
def okContext : ResponseContext := ⟨200, some "r1".toList, none, "2025-01-01T00:00:00.000Z".toList, "1.0.0".toList, 3⟩

/-- A body that says itself that it is an error, with a `meta`. -/
def failedBody : Json :=
  .obj [("success".toList, .bool false), ("meta".toList, .obj []), ("pagination".toList, .obj [])]

theorem failedBody_not_isEnvelope : ¬IsEnvelope 200 failedBody (jsonBody okContext failedBody) := by
  rintro ⟨hsuccess, -⟩
  have hsent : (jsonBody okContext failedBody).field "success" = some (.bool false) := rfl
  rw [hsent] at hsuccess
  cases hsuccess

end AlsaqiBackend.Responses
