import AlsaqiBackend.Idempotency.Service
import AlsaqiBackend.Lib.Json

/-!
# The text of a replay

The first response to a request is the JSON text of the handler's body. The record has the text of the body's
redacted copy, and a replay parses that text and sends the value. `redactSensitiveFields` goes through the entries
of every object, of a `Date` too, which has none. `replay_iff` says for which bodies the copy and the replay differ
from the body and from the first text in the sensitive values only.

Both texts are what is handed to `res.json` as the middleware finds it. What an earlier override adds for each
request is the same for the two.
-/

namespace AlsaqiBackend.Idempotency.Replay

open AlsaqiBackend.Lib

/-! ## Bodies -/

/-- A JavaScript value that a handler sends, the members of an object as `Object.entries` lists them. A number
without a text is `NaN` or infinite. -/
inductive JsValue
  | undefined
  | null
  | bool (value : Bool)
  | number (value : Option JsonNumber)
  | string (text : List Char)
  | array (items : List JsValue)
  | object (members : List (List Char × JsValue))
  /-- An object whose `toJSON` returns the value, or `undefined`. -/
  | withToJSON (members : List (List Char × JsValue)) (json : Option Json)
  deriving Repr

/-- A `Date`, with its `toISOString`. -/
def JsValue.date (iso : List Char) : JsValue := .withToJSON [] (some (.str iso))

mutual

/-- `redactSensitiveFields`. -/
def redactSensitiveFields : JsValue → JsValue
  | .array items => .array (redactItems items)
  | .object members => .object (redactMembers members)
  | .withToJSON members _ => .object (redactMembers members)
  | .undefined => .undefined
  | .null => .null
  | .bool value => .bool value
  | .number value => .number value
  | .string text => .string text

def redactItems : List JsValue → List JsValue
  | [] => []
  | item :: items => redactSensitiveFields item :: redactItems items

def redactMembers : List (List Char × JsValue) → List (List Char × JsValue)
  | [] => []
  | (key, value) :: members =>
    if isSensitive (String.ofList key) then (key, .string REDACTED_PLACEHOLDER.toList) :: redactMembers members
    -- The assignment to this name sets the prototype of the copy.
    else if key = "__proto__".toList then redactMembers members
    else (key, redactSensitiveFields value) :: redactMembers members

end

mutual

/-- What `JSON.stringify` writes of a value, or `none` when it writes nothing. -/
def JsValue.toJson : JsValue → Option Json
  | .undefined => none
  | .null => some .null
  | .bool value => some (.bool value)
  | .number (some value) => some (.num value)
  | .number none => some .null
  | .string text => some (.str text)
  | .array items => some (.arr (itemsToJson items))
  | .object members => some (.obj (membersToJson members))
  | .withToJSON _ json => json

def itemsToJson : List JsValue → List Json
  | [] => []
  | item :: items => item.toJson.getD .null :: itemsToJson items

def membersToJson : List (List Char × JsValue) → List (List Char × Json)
  | [] => []
  | (key, value) :: members =>
    match value.toJson with
    | none => membersToJson members
    | some json => (key, json) :: membersToJson members

end

/-- The text that `res.json` sends of a body. -/
def sentText (body : JsValue) : Option (List Char) := body.toJson.map stringify

/-- `response_body` of the record. The column takes no `NULL`, so a body without a text has no record. -/
def storedText (body : JsValue) : Option (List Char) := sentText (redactSensitiveFields body)

/-- The text that a repetition of the request gets. -/
def replayText (body : JsValue) : Option (List Char) :=
  (storedText body).bind fun text => (parse text).map stringify

/-! ## The redaction as it is meant -/

mutual

/-- A JSON value with the values of the sensitive keys replaced. -/
def maskJson : Json → Json
  | .arr items => .arr (maskJsonItems items)
  | .obj members => .obj (maskJsonMembers members)
  | .null => .null
  | .bool value => .bool value
  | .num value => .num value
  | .str text => .str text

def maskJsonItems : List Json → List Json
  | [] => []
  | item :: items => maskJson item :: maskJsonItems items

def maskJsonMembers : List (List Char × Json) → List (List Char × Json)
  | [] => []
  | (key, value) :: members =>
    (key, if isSensitive (String.ofList key) then .str REDACTED_PLACEHOLDER.toList else maskJson value) ::
      maskJsonMembers members

end

/-- A JSON text with the values of the sensitive keys replaced. -/
def maskText (text : List Char) : Option (List Char) := (parse text).map fun json => stringify (maskJson json)

mutual

/-- A value with the values of the sensitive keys replaced, and all else as it was. -/
def mask : JsValue → JsValue
  | .array items => .array (maskItems items)
  | .object members => .object (maskMembers members)
  | .withToJSON members json => .withToJSON (maskMembers members) (json.map maskJson)
  | .undefined => .undefined
  | .null => .null
  | .bool value => .bool value
  | .number value => .number value
  | .string text => .string text

def maskItems : List JsValue → List JsValue
  | [] => []
  | item :: items => mask item :: maskItems items

def maskMembers : List (List Char × JsValue) → List (List Char × JsValue)
  | [] => []
  | (key, value) :: members =>
    (key, if isSensitive (String.ofList key) then .string REDACTED_PLACEHOLDER.toList else mask value) ::
      maskMembers members

end

/-! ## The bodies that are copied faithfully -/

/-- The member is not in the text. -/
def JsValue.isOmitted : JsValue → Bool
  | .undefined => true
  | .withToJSON _ none => true
  | _ => false

mutual

/-- Outside the sensitive values no object has a `toJSON`, and no key is `__proto__`. -/
def JsValue.Plain : JsValue → Prop
  | .array items => PlainItems items
  | .object members => PlainMembers members
  | .withToJSON _ _ => False
  | _ => True

def PlainItems : List JsValue → Prop
  | [] => True
  | item :: items => item.Plain ∧ PlainItems items

def PlainMembers : List (List Char × JsValue) → Prop
  | [] => True
  | (key, value) :: members =>
    (isSensitive (String.ofList key) ∨ (key ≠ "__proto__".toList ∧ value.Plain)) ∧ PlainMembers members

end

mutual

/-- Outside the sensitive values, every sensitive key has a value that is in the text. -/
def JsValue.Present : JsValue → Prop
  | .array items => PresentItems items
  | .object members => PresentMembers members
  | _ => True

def PresentItems : List JsValue → Prop
  | [] => True
  | item :: items => item.Present ∧ PresentItems items

def PresentMembers : List (List Char × JsValue) → Prop
  | [] => True
  | (key, value) :: members =>
    (if isSensitive (String.ofList key) then value.isOmitted = false else value.Present) ∧ PresentMembers members

end

/-- Every sensitive value is replaced, and nothing else differs from the body. -/
structure JsValue.Faithful (body : JsValue) : Prop where
  plain : body.Plain
  present : body.Present

/-! ## The copy -/

theorem length_redactMembers_le : ∀ members : List (List Char × JsValue),
    (redactMembers members).length ≤ (maskMembers members).length
  | [] => le_rfl
  | (key, value) :: members => by
    have ih := length_redactMembers_le members
    simp only [redactMembers, maskMembers, List.length_cons]
    split_ifs
    · simpa using ih
    · omega
    · simpa using ih

mutual

/-- The copy differs from the body in the sensitive values only. -/
theorem redact_eq_mask_iff : ∀ value : JsValue, redactSensitiveFields value = mask value ↔ value.Plain
  | .undefined => by simp [redactSensitiveFields, mask, JsValue.Plain]
  | .null => by simp [redactSensitiveFields, mask, JsValue.Plain]
  | .bool _ => by simp [redactSensitiveFields, mask, JsValue.Plain]
  | .number _ => by simp [redactSensitiveFields, mask, JsValue.Plain]
  | .string _ => by simp [redactSensitiveFields, mask, JsValue.Plain]
  | .array items => by
    simpa [redactSensitiveFields, mask, JsValue.Plain] using redactItems_eq_mask_iff items
  | .object members => by
    simpa [redactSensitiveFields, mask, JsValue.Plain] using redactMembers_eq_mask_iff members
  | .withToJSON _ _ => by simp [redactSensitiveFields, mask, JsValue.Plain]

theorem redactItems_eq_mask_iff : ∀ items : List JsValue, redactItems items = maskItems items ↔ PlainItems items
  | [] => by simp [redactItems, maskItems, PlainItems]
  | item :: items => by
    rw [redactItems, maskItems, PlainItems, List.cons.injEq, redact_eq_mask_iff item, redactItems_eq_mask_iff items]

theorem redactMembers_eq_mask_iff : ∀ members : List (List Char × JsValue),
    redactMembers members = maskMembers members ↔ PlainMembers members
  | [] => by simp [redactMembers, maskMembers, PlainMembers]
  | (key, value) :: members => by
    have ih := redactMembers_eq_mask_iff members
    rw [redactMembers, maskMembers, PlainMembers]
    by_cases hsensitive : isSensitive (String.ofList key) = true
    · simp [hsensitive, ih]
    by_cases hproto : key = "__proto__".toList
    · -- One member less than the body has.
      have hle := length_redactMembers_le members
      rw [if_neg hsensitive, if_pos hproto, if_neg hsensitive]
      constructor
      · intro heq
        have hlen := congrArg List.length heq
        rw [List.length_cons] at hlen
        omega
      · rintro ⟨hhead, -⟩
        exact absurd hproto (hhead.resolve_left hsensitive).1
    · rw [if_neg hsensitive, if_neg hproto, if_neg hsensitive, List.cons.injEq, Prod.mk.injEq, ih,
        redact_eq_mask_iff value]
      constructor
      · rintro ⟨⟨-, hvalue⟩, hrest⟩
        exact ⟨.inr ⟨hproto, hvalue⟩, hrest⟩
      · rintro ⟨hhead, hrest⟩
        exact ⟨⟨rfl, (hhead.resolve_left hsensitive).2⟩, hrest⟩

end

mutual

theorem redact_redact : ∀ value : JsValue,
    redactSensitiveFields (redactSensitiveFields value) = redactSensitiveFields value
  | .undefined | .null | .bool _ | .number _ | .string _ => by simp [redactSensitiveFields]
  | .array items => by simp only [redactSensitiveFields, redactItems_redact items]
  | .object members => by simp only [redactSensitiveFields, redactMembers_redact members]
  | .withToJSON members _ => by simp only [redactSensitiveFields, redactMembers_redact members]

theorem redactItems_redact : ∀ items : List JsValue, redactItems (redactItems items) = redactItems items
  | [] => rfl
  | item :: items => by simp only [redactItems, redact_redact item, redactItems_redact items]

theorem redactMembers_redact : ∀ members : List (List Char × JsValue),
    redactMembers (redactMembers members) = redactMembers members
  | [] => rfl
  | (key, value) :: members => by
    have ih := redactMembers_redact members
    rw [redactMembers]
    split_ifs with hsensitive hproto
    · rw [redactMembers, if_pos hsensitive, ih]
    · exact ih
    · rw [redactMembers, if_neg hsensitive, if_neg hproto, redact_redact value, ih]

end

/-! ## The texts -/

theorem toJson_eq_none_iff (value : JsValue) : value.toJson = none ↔ value.isOmitted = true := by
  cases value with
  | number value => cases value <;> simp [JsValue.toJson, JsValue.isOmitted]
  | withToJSON _ json => cases json <;> simp [JsValue.toJson, JsValue.isOmitted]
  | _ => simp [JsValue.toJson, JsValue.isOmitted]

/-- A member is in the text of the masked value when it is in the text of the value. -/
theorem isOmitted_mask (value : JsValue) : (mask value).isOmitted = value.isOmitted := by
  cases value with
  | withToJSON members json => cases json <;> rfl
  | _ => rfl

theorem length_membersToJson_le : ∀ members : List (List Char × JsValue),
    (maskJsonMembers (membersToJson members)).length ≤ (membersToJson (maskMembers members)).length
  | [] => le_rfl
  | (key, value) :: members => by
    have ih := length_membersToJson_le members
    rw [membersToJson, maskMembers, membersToJson]
    cases hjson : value.toJson with
    | none =>
      refine ih.trans ?_
      split <;> simp
    | some json =>
      have hkept : (mask value).toJson ≠ none := by
        rw [Ne, toJson_eq_none_iff, isOmitted_mask, ← toJson_eq_none_iff, hjson]
        exact Option.some_ne_none json
      obtain ⟨masked, hmasked⟩ := Option.ne_none_iff_exists'.1 hkept
      split_ifs
      · simpa [maskJsonMembers, JsValue.toJson] using ih
      · simpa [maskJsonMembers, hmasked] using ih

mutual

/-- The masked value has the masked JSON when no sensitive value appears in it that the text of the body lacks. -/
theorem toJson_mask_iff : ∀ value : JsValue, (mask value).toJson = value.toJson.map maskJson ↔ value.Present
  | .undefined | .null | .bool _ | .number none | .number (some _) | .string _ | .withToJSON _ _ => by
    simp [mask, JsValue.toJson, maskJson, JsValue.Present]
  | .array items => by
    simpa [mask, JsValue.toJson, maskJson, JsValue.Present] using itemsToJson_mask_iff items
  | .object members => by
    simpa [mask, JsValue.toJson, maskJson, JsValue.Present] using membersToJson_mask_iff members

theorem itemsToJson_mask_iff : ∀ items : List JsValue,
    itemsToJson (maskItems items) = maskJsonItems (itemsToJson items) ↔ PresentItems items
  | [] => by simp [maskItems, itemsToJson, maskJsonItems, PresentItems]
  | item :: items => by
    rw [maskItems, itemsToJson, itemsToJson, maskJsonItems, PresentItems, List.cons.injEq,
      itemsToJson_mask_iff items, ← toJson_mask_iff item]
    refine and_congr_left fun _ => ?_
    have homitted := toJson_eq_none_iff (mask item)
    rw [isOmitted_mask, ← toJson_eq_none_iff] at homitted
    cases hjson : item.toJson with
    | none => simp [homitted.2 hjson, maskJson]
    | some json =>
      obtain ⟨masked, hmasked⟩ := Option.ne_none_iff_exists'.1 (mt homitted.1 (hjson ▸ Option.some_ne_none json))
      simp [hmasked]

theorem membersToJson_mask_iff : ∀ members : List (List Char × JsValue),
    membersToJson (maskMembers members) = maskJsonMembers (membersToJson members) ↔ PresentMembers members
  | [] => by simp [maskMembers, membersToJson, maskJsonMembers, PresentMembers]
  | (key, value) :: members => by
    have ih := membersToJson_mask_iff members
    rw [maskMembers, membersToJson, membersToJson, PresentMembers, ← ih]
    by_cases hsensitive : isSensitive (String.ofList key) = true
    · rw [if_pos hsensitive, if_pos hsensitive, JsValue.toJson, Bool.eq_false_iff, Ne, ← toJson_eq_none_iff]
      cases hjson : value.toJson with
      | none =>
        -- The masked value has a member that the text does not have.
        refine iff_of_false (fun heq => ?_) fun h => h.1 rfl
        have hle := length_membersToJson_le members
        have hlen := congrArg List.length heq
        simp only [List.length_cons] at hlen
        omega
      | some json => simp [maskJsonMembers, hsensitive]
    · rw [if_neg hsensitive, if_neg hsensitive, ← toJson_mask_iff value]
      have homitted := toJson_eq_none_iff (mask value)
      rw [isOmitted_mask, ← toJson_eq_none_iff] at homitted
      cases hjson : value.toJson with
      | none => simp [homitted.2 hjson]
      | some json =>
        obtain ⟨masked, hmasked⟩ := Option.ne_none_iff_exists'.1 (mt homitted.1 (hjson ▸ Option.some_ne_none json))
        simp [hmasked, maskJsonMembers, hsensitive]

end

theorem stringify_injective : Function.Injective stringify := by
  intro left right heq
  have hparse := congrArg parse heq
  rwa [parse_stringify, parse_stringify, Option.some.injEq] at hparse

theorem replayText_eq (body : JsValue) : replayText body = (redactSensitiveFields body).toJson.map stringify := by
  unfold replayText storedText sentText
  cases (redactSensitiveFields body).toJson with
  | none => rfl
  | some json => simp [parse_stringify]

theorem sentText_bind_maskText (body : JsValue) :
    (sentText body).bind maskText = (body.toJson.map maskJson).map stringify := by
  unfold sentText
  cases body.toJson with
  | none => rfl
  | some json => simp [maskText, parse_stringify]

/-! ## The replay -/

/-- The copy is the body with the sensitive values replaced, a copy of the copy is the copy, and the text of a replay
is the first text with the sensitive values replaced: for the bodies that are copied faithfully, and no others. -/
theorem replay_iff (body : JsValue) :
    (redactSensitiveFields body = mask body ∧
        redactSensitiveFields (redactSensitiveFields body) = redactSensitiveFields body ∧
        replayText body = (sentText body).bind maskText) ↔
      body.Faithful := by
  rw [replayText_eq, sentText_bind_maskText, (Option.map_injective stringify_injective).eq_iff]
  constructor
  · rintro ⟨hmask, -, htext⟩
    rw [hmask] at htext
    exact ⟨(redact_eq_mask_iff body).1 hmask, (toJson_mask_iff body).1 htext⟩
  · rintro ⟨hplain, hpresent⟩
    have hmask := (redact_eq_mask_iff body).2 hplain
    refine ⟨hmask, redact_redact body, ?_⟩
    rw [hmask]
    exact (toJson_mask_iff body).2 hpresent

/-- A created record with its time: the first text has the time, the replay an empty object. -/
theorem createdAt_not_faithful :
    let body := JsValue.object [("id".toList, .string "7".toList),
      ("created_at".toList, .date "2026-01-05T08:00:00.000Z".toList)]
    sentText body = some "\x7b\"id\":\"7\",\"created_at\":\"2026-01-05T08:00:00.000Z\"\x7d".toList ∧
      replayText body = some "\x7b\"id\":\"7\",\"created_at\":\x7b\x7d\x7d".toList ∧
      ¬ (redactSensitiveFields body = mask body ∧
        redactSensitiveFields (redactSensitiveFields body) = redactSensitiveFields body ∧
        replayText body = (sentText body).bind maskText) := by
  intro body
  have hsent : sentText body = some "\x7b\"id\":\"7\",\"created_at\":\"2026-01-05T08:00:00.000Z\"\x7d".toList := by
    decide +kernel
  have hreplay : replayText body = some "\x7b\"id\":\"7\",\"created_at\":\x7b\x7d\x7d".toList := by decide +kernel
  refine ⟨hsent, hreplay, fun ⟨_, _, htext⟩ => ?_⟩
  rw [hsent, hreplay] at htext
  exact absurd htext (by decide +kernel)

end AlsaqiBackend.Idempotency.Replay
